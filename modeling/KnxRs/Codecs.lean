import Mathlib.Data.List.Basic

set_option autoImplicit false

/-!
# Lenient codecs

A decoder that ignores what follows its field, beside an encoder that may accept
several forms of one value.
-/
namespace KnxRs.Codecs

variable {α β γ ε κ : Type}

/-- What was encoded as `octets` is read back, whatever follows, as a value that is encoded
    the same: as `v` itself if `v` has the form that the decoder produces. -/
def Recovers (decode : List β → Except ε α) (encode : α → Except ε (List β)) (form : α → κ)
    (v : α) (octets : List β) : Prop :=
  ∃ v', (∀ rest, decode (octets ++ rest) = .ok v') ∧ encode v' = .ok octets ∧
    (form v = form v' → v' = v)

/-- A field of a value: how it is extracted, and the value that holds it in its own form. -/
structure Field (form : α → κ) (extract : α → Except ε γ) (inject : γ → α) : Prop where
  again : ∀ {v x}, extract v = .ok x → extract (inject x) = .ok x
  same : ∀ {v x}, extract v = .ok x → form v = form (inject x) → inject x = v

theorem bind_ok {e : Except ε α} {f : α → Except ε γ} {y : γ} (h : e >>= f = .ok y) :
    ∃ x, e = .ok x ∧ f x = .ok y := by
  cases e with
  | error error => cases h
  | ok x => exact ⟨x, rfl, h⟩

theorem map_ok {e : Except ε α} {f : α → γ} {y : γ} (h : e.map f = .ok y) :
    ∃ x, e = .ok x ∧ f x = y := by
  cases e with
  | error error => cases h
  | ok x => exact ⟨x, rfl, Except.ok.inj h⟩

variable {decode : List β → Except ε α} {encode : α → Except ε (List β)} {form : α → κ}
  {extract : α → Except ε γ} {inject : γ → α} {v : α} {octets : List β}

theorem Recovers.ofField (put : γ → Except ε (List β)) (field : Field form extract inject)
    (splits : ∀ v, encode v = extract v >>= put)
    (reads : ∀ {v x bs}, extract v = .ok x → put x = .ok bs →
      ∀ rest, decode (bs ++ rest) = .ok (inject x))
    (h : encode v = .ok octets) : Recovers decode encode form v octets := by
  rw [splits] at h
  obtain ⟨x, hx, hput⟩ := bind_ok h
  refine ⟨inject x, reads hx hput, ?_, field.same hx⟩
  rw [splits, field.again hx]
  exact hput

theorem Recovers.ofOctets {v' : α} (reads : ∀ rest, decode (octets ++ rest) = .ok v')
    (kept : encode v' = .ok octets) (same : form v = form v' → v' = v) :
    Recovers decode encode form v octets :=
  ⟨v', reads, kept, same⟩

end KnxRs.Codecs
