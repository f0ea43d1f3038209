import Mathlib.Algebra.Group.Nat.Defs
import Mathlib.Data.List.Infix
import Mathlib.Data.List.Basic

set_option autoImplicit false

/-!
# Texts

Lists of characters: the first occurrence of a pattern, and decimal numbers as they are
written and parsed.
-/
namespace KnxRs.Texts

abbrev Text := List Char

/-! ## Patterns -/

/-- The text before and after the first occurrence of the pattern. -/
def splitOnce (pat : Text) : Text → Option (Text × Text)
  | [] => if pat = [] then some ([], []) else none
  | c :: cs =>
    if pat.isPrefixOf (c :: cs) then some ([], (c :: cs).drop pat.length)
    else (splitOnce pat cs).map fun (before, rest) => (c :: before, rest)

theorem splitOnce_eq {pat xs before rest : Text} (h : splitOnce pat xs = some (before, rest)) :
    xs = before ++ pat ++ rest := by
  induction xs generalizing before with
  | nil =>
    unfold splitOnce at h
    split_ifs at h with hp
    cases h
    subst hp
    rfl
  | cons c cs ih =>
    unfold splitOnce at h
    split_ifs at h with hp
    · obtain ⟨rfl, rfl⟩ := Prod.mk.inj (Option.some.inj h)
      obtain ⟨rest, hrest⟩ := List.isPrefixOf_iff_prefix.mp hp
      rw [← hrest, List.drop_left]
      rfl
    · obtain ⟨⟨before', rest'⟩, hs, he⟩ := Option.map_eq_some_iff.mp h
      obtain ⟨rfl, rfl⟩ := Prod.mk.inj he
      exact congrArg (List.cons c) (ih hs)

/-- An occurrence found in a text is the first one in every longer text. -/
theorem splitOnce_append {pat xs before rest : Text} (h : splitOnce pat xs = some (before, rest))
    (more : Text) : splitOnce pat (xs ++ more) = some (before, rest ++ more) := by
  induction xs generalizing before with
  | nil =>
    unfold splitOnce at h
    split_ifs at h with hp
    cases h
    subst hp
    cases more <;> rfl
  | cons c cs ih =>
    unfold splitOnce at h
    rw [List.cons_append]
    unfold splitOnce
    split_ifs at h with hp
    · obtain ⟨rfl, rfl⟩ := Prod.mk.inj (Option.some.inj h)
      have hstart := List.isPrefixOf_iff_prefix.mp hp
      have hlonger : pat.isPrefixOf (c :: (cs ++ more)) = true :=
        List.isPrefixOf_iff_prefix.mpr (hstart.trans (List.prefix_append (c :: cs) more))
      rw [if_pos hlonger, ← List.cons_append, List.drop_append_of_le_length hstart.length_le]
    · obtain ⟨⟨before', rest'⟩, hs, he⟩ := Option.map_eq_some_iff.mp h
      obtain ⟨rfl, rfl⟩ := Prod.mk.inj he
      have hlen : pat.length ≤ (c :: cs).length := by
        have := congrArg List.length (splitOnce_eq hs)
        simp only [List.length_append] at this
        simp only [List.length_cons]
        omega
      have hshorter : ¬pat.isPrefixOf (c :: (cs ++ more)) = true := by
        intro hp'
        refine hp (List.isPrefixOf_iff_prefix.mpr ?_)
        exact List.prefix_of_prefix_length_le (List.isPrefixOf_iff_prefix.mp hp')
          (List.prefix_append (c :: cs) more) hlen
      rw [if_neg hshorter, ih hs]
      rfl

theorem splitOnce_skip {c : Char} {pat pre : Text} (h : c ∉ pre) (xs : Text) :
    splitOnce (c :: pat) (pre ++ xs) =
      (splitOnce (c :: pat) xs).map fun (before, rest) => (pre ++ before, rest) := by
  induction pre with
  | nil =>
    rw [List.nil_append]
    cases splitOnce (c :: pat) xs <;> rfl
  | cons d pre ih =>
    obtain ⟨hd, hpre⟩ := not_or.mp (mt List.mem_cons.mpr h)
    have hno : ¬(c :: pat).isPrefixOf (d :: (pre ++ xs)) = true := by
      intro hp
      obtain ⟨rest, hrest⟩ := List.isPrefixOf_iff_prefix.mp hp
      exact hd (List.cons.inj hrest).1
    rw [List.cons_append, splitOnce, if_neg hno, ih hpre, Option.map_map]
    rfl

theorem splitOnce_prefix (pat rest : Text) : splitOnce pat (pat ++ rest) = some ([], rest) := by
  cases h : pat ++ rest with
  | nil =>
    obtain ⟨rfl, rfl⟩ := List.append_eq_nil_iff.mp h
    rfl
  | cons c cs =>
    rw [splitOnce, ← h, if_pos (List.isPrefixOf_iff_prefix.mpr (List.prefix_append pat rest)),
      List.drop_left]

theorem splitOnce_dash {kind : Text} (h : '-' ∉ kind) (rest : Text) :
    splitOnce "-".toList (kind ++ '-' :: rest) = some (kind, rest) := by
  rw [show "-".toList = ['-'] from rfl, splitOnce_skip h,
    show '-' :: rest = ['-'] ++ rest from rfl, splitOnce_prefix, Option.map_some]
  exact congrArg (fun before => some (before, rest)) (List.append_nil kind)

theorem split_unique {c : Char} {a b s t : Text} (ha : c ∉ a) (hb : c ∉ b)
    (h : a ++ c :: s = b ++ c :: t) : a = b ∧ s = t := by
  induction a generalizing b with
  | nil =>
    cases b with
    | nil => exact ⟨rfl, (List.cons.inj h).2⟩
    | cons y b => exact absurd (List.mem_cons.mpr (.inl (List.cons.inj h).1)) hb
  | cons x a ih =>
    obtain ⟨hc, ha⟩ := not_or.mp (mt List.mem_cons.mpr ha)
    cases b with
    | nil => exact absurd (List.cons.inj h).1.symm hc
    | cons y b =>
      obtain ⟨rfl, hrest⟩ := List.cons.inj h
      obtain ⟨rfl, rfl⟩ := ih ha (fun hy => hb (List.mem_cons_of_mem _ hy)) hrest
      exact ⟨rfl, rfl⟩

/-- What nothing has, and any two pieces keep together, the pieces of a list keep together. -/
theorem flatMap_keeps {α β : Type} {P : List β → Prop} (nil : P [])
    (append : ∀ {xs ys}, P xs → P ys → P (xs ++ ys)) {f : α → List β} {xs : List α}
    (h : ∀ x ∈ xs, P (f x)) : P (xs.flatMap f) := by
  induction xs with
  | nil => exact nil
  | cons x xs ih =>
    rw [List.flatMap_cons]
    exact append (h x List.mem_cons_self) (ih fun y hy => h y (List.mem_cons_of_mem x hy))

/-- A property of the characters of a text, by computation. -/
theorem forall_chars {p : Char → Prop} [DecidablePred p] {s : Text}
    (h : s.all (fun c => decide (p c)) = true) : ∀ c ∈ s, p c :=
  fun c hc => of_decide_eq_true (List.all_eq_true.mp h c hc)

/-! ## Decimal numbers -/

/-- `n.to_string()`. -/
def decimal (n : Nat) : Text := Nat.toDigits 10 n

/-- `format!("{n:02}")`. -/
def twoDigits (n : Nat) : Text := if n < 10 then '0' :: decimal n else decimal n

def isNumeral (s : Text) : Bool := s ≠ [] && s.all Char.isDigit

/-- `s.parse().ok()` for an unsigned type of this width. -/
def parseUnsigned (bits : Nat) (s : Text) : Option Nat :=
  let digits := match s with
    | '+' :: rest => rest
    | _ => s
  if isNumeral digits then
    let n := Nat.ofDigitChars 10 digits 0
    if n < 2 ^ bits then some n else none
  else none

def parseU64 (s : Text) : Option Nat := parseUnsigned 64 s

/-- `s.parse().ok()` for a signed type of this width. -/
def parseSigned (bits : Nat) (s : Text) : Option Int :=
  match s with
  | '-' :: digits =>
    if isNumeral digits then
      let n := Nat.ofDigitChars 10 digits 0
      if n ≤ 2 ^ (bits - 1) then some (-n) else none
    else none
  | _ => (parseUnsigned (bits - 1) s).map Int.ofNat

theorem decimal_ne_nil (n : Nat) : decimal n ≠ [] := Nat.toDigits_ne_nil

theorem decimal_isDigit {n : Nat} {c : Char} (h : c ∈ decimal n) : c.isDigit = true :=
  Nat.isDigit_of_mem_toDigits (by decide) (by decide) h

theorem decimal_isNumeral (n : Nat) : isNumeral (decimal n) = true := by
  unfold isNumeral
  rw [Bool.and_eq_true]
  exact ⟨decide_eq_true (decimal_ne_nil n), List.all_eq_true.mpr fun c hc => decimal_isDigit hc⟩

theorem decimal_value (n : Nat) : Nat.ofDigitChars 10 (decimal n) 0 = n :=
  Nat.ofDigitChars_ten_toDigits

theorem decimal_inj {n m : Nat} (h : decimal n = decimal m) : n = m := by
  rw [← decimal_value n, h, decimal_value]

theorem decimal_head (n : Nat) : ∃ c cs, decimal n = c :: cs ∧ c.isDigit = true := by
  cases h : decimal n with
  | nil => exact absurd h (decimal_ne_nil n)
  | cons c cs => exact ⟨c, cs, rfl, decimal_isDigit (h ▸ List.mem_cons_self)⟩

theorem parseUnsigned_decimal (bits n : Nat) :
    parseUnsigned bits (decimal n) = if n < 2 ^ bits then some n else none := by
  obtain ⟨c, cs, hc, hdigit⟩ := decimal_head n
  have hplus : (match decimal n with
    | '+' :: rest => rest
    | _ => decimal n) = decimal n := by
    rw [hc]
    split
    · next rest he =>
      rw [(List.cons.inj he).1] at hdigit
      cases hdigit
    · rfl
  unfold parseUnsigned
  dsimp only
  rw [hplus, if_pos (decimal_isNumeral n), decimal_value]

theorem parseU64_decimal {n : Nat} (h : n < 2 ^ 64) : parseU64 (decimal n) = some n :=
  (parseUnsigned_decimal 64 n).trans (if_pos h)

theorem parseSigned_decimal (bits n : Nat) :
    parseSigned bits (decimal n) = if n < 2 ^ (bits - 1) then some (n : Int) else none := by
  obtain ⟨c, cs, hc, hdigit⟩ := decimal_head n
  unfold parseSigned
  split
  · next digits he =>
    rw [hc] at he
    rw [(List.cons.inj he).1] at hdigit
    cases hdigit
  · rw [parseUnsigned_decimal]
    split_ifs <;> rfl

theorem parseSigned_negative (bits n : Nat) : parseSigned bits ('-' :: decimal n) =
    if n ≤ 2 ^ (bits - 1) then some (-(n : Int)) else none := by
  have hdigits : parseSigned bits ('-' :: decimal n) =
      if isNumeral (decimal n) then
        if Nat.ofDigitChars 10 (decimal n) 0 ≤ 2 ^ (bits - 1) then
          some (-(Nat.ofDigitChars 10 (decimal n) 0 : Int)) else none
      else none := rfl
  rw [hdigits, if_pos (decimal_isNumeral n), decimal_value]

theorem parseU64_lt {s : Text} {n : Nat} (h : parseU64 s = some n) : n < 2 ^ 64 := by
  unfold parseU64 parseUnsigned at h
  dsimp only at h
  split_ifs at h with _ hn
  cases h
  exact hn

theorem twoDigits_isDigit {n : Nat} {c : Char} (h : c ∈ twoDigits n) : c.isDigit = true := by
  unfold twoDigits at h
  split_ifs at h
  · rcases List.mem_cons.mp h with rfl | hc
    · rfl
    · exact decimal_isDigit hc
  · exact decimal_isDigit h

theorem twoDigits_value (n : Nat) : Nat.ofDigitChars 10 (twoDigits n) 0 = n := by
  unfold twoDigits
  split_ifs
  · rw [Nat.ofDigitChars_cons]
    exact decimal_value n
  · exact decimal_value n

theorem twoDigits_inj {n m : Nat} (h : twoDigits n = twoDigits m) : n = m := by
  rw [← twoDigits_value n, h, twoDigits_value]

end KnxRs.Texts
