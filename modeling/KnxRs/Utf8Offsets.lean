import KnxRs.Texts

set_option autoImplicit false

/-!
# Octet offsets of texts

The octets of a text in UTF-8, slices between octet offsets, which fail inside a character, and
loops that advance an offset octet by octet.
-/
namespace KnxRs.Utf8
open Texts

/-- A slice inside a character or beyond the text; or a loop that has used up the rounds given
to it. -/
inductive Fault where
  | panic
  | unfinished
  deriving DecidableEq

def octets (s : Text) : List UInt8 := s.flatMap String.utf8EncodeChar

def size (s : Text) : Nat := (octets s).length

def octet (c : Char) : UInt8 := UInt8.ofNat c.toNat

/-- The text before and after an offset. -/
def splitAt : Nat → Text → Option (Text × Text)
  | 0, s => some ([], s)
  | _ + 1, [] => none
  | n + 1, c :: cs =>
    if (String.utf8EncodeChar c).length ≤ n + 1 then
      (splitAt (n + 1 - (String.utf8EncodeChar c).length) cs).map fun (before, rest) =>
        (c :: before, rest)
    else none

/-- `&s[i..j]`. -/
def slice (s : Text) (i j : Nat) : Except Fault Text :=
  match splitAt i s with
  | none => .error .panic
  | some (_, rest) =>
    if i ≤ j then (splitAt (j - i) rest).elim (.error .panic) fun found => .ok found.1
    else .error .panic

/-- `s.find(pat)`. -/
def find (pat s : Text) : Option Nat := (splitOnce pat s).map fun (before, _) => size before

/-- `while i < b.len() && p(b[i]) { i += 1; }`. -/
def advance (p : UInt8 → Bool) (b : List UInt8) (i : Nat) : Nat :=
  i + ((b.drop i).takeWhile p).length

/-! ## Octets of characters -/

theorem encode_ascii {c : Char} (h : c.toNat < 0x80) : String.utf8EncodeChar c = [octet c] := by
  have hval : c.val.toNat ≤ 0x7f := Nat.le_of_lt_succ h
  unfold String.utf8EncodeChar
  rw [if_pos hval]
  rfl

/-- A character beyond ASCII begins with an octet from 0xC0 on, and the others are from 0x80
on. -/
theorem encode_other {c : Char} (h : ¬c.toNat < 0x80) : ∃ first more,
    String.utf8EncodeChar c = first :: more ∧ 0xC0 ≤ first.toNat ∧ ∀ b ∈ more, 0x80 ≤ b.toNat := by
  have hval : ¬c.val.toNat ≤ 0x7f := fun hle => h (Nat.lt_succ_of_le hle)
  unfold String.utf8EncodeChar
  simp only [if_neg hval]
  split_ifs
  all_goals
    refine ⟨_, _, rfl, ?_, ?_⟩
    · rw [UInt8.toNat_ofNat']
      omega
    · simp only [List.forall_mem_cons, List.not_mem_nil, false_imp_iff, implies_true, and_true,
        UInt8.toNat_ofNat']
      omega

theorem encode_pos (c : Char) : 0 < (String.utf8EncodeChar c).length :=
  List.length_pos_iff.mpr String.utf8EncodeChar_ne_nil

theorem octet_toNat {c : Char} (h : c.toNat < 0x80) : (octet c).toNat = c.toNat := by
  unfold octet
  rw [UInt8.toNat_ofNat']
  omega

theorem octet_inj {c d : Char} (hc : c.toNat < 0x80) (hd : d.toNat < 0x80) :
    octet c = octet d ↔ c = d := by
  refine ⟨fun h => ?_, fun h => h ▸ rfl⟩
  have hval : c.toNat = d.toNat := by rw [← octet_toNat hc, ← octet_toNat hd, h]
  exact Char.toNat_inj.mp hval

theorem encode_head {c d : Char} (hd : d.toNat < 0x80) :
    (String.utf8EncodeChar c).head? = some (octet d) ↔ c = d := by
  by_cases hc : c.toNat < 0x80
  · rw [encode_ascii hc, List.head?_cons, Option.some.injEq, octet_inj hc hd]
  · obtain ⟨first, more, hencode, hfirst, _⟩ := encode_other hc
    rw [hencode, List.head?_cons, Option.some.injEq]
    refine iff_of_false (fun h => ?_) fun h => hc (h ▸ hd)
    rw [h, octet_toNat hd] at hfirst
    omega

theorem encode_high {c : Char} (h : ¬c.toNat < 0x80) :
    ∀ b ∈ String.utf8EncodeChar c, 0x80 ≤ b.toNat := by
  obtain ⟨first, more, hencode, hfirst, hmore⟩ := encode_other h
  rw [hencode, List.forall_mem_cons]
  exact ⟨by omega, hmore⟩

theorem mem_encode {c d : Char} (hd : d.toNat < 0x80) :
    octet d ∈ String.utf8EncodeChar c ↔ c = d := by
  constructor
  · intro h
    by_cases hc : c.toNat < 0x80
    · rw [encode_ascii hc, List.mem_singleton] at h
      exact ((octet_inj hd hc).mp h).symm
    · have hhigh := encode_high hc _ h
      rw [octet_toNat hd] at hhigh
      omega
  · rintro rfl
    rw [encode_ascii hd]
    exact List.mem_cons_self

/-! ## Sizes -/

theorem octets_cons (c : Char) (cs : Text) :
    octets (c :: cs) = String.utf8EncodeChar c ++ octets cs := List.flatMap_cons

theorem octets_append (x y : Text) : octets (x ++ y) = octets x ++ octets y := List.flatMap_append

theorem size_nil : size [] = 0 := rfl

theorem size_cons (c : Char) (cs : Text) :
    size (c :: cs) = (String.utf8EncodeChar c).length + size cs := by
  unfold size
  rw [octets_cons, List.length_append]

theorem size_append (x y : Text) : size (x ++ y) = size x + size y := by
  unfold size
  rw [octets_append, List.length_append]

theorem size_ascii {c : Char} (h : c.toNat < 0x80) (cs : Text) : size (c :: cs) = size cs + 1 := by
  rw [size_cons, encode_ascii h, List.length_singleton, Nat.add_comm]

theorem size_pos {s : Text} (h : s ≠ []) : 0 < size s := by
  cases s with
  | nil => exact absurd rfl h
  | cons c cs =>
    have := encode_pos c
    rw [size_cons]
    omega

/-! ## Slices -/

theorem splitAt_zero (s : Text) : splitAt 0 s = some ([], s) := by cases s <;> rfl

theorem splitAt_cons {c : Char} {n : Nat} (h : 0 < n) (cs : Text) : splitAt n (c :: cs) =
    if (String.utf8EncodeChar c).length ≤ n then
      (splitAt (n - (String.utf8EncodeChar c).length) cs).map fun (before, rest) =>
        (c :: before, rest)
    else none := by
  cases n with
  | zero => exact absurd h (Nat.lt_irrefl 0)
  | succ n => rfl

theorem splitAt_append (x y : Text) : splitAt (size x) (x ++ y) = some (x, y) := by
  induction x with
  | nil => exact splitAt_zero y
  | cons c cs ih =>
    have hlen := encode_pos c
    rw [List.cons_append, size_cons, splitAt_cons (by omega), if_pos (Nat.le_add_right _ _),
      Nat.add_sub_cancel_left, ih]
    rfl

theorem splitAt_inside {c : Char} {k : Nat} (hpos : 0 < k)
    (hlen : k < (String.utf8EncodeChar c).length) (x y : Text) :
    splitAt (size x + k) (x ++ c :: y) = none := by
  induction x with
  | nil => rw [List.nil_append, size_nil, Nat.zero_add, splitAt_cons hpos, if_neg (by omega)]
  | cons d ds ih =>
    have hd := encode_pos d
    rw [List.cons_append, size_cons, splitAt_cons (by omega), if_pos (by omega), Nat.add_assoc,
      Nat.add_sub_cancel_left, ih]
    rfl

theorem slice_append (x y z : Text) :
    slice (x ++ (y ++ z)) (size x) (size x + size y) = .ok y := by
  unfold slice
  rw [splitAt_append]
  dsimp only
  rw [if_pos (Nat.le_add_right _ _), Nat.add_sub_cancel_left, splitAt_append]
  rfl

theorem slice_rest (x y : Text) : slice (x ++ y) (size x) (size (x ++ y)) = .ok y := by
  have h := slice_append x y []
  rwa [List.append_nil, ← size_append] at h

theorem slice_from_inside {c : Char} {k : Nat} (hpos : 0 < k)
    (hlen : k < (String.utf8EncodeChar c).length) (x y : Text) (j : Nat) :
    slice (x ++ c :: y) (size x + k) j = .error .panic := by
  unfold slice
  rw [splitAt_inside hpos hlen]

theorem slice_to_inside {c : Char} {k : Nat} (hpos : 0 < k)
    (hlen : k < (String.utf8EncodeChar c).length) (x y z : Text) :
    slice (x ++ (y ++ c :: z)) (size x) (size x + (size y + k)) = .error .panic := by
  unfold slice
  rw [splitAt_append]
  dsimp only
  rw [if_pos (Nat.le_add_right _ _), Nat.add_sub_cancel_left, splitAt_inside hpos hlen]
  rfl

/-! ## Loops over octets -/

theorem octets_drop (x y : Text) : (octets (x ++ y)).drop (size x) = octets y := by
  rw [octets_append]
  exact List.drop_left

theorem octets_get (x y : Text) (k : Nat) : (octets (x ++ y))[size x + k]? = (octets y)[k]? := by
  have hle : (octets x).length ≤ size x + k := Nat.le_add_right _ _
  rw [octets_append, List.getElem?_append_right hle]
  exact congrArg (fun i => (octets y)[i]?) (Nat.add_sub_cancel_left _ _)

theorem octets_head (x y : Text) : (octets (x ++ y))[size x]? = (octets y).head? := by
  have h := octets_get x y 0
  rw [Nat.add_zero] at h
  rw [h, List.head?_eq_getElem?]

theorem octets_end (x : Text) : (octets x)[size x]? = none :=
  List.getElem?_eq_none (Nat.le_refl _)

theorem head_octets {d : Char} (hd : d.toNat < 0x80) (y : Text) :
    (octets y).head? = some (octet d) ↔ y.head? = some d := by
  cases y with
  | nil => exact iff_of_false (fun h => by cases h) fun h => by cases h
  | cons c cs =>
    rw [octets_cons, List.head?_append_of_ne_nil _ String.utf8EncodeChar_ne_nil, encode_head hd,
      List.head?_cons, Option.some.injEq]

theorem advance_append (p : UInt8 → Bool) (x y : Text) :
    advance p (octets (x ++ y)) (size x) = size x + ((octets y).takeWhile p).length := by
  unfold advance
  rw [octets_drop]

theorem takeWhile_octets {p : UInt8 → Bool} {P : Char → Bool}
    (hall : ∀ c, P c = true → ∀ b ∈ String.utf8EncodeChar c, p b = true)
    (hhead : ∀ c, P c = false → ∀ b, (String.utf8EncodeChar c).head? = some b → p b = false)
    (y : Text) : (octets y).takeWhile p = octets (y.takeWhile P) := by
  induction y with
  | nil => rfl
  | cons c cs ih =>
    rw [octets_cons]
    cases hc : P c with
    | true => rw [List.takeWhile_append_of_pos (hall c hc), ih, List.takeWhile_cons_of_pos hc,
        octets_cons]
    | false =>
      obtain ⟨b, more, hencode⟩ := List.exists_cons_of_ne_nil (@String.utf8EncodeChar_ne_nil c)
      have hb := hhead c hc b (by rw [hencode]; rfl)
      rw [hencode, List.cons_append, List.takeWhile_cons_of_neg (by rw [hb]; decide),
        List.takeWhile_cons_of_neg (by rw [hc]; decide)]
      rfl

theorem advance_octets {p : UInt8 → Bool} {P : Char → Bool}
    (hall : ∀ c, P c = true → ∀ b ∈ String.utf8EncodeChar c, p b = true)
    (hhead : ∀ c, P c = false → ∀ b, (String.utf8EncodeChar c).head? = some b → p b = false)
    (x y : Text) : advance p (octets (x ++ y)) (size x) = size (x ++ y.takeWhile P) := by
  rw [advance_append, takeWhile_octets hall hhead, size_append]
  rfl

/-- A loop that goes on by one octet passes over a character all of whose octets it skips. -/
theorem loop_pass {β : Type} {loop : (rounds i : Nat) → β} {skip : UInt8 → Prop} {c : Char}
    {x y : Text}
    (hskip : ∀ rounds i b, (octets (x ++ c :: y))[i]? = some b → skip b →
      loop (rounds + 1) i = loop rounds (i + 1))
    (h : ∀ b ∈ String.utf8EncodeChar c, skip b) (rounds : Nat) :
    loop ((String.utf8EncodeChar c).length + rounds) (size x) =
      loop rounds (size (x ++ [c])) := by
  have hrun (bs : List UInt8) : ∀ i more, (∀ b ∈ bs, skip b) →
      (octets (x ++ c :: y)).drop i = bs ++ more →
      loop (bs.length + rounds) i = loop rounds (i + bs.length) := by
    induction bs with
    | nil =>
      intro i more _ _
      rw [List.length_nil, Nat.zero_add, Nat.add_zero]
    | cons b bs ih =>
      intro i more hbs hdrop
      obtain ⟨hb, hbs⟩ := List.forall_mem_cons.mp hbs
      have hget : (octets (x ++ c :: y))[i]? = some b := by
        have hfirst := congrArg (fun l => l[0]?) hdrop
        rwa [List.getElem?_drop, Nat.add_zero, List.cons_append, List.getElem?_cons_zero] at hfirst
      have hnext : (octets (x ++ c :: y)).drop (i + 1) = bs ++ more := by
        rw [← List.drop_drop, hdrop]
        rfl
      rw [List.length_cons, Nat.add_right_comm, hskip _ i b hget hb, ih (i + 1) more hbs hnext,
        Nat.add_assoc i, Nat.add_comm 1]
  rw [hrun _ (size x) (octets y) h (by rw [octets_drop, octets_cons]), size_append, size_cons]
  rfl

end KnxRs.Utf8
