import KnxRs.Texts
import Mathlib.Order.Compare
import Mathlib.Data.List.Lex
import Mathlib.Data.Prod.Lex

set_option autoImplicit false

/-!
# Sort keys

The comparison of `hash.rs` that stands for the collation of .NET: base letters first, then
which letters are upper case. Ordered elements come before all others.
-/
namespace KnxRs.Hash
open Texts

/-! ## Characters -/

/-- The characters with the Unicode property Uppercase, as ranges with a step. -/
def uppercaseRanges : List (Nat × Nat × Nat) := [
  (0x41, 0x5A, 1), (0xC0, 0xD6, 1), (0xD8, 0xDE, 1), (0x100, 0x136, 2), (0x139, 0x147, 2),
  (0x14A, 0x178, 2), (0x179, 0x17D, 2), (0x181, 0x182, 1), (0x184, 0x186, 2), (0x187, 0x189, 2),
  (0x18A, 0x18B, 1), (0x18E, 0x191, 1), (0x193, 0x194, 1), (0x196, 0x198, 1), (0x19C, 0x19D, 1),
  (0x19F, 0x1A0, 1), (0x1A2, 0x1A6, 2), (0x1A7, 0x1A9, 2), (0x1AC, 0x1AE, 2), (0x1AF, 0x1B1, 2),
  (0x1B2, 0x1B3, 1), (0x1B5, 0x1B7, 2), (0x1B8, 0x1B8, 1), (0x1BC, 0x1BC, 1), (0x1C4, 0x1C4, 1),
  (0x1C7, 0x1C7, 1), (0x1CA, 0x1CA, 1), (0x1CD, 0x1DB, 2), (0x1DE, 0x1EE, 2), (0x1F1, 0x1F1, 1),
  (0x1F4, 0x1F6, 2), (0x1F7, 0x1F8, 1), (0x1FA, 0x232, 2), (0x23A, 0x23B, 1), (0x23D, 0x23E, 1),
  (0x241, 0x243, 2), (0x244, 0x246, 1), (0x248, 0x24E, 2), (0x370, 0x372, 2), (0x376, 0x376, 1),
  (0x37F, 0x37F, 1), (0x386, 0x388, 2), (0x389, 0x38A, 1), (0x38C, 0x38E, 2), (0x38F, 0x391, 2),
  (0x392, 0x3A1, 1), (0x3A3, 0x3AB, 1), (0x3CF, 0x3CF, 1), (0x3D2, 0x3D4, 1), (0x3D8, 0x3EE, 2),
  (0x3F4, 0x3F4, 1), (0x3F7, 0x3F9, 2), (0x3FA, 0x3FA, 1), (0x3FD, 0x42F, 1), (0x460, 0x480, 2),
  (0x48A, 0x4C0, 2), (0x4C1, 0x4CD, 2), (0x4D0, 0x52E, 2), (0x531, 0x556, 1), (0x10A0, 0x10C5, 1),
  (0x10C7, 0x10C7, 1), (0x10CD, 0x10CD, 1), (0x13A0, 0x13F5, 1), (0x1C89, 0x1C89, 1),
  (0x1C90, 0x1CBA, 1), (0x1CBD, 0x1CBF, 1), (0x1E00, 0x1E94, 2), (0x1E9E, 0x1EFE, 2),
  (0x1F08, 0x1F0F, 1), (0x1F18, 0x1F1D, 1), (0x1F28, 0x1F2F, 1), (0x1F38, 0x1F3F, 1),
  (0x1F48, 0x1F4D, 1), (0x1F59, 0x1F5F, 2), (0x1F68, 0x1F6F, 1), (0x1FB8, 0x1FBB, 1),
  (0x1FC8, 0x1FCB, 1), (0x1FD8, 0x1FDB, 1), (0x1FE8, 0x1FEC, 1), (0x1FF8, 0x1FFB, 1),
  (0x2102, 0x2102, 1), (0x2107, 0x2107, 1), (0x210B, 0x210D, 1), (0x2110, 0x2112, 1),
  (0x2115, 0x2115, 1), (0x2119, 0x211D, 1), (0x2124, 0x212A, 2), (0x212B, 0x212D, 1),
  (0x2130, 0x2133, 1), (0x213E, 0x213F, 1), (0x2145, 0x2145, 1), (0x2160, 0x216F, 1),
  (0x2183, 0x2183, 1), (0x24B6, 0x24CF, 1), (0x2C00, 0x2C2F, 1), (0x2C60, 0x2C62, 2),
  (0x2C63, 0x2C64, 1), (0x2C67, 0x2C6D, 2), (0x2C6E, 0x2C70, 1), (0x2C72, 0x2C72, 1),
  (0x2C75, 0x2C75, 1), (0x2C7E, 0x2C80, 1), (0x2C82, 0x2CE2, 2), (0x2CEB, 0x2CED, 2),
  (0x2CF2, 0x2CF2, 1), (0xA640, 0xA66C, 2), (0xA680, 0xA69A, 2), (0xA722, 0xA72E, 2),
  (0xA732, 0xA76E, 2), (0xA779, 0xA77D, 2), (0xA77E, 0xA786, 2), (0xA78B, 0xA78D, 2),
  (0xA790, 0xA792, 2), (0xA796, 0xA7AA, 2), (0xA7AB, 0xA7AE, 1), (0xA7B0, 0xA7B4, 1),
  (0xA7B6, 0xA7C4, 2), (0xA7C5, 0xA7C7, 1), (0xA7C9, 0xA7CB, 2), (0xA7CC, 0xA7CC, 1),
  (0xA7D0, 0xA7D0, 1), (0xA7D6, 0xA7DC, 2), (0xA7F5, 0xA7F5, 1), (0xFF21, 0xFF3A, 1),
  (0x10400, 0x10427, 1), (0x104B0, 0x104D3, 1), (0x10570, 0x1057A, 1), (0x1057C, 0x1058A, 1),
  (0x1058C, 0x10592, 1), (0x10594, 0x10595, 1), (0x10C80, 0x10CB2, 1), (0x10D50, 0x10D65, 1),
  (0x118A0, 0x118BF, 1), (0x16E40, 0x16E5F, 1), (0x1D400, 0x1D419, 1), (0x1D434, 0x1D44D, 1),
  (0x1D468, 0x1D481, 1), (0x1D49C, 0x1D49E, 2), (0x1D49F, 0x1D49F, 1), (0x1D4A2, 0x1D4A2, 1),
  (0x1D4A5, 0x1D4A6, 1), (0x1D4A9, 0x1D4AC, 1), (0x1D4AE, 0x1D4B5, 1), (0x1D4D0, 0x1D4E9, 1),
  (0x1D504, 0x1D505, 1), (0x1D507, 0x1D50A, 1), (0x1D50D, 0x1D514, 1), (0x1D516, 0x1D51C, 1),
  (0x1D538, 0x1D539, 1), (0x1D53B, 0x1D53E, 1), (0x1D540, 0x1D544, 1), (0x1D546, 0x1D546, 1),
  (0x1D54A, 0x1D550, 1), (0x1D56C, 0x1D585, 1), (0x1D5A0, 0x1D5B9, 1), (0x1D5D4, 0x1D5ED, 1),
  (0x1D608, 0x1D621, 1), (0x1D63C, 0x1D655, 1), (0x1D670, 0x1D689, 1), (0x1D6A8, 0x1D6C0, 1),
  (0x1D6E2, 0x1D6FA, 1), (0x1D71C, 0x1D734, 1), (0x1D756, 0x1D76E, 1), (0x1D790, 0x1D7A8, 1),
  (0x1D7CA, 0x1D7CA, 1), (0x1E900, 0x1E921, 1), (0x1F130, 0x1F149, 1), (0x1F150, 0x1F169, 1),
  (0x1F170, 0x1F189, 1)]

/-- `char::is_uppercase`. -/
def isUppercase (c : Char) : Bool :=
  uppercaseRanges.any fun (first, last, step) =>
    first ≤ c.toNat && c.toNat ≤ last && (c.toNat - first) % step = 0

def dotnetPrimary : List Nat := [
    0,  0,  0,  0,  0,  0,  0,  0,  0,  0,  0,  0,  0,  0,  0,  0,
    0,  0,  0,  0,  0,  0,  0,  0,  0,  0,  0,  0,  0,  0,  0,  0,
    1,  7, 11, 23, 33, 24, 22, 10, 12, 13, 19, 27,  4,  3,  9, 20,
   34, 35, 36, 37, 38, 39, 40, 41, 42, 43,  6,  5, 28, 29, 30,  8,
   18, 44, 45, 46, 47, 48, 49, 50, 51, 52, 53, 54, 55, 56, 57, 58,
   59, 60, 61, 62, 63, 64, 65, 66, 67, 68, 69, 14, 21, 15, 26,  2,
   25, 44, 45, 46, 47, 48, 49, 50, 51, 52, 53, 54, 55, 56, 57, 58,
   59, 60, 61, 62, 63, 64, 65, 66, 67, 68, 69, 16, 31, 17, 32,  0]

def asciiWeight (c : Char) : Nat := dotnetPrimary.getD c.toNat 0

def baseLetter (c : Char) : Option Char :=
  let within (first last : Char) : Bool := first.toNat ≤ c.toNat && c.toNat ≤ last.toNat
  if within 'à' 'å' || c = 'æ' || within 'À' 'Å' || c = 'Æ' then some 'a'
  else if within 'è' 'ë' || within 'È' 'Ë' then some 'e'
  else if within 'ì' 'ï' || within 'Ì' 'Ï' then some 'i'
  else if within 'ò' 'ö' || within 'Ò' 'Ö' then some 'o'
  else if within 'ù' 'ü' || within 'Ù' 'Ü' then some 'u'
  else if c = 'ñ' || c = 'Ñ' then some 'n'
  else if c = 'ß' then some 's'
  else if c = 'ý' || c = 'ÿ' || c = 'Ý' then some 'y'
  else none

def charPrimaryWeight (c : Char) : Nat :=
  if c.toNat < 0x80 then asciiWeight c
  else match baseLetter c with
    | some base => asciiWeight base
    | none => 0x100 + min (c.toNat % 2 ^ 16) 0xFEFF

/-! ## Keys -/

/-- `Iterator::cmp`. -/
def cmpList : List Nat → List Nat → Ordering
  | [], [] => .eq
  | [], _ :: _ => .lt
  | _ :: _, [] => .gt
  | x :: xs, y :: ys => (compare x y).then (cmpList xs ys)

def cmpInvariant (s t : Text) : Ordering :=
  let primary := cmpList (s.map charPrimaryWeight) (t.map charPrimaryWeight)
  if primary ≠ .eq then primary
  else cmpList (s.map fun c => (isUppercase c).toNat) (t.map fun c => (isUppercase c).toNat)

inductive SortKey where
  | ordered (position : Nat)
  | sorted (key : Text)
  deriving DecidableEq

def SortKey.cmp : SortKey → SortKey → Ordering
  | .ordered m, .ordered n => compare m n
  | .sorted s, .sorted t => cmpInvariant s t
  | .ordered _, .sorted _ => .lt
  | .sorted _, .ordered _ => .gt

/-! ## The order of the keys -/

theorem compares_then {α β : Type} [LinearOrder α] [LinearOrder β] {o o' : Ordering} {x y : α}
    {x' y' : β} (h : o.Compares x y) (h' : o'.Compares x' y') :
    (o.then o').Compares (toLex (x, x')) (toLex (y, y')) := by
  cases o with
  | lt => exact Prod.Lex.toLex_lt_toLex.mpr (.inl h)
  | gt => exact Prod.Lex.toLex_lt_toLex.mpr (.inl h)
  | eq =>
    obtain rfl : x = y := h
    cases o' with
    | lt => exact Prod.Lex.toLex_lt_toLex.mpr (.inr ⟨rfl, h'⟩)
    | gt => exact Prod.Lex.toLex_lt_toLex.mpr (.inr ⟨rfl, h'⟩)
    | eq => exact congrArg (fun z => toLex (x, z)) h'

theorem compares_nat (m n : Nat) : (compare m n).Compares m n := (compare_iff m n).mp rfl

theorem compares_cmpList (xs ys : List Nat) : (cmpList xs ys).Compares xs ys := by
  induction xs generalizing ys with
  | nil =>
    cases ys with
    | nil => rfl
    | cons y ys => exact List.nil_lt_cons y ys
  | cons x xs ih =>
    cases ys with
    | nil => exact List.nil_lt_cons x xs
    | cons y ys =>
      have hhead := compares_nat x y
      have htail := ih ys
      rw [cmpList]
      cases hxy : compare x y with
      | lt =>
        rw [hxy] at hhead
        exact List.cons_lt_cons_iff.mpr (.inl hhead)
      | gt =>
        rw [hxy] at hhead
        exact List.cons_lt_cons_iff.mpr (.inl hhead)
      | eq =>
        rw [hxy] at hhead
        obtain rfl : x = y := hhead
        show (cmpList xs ys).Compares (x :: xs) (x :: ys)
        cases hrest : cmpList xs ys with
        | lt =>
          rw [hrest] at htail
          exact List.cons_lt_cons_iff.mpr (.inr ⟨rfl, htail⟩)
        | gt =>
          rw [hrest] at htail
          exact List.cons_lt_cons_iff.mpr (.inr ⟨rfl, htail⟩)
        | eq =>
          rw [hrest] at htail
          exact congrArg (x :: ·) htail

abbrev Weight := List Nat ×ₗ List Nat

def keyWeight (s : Text) : Weight :=
  toLex (s.map charPrimaryWeight, s.map fun c => (isUppercase c).toNat)

theorem compares_cmpInvariant (s t : Text) :
    (cmpInvariant s t).Compares (keyWeight s) (keyWeight t) := by
  have hthen : cmpInvariant s t =
      (cmpList (s.map charPrimaryWeight) (t.map charPrimaryWeight)).then
        (cmpList (s.map fun c => (isUppercase c).toNat) (t.map fun c => (isUppercase c).toNat)) := by
    unfold cmpInvariant
    cases cmpList (s.map charPrimaryWeight) (t.map charPrimaryWeight) <;> rfl
  rw [hthen]
  exact compares_then (compares_cmpList _ _) (compares_cmpList _ _)

theorem cmpInvariant_swap (s t : Text) : cmpInvariant t s = (cmpInvariant s t).swap :=
  (compares_cmpInvariant t s).inj (compares_cmpInvariant s t).swap

theorem cmpInvariant_trans {s t u : Text} (h : cmpInvariant s t ≠ .gt)
    (h' : cmpInvariant t u ≠ .gt) : cmpInvariant s u ≠ .gt := by
  rw [(compares_cmpInvariant _ _).ne_gt] at h h' ⊢
  exact h.trans h'

/-- Ordered elements are below the others. -/
def SortKey.weight : SortKey → Nat ×ₗ Weight
  | .ordered position => toLex (0, toLex ([position], []))
  | .sorted key => toLex (1, keyWeight key)

theorem compares_sortKey (x y : SortKey) : (x.cmp y).Compares x.weight y.weight := by
  cases x with
  | ordered m =>
    cases y with
    | ordered n =>
      have h := compares_then (compares_nat 0 0)
        (compares_then (compares_cmpList [m] [n]) (compares_cmpList [] []))
      have hsame : (compare 0 0).then ((cmpList [m] [n]).then (cmpList [] [])) = compare m n := by
        show ((compare m n).then .eq).then .eq = compare m n
        cases compare m n <;> rfl
      rwa [hsame] at h
    | sorted t => exact Prod.Lex.toLex_lt_toLex.mpr (.inl Nat.zero_lt_one)
  | sorted s =>
    cases y with
    | ordered n => exact Prod.Lex.toLex_lt_toLex.mpr (.inl Nat.zero_lt_one)
    | sorted t => exact compares_then (compares_nat 1 1) (compares_cmpInvariant s t)

/-! ## Printable keys -/

def isPrintable (c : Char) : Bool := 0x20 ≤ c.toNat && c.toNat ≤ 0x7E

/-- The weight of a printable character, and whether it is upper case. -/
def printableWeight (n : Nat) : Nat × Bool :=
  (dotnetPrimary.getD n 0, 0x41 ≤ n && n ≤ 0x5A)

/-- The printable characters by their weights, letters in lower case. -/
def printableOrder : List Nat := [
  0x00, 0x20, 0x5F, 0x2D, 0x2C, 0x3B, 0x3A, 0x21, 0x3F, 0x2E, 0x27, 0x22, 0x28, 0x29, 0x5B, 0x5D,
  0x7B, 0x7D, 0x40, 0x2A, 0x2F, 0x5C, 0x26, 0x23, 0x25, 0x60, 0x5E, 0x2B, 0x3C, 0x3D, 0x3E, 0x7C,
  0x7E, 0x24, 0x30, 0x31, 0x32, 0x33, 0x34, 0x35, 0x36, 0x37, 0x38, 0x39, 0x61, 0x62, 0x63, 0x64,
  0x65, 0x66, 0x67, 0x68, 0x69, 0x6A, 0x6B, 0x6C, 0x6D, 0x6E, 0x6F, 0x70, 0x71, 0x72, 0x73, 0x74,
  0x75, 0x76, 0x77, 0x78, 0x79, 0x7A]

theorem printable_order : ∀ n : Fin 0x5F, printableOrder.getD (printableWeight (0x20 + n)).1 0 =
    0x20 + n + if (printableWeight (0x20 + n)).2 then 0x20 else 0 := by
  decide +kernel

theorem printableWeight_inj {m n : Fin 0x5F}
    (h : printableWeight (0x20 + m) = printableWeight (0x20 + n)) : m = n := by
  have hm := printable_order m
  have hn := printable_order n
  rw [h] at hm
  exact Fin.ext (by omega)

theorem uppercase_printable : ∀ n : Fin 0x5F, isUppercase (Char.ofNat (0x20 + n)) =
    (0x41 ≤ 0x20 + n.val && 0x20 + n.val ≤ 0x5A) := by
  decide +kernel

theorem isPrintable_range {c : Char} (h : isPrintable c = true) :
    ∃ n : Fin 0x5F, c = Char.ofNat (0x20 + n) ∧ c.toNat = 0x20 + n := by
  unfold isPrintable at h
  rw [Bool.and_eq_true, decide_eq_true_iff, decide_eq_true_iff] at h
  have hnat : 0x20 + (c.toNat - 0x20) = c.toNat := by omega
  refine ⟨⟨c.toNat - 0x20, by omega⟩, ?_, hnat.symm⟩
  show c = Char.ofNat (0x20 + (c.toNat - 0x20))
  rw [hnat, Char.ofNat_toNat]

theorem toNat_injective {p q : Bool} (h : p.toNat = q.toNat) : p = q := by
  cases p <;> cases q <;> first | rfl | cases h

/-- A printable character is known by its weights. -/
theorem printable_unique {c d : Char} (hc : isPrintable c = true) (hd : isPrintable d = true)
    (hweight : charPrimaryWeight c = charPrimaryWeight d)
    (hupper : (isUppercase c).toNat = (isUppercase d).toNat) : c = d := by
  obtain ⟨m, rfl, hm⟩ := isPrintable_range hc
  obtain ⟨n, rfl, hn⟩ := isPrintable_range hd
  unfold charPrimaryWeight asciiWeight at hweight
  rw [hm, hn, if_pos (by omega), if_pos (by omega)] at hweight
  rw [uppercase_printable, uppercase_printable] at hupper
  rw [printableWeight_inj (Prod.ext hweight (toNat_injective hupper))]

theorem cmpInvariant_printable {s t : Text} (hs : ∀ c ∈ s, isPrintable c = true)
    (ht : ∀ c ∈ t, isPrintable c = true) (h : cmpInvariant s t = .eq) : s = t := by
  rw [(compares_cmpInvariant s t).eq_eq] at h
  have hprimary := congrArg (fun w => (ofLex w).1) h
  have hupper := congrArg (fun w => (ofLex w).2) h
  unfold keyWeight at hprimary hupper
  dsimp only [ofLex_toLex] at hprimary hupper
  clear h
  induction s generalizing t with
  | nil =>
    cases t with
    | nil => rfl
    | cons d t => cases hprimary
  | cons c s ih =>
    cases t with
    | nil => cases hprimary
    | cons d t =>
      obtain ⟨hcd, hprimary⟩ := List.cons.inj hprimary
      obtain ⟨hcd', hupper⟩ := List.cons.inj hupper
      obtain ⟨hc, hs⟩ := List.forall_mem_cons.mp hs
      obtain ⟨hd, ht⟩ := List.forall_mem_cons.mp ht
      rw [printable_unique hc hd hcd hcd', ih hs ht hprimary hupper]

end KnxRs.Hash
