import KnxRs.XmlDocuments

set_option autoImplicit false

/-!
# Attribute values

What an XML 1.0 processor reports of an attribute value: a line end is one line feed, white
space is a space, and a reference stands for its character.
-/
namespace KnxRs.XmlValues
open Texts XmlDocuments

/-- The production `Char`. -/
def isXmlChar (c : Char) : Bool :=
  let n := c.toNat
  n = 0x09 || n = 0x0A || n = 0x0D || (0x20 ≤ n && n ≤ 0xD7FF) || (0xE000 ≤ n && n ≤ 0xFFFD) ||
    (0x10000 ≤ n && n ≤ 0x10FFFF)

/-- A carriage return, with a line feed after it or not, is one line feed. -/
def lineEndsFrom : (afterReturn : Bool) → Text → Text
  | _, [] => []
  | afterReturn, c :: cs =>
    if c = '\r' then '\n' :: lineEndsFrom true cs
    else if c = '\n' ∧ afterReturn then lineEndsFrom false cs
    else c :: lineEndsFrom false cs

def lineEnds (s : Text) : Text := lineEndsFrom false s

def whiteSpace (c : Char) : Char := if isSpace c then ' ' else c

def digitValue (base : Nat) (c : Char) : Option Nat :=
  let n := if c.isDigit then c.toNat - '0'.toNat else
    if 'a' ≤ c ∧ c ≤ 'f' then c.toNat - 'a'.toNat + 10 else
    if 'A' ≤ c ∧ c ≤ 'F' then c.toNat - 'A'.toNat + 10 else base
  if n < base then some n else none

def numbered (base : Nat) (digits : Text) : Option Char := do
  let values ← digits.mapM (digitValue base)
  let n := values.foldl (fun n d => base * n + d) 0
  if values ≠ [] ∧ n.isValidChar ∧ isXmlChar (Char.ofNat n) then some (Char.ofNat n) else none

/-- The character of a reference, without an entity of its own. -/
def referenced : Text → Option Char
  | '#' :: 'x' :: digits => numbered 16 digits
  | '#' :: digits => numbered 10 digits
  | name =>
    if name = "amp".toList then some '&' else
    if name = "lt".toList then some '<' else
    if name = "gt".toList then some '>' else
    if name = "quot".toList then some '"' else
    if name = "apos".toList then some '\'' else none

/-- The characters of the value, with the reference that is being read. -/
def decodeFrom : (reference : Option Text) → Text → Option Text
  | none, [] => some []
  | some _, [] => none
  | some name, c :: cs =>
    if c = ';' then do
      let char ← referenced name
      let rest ← decodeFrom none cs
      some (char :: rest)
    else decodeFrom (some (name ++ [c])) cs
  | none, c :: cs =>
    if c = '&' then decodeFrom (some []) cs else
    if c = '<' then none else (decodeFrom none cs).map fun rest => whiteSpace c :: rest

def attributeValue (raw : Text) : Option Text := decodeFrom none (lineEnds raw)

/-- What is left of a text as an attribute value. -/
def flattened (s : Text) : Text := (lineEnds s).map whiteSpace

/-! ## Line ends -/

theorem lineEndsFrom_other {c : Char} (hreturn : c ≠ '\r') (hfeed : c ≠ '\n')
    (afterReturn : Bool) (cs : Text) :
    lineEndsFrom afterReturn (c :: cs) = c :: lineEndsFrom false cs := by
  rw [lineEndsFrom, if_neg hreturn, if_neg fun h => hfeed h.1]

theorem lineEndsFrom_append {s : Text} (h : ∀ c ∈ s, c ≠ '\r' ∧ c ≠ '\n') (rest : Text) :
    lineEndsFrom false (s ++ rest) = s ++ lineEndsFrom false rest := by
  induction s with
  | nil => rfl
  | cons c cs ih =>
    obtain ⟨hreturn, hfeed⟩ := h c List.mem_cons_self
    rw [List.cons_append, lineEndsFrom_other hreturn hfeed,
      ih fun d hd => h d (List.mem_cons_of_mem c hd)]
    rfl

/-! ## Reading a value -/

theorem decodeFrom_reference {name : Text} (h : ';' ∉ name) (before cs : Text) :
    decodeFrom (some before) (name ++ ';' :: cs) =
      (referenced (before ++ name)).bind fun char =>
        (decodeFrom none cs).map fun rest => char :: rest := by
  induction name generalizing before with
  | nil =>
    rw [List.nil_append, List.append_nil, decodeFrom, if_pos rfl]
    cases referenced before with
    | none => rfl
    | some char => cases decodeFrom none cs <;> rfl
  | cons c name ih =>
    obtain ⟨hc, hname⟩ := not_or.mp (mt List.mem_cons.mpr h)
    rw [List.cons_append, decodeFrom, if_neg (Ne.symm hc), ih hname, List.append_assoc]
    rfl

theorem decodeFrom_plain {c : Char} (hamp : c ≠ '&') (hlt : c ≠ '<') (cs : Text) :
    decodeFrom none (c :: cs) = (decodeFrom none cs).map fun rest => whiteSpace c :: rest := by
  rw [decodeFrom, if_neg hamp, if_neg hlt]

/-! ## Parts of a value -/

theorem decodeFrom_append {reference : Option Text} {xs value : Text}
    (h : decodeFrom reference xs = some value) (rest : Text) :
    decodeFrom reference (xs ++ rest) = (decodeFrom none rest).map fun more => value ++ more := by
  induction xs generalizing reference value with
  | nil =>
    cases reference with
    | some name => cases h
    | none =>
      cases h
      exact (Option.map_id' ..).symm
  | cons c cs ih =>
    cases reference with
    | some name =>
      rw [List.cons_append, decodeFrom]
      rw [decodeFrom] at h
      split_ifs at h ⊢
      · obtain ⟨char, hchar, h⟩ := Option.bind_eq_some_iff.mp h
        obtain ⟨more, hmore, h⟩ := Option.bind_eq_some_iff.mp h
        cases h
        rw [hchar, ih hmore]
        cases decodeFrom none rest <;> rfl
      · exact ih h
    | none =>
      rw [List.cons_append, decodeFrom]
      rw [decodeFrom] at h
      split_ifs at h ⊢
      · exact ih h
      · obtain ⟨more, hmore, rfl⟩ := Option.map_eq_some_iff.mp h
        rw [ih hmore]
        cases decodeFrom none rest <;> rfl

/-- A character that is read as it is. -/
def isPlain (c : Char) : Bool := !isSpace c && c ≠ '&' && c ≠ '<'

theorem lineEndsFrom_plain {c : Char} (hreturn : c ≠ '\r') (hfeed : c ≠ '\n')
    (afterReturn : Bool) (xs rest : Text) : lineEndsFrom afterReturn (xs ++ c :: rest) =
      lineEndsFrom afterReturn xs ++ c :: lineEnds rest := by
  induction xs generalizing afterReturn with
  | nil =>
    rw [List.nil_append, lineEndsFrom_other hreturn hfeed]
    rfl
  | cons d xs ih =>
    rw [List.cons_append, lineEndsFrom, lineEndsFrom]
    split_ifs
    · rw [ih]
      rfl
    · exact ih _
    · rw [ih]
      rfl

theorem attributeValue_append {c : Char} (hc : isPlain c = true) {xs value : Text}
    (h : attributeValue xs = some value) (rest : Text) : attributeValue (xs ++ c :: rest) =
      (attributeValue rest).map fun more => value ++ c :: more := by
  unfold isPlain at hc
  simp only [Bool.and_eq_true, Bool.not_eq_true', decide_eq_true_eq] at hc
  obtain ⟨⟨hspace, hamp⟩, hlt⟩ := hc
  have hwhite : whiteSpace c = c := if_neg (hspace ▸ Bool.false_ne_true)
  have hreturn : c ≠ '\r' := by
    rintro rfl
    cases hspace
  have hfeed : c ≠ '\n' := by
    rintro rfl
    cases hspace
  unfold attributeValue at h ⊢
  unfold lineEnds at h ⊢
  rw [lineEndsFrom_plain hreturn hfeed, decodeFrom_append h, decodeFrom_plain hamp hlt, hwhite,
    Option.map_map]
  rfl

theorem attributeValue_plainly {s : Text} (hs : ∀ c ∈ s, isPlain c = true) (rest : Text) :
    attributeValue (s ++ rest) = (attributeValue rest).map fun more => s ++ more := by
  induction s with
  | nil => exact (Option.map_id' ..).symm
  | cons c s ih =>
    obtain ⟨hc, hs⟩ := List.forall_mem_cons.mp hs
    have happend : attributeValue ([] ++ c :: (s ++ rest)) = _ :=
      attributeValue_append hc (show attributeValue [] = some [] from rfl) (s ++ rest)
    rw [List.cons_append, ← List.nil_append (c :: (s ++ rest)), happend, ih hs, Option.map_map]
    rfl

/-- What stands after plain text is read on its own. -/
theorem attributeValue_between {xs value s : Text} (h : attributeValue xs = some value)
    (hne : s ≠ []) (hs : ∀ c ∈ s, isPlain c = true) (rest : Text) :
    attributeValue (xs ++ (s ++ rest)) = (attributeValue rest).map fun more =>
      value ++ (s ++ more) := by
  cases s with
  | nil => exact absurd rfl hne
  | cons c s =>
    obtain ⟨hc, hs⟩ := List.forall_mem_cons.mp hs
    rw [List.cons_append, attributeValue_append hc h, attributeValue_plainly hs, Option.map_map]
    rfl

/-! ## Texts that are read as they are -/

def isBreak (c : Char) : Bool := c = '\t' || c = '\n' || c = '\r'

def unbroken (s : Text) : Bool := s.all fun c => !isBreak c

theorem whiteSpace_eq_self {c : Char} : whiteSpace c = c ↔ isBreak c = false := by
  unfold whiteSpace isSpace isBreak
  constructor
  · intro h
    split_ifs at h with hspace
    · subst h
      rfl
    · simp only [Bool.or_eq_true, decide_eq_true_eq, not_or] at hspace
      simp [hspace]
  · intro h
    simp only [Bool.or_eq_false_iff, decide_eq_false_iff_not] at h
    split_ifs with hspace
    · simp only [Bool.or_eq_true, decide_eq_true_eq, h, or_false] at hspace
      exact hspace.symm
    · rfl

theorem whiteSpace_unbroken (c : Char) : isBreak (whiteSpace c) = false := by
  unfold whiteSpace
  split_ifs with h
  · rfl
  · unfold isSpace at h
    unfold isBreak
    simp only [Bool.or_eq_true, decide_eq_true_eq, not_or] at h
    simp [h]

theorem unbroken_iff {s : Text} : unbroken s = true ↔ ∀ c ∈ s, isBreak c = false := by
  unfold unbroken
  rw [List.all_eq_true]
  exact forall₂_congr fun c _ => by rw [Bool.not_eq_true']

theorem lineEnds_unbroken {s : Text} (h : unbroken s = true) : lineEnds s = s := by
  have hends := lineEndsFrom_append (s := s) (fun c hc => ?_) []
  · rw [List.append_nil, show lineEndsFrom false [] = [] from rfl, List.append_nil] at hends
    exact hends
  · have hbreak := unbroken_iff.mp h c hc
    unfold isBreak at hbreak
    simp only [Bool.or_eq_false_iff, decide_eq_false_iff_not] at hbreak
    exact ⟨hbreak.2, hbreak.1.2⟩

theorem map_whiteSpace {s : Text} (h : unbroken s = true) : s.map whiteSpace = s := by
  conv_rhs => rw [← List.map_id s]
  exact List.map_congr_left fun c hc => whiteSpace_eq_self.mpr (unbroken_iff.mp h c hc)

theorem flattened_eq_self {s : Text} : flattened s = s ↔ unbroken s = true := by
  constructor
  · intro h
    rw [unbroken_iff]
    intro c hc
    rw [← h] at hc
    obtain ⟨d, _, rfl⟩ := List.mem_map.mp hc
    exact whiteSpace_unbroken d
  · intro h
    unfold flattened
    rw [lineEnds_unbroken h, map_whiteSpace h]

theorem attributeValue_plain {s : Text} (hamp : '&' ∉ s) (hlt : '<' ∉ s)
    (hbreaks : unbroken s = true) : attributeValue s = some s := by
  have hdecode : decodeFrom none s = some (s.map whiteSpace) := by
    clear hbreaks
    induction s with
    | nil => rfl
    | cons c cs ih =>
      obtain ⟨hc, hcs⟩ := not_or.mp (mt List.mem_cons.mpr hamp)
      obtain ⟨hc', hcs'⟩ := not_or.mp (mt List.mem_cons.mpr hlt)
      rw [decodeFrom_plain (Ne.symm hc) (Ne.symm hc'), ih hcs hcs']
      rfl
  unfold attributeValue
  rw [lineEnds_unbroken hbreaks, hdecode, map_whiteSpace hbreaks]

end KnxRs.XmlValues
