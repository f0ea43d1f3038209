import KnxRs.Codecs
import KnxRs.Dibs

set_option autoImplicit false

/-!
# Reading description blocks twice

What the checking iterator yields from any octets, when a sequence is accepted, and that
the second reading of an accepted sequence finds the blocks of the first.
-/
namespace KnxRs.Dibs
open ServerDescription Iterators

/-! ## Well-formed blocks -/

/-- The octets of one block: its own length, which is even, in its first octet. -/
structure WellFormed (block : List UInt8) : Prop where
  header : dibHeaderLen ≤ block.length
  even : block.length % 2 = 0
  declared : (block.getD 0 0).toNat = block.length

theorem WellFormed.ne_nil {block : List UInt8} (h : WellFormed block) : block ≠ [] := by
  rintro rfl
  exact absurd h.header (by decide)

theorem WellFormed.declared_append {block : List UInt8} (h : WellFormed block)
    (rest : List UInt8) : ((block ++ rest).getD 0 0).toNat = block.length := by
  rcases block with _ | ⟨octet, block⟩
  · exact absurd rfl h.ne_nil
  · exact h.declared

/-- The octets up to a declared length are a block if the length is in order. -/
theorem wellFormed_take {xs : List UInt8} (hheader : dibHeaderLen ≤ (xs.getD 0 0).toNat)
    (heven : (xs.getD 0 0).toNat % 2 = 0) (hwhole : (xs.getD 0 0).toNat ≤ xs.length) :
    WellFormed (xs.take (xs.getD 0 0).toNat) := by
  have hlen : (xs.take (xs.getD 0 0).toNat).length = (xs.getD 0 0).toNat := by
    rw [List.length_take]
    omega
  refine ⟨Nat.le_trans hheader (Nat.le_of_eq hlen.symm), (congrArg (· % 2) hlen).trans heven, ?_⟩
  rw [hlen]
  rcases xs with _ | ⟨octet, xs⟩
  · rfl
  · have hheader : 2 ≤ octet.toNat := hheader
    obtain ⟨n, hn⟩ := Nat.exists_eq_add_of_le' (Nat.le_trans (by decide) hheader : 1 ≤ octet.toNat)
    show (((octet :: xs).take octet.toNat).getD 0 0).toNat = octet.toNat
    rw [hn, List.take_succ_cons]
    exact hn

/-! ## Calls of the checking iterator -/

variable {block tail : List UInt8}

theorem next_block (h : WellFormed block) (rest : List UInt8) (offset : Nat) :
    DibIterator.next ⟨block ++ rest, offset, false⟩ =
      (some (.ok ⟨block⟩), ⟨rest, offset + block.length, false⟩) := by
  have hlen : (block ++ rest).length = block.length + rest.length := List.length_append
  have hend : ¬(false = true ∨ block ++ rest = []) := by
    rintro (hfalse | hnil)
    · exact Bool.false_ne_true hfalse
    · exact h.ne_nil (List.append_eq_nil_iff.mp hnil).1
  have hshort : ¬(block ++ rest).length < dibHeaderLen := by
    have := h.header
    omega
  have hodd : ¬block.length % 2 ≠ 0 := fun hodd => hodd h.even
  have hlong : ¬block.length > (block ++ rest).length := by omega
  unfold DibIterator.next
  dsimp only
  rw [if_neg hend, if_neg hshort, h.declared_append, if_neg (Nat.not_lt.mpr h.header),
    if_neg hodd, if_neg hlong, List.take_left, List.drop_left]

theorem next_malformed (hne : tail ≠ []) (hno : NoBlock WellFormed tail) (offset : Nat) :
    ∃ error, DibIterator.next ⟨tail, offset, false⟩ =
      (some (.error error), ⟨[], offset, true⟩) ∧ error.offset = some offset := by
  have hend : ¬(false = true ∨ tail = []) := by
    rintro (hfalse | hnil)
    · exact Bool.false_ne_true hfalse
    · exact hne hnil
  unfold DibIterator.next
  dsimp only
  rw [if_neg hend]
  split_ifs with hshort hlow hodd hlong
  · exact ⟨_, rfl, rfl⟩
  · exact ⟨_, rfl, rfl⟩
  · exact ⟨_, rfl, rfl⟩
  · exact ⟨_, rfl, rfl⟩
  · have hblock := wellFormed_take (Nat.le_of_not_lt hlow) (by omega) (Nat.le_of_not_lt hlong)
    exact absurd (List.take_append_drop _ tail).symm (hno _ _ hblock)

abbrev checking (iter : DibIterator) :
    Option (Option (Except DibParseError Dib) × DibIterator) := some iter.next

theorem yields_end (offset : Nat) : Yields checking ⟨[], offset, false⟩ [] :=
  Yields.nil (congrArg some (if_pos (.inr rfl)))

theorem yields_malformed (hne : tail ≠ []) (hno : NoBlock WellFormed tail) (offset : Nat) :
    ∃ error, error.offset = some offset ∧
      DibIterator.next ⟨tail, offset, false⟩ = (some (.error error), ⟨[], offset, true⟩) ∧
      Yields checking ⟨tail, offset, false⟩ [.error error] := by
  obtain ⟨error, hnext, hoffset⟩ := next_malformed hne hno offset
  refine ⟨error, hoffset, hnext, Yields.cons (congrArg some hnext) (Yields.nil ?_)⟩
  exact congrArg some (if_pos (.inl rfl))

/-- The blocks at the front come first, and then what is yielded of the rest. -/
theorem yields_blocks {blocks : List (List UInt8)} {items : List (Except DibParseError Dib)}
    (offset : Nat) (hblocks : ∀ block ∈ blocks, WellFormed block)
    (rest : Yields checking ⟨tail, offset + blocks.flatten.length, false⟩ items) :
    Yields checking ⟨blocks.flatten ++ tail, offset, false⟩
      (blocks.map (fun block => .ok ⟨block⟩) ++ items) := by
  induction blocks generalizing offset with
  | nil => exact rest
  | cons block blocks ih =>
    have hnext := next_block (hblocks block List.mem_cons_self) (blocks.flatten ++ tail) offset
    have htail := ih (offset + block.length)
      (fun b hb => hblocks b (List.mem_cons_of_mem _ hb)) (by
        rw [List.flatten_cons, List.length_append, ← Nat.add_assoc] at rest
        exact rest)
    rw [List.flatten_cons, List.append_assoc]
    exact Yields.cons (congrArg some hnext) htail

theorem after_blocks {blocks : List (List UInt8)} (offset : Nat)
    (hblocks : ∀ block ∈ blocks, WellFormed block) {n : Nat}
    (hn : n ≤ blocks.length) :
    after checking n ⟨blocks.flatten ++ tail, offset, false⟩ =
      some ⟨(blocks.drop n).flatten ++ tail, offset + (blocks.take n).flatten.length, false⟩ := by
  induction n generalizing blocks offset with
  | zero => rfl
  | succ n ih =>
    rcases blocks with _ | ⟨block, blocks⟩
    · exact absurd hn (Nat.not_succ_le_zero n)
    · have hnext := next_block (hblocks block List.mem_cons_self) (blocks.flatten ++ tail) offset
      rw [List.flatten_cons, List.append_assoc, after_succ (congrArg some hnext),
        ih (offset + block.length) (fun b hb => hblocks b (List.mem_cons_of_mem _ hb))
          (Nat.le_of_succ_le_succ hn),
        List.drop_succ_cons, List.take_succ_cons, List.flatten_cons, List.length_append,
        Nat.add_assoc]

/-! ## The types seen -/

theorem typeMask_meets (typeCode typeCode' : UInt8) :
    typeMask typeCode &&& typeMask typeCode' ≠ 0 ↔ typeCode.toNat % 64 = typeCode'.toNat % 64 := by
  have bits : ∀ i j : Fin 64, ((1 : UInt64) <<< UInt64.ofNat i) &&&
      ((1 : UInt64) <<< UInt64.ofNat j) ≠ 0 ↔ i = j := by decide +kernel
  have h := bits ⟨typeCode.toNat % 64, Nat.mod_lt _ (by decide)⟩
    ⟨typeCode'.toNat % 64, Nat.mod_lt _ (by decide)⟩
  rwa [Fin.mk.injEq] at h

theorem and_or_distrib (a b c : UInt64) : (a ||| b) &&& c = (a &&& c) ||| (b &&& c) := by
  apply UInt64.toNat_inj.mp
  simp only [UInt64.toNat_and, UInt64.toNat_or]
  exact Nat.and_or_distrib_right _ _ _

def Seen (seenTypes : SeenTypes) (types : List UInt8) : Prop :=
  ∀ typeCode, seenTypes (typeWord typeCode) &&& typeMask typeCode ≠ 0 ↔ typeCode ∈ types

theorem Seen.none : Seen (fun _ => 0) [] := by
  intro typeCode
  have hzero : (0 : UInt64) &&& typeMask typeCode = 0 := UInt64.zero_and
  exact iff_of_false (fun h => h hzero) List.not_mem_nil

theorem Seen.insert {seenTypes : SeenTypes} {types : List UInt8} (seen : Seen seenTypes types)
    (typeCode : UInt8) : Seen (Function.update seenTypes (typeWord typeCode)
      (seenTypes (typeWord typeCode) ||| typeMask typeCode)) (typeCode :: types) := by
  intro typeCode'
  rw [List.mem_cons, ← seen typeCode', Function.update_apply]
  split_ifs with hword
  · rw [and_or_distrib, ← hword, Ne, UInt64.or_eq_zero_iff, not_and_or, or_comm]
    refine or_congr ?_ Iff.rfl
    refine (typeMask_meets typeCode typeCode').trans ?_
    have hword : typeCode'.toNat / 64 = typeCode.toNat / 64 := congrArg Fin.val hword
    refine ⟨fun h => UInt8.toNat_inj.mp (by omega), fun h => by rw [h]⟩
  · refine (or_iff_right ?_).symm
    rintro rfl
    exact hword rfl

/-! ## What is accepted -/

theorem checkFrom_end (offset : Nat) (seenTypes : SeenTypes) :
    checkFrom ⟨[], offset, false⟩ seenTypes = .ok () := by
  unfold checkFrom
  rfl

theorem checkFrom_malformed {seenTypes : SeenTypes} {iter : DibIterator} {error : DibParseError}
    {offset : Nat} (h : DibIterator.next ⟨tail, offset, false⟩ = (some (.error error), iter)) :
    checkFrom ⟨tail, offset, false⟩ seenTypes = .error error := by
  unfold checkFrom
  split
  · next hnext => cases hnext.symm.trans h
  · next hnext =>
    cases hnext.symm.trans h
    rfl
  · next hnext => cases hnext.symm.trans h

theorem checkFrom_block (h : WellFormed block) (rest : List UInt8) (offset : Nat)
    (seenTypes : SeenTypes) :
    checkFrom ⟨block ++ rest, offset, false⟩ seenTypes =
      if seenTypes (typeWord (block.getD 1 0)) &&& typeMask (block.getD 1 0) ≠ 0 then
        .error (.duplicateDescriptionType (block.getD 1 0))
      else checkFrom ⟨rest, offset + block.length, false⟩
        (Function.update seenTypes (typeWord (block.getD 1 0))
          (seenTypes (typeWord (block.getD 1 0)) ||| typeMask (block.getD 1 0))) := by
  have hnext := next_block h rest offset
  conv => lhs; unfold checkFrom
  split
  · next hnext' => cases hnext'.symm.trans hnext
  · next hnext' => cases hnext'.symm.trans hnext
  · next hnext' =>
    cases hnext'.symm.trans hnext
    rfl

/-- A sequence is accepted if nothing follows its blocks and no type is there twice. -/
theorem checkFrom_ok_iff {blocks : List (List UInt8)} {seenTypes : SeenTypes} {types : List UInt8}
    (offset : Nat) (hblocks : ∀ block ∈ blocks, WellFormed block) (hno : NoBlock WellFormed tail)
    (seen : Seen seenTypes types) :
    checkFrom ⟨blocks.flatten ++ tail, offset, false⟩ seenTypes = .ok () ↔
      tail = [] ∧ (blocks.map (·.getD 1 0)).Nodup ∧
        ∀ block ∈ blocks, block.getD 1 0 ∉ types := by
  induction blocks generalizing offset seenTypes types with
  | nil =>
    show checkFrom ⟨tail, offset, false⟩ seenTypes = .ok () ↔ _
    by_cases hnil : tail = []
    · rw [hnil, checkFrom_end]
      exact iff_of_true rfl ⟨rfl, List.nodup_nil, fun b hb => absurd hb List.not_mem_nil⟩
    · obtain ⟨error, hnext, _⟩ := next_malformed hnil hno offset
      rw [checkFrom_malformed hnext]
      refine iff_of_false (fun h => by cases h) ?_
      exact fun h => hnil h.1
  | cons block blocks ih =>
    have hblock := hblocks block List.mem_cons_self
    have hrest := fun b hb => hblocks b (List.mem_cons_of_mem block hb)
    rw [List.flatten_cons, List.append_assoc, checkFrom_block hblock]
    by_cases hseen : block.getD 1 0 ∈ types
    · rw [if_pos ((seen _).mpr hseen)]
      refine iff_of_false (fun h => by cases h) ?_
      exact fun h => h.2.2 block List.mem_cons_self hseen
    · rw [if_neg (fun h => hseen ((seen _).mp h)), ih _ hrest (seen.insert _), List.map_cons,
        List.nodup_cons]
      constructor
      · rintro ⟨hnil, hnodup, hnew⟩
        refine ⟨hnil, ⟨?_, hnodup⟩, ?_⟩
        · intro hmem
          obtain ⟨b, hb, heq⟩ := List.mem_map.mp hmem
          exact hnew b hb (heq ▸ List.mem_cons_self)
        · intro b hb
          rcases List.mem_cons.mp hb with rfl | hb
          · exact hseen
          · exact fun hmem => hnew b hb (List.mem_cons_of_mem _ hmem)
      · rintro ⟨hnil, ⟨hfirst, hnodup⟩, hnew⟩
        refine ⟨hnil, hnodup, ?_⟩
        intro b hb hmem
        rcases List.mem_cons.mp hmem with heq | hmem
        · exact hfirst (heq ▸ List.mem_map.mpr ⟨b, hb, rfl⟩)
        · exact hnew b (List.mem_cons_of_mem _ hb) hmem

/-! ## The second reading -/

theorem sequence_next (h : WellFormed block) (rest : List UInt8) :
    DibSequenceIterator.next ⟨block ++ rest⟩ = some (some ⟨block⟩, ⟨rest⟩) := by
  have hne : block ++ rest ≠ [] := fun hnil => h.ne_nil (List.append_eq_nil_iff.mp hnil).1
  have hlong : ¬block.length > (block ++ rest).length := by
    rw [List.length_append]
    omega
  unfold DibSequenceIterator.next
  dsimp only
  rw [if_neg hne, h.declared_append, if_neg hlong, List.take_left, List.drop_left]

theorem sequence_yields {blocks : List (List UInt8)}
    (hblocks : ∀ block ∈ blocks, WellFormed block) :
    Yields DibSequenceIterator.next ⟨blocks.flatten⟩ (blocks.map Dib.mk) := by
  induction blocks with
  | nil => exact Yields.nil rfl
  | cons block blocks ih =>
    rw [List.flatten_cons]
    exact Yields.cons (sequence_next (hblocks block List.mem_cons_self) blocks.flatten)
      (ih fun b hb => hblocks b (List.mem_cons_of_mem _ hb))

theorem flatMap_mk (blocks : List (List UInt8)) :
    (blocks.map Dib.mk).flatMap Dib.bytes = blocks.flatten := by
  rw [List.flatMap_map]
  exact List.flatMap_id

/-! ## Every sequence of octets -/

/-- What the checking iterator makes of some octets: the blocks at their front, and an error
for what is left if anything is. -/
structure Read (bytes : List UInt8) (dibs : List Dib) (errors : List DibParseError) : Prop where
  wellFormed : ∀ dib ∈ dibs, WellFormed dib.bytes
  leading : ∃ tail, bytes = dibs.flatMap Dib.bytes ++ tail ∧ NoBlock WellFormed tail ∧
    (tail = [] ↔ errors = [])
  atMostOne : errors.length ≤ 1
  yields : Yields checking (DibIterator.new bytes) (dibs.map .ok ++ errors.map .error)
  offsets : ∀ n ≤ dibs.length, after checking n (DibIterator.new bytes) =
    some ⟨bytes.drop ((dibs.take n).flatMap Dib.bytes).length,
      ((dibs.take n).flatMap Dib.bytes).length, false⟩
  errorOffset : ∀ error ∈ errors, error.offset = some (dibs.flatMap Dib.bytes).length

theorem exists_read (bytes : List UInt8) :
    ∃ (blocks : List (List UInt8)) (errors : List DibParseError),
      (∀ block ∈ blocks, WellFormed block) ∧ Read bytes (blocks.map Dib.mk) errors := by
  obtain ⟨blocks, tail, rfl, hblocks, hno⟩ := exists_blocks (fun _ => WellFormed.ne_nil) bytes
  have hwell : ∀ dib ∈ blocks.map Dib.mk, WellFormed dib.bytes := by
    intro dib hdib
    obtain ⟨block, hblock, rfl⟩ := List.mem_map.mp hdib
    exact hblocks block hblock
  have hoffsets : ∀ n ≤ (blocks.map Dib.mk).length,
      after checking n (DibIterator.new (blocks.flatten ++ tail)) =
        some ⟨(blocks.flatten ++ tail).drop (((blocks.map Dib.mk).take n).flatMap Dib.bytes).length,
          (((blocks.map Dib.mk).take n).flatMap Dib.bytes).length, false⟩ := by
    intro n hn
    rw [List.length_map] at hn
    have hsplit : blocks.flatten ++ tail =
        (blocks.take n).flatten ++ ((blocks.drop n).flatten ++ tail) := by
      rw [← List.append_assoc, ← List.flatten_append, List.take_append_drop]
    rw [← List.map_take, flatMap_mk, hsplit, List.drop_left, ← hsplit]
    refine (after_blocks 0 hblocks hn).trans ?_
    rw [Nat.zero_add]
  have hitems : blocks.map (fun block => Except.ok (Dib.mk block)) =
      (blocks.map Dib.mk).map (.ok : Dib → Except DibParseError Dib) := by
    rw [List.map_map]
    rfl
  by_cases hnil : tail = []
  · refine ⟨blocks, [], hblocks, hwell, ⟨tail, ?_, hno, iff_of_true hnil rfl⟩, by decide, ?_,
      hoffsets, fun error h => absurd h List.not_mem_nil⟩
    · rw [flatMap_mk]
    · have := yields_blocks 0 hblocks (hnil ▸ yields_end _ :
        Yields checking ⟨tail, 0 + blocks.flatten.length, false⟩ [])
      rwa [hitems] at this
  · obtain ⟨error, hoffset, _, hyields⟩ :=
      yields_malformed hnil hno (0 + blocks.flatten.length)
    refine ⟨blocks, [error], hblocks, hwell, ⟨tail, ?_, hno, ?_⟩, Nat.le_refl 1, ?_,
      hoffsets, ?_⟩
    · rw [flatMap_mk]
    · exact iff_of_false hnil (List.cons_ne_nil error [])
    · have := yields_blocks 0 hblocks hyields
      rwa [hitems] at this
    · intro e he
      rw [List.mem_singleton.mp he, hoffset, Nat.zero_add, flatMap_mk]

theorem parse_ok_iff {bytes : List UInt8} {blocks : List (List UInt8)}
    {errors : List DibParseError} (hblocks : ∀ block ∈ blocks, WellFormed block)
    (read : Read bytes (blocks.map Dib.mk) errors) :
    (∃ sequence, DibSequence.parse bytes = .ok sequence) ↔
      errors = [] ∧ ((blocks.map Dib.mk).map Dib.descriptionTypeRaw).Nodup := by
  obtain ⟨tail, hbytes, hno, htail⟩ := read.leading
  rw [flatMap_mk] at hbytes
  have hcheck := checkFrom_ok_iff 0 hblocks hno Seen.none
  rw [← hbytes] at hcheck
  rw [← htail, List.map_map]
  constructor
  · rintro ⟨sequence, h⟩
    obtain ⟨_, hok, _⟩ := Codecs.map_ok h
    obtain ⟨hnil, hnodup, _⟩ := hcheck.mp hok
    exact ⟨hnil, hnodup⟩
  · rintro ⟨hnil, hnodup⟩
    refine ⟨⟨bytes⟩, ?_⟩
    have hok := hcheck.mpr ⟨hnil, hnodup, fun _ _ => List.not_mem_nil⟩
    show (checkFrom (DibIterator.new bytes) fun _ => 0).map _ = _
    rw [DibIterator.new, hok]
    rfl

/-! ## Search request parameters -/

theorem srp_yields (rest : List UInt8) : Yields srpNext rest (SrpSequence.iter rest) := by
  generalize hn : rest.length = n
  induction n using Nat.strongRecOn generalizing rest with
  | ind n ih =>
    unfold SrpSequence.iter
    split_ifs with hnil
    · refine Yields.nil ?_
      unfold srpNext
      rw [if_pos hnil]
    · split
      · next e hsplit =>
        refine Yields.nil ?_
        unfold srpNext
        rw [if_neg hnil, hsplit]
      · next srp tail hsplit =>
        refine Yields.cons ?_ (ih tail.length (hn ▸ splitFirst_tail_lt hsplit) tail rfl)
        unfold srpNext
        rw [if_neg hnil, hsplit]

theorem splitFirst_append {bytes tail : List UInt8} {srp : Srp}
    (h : splitFirst bytes = .ok (srp, tail)) : srp.bytes ++ tail = bytes := by
  unfold splitFirst at h
  dsimp only at h
  split_ifs at h
  cases h
  exact List.take_append_drop _ bytes

theorem srp_concat {rest : List UInt8} (h : SrpSequence.validate rest = .ok ()) :
    (SrpSequence.iter rest).flatMap Srp.bytes = rest := by
  generalize hn : rest.length = n
  induction n using Nat.strongRecOn generalizing rest with
  | ind n ih =>
    unfold SrpSequence.validate at h
    unfold SrpSequence.iter
    split_ifs at h ⊢ with hnil
    · exact hnil.symm
    · split at h
      · cases h
      · next srp tail hsplit =>
        dsimp only at h ⊢
        rw [List.flatMap_cons, ih tail.length (hn ▸ splitFirst_tail_lt hsplit) h rfl]
        exact splitFirst_append hsplit

/-- What the two readings of description blocks make of any octets, and that the parameters of
an accepted search request are the octets of the request. -/
theorem sequences_read (bytes : List UInt8) :
    ((∃ sequence, DibSequence.parse bytes = .ok sequence) ↔
      ∃ dibs : List Dib, Yields checking (DibIterator.new bytes) (dibs.map .ok) ∧
        (dibs.map Dib.descriptionTypeRaw).Nodup) ∧
    (∀ sequence, DibSequence.parse bytes = .ok sequence →
      ∃ dibs : List Dib, Yields checking (DibIterator.new bytes) (dibs.map .ok) ∧
        Yields DibSequenceIterator.next sequence.iter dibs ∧ dibs.flatMap Dib.bytes = bytes) ∧
    (∃ dibs errors, Read bytes dibs errors) ∧
    (SrpSequence.validate bytes = .ok () →
      Yields srpNext bytes (SrpSequence.iter bytes) ∧
        (SrpSequence.iter bytes).flatMap Srp.bytes = bytes) := by
  obtain ⟨blocks, errors, hblocks, read⟩ := exists_read bytes
  have hiff := parse_ok_iff hblocks read
  have hyields := read.yields
  refine ⟨?_, ?_, ⟨_, _, read⟩, fun h => ⟨srp_yields bytes, srp_concat h⟩⟩
  · rw [hiff]
    constructor
    · rintro ⟨rfl, hnodup⟩
      rw [List.map_nil, List.append_nil] at hyields
      exact ⟨_, hyields, hnodup⟩
    · rintro ⟨dibs, hdibs, hnodup⟩
      have hsame := hdibs.unique hyields
      have hnil : errors = [] := by
        rcases errors with _ | ⟨error, errors⟩
        · rfl
        · have hmem : Except.error error ∈ dibs.map (.ok : Dib → Except DibParseError Dib) := by
            rw [hsame]
            exact List.mem_append_right _ List.mem_cons_self
          obtain ⟨dib, _, hdib⟩ := List.mem_map.mp hmem
          cases hdib
      subst hnil
      rw [List.map_nil, List.append_nil] at hsame
      have hdibs : dibs = blocks.map Dib.mk :=
        List.map_injective_iff.mpr (fun _ _ h => Except.ok.inj h) hsame
      exact ⟨rfl, hdibs ▸ hnodup⟩
  · intro sequence h
    obtain ⟨rfl, _⟩ := hiff.mp ⟨sequence, h⟩
    obtain ⟨_, _, rfl⟩ := Codecs.map_ok h
    obtain ⟨tail, hbytes, _, htail⟩ := read.leading
    rw [htail.mpr rfl, List.append_nil] at hbytes
    rw [List.map_nil, List.append_nil] at hyields
    refine ⟨blocks.map Dib.mk, hyields, ?_, hbytes.symm⟩
    show Yields DibSequenceIterator.next ⟨bytes⟩ _
    rw [hbytes, flatMap_mk]
    exact sequence_yields hblocks

end KnxRs.Dibs
