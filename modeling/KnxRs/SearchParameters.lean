import KnxRs.DibSequences
import KnxRs.ServerDescription

set_option autoImplicit false

/-!
# Extended searches

What the parameters of an extended search decide: each one alone, in whatever order
and however often they come.
-/
namespace KnxRs.ServerDescription
open CoreTypes KnxIpCodec KnxIpNetwork

/-! ## Well-formed parameters -/

/-- The structure length is the size, header included. -/
structure Srp.WellFormed (srp : Srp) : Prop where
  header : srpHeaderLen ≤ srp.bytes.length
  length : (srp.bytes.getD 0 0).toNat = srp.bytes.length

theorem splitFirst_wellFormed {srp : Srp} (h : srp.WellFormed) (rest : List UInt8) :
    splitFirst (srp.bytes ++ rest) = .ok (srp, rest) := by
  have hpos : 0 < srp.bytes.length := Nat.lt_of_lt_of_le (by decide) h.header
  have hfirst : (srp.bytes ++ rest).getD 0 0 = srp.bytes.getD 0 0 := by
    rw [List.getD_eq_getElem?_getD, List.getD_eq_getElem?_getD, List.getElem?_append_left hpos]
  have hheader := h.header
  unfold splitFirst
  dsimp only
  rw [hfirst, h.length, List.length_append, if_neg (by omega), if_neg (by omega),
    if_neg (by omega), List.take_left, List.drop_left]

theorem wellFormed_of_splitFirst {bytes tail : List UInt8} {srp : Srp}
    (h : splitFirst bytes = .ok (srp, tail)) : srp.WellFormed := by
  unfold splitFirst at h
  dsimp only at h
  split_ifs at h with hshort hbelow hexceeds
  cases h
  have hlen : (bytes.take (bytes.getD 0 0).toNat).length = (bytes.getD 0 0).toNat := by
    rw [List.length_take]
    omega
  refine ⟨by dsimp only; omega, ?_⟩
  dsimp only
  rw [hlen]
  cases bytes with
  | nil => exact absurd hshort (by decide)
  | cons first rest =>
    rw [List.getD_cons_zero] at hbelow ⊢
    cases hfirst : first.toNat with
    | zero =>
      rw [hfirst] at hbelow
      exact absurd hbelow (by decide)
    | succ n =>
      rw [List.take_succ_cons, List.getD_cons_zero, hfirst]

theorem iter_wellFormed (srps : List UInt8) :
    ∀ srp ∈ SrpSequence.iter srps, srp.WellFormed := by
  generalize hn : srps.length = n
  induction n using Nat.strongRecOn generalizing srps with
  | ind n ih =>
    intro srp hmem
    unfold SrpSequence.iter at hmem
    split_ifs at hmem with hnil
    · cases hmem
    · split at hmem
      · cases hmem
      · next first tail hsplit =>
        rcases List.mem_cons.mp hmem with rfl | hmem
        · exact wellFormed_of_splitFirst hsplit
        · exact ih tail.length (hn ▸ splitFirst_tail_lt hsplit) tail rfl srp hmem

variable {srp : Srp}

theorem Srp.WellFormed.append_ne_nil (h : srp.WellFormed) (rest : List UInt8) :
    srp.bytes ++ rest ≠ [] := by
  have hheader := h.header
  intro hnil
  have := congrArg List.length hnil
  rw [List.length_append, List.length_nil] at this
  unfold srpHeaderLen at hheader
  omega

theorem validate_append (h : srp.WellFormed) (rest : List UInt8) :
    SrpSequence.validate (srp.bytes ++ rest) = SrpSequence.validate rest := by
  rw [SrpSequence.validate, if_neg (h.append_ne_nil rest)]
  split
  · next e hsplit =>
    rw [splitFirst_wellFormed h] at hsplit
    cases hsplit
  · next first tail hsplit =>
    rw [splitFirst_wellFormed h] at hsplit
    cases hsplit
    rfl

theorem iter_append (h : srp.WellFormed) (rest : List UInt8) :
    SrpSequence.iter (srp.bytes ++ rest) = srp :: SrpSequence.iter rest := by
  rw [SrpSequence.iter, if_neg (h.append_ne_nil rest)]
  split
  · next e hsplit =>
    rw [splitFirst_wellFormed h] at hsplit
    cases hsplit
  · next first tail hsplit =>
    rw [splitFirst_wellFormed h] at hsplit
    cases hsplit
    rfl

/-! ## The answer -/

namespace DeviceDescription
variable (description : DeviceDescription) (routing : Bool)

/-- The parameter does not keep the server from answering. -/
def passes (srp : Srp) : Bool :=
  ¬(description.satisfies routing srp ≠ some true ∧ srp.isMandatory)

variable {description routing}

theorem passes_iff : description.passes routing srp = true ↔
    (srp.isMandatory = true → description.satisfies routing srp = some true) := by
  unfold passes
  rw [decide_eq_true_eq, not_and_or, not_not]
  constructor
  · rintro (h | h) hmandatory
    · exact h
    · exact absurd hmandatory h
  · intro h
    by_cases hmandatory : srp.isMandatory = true
    · exact .inl (h hmandatory)
    · exact .inr hmandatory

theorem answers_append (h : srp.WellFormed) (rest : List UInt8) :
    description.answersExtendedSearch routing (srp.bytes ++ rest) =
      (description.passes routing srp && description.answersExtendedSearch routing rest) := by
  unfold answersExtendedSearch
  rw [validate_append h, iter_append h]
  cases SrpSequence.validate rest with
  | error e => exact (Bool.and_false _).symm
  | ok u => exact List.all_cons

theorem answers_flatMap {srps : List Srp} (h : ∀ srp ∈ srps, srp.WellFormed)
    (rest : List UInt8) :
    description.answersExtendedSearch routing (srps.flatMap Srp.bytes ++ rest) =
      (srps.all (description.passes routing) &&
        description.answersExtendedSearch routing rest) := by
  induction srps with
  | nil => rfl
  | cons srp srps ih =>
    rw [List.flatMap_cons, List.append_assoc, answers_append (h srp List.mem_cons_self),
      ih (fun other hmem => h other (List.mem_cons_of_mem srp hmem)), List.all_cons,
      Bool.and_assoc]

theorem answers_iff (srps : List UInt8) :
    description.answersExtendedSearch routing srps = true ↔
      SrpSequence.validate srps = .ok () ∧ ∀ srp ∈ SrpSequence.iter srps,
        srp.isMandatory = true → description.satisfies routing srp = some true := by
  unfold answersExtendedSearch
  cases SrpSequence.validate srps with
  | error e => exact iff_of_false Bool.false_ne_true fun h => by cases h.1
  | ok u =>
    dsimp only
    rw [List.all_eq_true]
    refine ⟨fun h => ⟨rfl, fun srp hmem => passes_iff.mp (h srp hmem)⟩, fun h srp hmem => ?_⟩
    exact passes_iff.mpr (h.2 srp hmem)

theorem answers_perm {xs ys : List Srp} (h : ∀ srp ∈ xs, srp.WellFormed) (hperm : xs.Perm ys)
    (rest : List UInt8) :
    description.answersExtendedSearch routing (xs.flatMap Srp.bytes ++ rest) =
      description.answersExtendedSearch routing (ys.flatMap Srp.bytes ++ rest) := by
  rw [answers_flatMap h, answers_flatMap (fun srp hmem => h srp (hperm.mem_iff.mpr hmem)),
    hperm.all_eq]

theorem answers_insert {xs : List Srp} (h : ∀ srp ∈ xs, srp.WellFormed) (hsrp : srp.WellFormed)
    (hpasses : description.passes routing srp = true) (rest : List UInt8) :
    description.answersExtendedSearch routing (xs.flatMap Srp.bytes ++ (srp.bytes ++ rest)) =
      description.answersExtendedSearch routing (xs.flatMap Srp.bytes ++ rest) := by
  rw [answers_flatMap h, answers_flatMap h, answers_append hsrp, hpasses, Bool.true_and]

end DeviceDescription

/-! ## The request -/

variable (env : Env) (description : DeviceDescription) (routing : Bool) (src : SocketAddr)

def extendedSearch (endpoint srps : List UInt8) : KnxIpFrame :=
  ⟨.searchRequestExtended, endpoint ++ srps⟩

def extendedAnswer (endpoint : List UInt8) : List Datagram :=
  match replyEndpoint endpoint src with
  | some replyTo =>
    env.send (.searchResponseExtended (controlEndpoint env src) (description.dibs routing)) replyTo
  | none => []

variable {endpoint : List UInt8}

theorem hpai_parse_append (h : endpoint.length = Hpai.len) (rest : List UInt8) :
    Hpai.parse (endpoint ++ rest) = Hpai.parse endpoint := by
  have hget : ∀ i < 8, (endpoint ++ rest).getD i 0 = endpoint.getD i 0 := by
    intro i hi
    rw [List.getD_eq_getElem?_getD, List.getD_eq_getElem?_getD,
      List.getElem?_append_left (h.symm ▸ hi)]
  unfold Hpai.parse
  rw [hget 0 (by decide), hget 1 (by decide), hget 2 (by decide), hget 3 (by decide),
    hget 4 (by decide), hget 5 (by decide), hget 6 (by decide), hget 7 (by decide),
    List.length_append, h]
  congr 1
  exact propext (or_congr_left (iff_of_false (by omega) (by omega)))

/-- The parameters decide whether there is an answer, the endpoint what it is. -/
theorem handleSearchExtended_eq (h : endpoint.length = Hpai.len) (srps : List UInt8) :
    handleSearchExtended env (some description) routing src (extendedSearch endpoint srps) =
      if description.answersExtendedSearch routing srps then
        extendedAnswer env description routing src endpoint
      else [] := by
  have hreply : replyEndpoint (endpoint ++ srps) src = replyEndpoint endpoint src := by
    unfold replyEndpoint
    rw [hpai_parse_append h]
  have hdrop : (endpoint ++ srps).drop Hpai.len = srps := List.drop_left' h
  unfold handleSearchExtended extendedAnswer extendedSearch
  dsimp only
  rw [hreply, hdrop]
  cases replyEndpoint endpoint src with
  | none => exact (ite_self _).symm
  | some replyTo => rfl

/-- An extended search is answered exactly where its parameters parse and every mandatory one
    is satisfied; so the answer does not depend on the order of the parameters, on repetitions
    of satisfied ones, or on any that are not mandatory. -/
theorem extended_search_answered (h : endpoint.length = Hpai.len) :
    let reply := fun srps =>
      handleSearchExtended env (some description) routing src (extendedSearch endpoint srps)
    (∀ srps, (SrpSequence.validate srps = .ok () ∧ ∀ srp ∈ SrpSequence.iter srps,
          srp.isMandatory = true → description.satisfies routing srp = some true) →
        reply srps = extendedAnswer env description routing src endpoint) ∧
    (∀ srps, ¬(SrpSequence.validate srps = .ok () ∧ ∀ srp ∈ SrpSequence.iter srps,
          srp.isMandatory = true → description.satisfies routing srp = some true) →
        reply srps = []) ∧
    (∀ srps, SrpSequence.validate srps = .ok () →
        (∀ srp ∈ SrpSequence.iter srps, srp.WellFormed) ∧
          (SrpSequence.iter srps).flatMap Srp.bytes = srps) ∧
    (∀ (xs ys : List Srp) (rest : List UInt8), (∀ srp ∈ xs, srp.WellFormed) → xs.Perm ys →
        reply (xs.flatMap Srp.bytes ++ rest) = reply (ys.flatMap Srp.bytes ++ rest)) ∧
    (∀ (xs : List Srp) (srp : Srp) (rest : List UInt8), (∀ srp ∈ xs, srp.WellFormed) →
        srp.WellFormed → description.satisfies routing srp = some true ∨
          srp.isMandatory = false →
        reply (xs.flatMap Srp.bytes ++ (srp.bytes ++ rest)) =
          reply (xs.flatMap Srp.bytes ++ rest)) := by
  intro reply
  have hreply : ∀ srps, reply srps = if description.answersExtendedSearch routing srps then
      extendedAnswer env description routing src endpoint else [] :=
    handleSearchExtended_eq env description routing src h
  refine ⟨?_, ?_, ?_, ?_, ?_⟩
  · intro srps haccepted
    rw [hreply, if_pos (DeviceDescription.answers_iff srps |>.mpr haccepted)]
  · intro srps hrefused
    rw [hreply, if_neg fun hanswers => hrefused (DeviceDescription.answers_iff srps |>.mp hanswers)]
  · intro srps hvalid
    exact ⟨iter_wellFormed srps, Dibs.srp_concat hvalid⟩
  · intro xs ys rest hxs hperm
    rw [hreply, hreply, DeviceDescription.answers_perm hxs hperm]
  · intro xs srp rest hxs hsrp hfree
    have hpasses : description.passes routing srp = true := by
      rw [DeviceDescription.passes_iff]
      intro hmandatory
      rcases hfree with hsatisfied | hoptional
      · exact hsatisfied
      · rw [hmandatory] at hoptional
        cases hoptional
    rw [hreply, hreply, DeviceDescription.answers_insert hxs hsrp hpasses]

def programmedGateway : DeviceDescription :=
  let serial : SixOctets := ⟨[0, 0, 0, 0, 0, 1], rfl⟩
  ⟨"gateway", ⟨0x1101⟩, serial, serial, .ip, 0, true⟩

def programmingModeSrp : Srp := ⟨[0x02, 0x81]⟩

def tunnellingSrp : Srp := ⟨[0x04, 0x83, 0x04, 0x01]⟩

/-- The same two parameters in either order. -/
theorem either_order_answered :
    let env : Env := ⟨0, none, fun _ => none, fun _ _ => none⟩
    let reply := fun srps => handleSearchExtended env (some programmedGateway) false
      (.v4 ⟨192, 168, 1, 2⟩ 50000) (extendedSearch (Hpai.natUdp 3671).toBytes srps)
    reply ([programmingModeSrp, tunnellingSrp].flatMap Srp.bytes ++ []) =
      reply ([tunnellingSrp, programmingModeSrp].flatMap Srp.bytes ++ []) := by
  have hwell : ∀ srp ∈ [programmingModeSrp, tunnellingSrp], srp.WellFormed := by
    intro srp hmem
    rcases List.mem_cons.mp hmem with rfl | hmem
    · exact ⟨by decide, by decide⟩
    · rw [List.mem_singleton.mp hmem]
      exact ⟨by decide, by decide⟩
  have hlaws := extended_search_answered ⟨0, none, fun _ => none, fun _ _ => none⟩
    programmedGateway false (.v4 ⟨192, 168, 1, 2⟩ 50000) (Hpai.natUdp 3671).toBytes_length
  exact hlaws.2.2.2.1 _ _ [] hwell (.swap _ _ _)

end KnxRs.ServerDescription
