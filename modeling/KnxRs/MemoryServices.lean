import KnxRs.DptTexts
import KnxRs.FrameLimits
import KnxRs.StoreRuns
import KnxRs.StoreSteps

set_option autoImplicit false

/-!
# Memory services

What the two write services store, what the two read services answer, and that what is
read is what was last written.
-/
namespace KnxRs.MemoryStore
open CoreTypes Octets TableObjects Runs

/-! ## Writes -/

/-- A write within the limit is stored octet for octet and changes nothing else; a write beyond
it changes nothing. -/
structure Stored (s : Store) (addr : Nat) (data : List UInt8) (s' : Store) : Prop where
  accepted : addr + data.length ≤ maxMemorySize →
    (∀ k, s'.memoryArea[k]? = octetAfter s.memoryArea addr data 0 k) ∧
      s'.memoryArea.length = max s.memoryArea.length (addr + data.length)
  rejected : maxMemorySize < addr + data.length → s' = s
  rest : s' = { s with memoryArea := s'.memoryArea }

namespace Store

variable {s s' : Store} {addr k : Nat} {data : List UInt8}

theorem writeToMemory_accepted (h : addr + data.length ≤ maxMemorySize) :
    s.writeToMemory addr data =
      ({ s with memoryArea := overwrite (grow s.memoryArea (addr + data.length) 0) addr data },
        true) := by
  unfold writeToMemory
  dsimp only
  rw [if_neg (by omega)]

theorem writeToMemory_rejected (h : maxMemorySize < addr + data.length) :
    s.writeToMemory addr data = (s, false) := by
  unfold writeToMemory
  dsimp only
  rw [if_pos h]

theorem writeToMemory_getElem? (h : addr + data.length ≤ maxMemorySize) (k : Nat) :
    (s.writeToMemory addr data).1.memoryArea[k]? = octetAfter s.memoryArea addr data 0 k := by
  rw [writeToMemory_accepted h]
  exact writeAt_getElem? s.memoryArea addr data 0 k

theorem writeToMemory_stored (s : Store) (addr : Nat) (data : List UInt8) :
    Stored s addr data (s.writeToMemory addr data).1 where
  accepted := by
    intro h
    refine ⟨writeToMemory_getElem? h, ?_⟩
    rw [writeToMemory_length, if_neg (by omega)]
  rejected := by
    intro h
    rw [writeToMemory_rejected h]
  rest := by
    rcases Nat.lt_or_ge maxMemorySize (addr + data.length) with h | h
    · rw [writeToMemory_rejected h]
    · rw [writeToMemory_accepted h]

end Store

/-! ## What is in the memory -/

def octetWritten (k : Nat) : StoreEvent → Option UInt8
  | .written addr data =>
    if addr + data.length ≤ maxMemorySize ∧ addr ≤ k then data[k - addr]? else none
  | _ => none

def lastWritten (k : Nat) (events : List StoreEvent) : Option UInt8 :=
  events.reverse.findSome? (octetWritten k)

def refills (s : Store) : StoreEvent → Bool
  | .loadControl objectIndex data =>
    (s.tableObject objectIndex).any fun t => (t.handleLoadEvent data s.memoryArea.length).2.2.isSome
  | .masterReset eraseCode => Store.wipes eraseCode
  | _ => false

/-- Every octet of the memory is the one last written there, else the one it was, else 0. -/
structure Remembers (before : List UInt8) (events : List StoreEvent) (memory : List UInt8) :
    Prop where
  grown : before.length ≤ memory.length
  octet : ∀ k, k < memory.length →
    memory[k]? = some ((lastWritten k events).getD (before.getD k 0))
  beyond : ∀ k, memory.length ≤ k → lastWritten k events = none

theorem lastWritten_snoc (k : Nat) (events : List StoreEvent) (event : StoreEvent) :
    lastWritten k (events ++ [event]) = (octetWritten k event).or (lastWritten k events) := by
  unfold lastWritten
  rw [List.reverse_append, List.reverse_singleton, List.singleton_append, List.findSome?_cons]
  cases octetWritten k event <;> rfl

theorem loadControl_quiet {s : Store} {objectIndex : UInt8} {data : List UInt8}
    (h : refills s (.loadControl objectIndex data) = false) :
    (s.loadControl objectIndex data).memoryArea = s.memoryArea := by
  dsimp only [refills] at h
  unfold Store.loadControl
  cases ht : s.tableObject objectIndex with
  | none => rfl
  | some t =>
    rw [ht] at h
    have hfill : (t.handleLoadEvent data s.memoryArea.length).2.2 = none := by
      simpa using h
    dsimp only
    rw [hfill]
    split_ifs
    · rw [Store.reloadRuntimeTable_memoryArea]
      exact Store.setTableObject_memoryArea s objectIndex _
    · exact Store.setTableObject_memoryArea s objectIndex _

theorem apply_quiet {s : Store} {event : StoreEvent} (hquiet : refills s event = false)
    (hother : ∀ addr data, event ≠ .written addr data) :
    (s.apply event).memoryArea = s.memoryArea := by
  cases event with
  | idle => rfl
  | written addr data => exact absurd rfl (hother addr data)
  | loadControl objectIndex data => exact loadControl_quiet hquiet
  | masterReset eraseCode =>
    dsimp only [Store.apply]
    rw [Store.masterReset_memoryArea, show Store.wipes eraseCode = false from hquiet]
    rfl

theorem octetWritten_other {event : StoreEvent} (hother : ∀ addr data, event ≠ .written addr data)
    (k : Nat) : octetWritten k event = none := by
  cases event with
  | written addr data => exact absurd rfl (hother addr data)
  | _ => rfl

theorem Remembers.start (memory : List UInt8) : Remembers memory [] memory where
  grown := Nat.le_refl _
  octet := by
    intro k hk
    rw [lastWritten, List.reverse_nil, List.findSome?_nil, Option.getD_none,
      List.getD_eq_getElem?_getD, List.getElem?_eq_getElem hk, Option.getD_some]
  beyond := fun _ _ => rfl

variable {before : List UInt8} {events : List StoreEvent} {s : Store}

theorem Remembers.unwritten {event : StoreEvent} (h : Remembers before events s.memoryArea)
    (hnone : ∀ k, octetWritten k event = none) :
    Remembers before (events ++ [event]) s.memoryArea where
  grown := h.grown
  octet := by
    intro k hk
    rw [lastWritten_snoc, hnone, Option.none_or]
    exact h.octet k hk
  beyond := by
    intro k hk
    rw [lastWritten_snoc, hnone, Option.none_or]
    exact h.beyond k hk

theorem Remembers.written (h : Remembers before events s.memoryArea) (addr : Nat)
    (data : List UInt8) :
    Remembers before (events ++ [.written addr data]) (s.writeToMemory addr data).1.memoryArea := by
  rcases Nat.lt_or_ge maxMemorySize (addr + data.length) with hlimit | hlimit
  · rw [Store.writeToMemory_rejected hlimit]
    refine h.unwritten fun k => ?_
    exact if_neg (by omega)
  · have hlength := Store.writeToMemory_length s addr data
    rw [if_neg (by omega)] at hlength
    have hgrown := h.grown
    -- what this write puts at `k`
    have inside {k : Nat} (hin : addr ≤ k ∧ k < addr + data.length) :
        octetWritten k (.written addr data) = data[k - addr]? := if_pos ⟨hlimit, hin.1⟩
    have outside {k : Nat} (hout : ¬(addr ≤ k ∧ k < addr + data.length)) :
        octetWritten k (.written addr data) = none := by
      dsimp only [octetWritten]
      split_ifs with hk
      · exact List.getElem?_eq_none (by omega)
      · rfl
    refine ⟨by omega, fun k hk => ?_, fun k hk => ?_⟩
    · rw [Store.writeToMemory_getElem? hlimit, lastWritten_snoc, octetAfter]
      by_cases hin : addr ≤ k ∧ k < addr + data.length
      · rw [if_pos hin, inside hin, List.getElem?_eq_getElem (by omega), Option.some_or,
          Option.getD_some]
      · rw [if_neg hin, outside hin, Option.none_or]
        split_ifs with hold hnew
        · exact h.octet k hold
        · rw [h.beyond k (Nat.le_of_not_lt hold), Option.getD_none,
            List.getD_eq_getElem?_getD,
            List.getElem?_eq_none (by omega), Option.getD_none]
        · omega
    · rw [lastWritten_snoc, outside (by omega), Option.none_or]
      exact h.beyond k (by omega)

theorem Remembers.next {event : StoreEvent} (h : Remembers before events s.memoryArea)
    (hquiet : refills s event = false) :
    Remembers before (events ++ [event]) (s.apply event).memoryArea := by
  by_cases hwrite : ∃ addr data, event = .written addr data
  · obtain ⟨addr, data, rfl⟩ := hwrite
    exact h.written addr data
  · have hother : ∀ addr data, event ≠ .written addr data :=
      fun addr data he => hwrite ⟨addr, data, he⟩
    rw [apply_quiet hquiet hother]
    exact h.unwritten (octetWritten_other hother)

end KnxRs.MemoryStore

namespace KnxRs.BusAccessUnit
open CoreTypes Octets InterfaceObjects AppParse AppEncode CemiCodec MemoryStore DeviceState
open TableObjects Fallible Runs

/-! ## Runs -/

variable {b₀ b : Bau} {tr tr₀ : List (Transition Bau Event)}

/-- In a run without a fill and an erasure, the memory remembers what was written. -/
theorem handles_remembers (ready : Ready b₀) (run : Handles b₀ tr b)
    (quiet : ∀ x ∈ tr, refills x.source.toStore (x.event.storeEvent x.source) = false) :
    Remembers b₀.memoryArea (tr.map fun x => x.event.storeEvent x.source) b.memoryArea := by
  have hstore := handles_storeRun ready run
  have hmap : tr.map (fun x => x.event.storeEvent x.source) =
      (tr.map storeTransition).map Transition.event := by
    rw [List.map_map]
    rfl
  rw [hmap]
  refine hstore.history (H := fun past u => Remembers b₀.memoryArea (past.map Transition.event)
    u.memoryArea) (fun x => refills x.source x.event = false) (.start _) ?_ ?_
  · intro x hx
    obtain ⟨y, hy, rfl⟩ := List.mem_map.mp hx
    exact quiet y hy
  · intro past x hpast hquiet hstep
    rw [List.map_append, List.map_cons, List.map_nil, ← hstep]
    exact hpast.next hquiet

theorem handles_bounded (ready : Ready b₀) (run : Handles b₀ tr b)
    (bounded : Store.Bounded b₀.toStore) : Store.Bounded b.toStore :=
  (handles_storeRun ready run).invariant (I := Store.Bounded) (fun _ => True) bounded
    (fun _ _ => trivial) fun x hx _ hstep => hstep ▸ Store.apply_bounded hx x.event

/-! ## Requests -/

def recalled (before : List UInt8) (events : List StoreEvent) (addr count : Nat) : List UInt8 :=
  (List.range count).map fun i => (lastWritten (addr + i) events).getD (before.getD (addr + i) 0)

def memoryReply (address : UInt16) (octets : List UInt8) : List UInt8 :=
  [0x02, 0x40 ||| UInt8.ofNat octets.length] ++ be16Bytes address ++ octets

def memoryExtReply (returnCode : UInt8) (address : UInt32) (octets : List UInt8) : List UInt8 :=
  [0x01, 0xFE, returnCode] ++ (be32Bytes address).drop 1 ++ octets

def memoryExtWritten (address : UInt32) : List UInt8 :=
  [0x01, 0xFC, 0x00] ++ (be32Bytes address).drop 1

/-- The requester gets the payload as the reply, and a frame can carry it. -/
structure Replies (b : Bau) (source : IndividualAddress) (payload : List UInt8)
    (result : Except Fault Bau) : Prop where
  queued : result = b.queueIndividualFrame source .system payload
  fits : payload.length ≤ 256

/-- How many octets the replies to the two reads have room for. -/
def memoryExtMaxLen : Nat := 250

/-- What a memory service is to do, in a unit whose memory the history tells. -/
def MemoryServed (before : List UInt8) (events : List StoreEvent) (b : Bau)
    (source : IndividualAddress) (indication : AppIndication) (result : Except Fault Bau) : Prop :=
  match indication with
  | .memoryWrite _ address data => ∃ s, Stored b.toStore address.toNat data s ∧ s.Bounded ∧
      result = .ok { b with toStore := s }
  | .memoryExtWrite _ address data => ∃ s, Stored b.toStore address.toNat data s ∧ s.Bounded ∧
      (address.toNat + data.length ≤ maxMemorySize →
        Replies { b with toStore := s } source (memoryExtWritten address) result) ∧
      (maxMemorySize < address.toNat + data.length → result = .ok b)
  | .memoryRead count address =>
    if address.toNat + count.toNat ≤ b.memoryArea.length ∧ count.toNat ≤ memoryResponseMaxLen then
      Replies b source (memoryReply address (recalled before events address.toNat count.toNat))
        result
    else Replies b source (memoryReply address []) result
  | .memoryExtRead count address =>
    if address.toNat + count.toNat ≤ b.memoryArea.length ∧ count.toNat ≤ memoryExtMaxLen then
      Replies b source
        (memoryExtReply 0x00 address (recalled before events address.toNat count.toNat)) result
    else Replies b source (memoryExtReply 0xFD address []) result
  | _ => True

def isMemoryService : AppIndication → Bool
  | .memoryRead .. | .memoryWrite .. | .memoryExtRead .. | .memoryExtWrite .. => true
  | _ => false

variable {before : List UInt8} {events : List StoreEvent} {source : IndividualAddress}

/-! ## Reads -/

theorem recalled_length (before : List UInt8) (events : List StoreEvent) (addr count : Nat) :
    (recalled before events addr count).length = count := by
  rw [recalled, List.length_map, List.length_range]

/-- What lies in the range is what the history says. -/
theorem slice_recalled (h : Remembers before events b.memoryArea) {addr count : Nat}
    (hrange : addr + count ≤ b.memoryArea.length) :
    slice b.memoryArea addr count = recalled before events addr count := by
  refine slice_eq_of hrange (recalled_length ..) fun i hi => ?_
  rw [h.octet _ (by omega), recalled, List.getElem?_map, List.getElem?_range hi, Option.map_some]

theorem memSlice_eq (s : Store) (addr len : Nat) : s.memSlice addr len =
    if addr + len ≤ s.memoryArea.length then some (slice s.memoryArea addr len) else none := rfl

theorem encodeMemoryResponse_eq {octets : List UInt8} (address : UInt16)
    (h : octets.length ≤ memoryResponseMaxLen) :
    encodeMemoryResponse address octets = memoryReply address octets := by
  unfold encodeMemoryResponse memoryReply
  have hcount : UInt8.ofNat octets.length &&& mask4Bit = UInt8.ofNat octets.length := by
    refine DptTexts.low_mask 4 rfl ?_
    dsimp only [memoryResponseMaxLen] at h
    rw [UInt8.le_iff_toNat_le, UInt8.toNat_ofNat', Nat.mod_eq_of_lt (by omega)]
    exact h
  dsimp only
  rw [Nat.min_eq_left h, List.take_length, hcount]
  rfl

theorem memoryReply_fits {octets : List UInt8} (address : UInt16)
    (h : octets.length ≤ memoryResponseMaxLen) : (memoryReply address octets).length ≤ 256 := by
  rw [← encodeMemoryResponse_eq address h]
  exact Nat.le_trans (encodeMemoryResponse_length address octets) (by decide)

theorem handleMemoryRead_served (h : Remembers before events b.memoryArea) (count : UInt8)
    (address : UInt16) : MemoryServed before events b source (.memoryRead count address)
      (b.handleMemoryRead source count address) := by
  unfold MemoryServed Bau.handleMemoryRead
  dsimp only
  rw [memSlice_eq]
  by_cases hserved : address.toNat + count.toNat ≤ b.memoryArea.length ∧
      count.toNat ≤ memoryResponseMaxLen
  · obtain ⟨hrange, hshort⟩ := hserved
    have hlen : (recalled before events address.toNat count.toNat).length ≤ memoryResponseMaxLen := by
      rw [recalled_length]
      exact hshort
    rw [if_pos ⟨hrange, hshort⟩, if_neg (Nat.not_lt.mpr hshort), if_pos hrange]
    refine ⟨?_, memoryReply_fits address hlen⟩
    rw [← encodeMemoryResponse_eq address hlen, ← slice_recalled h hrange]
    rfl
  · have hnothing : (if count.toNat > memoryResponseMaxLen then [] else
        (if address.toNat + count.toNat ≤ b.memoryArea.length then
          some (slice b.memoryArea address.toNat count.toNat) else none).getD []) = [] := by
      by_cases hlong : count.toNat > memoryResponseMaxLen
      · rw [if_pos hlong]
      · rw [if_neg hlong, if_neg fun hrange => hserved ⟨hrange, Nat.not_lt.mp hlong⟩]
        rfl
    rw [if_neg hserved, hnothing]
    exact ⟨rfl, memoryReply_fits address (Nat.zero_le _)⟩

theorem memoryExtReply_length (returnCode : UInt8) (address : UInt32) (octets : List UInt8) :
    (memoryExtReply returnCode address octets).length = octets.length + 6 :=
  encodeMemoryExtReadResponse_length returnCode address octets

theorem handleMemoryExtRead_served (h : Remembers before events b.memoryArea) {count : UInt8}
    {address : UInt32} (small : oversized b.toDevice (.memoryExtRead count address) = false) :
    MemoryServed before events b source (.memoryExtRead count address)
      (b.handleMemoryExtRead source count address) := by
  have hsmall := of_decide_eq_false small
  unfold MemoryServed Bau.handleMemoryExtRead
  dsimp only
  rw [memSlice_eq]
  by_cases hrange : address.toNat + count.toNat ≤ b.memoryArea.length
  · have hshort : count.toNat ≤ memoryExtMaxLen :=
      Nat.not_lt.mp fun hlong => hsmall ⟨hlong, hrange⟩
    rw [if_pos ⟨hrange, hshort⟩, if_pos hrange, ← slice_recalled h hrange]
    refine ⟨rfl, ?_⟩
    rw [memoryExtReply_length, slice_length hrange]
    exact Nat.add_le_add_right hshort 6
  · rw [if_neg (fun hserved => hrange hserved.1), if_neg hrange]
    refine ⟨rfl, ?_⟩
    rw [memoryExtReply_length]
    exact Nat.le_add_left _ _

theorem handleMemoryExtRead_large (answering : b.answeringConnection = none) {count : UInt8}
    {address : UInt32} (large : oversized b.toDevice (.memoryExtRead count address) = true) :
    ¬MemoryServed before events b source (.memoryExtRead count address)
      (b.handleMemoryExtRead source count address) := by
  obtain ⟨hlong, hrange⟩ := of_decide_eq_true large
  dsimp only [MemoryServed]
  rw [if_neg (fun hserved => absurd hserved.2 (Nat.not_le.mpr hlong))]
  intro replies
  obtain ⟨c, hc⟩ : ∃ c, b.queueIndividualFrame source .system (memoryExtReply 0xFD address []) =
      .ok c := by
    unfold Bau.queueIndividualFrame
    rw [answering, if_neg (by simp)]
    exact ((@pushFrame_yields True b _ _ _ fun _ => replies.fits).exists_ok trivial).imp
      fun _ h => h.1
  obtain ⟨len, _, hpanic⟩ := dispatchIndication_panics answering large groupRead source
  have hpanic : b.handleMemoryExtRead source count address = .error (.cemiPayloadTooLong len) :=
    hpanic
  rw [replies.queued, hc] at hpanic
  cases hpanic

/-! ## Every memory service -/

theorem handleMemoryExtWrite_served (bounded : Store.Bounded b.toStore) (count : UInt8)
    (address : UInt32) (data : List UInt8) :
    MemoryServed before events b source (.memoryExtWrite count address data)
      (b.handleMemoryExtWrite source address data) := by
  refine ⟨_, Store.writeToMemory_stored b.toStore address.toNat data,
    Store.apply_bounded bounded (.written address.toNat data), ?_, ?_⟩
  · intro hlimit
    unfold Bau.handleMemoryExtWrite
    rw [Store.writeToMemory_accepted hlimit]
    exact ⟨rfl, by simp [memoryExtWritten, be32Bytes_length]⟩
  · intro hlimit
    unfold Bau.handleMemoryExtWrite
    rw [Store.writeToMemory_rejected hlimit]
    rfl

/-- In every state that frames can lead to, and after every run from there without a fill and an
erasure, a memory service does what it is to do, by whichever way its request has come, exactly
when it is not an extended read with a response that no frame can carry. -/
theorem memory_served_iff {device : InterfaceObject} {count : UInt16} {size : Nat}
    (reached : Handles (.new device count size) tr₀ b₀) (run : Handles b₀ tr b)
    (quiet : ∀ x ∈ tr, refills x.source.toStore (x.event.storeEvent x.source) = false)
    (source : IndividualAddress) {indication : AppIndication}
    (memory : isMemoryService indication = true) :
    (∀ c : Bau, c.toDevice = b.toDevice → MemoryServed b₀.memoryArea
      (tr.map fun x => x.event.storeEvent x.source) c source indication
      (c.dispatchMemoryServices source indication)) ↔ oversized b.toDevice indication = false := by
  have ready₀ : Ready b₀ := reached.invariant (fun _ => True) (ofDevice_ready _)
    (fun _ _ => trivial) fun _ hx _ hstep => handle_ready hx hstep
  have remembers := handles_remembers ready₀ run quiet
  have bounded := handles_bounded ready₀ run
    (handles_bounded (ofDevice_ready _) reached Store.new_bounded)
  constructor
  · intro served
    by_contra hlarge
    rw [Bool.not_eq_false] at hlarge
    cases indication with
    | memoryExtRead n address =>
      have large : oversized { b with answeringConnection := none }.toDevice
          (.memoryExtRead n address) = true := hlarge
      exact handleMemoryExtRead_large (b := { b with answeringConnection := none }) rfl large
        (served { b with answeringConnection := none } rfl)
    | systemNetworkParameterRead => cases memory
    | _ => cases hlarge
  · intro small c hc
    have hstore : c.toStore = b.toStore := congrArg Device.toStore hc
    rw [← hstore] at bounded
    have remembers : Remembers b₀.memoryArea (tr.map fun x => x.event.storeEvent x.source)
        c.memoryArea := by
      rw [show c.memoryArea = b.memoryArea from congrArg Store.memoryArea hstore]
      exact remembers
    cases indication with
    | memoryRead n address => exact handleMemoryRead_served remembers n address
    | memoryWrite n address data =>
      exact ⟨_, Store.writeToMemory_stored c.toStore address.toNat data,
        Store.apply_bounded bounded (.written address.toNat data), rfl⟩
    | memoryExtRead n address =>
      refine handleMemoryExtRead_served remembers ?_
      rw [hc]
      exact small
    | memoryExtWrite n address data => exact handleMemoryExtWrite_served bounded n address data
    | _ => cases memory

theorem written_octets_recalled : ∃ b₀ b tr₀ tr,
    Handles standardBau tr₀ b₀ ∧ tr₀.map Transition.event = [memoryWriteFrame 2 7] ∧
    Handles b₀ tr b ∧ tr.map Transition.event = [memoryWriteFrame 4 9] ∧
    ∀ c : Bau, c.toDevice = b.toDevice → Replies c ⟨0x1102⟩ (memoryReply 0 [0, 0, 7, 0, 9])
      (c.dispatchMemoryServices ⟨0x1102⟩ (.memoryRead 5 0)) := by
  have hfirst : (standardBau.handle (memoryWriteFrame 2 7)).toOption.map (fun b =>
      (refills b.toStore ((memoryWriteFrame 4 9).storeEvent b),
        recalled b.memoryArea [(memoryWriteFrame 4 9).storeEvent b] 0 5)) =
        some (false, [0, 0, 7, 0, 9]) := by
    decide +kernel
  have hsecond : ∀ b ∈ (standardBau.handle (memoryWriteFrame 2 7)).toOption,
      (b.handle (memoryWriteFrame 4 9)).toOption.map (fun b => b.memoryArea.length) = some 5 := by
    decide +kernel
  obtain ⟨b₀, hb₀, hstate⟩ := Option.map_eq_some_iff.mp hfirst
  obtain ⟨hquiet, hrecalled⟩ := Prod.mk.inj hstate
  obtain ⟨b, hb, hlength⟩ := Option.map_eq_some_iff.mp (hsecond b₀ hb₀)
  have reached : Handles standardBau [⟨standardBau, memoryWriteFrame 2 7, b₀⟩] b₀ :=
    .next (toOption_ok hb₀) (.refl b₀)
  have run : Handles b₀ [⟨b₀, memoryWriteFrame 4 9, b⟩] b := .next (toOption_ok hb) (.refl b)
  have isRead : isMemoryService (.memoryRead 5 0) = true := rfl
  refine ⟨b₀, b, _, _, reached, rfl, run, rfl, fun c hc => ?_⟩
  have served := (memory_served_iff reached run (fun x hx => by
    rw [List.mem_singleton.mp hx]
    exact hquiet) ⟨0x1102⟩ isRead).mpr rfl c hc
  have hlong : c.memoryArea.length = 5 := by
    rw [show c.memoryArea = b.memoryArea from congrArg (fun d : Device => d.memoryArea) hc]
    exact hlength
  dsimp only [MemoryServed] at served
  rw [if_pos ⟨by rw [hlong]; decide, by decide⟩] at served
  rw [← hrecalled]
  exact served

/-- After a write of one octet at 254 a read of 255 octets is not answered: the unit panics. -/
theorem longest_read_unanswered : ∃ b tr, Handles standardBau tr b ∧ b.memoryArea.length = 255 ∧
    (b.handle (extendedRead 255)).toOption.isNone ∧
    ¬∀ c : Bau, c.toDevice = b.toDevice → MemoryServed b.memoryArea [] c ⟨0x1102⟩
      (.memoryExtRead 255 0) (c.dispatchMemoryServices ⟨0x1102⟩ (.memoryExtRead 255 0)) := by
  obtain ⟨b, hb⟩ := eq_ok (r := standardBau.handle (extendedWrite 254)) (by decide +kernel)
  have hstate : (standardBau.handle (extendedWrite 254)).toOption.map (fun b =>
      (b.memoryArea.length, (b.handle (extendedRead 255)).toOption.isNone)) = some (255, true) := by
    decide +kernel
  rw [hb] at hstate
  obtain ⟨hlength, hpanic⟩ := Prod.mk.inj (Option.some.inj hstate)
  refine ⟨b, _, .next hb (.refl b), hlength, hpanic, fun served => ?_⟩
  refine handleMemoryExtRead_large (b := { b with answeringConnection := none }) rfl ?_
    (served { b with answeringConnection := none } rfl)
  refine decide_eq_true ⟨by decide, ?_⟩
  show (0 : UInt32).toNat + (255 : UInt8).toNat ≤ b.memoryArea.length
  rw [hlength]
  decide

end KnxRs.BusAccessUnit
