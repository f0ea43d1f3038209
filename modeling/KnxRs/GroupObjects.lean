import KnxRs.CoreTypes
import KnxRs.DptCodec
import KnxRs.Octets

set_option autoImplicit false

/-!
# Group objects

A group object's value and communication flag, and the store of them, in which the
object at index `i` has number `i + 1`.
-/
namespace KnxRs.GroupObjects
open DptCodec Octets

inductive ComFlag where
  | updated | readRequest | writeRequest | transmitting | ok | error | uninitialized
  deriving DecidableEq

structure GroupObject where
  asap : UInt16
  commFlag : ComFlag
  data : List UInt8
  dpt : Option Dpt
  deriving DecidableEq

namespace GroupObject

def new (asap : UInt16) (size : Nat) : GroupObject :=
  ⟨asap, .uninitialized, List.replicate size 0, none⟩

def setCommFlag (go : GroupObject) (flag : ComFlag) : GroupObject := { go with commFlag := flag }

def initialized (go : GroupObject) : Bool := go.commFlag ≠ .uninitialized

/-- The octets of a received value replace as many of the object's. -/
def valueFromBus (go : GroupObject) (data : List UInt8) : GroupObject :=
  { go with
    data := overwrite go.data 0 (data.take (min data.length go.data.length))
    commFlag := .updated }

def transmitDone (go : GroupObject) (success : Bool) : GroupObject :=
  { go with commFlag := if success then .ok else .error }

def isPending (go : GroupObject) : Bool :=
  go.commFlag = .writeRequest ∨ go.commFlag = .readRequest

@[simp] theorem setCommFlag_asap (go : GroupObject) (flag : ComFlag) :
    (go.setCommFlag flag).asap = go.asap := rfl

@[simp] theorem valueFromBus_asap (go : GroupObject) (data : List UInt8) :
    (go.valueFromBus data).asap = go.asap := rfl

@[simp] theorem transmitDone_asap (go : GroupObject) (success : Bool) :
    (go.transmitDone success).asap = go.asap := rfl

theorem valueFromBus_length (go : GroupObject) (data : List UInt8) :
    (go.valueFromBus data).data.length = go.data.length := by
  refine overwrite_length ?_
  rw [List.length_take]
  omega

theorem valueFromBus_twice (go : GroupObject) (data : List UInt8) :
    (go.valueFromBus data).valueFromBus data = go.valueFromBus data := by
  have hlen : (go.valueFromBus data).data.length = go.data.length := go.valueFromBus_length data
  have hdata : overwrite (go.valueFromBus data).data 0
      (data.take (min data.length (go.valueFromBus data).data.length)) =
        (go.valueFromBus data).data := by
    rw [hlen]
    exact overwrite_overwrite rfl
  conv_lhs => rw [valueFromBus, hdata]
  rfl

end GroupObject

structure GroupObjectStore where
  objects : List GroupObject
  numbered : ∀ i (h : i < objects.length), (objects.get ⟨i, h⟩).asap.toNat = i + 1

namespace GroupObjectStore

theorem ext_objects {s t : GroupObjectStore} (h : s.objects = t.objects) : s = t := by
  cases s
  cases t
  congr

def new (count : UInt16) (defaultSize : Nat) : GroupObjectStore where
  objects := (List.range count.toNat).map (fun i => GroupObject.new (UInt16.ofNat (i + 1)) defaultSize)
  numbered := by
    intro i h
    have hcount := count.toNat_lt
    have hi : i < count.toNat := by simpa using h
    simp only [List.get_eq_getElem, List.getElem_map, List.getElem_range, GroupObject.new,
      UInt16.toNat_ofNat']
    omega

def get (s : GroupObjectStore) (asap : UInt16) : Option GroupObject :=
  if asap = 0 then none else s.objects[asap.toNat - 1]?

/-- `if let Some(go) = self.get_mut(asap)`, with what is then done to the object. -/
def modify (s : GroupObjectStore) (asap : UInt16) (f : GroupObject → GroupObject)
    (keeps : ∀ go, (f go).asap = go.asap) : GroupObjectStore :=
  if asap = 0 then s
  else
    { objects := s.objects.modify (asap.toNat - 1) f
      numbered := by
        intro i h
        have hi : i < s.objects.length := by simpa using h
        have hs := s.numbered i hi
        simp only [List.get_eq_getElem, List.getElem_modify] at hs ⊢
        split_ifs
        · rw [keeps, hs]
        · exact hs }

/-- `u16::try_from(len).unwrap_or(0)`. -/
def count (s : GroupObjectStore) : UInt16 :=
  if s.objects.length < 2 ^ 16 then UInt16.ofNat s.objects.length else 0

def nextPending (s : GroupObjectStore) : Option UInt16 :=
  (s.objects.find? GroupObject.isPending).map GroupObject.asap

theorem ext_get {s t : GroupObjectStore} (h : ∀ asap, s.get asap = t.get asap) : s = t := by
  have bound (s : GroupObjectStore) {i : Nat} (hi : i < s.objects.length) : i + 1 < 2 ^ 16 := by
    rw [← s.numbered i hi]
    exact UInt16.toNat_lt _
  refine ext_objects (List.ext_getElem? fun i => ?_)
  by_cases hi : i + 1 < 2 ^ 16
  · have hnum : (UInt16.ofNat (i + 1)).toNat = i + 1 := by
      rw [UInt16.toNat_ofNat', Nat.mod_eq_of_lt hi]
    have hne : UInt16.ofNat (i + 1) ≠ 0 := by
      intro hz
      rw [hz] at hnum
      exact absurd hnum.symm (Nat.succ_ne_zero i)
    have hget := h (UInt16.ofNat (i + 1))
    unfold get at hget
    rw [if_neg hne, if_neg hne, hnum, Nat.add_sub_cancel] at hget
    exact hget
  · rw [List.getElem?_eq_none (Nat.not_lt.mp (mt (bound s) hi)),
      List.getElem?_eq_none (Nat.not_lt.mp (mt (bound t) hi))]

theorem get_mem {s : GroupObjectStore} {asap : UInt16} {go : GroupObject}
    (h : s.get asap = some go) : go ∈ s.objects := by
  unfold get at h
  split_ifs at h
  exact List.mem_of_getElem? h

theorem modify_objects (s : GroupObjectStore) {asap : UInt16} (h : asap ≠ 0)
    (f : GroupObject → GroupObject) (keeps : ∀ go, (f go).asap = go.asap) :
    (s.modify asap f keeps).objects = s.objects.modify (asap.toNat - 1) f := by
  unfold modify
  rw [if_neg h]

theorem modify_forall {P : GroupObject → Prop} {s : GroupObjectStore}
    (h : ∀ go ∈ s.objects, P go) {f : GroupObject → GroupObject} (hf : ∀ go, P go → P (f go))
    (asap : UInt16) (keeps : ∀ go, (f go).asap = go.asap) :
    ∀ go ∈ (s.modify asap f keeps).objects, P go := by
  unfold modify
  split_ifs
  · exact h
  · intro go hgo
    obtain ⟨i, hi, rfl⟩ := List.mem_iff_getElem.mp hgo
    have hlen : i < s.objects.length := by simpa using hi
    simp only [List.getElem_modify]
    split_ifs
    · exact hf _ (h _ (List.getElem_mem hlen))
    · exact h _ (List.getElem_mem hlen)

theorem modify_map {γ : Type} {g : GroupObject → γ} {f : GroupObject → GroupObject}
    (hf : ∀ go, g (f go) = g go) (s : GroupObjectStore) (asap : UInt16)
    (keeps : ∀ go, (f go).asap = go.asap) :
    (s.modify asap f keeps).objects.map g = s.objects.map g := by
  unfold modify
  split_ifs
  · rfl
  · apply List.ext_getElem?
    intro i
    simp only [List.getElem?_map, List.getElem?_modify]
    cases s.objects[i]? with
    | none => rfl
    | some go =>
      by_cases hi : asap.toNat - 1 = i
      · simp [hi, hf]
      · simp [hi]

theorem modify_getElem? {s : GroupObjectStore} (asap : UInt16) {f : GroupObject → GroupObject}
    (keeps : ∀ go, (f go).asap = go.asap) (i : Nat) :
    (s.modify asap f keeps).objects[i]? =
      if asap ≠ 0 ∧ asap.toNat - 1 = i then s.objects[i]?.map f else s.objects[i]? := by
  unfold modify
  by_cases h0 : asap = 0
  · rw [if_pos h0, if_neg (fun h => h.1 h0)]
  · rw [if_neg h0, List.getElem?_modify]
    by_cases hi : asap.toNat - 1 = i
    · simp [h0, hi]
    · simp [h0, hi]

theorem modify_get (s : GroupObjectStore) (a : UInt16) {f : GroupObject → GroupObject}
    (keeps : ∀ go, (f go).asap = go.asap) (asap : UInt16) :
    (s.modify a f keeps).get asap = if a = asap then (s.get asap).map f else s.get asap := by
  unfold get
  by_cases hz : asap = 0
  · rw [if_pos hz, if_pos hz]
    split_ifs <;> rfl
  · rw [if_neg hz, if_neg hz, modify_getElem?]
    have hpos : asap.toNat ≠ 0 := fun h => hz (UInt16.toNat_inj.mp h)
    have hsame : (a ≠ 0 ∧ a.toNat - 1 = asap.toNat - 1) ↔ a = asap := by
      constructor
      · rintro ⟨hne, he⟩
        have : a.toNat ≠ 0 := fun h => hne (UInt16.toNat_inj.mp h)
        exact UInt16.toNat_inj.mp (by omega)
      · rintro rfl
        exact ⟨hz, rfl⟩
    simp only [hsame]

/-- After the same idempotent change to several objects, each of them has seen it once. -/
theorem foldl_modify_get {f : GroupObject → GroupObject} (once : ∀ go, f (f go) = f go)
    (keeps : ∀ go, (f go).asap = go.asap) (p : UInt16 → Bool) (asaps : List UInt16)
    (s : GroupObjectStore) (asap : UInt16) :
    (asaps.foldl (fun s a => if p a then s.modify a f keeps else s) s).get asap =
      if asap ∈ asaps ∧ p asap = true then (s.get asap).map f else s.get asap := by
  induction asaps generalizing s with
  | nil => rfl
  | cons a asaps ih =>
    rw [List.foldl_cons, ih]
    by_cases ha : a = asap
    · subst ha
      by_cases hp : p a = true
      · rw [if_pos hp, modify_get, if_pos rfl]
        simp [hp, Function.comp_def, once]
      · simp [hp]
    · have hmem : asap ∈ a :: asaps ↔ asap ∈ asaps := by
        rw [List.mem_cons]
        exact or_iff_right (Ne.symm ha)
      simp only [hmem]
      by_cases hp : p a = true
      · rw [if_pos hp, modify_get, if_neg ha]
      · rw [if_neg hp]

theorem nextPending_get {s : GroupObjectStore} {asap : UInt16} (h : s.nextPending = some asap) :
    asap ≠ 0 ∧ ∃ go, s.objects[asap.toNat - 1]? = some go ∧ go.isPending = true := by
  obtain ⟨go, hfind, rfl⟩ := Option.map_eq_some_iff.mp h
  obtain ⟨i, hi, hgo⟩ := List.mem_iff_getElem.mp (List.mem_of_find?_eq_some hfind)
  have hnum := s.numbered i hi
  simp only [List.get_eq_getElem, hgo] at hnum
  refine ⟨?_, go, ?_, List.find?_some hfind⟩
  · intro h0
    rw [h0] at hnum
    cases hnum
  · rw [hnum, Nat.add_sub_cancel, List.getElem?_eq_getElem hi, hgo]

def pendingCount (s : GroupObjectStore) : Nat := s.objects.countP GroupObject.isPending

theorem countP_modify {β : Type} {p : β → Bool} {f : β → β} (hf : ∀ x, p (f x) = false)
    {xs : List β} {i : Nat} {x : β} (hx : xs[i]? = some x) (hp : p x = true) :
    (xs.modify i f).countP p + 1 = xs.countP p := by
  induction xs generalizing i with
  | nil => cases hx
  | cons y ys ih =>
    cases i with
    | zero =>
      obtain rfl : y = x := by simpa using hx
      simp [hf, hp]
    | succ n =>
      have hrest := ih (i := n) (by simpa using hx)
      simp only [List.modify_succ_cons, List.countP_cons]
      omega

/-- Each round of the polling loop takes one object out of the pending ones. -/
theorem pendingCount_modify {s : GroupObjectStore} {asap : UInt16}
    (h : s.nextPending = some asap) {f : GroupObject → GroupObject}
    (keeps : ∀ go, (f go).asap = go.asap) (done : ∀ go, (f go).isPending = false) :
    (s.modify asap f keeps).pendingCount + 1 = s.pendingCount := by
  obtain ⟨hne, go, hgo, hpending⟩ := nextPending_get h
  rw [pendingCount, modify_objects s hne]
  exact countP_modify done hgo hpending

end GroupObjectStore
end KnxRs.GroupObjects
