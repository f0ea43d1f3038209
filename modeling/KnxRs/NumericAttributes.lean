import KnxRs.HashInformation
import KnxRs.Fallible

set_option autoImplicit false

/-!
# Numeric attributes

An element is serialized when every value that the registry reads as a number is one of its
type. Any other value is written.
-/
namespace KnxRs.Hash
open Texts XmlDocuments XmlScan Renumber Fallible

/-! ## Types -/

def AttrType.isNumeric : AttrType → Bool
  | .uint16 | .uint32 | .int32 | .int64 | .byte => true
  | .string | .applProgId | .bool | .double => false

def AttrType.parses : AttrType → Text → Bool
  | .uint16, v => (parseUnsigned 16 v).isSome
  | .uint32, v => (parseUnsigned 32 v).isSome
  | .int32, v => (parseSigned 32 v).isSome
  | .int64, v => (parseSigned 64 v).isSome
  | .byte, v => (parseUnsigned 8 v).isSome
  | .string, _ | .applProgId, _ | .bool, _ => true
  | .double, _ => false

variable {lib : Library}

theorem typedValue_isSome (lib : Library) {t : AttrType} (h : t ≠ .double) (v : Text) :
    (typedValue lib t v).isSome = t.parses v := by
  cases t with
  | double => exact absurd rfl h
  | _ => simp [typedValue, AttrType.parses]

theorem parses_of_not_numeric {t : AttrType} (h : t ≠ .double) (ht : t.isNumeric = false)
    (v : Text) : t.parses v = true := by
  cases t with
  | double => exact absurd rfl h
  | string | applProgId | bool => rfl
  | _ => cases ht

/-- An empty value counts as missing. -/
def AttrType.accepts (t : AttrType) (v : Text) : Prop := v = [] ∨ t.parses v = true

/-- The default is one of the type, if there is one. -/
def AttrInfo.isSound (info : AttrInfo) : Bool :=
  info.attrType ≠ .double && info.default.all info.attrType.parses

theorem writeAttr_succeeds {info : AttrInfo} (sound : info.isSound = true) (raw : Option Text) :
    Succeeds (writeAttr lib info raw) ↔ ∀ v, raw = some v → info.attrType.accepts v := by
  unfold AttrInfo.isSound at sound
  rw [Bool.and_eq_true, decide_eq_true_eq] at sound
  obtain ⟨htype, hdefault⟩ := sound
  have htyped {raw : Option Text} {v : Text}
      (heffective : (raw.filter fun s => s ≠ []).or info.default = some v) :
      Succeeds (writeAttr lib info raw) ↔ info.attrType.parses v = true := by
    rw [← typedValue_isSome lib htype]
    unfold writeAttr
    dsimp only
    rw [heffective]
    dsimp only
    cases typedValue lib info.attrType v with
    | none =>
      refine ⟨?_, fun h => absurd h Bool.false_ne_true⟩
      rintro ⟨_, h⟩
      cases h
    | some octets => exact ⟨fun _ => rfl, fun _ => ⟨_, rfl⟩⟩
  have hmissing : Succeeds (writeAttr lib info none) := by
    cases hd : info.default with
    | none =>
      unfold writeAttr
      rw [hd]
      exact ⟨_, rfl⟩
    | some d =>
      rw [hd] at hdefault
      exact (@htyped none d hd).mpr hdefault
  cases raw with
  | none =>
    refine ⟨fun _ v h => ?_, fun _ => hmissing⟩
    cases h
  | some v =>
    have hsome : Succeeds (writeAttr lib info (some v)) ↔ info.attrType.accepts v := by
      by_cases hv : v = []
      · subst hv
        exact ⟨fun _ => .inl rfl, fun _ => hmissing⟩
      · have heffective : ((some v).filter fun s => s ≠ []).or info.default = some v := by
          rw [Option.filter_some, if_pos (decide_eq_true hv)]
          rfl
        rw [htyped heffective]
        exact ⟨.inr, fun h => h.resolve_left hv⟩
    rw [hsome]
    exact ⟨fun h w hw => Option.some.inj hw ▸ h, fun h => h v rfl⟩

/-! ### Decimal numbers -/

def AttrType.limit : AttrType → Nat
  | .byte => 2 ^ 8
  | .uint16 => 2 ^ 16
  | .uint32 => 2 ^ 32
  | .int32 => 2 ^ 31
  | .int64 => 2 ^ 63
  | .string | .applProgId | .bool | .double => 0

theorem decimal_accepted {t : AttrType} (h : t.isNumeric = true) (n : Nat) :
    t.accepts (decimal n) ↔ n < t.limit := by
  have hparses : t.accepts (decimal n) ↔ t.parses (decimal n) = true :=
    ⟨fun ha => ha.resolve_left (decimal_ne_nil n), .inr⟩
  rw [hparses]
  cases t with
  | string | applProgId | bool | double => cases h
  | byte | uint16 | uint32 =>
    rw [AttrType.parses, parseUnsigned_decimal]
    exact Option.isSome_ite
  | int32 | int64 =>
    rw [AttrType.parses, parseSigned_decimal]
    exact Option.isSome_ite

/-! ## Elements -/

def registeredAttrs (name : Text) : List AttrInfo :=
  match registry name with
  | none => []
  | some info =>
    match info.kind with
    | .attrs attributes _ => attributes
    | .innerTextBase64 _ | .innerTextUInt32 _ | .innerTextString _ => []

def numericAttrs (name : Text) : List (Text × AttrType) :=
  ((registeredAttrs name).filter fun info => info.attrType.isNumeric).map fun info =>
    (info.xmlName, info.attrType)

def Library.read (lib : Library) (raw : Text) : Text := (lib.normalizedValue raw).getD raw

theorem attrMap_eq_some {e : Element}
    (distinct : (e.attributes.map fun attr => localName attr.1).Nodup) {name value : Text} :
    (attrMap lib e).lookup name = some value ↔
      ∃ attr ∈ e.attributes, localName attr.1 = name ∧ lib.read attr.2 = value := by
  have hmem : (name, value) ∈ attrMap lib e ↔
      ∃ attr ∈ e.attributes, localName attr.1 = name ∧ lib.read attr.2 = value := by
    unfold attrMap
    rw [List.mem_reverse, List.mem_map]
    simp only [Prod.mk.injEq]
    rfl
  rw [← hmem]
  constructor
  · intro h
    obtain ⟨before, after, heq, _⟩ := List.lookup_eq_some_iff.mp h
    rw [heq]
    exact List.mem_append_right _ List.mem_cons_self
  · refine lookup_of_mem ?_
    rw [attrMap_keys]
    exact List.nodup_reverse.mpr distinct

theorem serializeRegistryAttrs_succeeds {info : ElementInfo} {e : Element}
    (hinfo : registry (localName e.name) = some info)
    (sound : ∀ a ∈ registeredAttrs (localName e.name), a.isSound = true) :
    Succeeds (serializeRegistryAttrs lib info e) ↔
      ∀ a ∈ registeredAttrs (localName e.name), ∀ v, (attrMap lib e).lookup a.xmlName = some v →
        a.attrType.accepts v := by
  unfold registeredAttrs at sound ⊢
  rw [hinfo] at sound ⊢
  dsimp only at sound ⊢
  unfold serializeRegistryAttrs
  cases hkind : info.kind with
  | attrs attributes sortAttr =>
    rw [hkind] at sound
    dsimp only at sound ⊢
    refine (succeeds_bind_ok _ _).trans ((succeeds_mapM _ _).trans ?_)
    exact forall₂_congr fun a ha => writeAttr_succeeds (sound a ha) _
  | _ => exact ⟨fun _ _ h => absurd h List.not_mem_nil, fun _ => ⟨_, rfl⟩⟩

theorem resultOf_succeeds {e : Element}
    (distinct : (e.attributes.map fun attr => localName attr.1).Nodup)
    (sound : ∀ a ∈ registeredAttrs (localName e.name), a.isSound = true) (parentName : Text)
    (stream : Octets) : Succeeds (resultOf lib parentName e stream) ↔
      ∀ attr ∈ e.attributes, ∀ t, (localName attr.1, t) ∈ numericAttrs (localName e.name) →
        t.accepts (lib.read attr.2) := by
  have hresult : Succeeds (resultOf lib parentName e stream) ↔
      ∀ a ∈ registeredAttrs (localName e.name), ∀ v, (attrMap lib e).lookup a.xmlName = some v →
        a.attrType.accepts v := by
    unfold resultOf
    cases hinfo : registry (localName e.name) with
    | none =>
      unfold registeredAttrs
      rw [hinfo]
      exact ⟨fun _ _ h => absurd h List.not_mem_nil, fun _ => ⟨_, rfl⟩⟩
    | some info =>
      exact (succeeds_bind_ok _ _).trans (serializeRegistryAttrs_succeeds hinfo sound)
  rw [hresult]
  constructor
  · intro h attr hattr t ht
    obtain ⟨a, ha, heq⟩ := List.mem_map.mp ht
    obtain ⟨hname, rfl⟩ := Prod.mk.inj heq
    exact h a (List.mem_of_mem_filter ha) _ ((attrMap_eq_some distinct).mpr ⟨attr, hattr, hname.symm, rfl⟩)
  · intro h a ha v hv
    obtain ⟨attr, hattr, hname, rfl⟩ := (attrMap_eq_some distinct).mp hv
    cases hnumeric : a.attrType.isNumeric with
    | false =>
      have hdouble := of_decide_eq_true (Bool.and_eq_true_iff.mp (sound a ha)).1
      exact .inr (parses_of_not_numeric hdouble hnumeric _)
    | true =>
      refine h attr hattr a.attrType (List.mem_map.mpr ⟨a, List.mem_filter.mpr ⟨ha, hnumeric⟩, ?_⟩)
      rw [hname]

end KnxRs.Hash
