import KnxRs.AuthoredDocuments
import Mathlib.Data.List.Perm.Basic
import Mathlib.Data.List.Nodup

set_option autoImplicit false

/-!
# The ids of an authored product

A component of an id is encoded without the separators, and can be read back. So ids are
equal when their components are, and a catalog item refers to the hardware it names.
-/
namespace KnxRs.Author
open Texts

/-! ## Components -/

def hexValue (c : Char) : Nat := if c.isDigit then c.toNat - 48 else c.toNat - 55

theorem hexValue_upperDigit {n : Nat} (h : n < 16) : hexValue (upperDigit n) = n := by
  have digits : ∀ d : Fin 16, hexValue (upperDigit d) = d := by decide
  exact digits ⟨n, h⟩

theorem upperDigit_isAlphanum {n : Nat} (h : n < 16) : (upperDigit n).isAlphanum = true := by
  have digits : ∀ d : Fin 16, (upperDigit d).isAlphanum = true := by decide
  exact digits ⟨n, h⟩

theorem upperHex_two (n : Nat) : upperHex 2 n = [upperDigit (n / 16 % 16), upperDigit (n % 16)] := by
  have hlow : n / 16 ^ 0 % 16 = n % 16 := by rw [pow_zero, Nat.div_one]
  have hhigh : n / 16 ^ 1 % 16 = n / 16 % 16 := by rw [pow_one]
  rw [← hlow, ← hhigh]
  rfl

def componentOctets : Text → List UInt8
  | '.' :: high :: low :: rest =>
    UInt8.ofNat (hexValue high * 16 + hexValue low) :: componentOctets rest
  | c :: rest => UInt8.ofNat c.toNat :: componentOctets rest
  | [] => []

theorem componentOctets_escape (b : UInt8) (rest : Text) :
    componentOctets ('.' :: (upperHex 2 b.toNat ++ rest)) = b :: componentOctets rest := by
  have hb := b.toNat_lt
  rw [upperHex_two, List.cons_append, List.cons_append, List.nil_append, componentOctets,
    hexValue_upperDigit (Nat.mod_lt _ (by decide)), hexValue_upperDigit (Nat.mod_lt _ (by decide)),
    show b.toNat / 16 % 16 * 16 + b.toNat % 16 = b.toNat by omega, UInt8.ofNat_toNat]

theorem componentOctets_escapes (octets : List UInt8) (rest : Text) :
    componentOctets ((octets.flatMap fun b => '.' :: upperHex 2 b.toNat) ++ rest) =
      octets ++ componentOctets rest := by
  induction octets with
  | nil => rfl
  | cons b octets ih =>
    rw [List.flatMap_cons, List.append_assoc, List.cons_append, componentOctets_escape, ih]
    rfl

theorem utf8_alphanumeric {c : Char} (h : isAsciiAlphanumeric c = true) :
    String.utf8EncodeChar c = [UInt8.ofNat c.toNat] ∧ c ≠ '.' := by
  have hname : XmlDocuments.isNameChar c = true := by
    unfold XmlDocuments.isNameChar
    rw [show c.isAlphanum = true from h]
    rfl
  have hoctet := XmlScan.nameChar_induction (P := fun c => isAsciiAlphanumeric c = true →
    String.utf8EncodeChar c = [UInt8.ofNat c.toNat] ∧ c ≠ '.') (by decide +kernel) hname
  exact hoctet h

theorem componentOctets_encode (s rest : Text) :
    componentOctets (encodeIdComponent s ++ rest) =
      s.flatMap String.utf8EncodeChar ++ componentOctets rest := by
  induction s with
  | nil => rfl
  | cons c s ih =>
    unfold encodeIdComponent at ih ⊢
    rw [List.flatMap_cons, List.flatMap_cons, List.append_assoc, List.append_assoc]
    split_ifs with hplain
    · obtain ⟨hoctet, hdot⟩ := utf8_alphanumeric hplain
      rw [hoctet, List.singleton_append, List.singleton_append, componentOctets, ih]
      exact fun _ _ _ hstart => absurd hstart hdot
    · rw [componentOctets_escapes, ih]

theorem utf8_injective {s t : Text}
    (h : s.flatMap String.utf8EncodeChar = t.flatMap String.utf8EncodeChar) : s = t := by
  refine String.ofList_injective (String.toByteArray_inj.mp ?_)
  rw [String.toByteArray_ofList, String.toByteArray_ofList, List.utf8Encode, List.utf8Encode, h]

theorem encodeIdComponent_injective : Function.Injective encodeIdComponent := by
  intro s t h
  have hoctets := congrArg componentOctets h
  have hs := componentOctets_encode s []
  have ht := componentOctets_encode t []
  rw [List.append_nil] at hs ht
  rw [hs, ht] at hoctets
  exact utf8_injective (List.append_cancel_right hoctets)

theorem encodeIdComponent_chars (s : Text) :
    ∀ c ∈ encodeIdComponent s, isAsciiAlphanumeric c = true ∨ c = '.' := by
  intro c hc
  obtain ⟨d, _, hd⟩ := List.mem_flatMap.mp hc
  split_ifs at hd with hplain
  · rw [List.mem_singleton.mp hd]
    exact .inl hplain
  · obtain ⟨b, _, hb⟩ := List.mem_flatMap.mp hd
    rcases List.mem_cons.mp hb with rfl | hdigit
    · exact .inr rfl
    · rw [upperHex_two] at hdigit
      have hlow := upperDigit_isAlphanum (Nat.mod_lt b.toNat (show 0 < 16 by decide))
      have hhigh := upperDigit_isAlphanum (Nat.mod_lt (b.toNat / 16) (show 0 < 16 by decide))
      simp only [List.mem_cons, List.not_mem_nil, or_false] at hdigit
      rcases hdigit with rfl | rfl
      · exact .inl hhigh
      · exact .inl hlow

theorem encodeIdComponent_separators (s : Text) :
    '-' ∉ encodeIdComponent s ∧ '_' ∉ encodeIdComponent s := by
  constructor
  · intro h
    rcases encodeIdComponent_chars s _ h with hplain | hdot
    · cases hplain
    · cases hdot
  · intro h
    rcases encodeIdComponent_chars s _ h with hplain | hdot
    · cases hplain
    · cases hdot

/-! ## Ids -/

def hardwareTail (serialNumber : Text) (versionNumber : Nat) : Text :=
  encodeIdComponent serialNumber ++ '-' :: decimal versionNumber

theorem hardwareTail_underscore (serialNumber : Text) (versionNumber : Nat) :
    '_' ∉ hardwareTail serialNumber versionNumber := by
  intro h
  rcases List.mem_append.mp h with h | h
  · exact (encodeIdComponent_separators serialNumber).2 h
  · rcases List.mem_cons.mp h with h | h
    · cases h
    · cases decimal_isDigit h

theorem hardwareTail_inj {s s' : Text} {v v' : Nat} (h : hardwareTail s v = hardwareTail s' v') :
    s = s' ∧ v = v' := by
  obtain ⟨hserial, hversion⟩ := split_unique (encodeIdComponent_separators s).1
    (encodeIdComponent_separators s').1 h
  exact ⟨encodeIdComponent_injective hserial, decimal_inj hversion⟩

/-- A text without a character, and what begins with it or is nothing, part in one way. -/
theorem part_unique {c : Char} {a b s t : Text} (ha : c ∉ a) (hb : c ∉ b)
    (hs : s = [] ∨ ∃ rest, s = c :: rest) (ht : t = [] ∨ ∃ rest, t = c :: rest)
    (h : a ++ s = b ++ t) : a = b ∧ s = t := by
  rcases hs with rfl | ⟨s, rfl⟩
  · rcases ht with rfl | ⟨t, rfl⟩
    · exact ⟨List.append_cancel_right h, rfl⟩
    · rw [List.append_nil] at h
      exact absurd (h ▸ List.mem_append_right b List.mem_cons_self) ha
  · rcases ht with rfl | ⟨t, rfl⟩
    · rw [List.append_nil] at h
      exact absurd (h ▸ List.mem_append_right a List.mem_cons_self) hb
    · obtain ⟨rfl, rfl⟩ := split_unique ha hb h
      exact ⟨rfl, rfl⟩

/-- What has an id under a hardware. -/
inductive Part where
  | hardware
  | product (orderNumber : Text)
  | program
  | catalogItem
  deriving DecidableEq

/-- What has an id in the catalog and the hardware of a product, by its identifying
components. -/
inductive Identity where
  | catalogSection (key : Text)
  | part (serialNumber : Text) (versionNumber : Nat) (part : Part)
  deriving DecidableEq

namespace AppProgram
variable (app : AppProgram)

def partSuffix (tail : Text) : Part → Text
  | .hardware => []
  | .product orderNumber => "_P-".toList ++ encodeIdComponent orderNumber
  | .program => "_HP-".toList ++ app.appTail
  | .catalogItem => "_HP-".toList ++ app.appTail ++ "_CI-".toList ++ tail

theorem partSuffix_program {tail : Text} :
    app.partSuffix tail .program = "_HP-".toList ++ app.appTail := rfl

theorem partSuffix_catalogItem {tail : Text} : app.partSuffix tail .catalogItem =
    "_HP-".toList ++ app.appTail ++ "_CI-".toList ++ tail := rfl

def identityId : Identity → Text
  | .catalogSection key => app.manufacturer ++ "_CS-".toList ++ encodeIdComponent key
  | .part serialNumber versionNumber part => app.hardwareId serialNumber versionNumber ++
      app.partSuffix (hardwareTail serialNumber versionNumber) part

theorem hardwareId_tail (s : Text) (v : Nat) :
    app.hardwareId s v = app.manufacturer ++ '_' :: 'H' :: '-' :: hardwareTail s v := by
  simp [hardwareId, hardwareTail]

theorem partSuffix_start (tail : Text) (part : Part) :
    app.partSuffix tail part = [] ∨ ∃ rest, app.partSuffix tail part = '_' :: rest := by
  cases part with
  | hardware => exact .inl rfl
  | product orderNumber => exact .inr ⟨_, rfl⟩
  | program => exact .inr ⟨_, rfl⟩
  | catalogItem => exact .inr ⟨_, rfl⟩

theorem partSuffix_inj {tail : Text} {part other : Part}
    (h : app.partSuffix tail part = app.partSuffix tail other) : part = other := by
  have apart {x y : Text} (h : "_P-".toList ++ x = "_HP-".toList ++ y) : False := by
    have hchars : '_' :: 'P' :: '-' :: x = '_' :: 'H' :: 'P' :: '-' :: y := h
    cases (List.cons.inj (List.cons.inj hchars).2).1
  have hitem : app.partSuffix tail .catalogItem =
      app.partSuffix tail .program ++ ("_CI-".toList ++ tail) := List.append_assoc _ _ _
  have longer : app.partSuffix tail .program ≠ app.partSuffix tail .catalogItem := by
    intro h
    rw [hitem, List.self_eq_append_right] at h
    cases h
  have hprogram (x : Text) : app.partSuffix tail .program ++ x =
      "_HP-".toList ++ (app.appTail ++ x) := List.append_assoc _ _ _
  cases part with
  | hardware =>
    cases other with
    | hardware => rfl
    | product orderNumber => cases h
    | program => cases h
    | catalogItem => cases h
  | product orderNumber =>
    cases other with
    | hardware => cases h
    | product orderNumber' =>
      rw [encodeIdComponent_injective (List.append_cancel_left h)]
    | program => exact (apart h).elim
    | catalogItem => exact (apart (h.trans (hitem.trans (hprogram _)))).elim
  | program =>
    cases other with
    | hardware => cases h
    | product orderNumber => exact (apart h.symm).elim
    | program => rfl
    | catalogItem => exact absurd h longer
  | catalogItem =>
    cases other with
    | hardware => cases h
    | product orderNumber => exact (apart (h.symm.trans (hitem.trans (hprogram _)))).elim
    | program => exact absurd h.symm longer
    | catalogItem => rfl

/-- No two things have one id. -/
theorem identityId_injective : Function.Injective app.identityId := by
  have apart {x y : Text} (h : app.manufacturer ++ "_CS-".toList ++ x =
      app.manufacturer ++ '_' :: 'H' :: '-' :: y) : False := by
    rw [List.append_assoc] at h
    have hchars : '_' :: 'C' :: 'S' :: '-' :: x = '_' :: 'H' :: '-' :: y := List.append_cancel_left h
    cases (List.cons.inj (List.cons.inj hchars).2).1
  have start (s : Text) (v : Nat) (part : Part) : app.identityId (.part s v part) =
      app.manufacturer ++ '_' :: 'H' :: '-' ::
        (hardwareTail s v ++ app.partSuffix (hardwareTail s v) part) := by
    rw [identityId, hardwareId_tail, List.append_assoc]
    rfl
  intro x y h
  cases x with
  | catalogSection key =>
    cases y with
    | catalogSection key' => rw [encodeIdComponent_injective (List.append_cancel_left h)]
    | part s v part => exact (apart (h.trans (start s v part))).elim
  | part s v part =>
    cases y with
    | catalogSection key => exact (apart (h.symm.trans (start s v part))).elim
    | part s' v' part' =>
      rw [start, start] at h
      have hchars := List.append_cancel_left h
      have hrest := (List.cons.inj (List.cons.inj (List.cons.inj hchars).2).2).2
      obtain ⟨htail, hsuffix⟩ := part_unique (hardwareTail_underscore s v)
        (hardwareTail_underscore s' v') (app.partSuffix_start _ part)
        (app.partSuffix_start _ part') hrest
      obtain ⟨rfl, rfl⟩ := hardwareTail_inj htail
      rw [app.partSuffix_inj hsuffix]

theorem hardwareId_iff {s s' : Text} {v v' : Nat} :
    app.hardwareId s v = app.hardwareId s' v' ↔ s = s' ∧ v = v' := by
  have same (s : Text) (v : Nat) : app.identityId (.part s v .hardware) = app.hardwareId s v :=
    List.append_nil _
  rw [← same, ← same, app.identityId_injective.eq_iff]
  simp

theorem productId_part (s : Text) (v : Nat) (orderNumber : Text) :
    productId (app.hardwareId s v) orderNumber =
      app.identityId (.part s v (.product orderNumber)) :=
  List.append_assoc _ _ _

theorem productId_iff {s s' orderNumber orderNumber' : Text} {v v' : Nat} :
    productId (app.hardwareId s v) orderNumber = productId (app.hardwareId s' v') orderNumber' ↔
      s = s' ∧ v = v' ∧ orderNumber = orderNumber' := by
  rw [productId_part, productId_part, app.identityId_injective.eq_iff]
  simp

theorem catalogSectionId_iff {key key' : Text} :
    app.identityId (.catalogSection key) = app.identityId (.catalogSection key') ↔ key = key' := by
  rw [app.identityId_injective.eq_iff]
  simp

theorem paramTypeXmlId_iff {type type' : ParameterType} :
    app.paramTypeXmlId type = app.paramTypeXmlId type' ↔ type.name = type'.name :=
  ⟨fun h => encodeIdComponent_injective (List.append_cancel_left h),
    fun h => by rw [paramTypeXmlId, h, paramTypeXmlId]⟩

def slashed (path : Text) : Text := path.map fun c => if c = '\\' then '/' else c

theorem baggageId_iff {b b' : Baggage} :
    app.baggageId b = app.baggageId b' ↔
      slashed b.targetPath = slashed b'.targetPath ∧ b.name = b'.name := by
  have parts (b : Baggage) : app.baggageId b = app.manufacturer ++ "_BG-".toList ++
      (encodeIdComponent (slashed b.targetPath) ++ '-' :: encodeIdComponent b.name) := by
    simp [baggageId, slashed]
  rw [parts, parts]
  constructor
  · intro h
    obtain ⟨hpath, hname⟩ := split_unique (encodeIdComponent_separators _).1
      (encodeIdComponent_separators _).1 (List.append_cancel_left h)
    exact ⟨encodeIdComponent_injective hpath, encodeIdComponent_injective hname⟩
  · rintro ⟨hpath, hname⟩
    rw [hpath, hname]

/-! ## References of the catalog -/

def Declares (lines : List Line) (name : String) (id : Text) : Prop :=
  ∃ line ∈ lines, line.name = name ∧ ("Id", Value.plain id) ∈ line.attributes

theorem Declares.mono {lines more : List Line} {name : String} {id : Text}
    (h : Declares lines name id) (hsub : lines ⊆ more) : Declares more name id := by
  obtain ⟨line, hline, hname⟩ := h
  exact ⟨line, hsub hline, hname⟩

theorem node_subset (indent : Nat) (name : String) (attributes : Attributes) (inner : List Line) :
    inner ⊆ node indent name attributes inner :=
  fun _ h => List.mem_cons_of_mem _ (List.mem_append_left _ h)

theorem writeHardware_subset (info : ProgramInfo) (createdBy toolVersion : Text) :
    app.writeHardware 6 ⊆ app.documentLines info createdBy toolVersion := by
  have hmanufacturer : app.writeHardware 6 ⊆ app.writeManufacturer info 6 := by
    intro line hline
    unfold writeManufacturer
    exact List.mem_append_left _ (List.mem_append_right _ hline)
  intro line hline
  exact node_subset _ _ _ _ (node_subset _ _ _ _ (node_subset _ _ _ _ (hmanufacturer hline)))

theorem writeHardwareEntry_subset {hw : Hardware} (h : hw ∈ app.hardware) :
    app.writeHardwareEntry 8 hw ⊆ app.writeHardware 6 := by
  intro line hline
  unfold writeHardware unlessEmpty
  rw [if_neg (by simpa using List.ne_nil_of_mem h)]
  exact node_subset _ _ _ _ (List.mem_flatMap.mpr ⟨hw, h, hline⟩)

theorem declares_product {hw : Hardware} {p : Product} (h : p ∈ hw.products) :
    Declares (app.writeHardwareEntry 8 hw) "Product"
      (productId (app.hardwareId hw.serialNumber hw.versionNumber) p.orderNumber) := by
  refine ⟨_, node_subset _ _ _ _ (List.mem_append_left _ (node_subset _ _ _ _
    (List.mem_flatMap.mpr ⟨p, h, List.mem_cons_self⟩))), rfl, List.mem_cons_self⟩

theorem declares_program {hw : Hardware} (h : hw.programs ≠ []) :
    Declares (app.writeHardwareEntry 8 hw) "Hardware2Program"
      (app.hardwareId hw.serialNumber hw.versionNumber ++ "_HP-".toList ++ app.appTail) := by
  obtain ⟨prog, hprog⟩ := List.exists_mem_of_ne_nil _ h
  exact ⟨_, node_subset _ _ _ _ (List.mem_append_right _ (node_subset _ _ _ _
    (List.mem_flatMap.mpr ⟨prog, hprog, List.mem_cons_self⟩))), rfl, List.mem_cons_self⟩

/-- The hardware that a catalog item names is registered, with its product and a program. -/
def Registers (app : AppProgram) (item : CatalogItem) : Prop :=
  ∃ hw ∈ app.hardware, hw.serialNumber = item.serialNumber ∧
    hw.versionNumber = item.versionNumber ∧
    (∃ p ∈ hw.products, p.orderNumber = item.orderNumber) ∧ hw.programs ≠ []

theorem item_declared {item : CatalogItem} (h : app.Registers item) (info : ProgramInfo)
    (createdBy toolVersion : Text) (indent : Nat) :
    ∃ product program,
      ("ProductRefId", Value.plain product) ∈ (app.writeCatalogItem indent item).attributes ∧
      ("Hardware2ProgramRefId", Value.plain program) ∈
        (app.writeCatalogItem indent item).attributes ∧
      Declares (app.documentLines info createdBy toolVersion) "Product" product ∧
      Declares (app.documentLines info createdBy toolVersion) "Hardware2Program" program := by
  obtain ⟨hw, hhw, hserial, hversion, ⟨p, hp, horder⟩, hprograms⟩ := h
  have hentry : app.writeHardwareEntry 8 hw ⊆ app.documentLines info createdBy toolVersion :=
    List.Subset.trans (app.writeHardwareEntry_subset hhw)
      (app.writeHardware_subset info createdBy toolVersion)
  refine ⟨_, _, ?_, ?_, ((app.declares_product hp).mono hentry),
    ((app.declares_program hprograms).mono hentry)⟩
  · rw [hserial, hversion, horder]
    simp [writeCatalogItem, Line.attributes]
  · rw [hserial, hversion]
    simp [writeCatalogItem, Line.attributes]

/-- The encoding of components is one to one, without separators. So ids of one kind are equal
exactly when their components are, and what a catalog item refers to is declared. -/
theorem ids_identify (info : ProgramInfo) (createdBy toolVersion : Text) :
    Function.Injective encodeIdComponent ∧
    (∀ s, ∀ c ∈ encodeIdComponent s, isAsciiAlphanumeric c = true ∨ c = '.') ∧
    (∀ hw hw' : Hardware, app.hardwareId hw.serialNumber hw.versionNumber =
        app.hardwareId hw'.serialNumber hw'.versionNumber ↔
      hw.serialNumber = hw'.serialNumber ∧ hw.versionNumber = hw'.versionNumber) ∧
    (∀ (hw hw' : Hardware) (p p' : Product),
      productId (app.hardwareId hw.serialNumber hw.versionNumber) p.orderNumber =
        productId (app.hardwareId hw'.serialNumber hw'.versionNumber) p'.orderNumber ↔
      hw.serialNumber = hw'.serialNumber ∧ hw.versionNumber = hw'.versionNumber ∧
        p.orderNumber = p'.orderNumber) ∧
    (∀ sect sect' : CatalogSection,
      app.manufacturer ++ "_CS-".toList ++ encodeIdComponent sect.key =
        app.manufacturer ++ "_CS-".toList ++ encodeIdComponent sect'.key ↔
      sect.key = sect'.key) ∧
    (∀ type type' : ParameterType,
      app.paramTypeXmlId type = app.paramTypeXmlId type' ↔ type.name = type'.name) ∧
    (∀ b b' : Baggage, app.baggageId b = app.baggageId b' ↔
      slashed b.targetPath = slashed b'.targetPath ∧ b.name = b'.name) ∧
    ∀ sect ∈ app.catalogSections, ∀ item ∈ sect.items, app.Registers item →
      ∀ indent, ∃ product program,
        ("ProductRefId", Value.plain product) ∈ (app.writeCatalogItem indent item).attributes ∧
        ("Hardware2ProgramRefId", Value.plain program) ∈
          (app.writeCatalogItem indent item).attributes ∧
        Declares (app.documentLines info createdBy toolVersion) "Product" product ∧
        Declares (app.documentLines info createdBy toolVersion) "Hardware2Program" program :=
  ⟨encodeIdComponent_injective, encodeIdComponent_chars, fun _ _ => app.hardwareId_iff,
    fun _ _ _ _ => app.productId_iff, fun _ _ => app.catalogSectionId_iff,
    fun _ _ => app.paramTypeXmlId_iff, fun _ _ => app.baggageId_iff,
    fun _ _ _ _ h indent => app.item_declared h info createdBy toolVersion indent⟩

/-! ## All ids of the catalog and the hardware -/

def lineIds (line : Line) : List Text :=
  (line.attributes.filter fun a => a.1 = "Id").map fun a => a.2.written

def idsOf (lines : List Line) : List Text := lines.flatMap lineIds

theorem idsOf_append (lines more : List Line) : idsOf (lines ++ more) = idsOf lines ++ idsOf more :=
  List.flatMap_append

theorem idsOf_flatMap {α : Type} (xs : List α) (f : α → List Line) :
    idsOf (xs.flatMap f) = xs.flatMap fun x => idsOf (f x) :=
  List.flatMap_assoc

theorem idsOf_node (indent : Nat) (name : String) (attributes : Attributes) (inner : List Line) :
    idsOf (node indent name attributes inner) =
      lineIds (.opening indent name attributes) ++ idsOf inner := by
  have hclosing : idsOf [.closing indent name] = [] := rfl
  rw [node, ← List.singleton_append, idsOf_append, idsOf_append, hclosing, List.append_nil]
  exact congrArg (· ++ idsOf inner) (List.append_nil _)

theorem idsOf_unlessEmpty {α β : Type} (xs : List α) (lines : List Line) (f : α → List β)
    (g : β → Text) (h : idsOf lines = (xs.flatMap f).map g) :
    idsOf (unlessEmpty xs lines) = (xs.flatMap f).map g := by
  unfold unlessEmpty
  split_ifs with hempty
  · rw [List.isEmpty_iff.mp hempty]
    rfl
  · exact h

def catalogIdentities (sect : CatalogSection) : List Identity :=
  .catalogSection sect.key ::
    sect.items.map fun item => .part item.serialNumber item.versionNumber .catalogItem

def hardwareIdentities (hw : Hardware) : List Identity :=
  .part hw.serialNumber hw.versionNumber .hardware ::
    ((hw.products.map fun p =>
        Identity.part hw.serialNumber hw.versionNumber (.product p.orderNumber)) ++
      hw.programs.map fun _ => Identity.part hw.serialNumber hw.versionNumber .program)

theorem writeCatalogItem_ids (indent : Nat) (item : CatalogItem) :
    lineIds (app.writeCatalogItem indent item) =
      [app.identityId (.part item.serialNumber item.versionNumber .catalogItem)] := by
  simp [lineIds, writeCatalogItem, Line.attributes, Value.written, identityId,
    partSuffix_catalogItem,
    hardwareTail]

theorem writeCatalogSection_ids (indent : Nat) (sect : CatalogSection) :
    idsOf (app.writeCatalogSection indent sect) =
      (catalogIdentities sect).map app.identityId := by
  have hsection : lineIds (.opening indent "CatalogSection"
      [("Id", .plain (app.manufacturer ++ "_CS-".toList ++ encodeIdComponent sect.key)),
        ("Name", .given sect.name), ("Number", .given sect.number),
        ("DefaultLanguage", .given sect.defaultLanguage)]) =
      [app.identityId (.catalogSection sect.key)] := by
    simp [lineIds, Line.attributes, Value.written, identityId]
  have hitems : idsOf (sect.items.map (app.writeCatalogItem (indent + 2))) =
      sect.items.map fun item =>
        app.identityId (.part item.serialNumber item.versionNumber .catalogItem) := by
    rw [idsOf, List.flatMap_map]
    simp only [writeCatalogItem_ids]
    exact List.map_eq_flatMap.symm
  rw [writeCatalogSection, idsOf_node, hsection, hitems, catalogIdentities, List.map_cons,
    List.map_map]
  rfl

theorem writeCatalog_ids (indent : Nat) :
    idsOf (app.writeCatalog indent) =
      (app.catalogSections.flatMap catalogIdentities).map app.identityId := by
  refine idsOf_unlessEmpty _ _ _ _ ?_
  rw [idsOf_node, idsOf_flatMap, List.map_flatMap]
  simp only [writeCatalogSection_ids]
  rfl

theorem writeProduct_ids (indent : Nat) (s : Text) (v : Nat) (p : Product) :
    idsOf (writeProduct indent (app.hardwareId s v) p) =
      [app.identityId (.part s v (.product p.orderNumber))] := by
  rw [← productId_part, writeProduct, idsOf_node]
  simp [idsOf, lineIds, Line.attributes, Value.written, constant]

theorem writeHardware2Program_ids (indent : Nat) (s : Text) (v : Nat) (prog : Hardware2Program) :
    idsOf (app.writeHardware2Program indent (app.hardwareId s v) prog) =
      [app.identityId (.part s v .program)] := by
  rw [writeHardware2Program, idsOf_node]
  simp [idsOf, lineIds, Line.attributes, Value.written, constant, identityId, partSuffix_program]

theorem writeHardwareEntry_ids (indent : Nat) (hw : Hardware) :
    idsOf (app.writeHardwareEntry indent hw) = (hardwareIdentities hw).map app.identityId := by
  have hself : app.identityId (.part hw.serialNumber hw.versionNumber .hardware) =
      app.hardwareId hw.serialNumber hw.versionNumber := List.append_nil _
  rw [writeHardwareEntry, idsOf_node, idsOf_append, idsOf_node, idsOf_node, idsOf_flatMap,
    idsOf_flatMap]
  simp only [writeProduct_ids, writeHardware2Program_ids, ← List.map_eq_flatMap]
  rw [hardwareIdentities, List.map_cons, List.map_append, List.map_map, List.map_map, hself]
  have hhead : lineIds (.opening indent "Hardware"
      [("Id", .plain (app.hardwareId hw.serialNumber hw.versionNumber)), ("Name", .given hw.name),
        ("SerialNumber", .given hw.serialNumber), number "VersionNumber" hw.versionNumber,
        number "BusCurrent" hw.busCurrent,
        ("HasIndividualAddress", .plain (xmlBool hw.hasIndividualAddress)),
        ("HasApplicationProgram", .plain (xmlBool hw.hasApplicationProgram))]) =
      [app.hardwareId hw.serialNumber hw.versionNumber] := by
    simp [lineIds, Line.attributes, Value.written, number]
  rw [hhead]
  rfl

theorem writeHardware_ids (indent : Nat) :
    idsOf (app.writeHardware indent) =
      (app.hardware.flatMap hardwareIdentities).map app.identityId := by
  refine idsOf_unlessEmpty _ _ _ _ ?_
  rw [idsOf_node, idsOf_flatMap, List.map_flatMap]
  simp only [writeHardwareEntry_ids]
  rfl

/-- What is registered, with the identifying components of each kind distinct. -/
structure Distinct : Prop where
  hardware : (app.hardware.map fun hw => (hw.serialNumber, hw.versionNumber)).Nodup
  products : ∀ hw ∈ app.hardware, (hw.products.map Product.orderNumber).Nodup
  programs : ∀ hw ∈ app.hardware, hw.programs.length ≤ 1
  sections : (app.catalogSections.map CatalogSection.key).Nodup
  items : ((app.catalogSections.flatMap CatalogSection.items).map fun item =>
    (item.serialNumber, item.versionNumber, item.orderNumber)).Nodup

/-- The catalog items are of different hardware. -/
def ItemsApart : Prop :=
  ((app.catalogSections.flatMap CatalogSection.items).map fun item =>
    (item.serialNumber, item.versionNumber)).Nodup

theorem catalogIdentities_nodup (h : (app.catalogSections.map CatalogSection.key).Nodup) :
    (app.catalogSections.flatMap catalogIdentities).Nodup ↔ app.ItemsApart := by
  have hperm := List.map_append_flatMap_perm app.catalogSections
    (fun sect => Identity.catalogSection sect.key) (fun sect => sect.items.map fun item =>
      Identity.part item.serialNumber item.versionNumber .catalogItem)
  have hsections : (app.catalogSections.map fun sect => Identity.catalogSection sect.key).Nodup := by
    have hkeys := h.map (f := Identity.catalogSection) fun _ _ hsame => Identity.catalogSection.inj hsame
    rwa [List.map_map] at hkeys
  have hitems : (app.catalogSections.flatMap fun sect => sect.items.map fun item =>
      Identity.part item.serialNumber item.versionNumber .catalogItem) =
      ((app.catalogSections.flatMap CatalogSection.items).map fun item =>
        (item.serialNumber, item.versionNumber)).map
          fun owner => Identity.part owner.1 owner.2 .catalogItem := by
    rw [List.map_map, List.map_flatMap]
    rfl
  have hpart : Function.Injective
      fun owner : Text × Nat => Identity.part owner.1 owner.2 .catalogItem := by
    rintro ⟨s, v⟩ ⟨s', v'⟩ hsame
    cases hsame
    rfl
  unfold catalogIdentities
  rw [← hperm.nodup_iff, List.nodup_append', hitems, List.nodup_map_iff hpart]
  refine ⟨fun hnodup => hnodup.2.1, fun hapart => ⟨hsections, hapart, ?_⟩⟩
  intro x hsection hitem
  obtain ⟨_, _, rfl⟩ := List.mem_map.mp hsection
  obtain ⟨_, _, hx⟩ := List.mem_map.mp hitem
  cases hx

theorem hardwareEntry_nodup {hw : Hardware} (hproducts : (hw.products.map Product.orderNumber).Nodup)
    (hprograms : hw.programs.length ≤ 1) : (hardwareIdentities hw).Nodup := by
  have hproduct : (hw.products.map fun p =>
      Identity.part hw.serialNumber hw.versionNumber (.product p.orderNumber)).Nodup := by
    have hmap := hproducts.map
      (f := fun orderNumber => Identity.part hw.serialNumber hw.versionNumber (.product orderNumber))
      fun _ _ hsame => Part.product.inj (Identity.part.inj hsame).2.2
    rwa [List.map_map] at hmap
  have hprogram : (hw.programs.map fun _ =>
      Identity.part hw.serialNumber hw.versionNumber .program).Nodup := by
    rcases hlist : hw.programs with _ | ⟨prog, _ | ⟨second, rest⟩⟩
    · exact List.nodup_nil
    · exact List.nodup_singleton _
    · rw [hlist] at hprograms
      simp at hprograms
  refine List.nodup_cons.mpr ⟨fun hself => ?_, List.nodup_append'.mpr ⟨hproduct, hprogram, ?_⟩⟩
  · rcases List.mem_append.mp hself with hself | hself
    · obtain ⟨_, _, hself⟩ := List.mem_map.mp hself
      cases (Identity.part.inj hself).2.2
    · obtain ⟨_, _, hself⟩ := List.mem_map.mp hself
      cases (Identity.part.inj hself).2.2
  · intro x hx hx'
    obtain ⟨_, _, rfl⟩ := List.mem_map.mp hx
    obtain ⟨_, _, hsame⟩ := List.mem_map.mp hx'
    cases (Identity.part.inj hsame).2.2

theorem hardwareIdentities_owner {hw : Hardware} {x : Identity} (hx : x ∈ hardwareIdentities hw) :
    ∃ part, part ≠ .catalogItem ∧ x = .part hw.serialNumber hw.versionNumber part := by
  rcases List.mem_cons.mp hx with rfl | hx
  · exact ⟨_, by decide, rfl⟩
  · rcases List.mem_append.mp hx with hx | hx
    · obtain ⟨p, _, rfl⟩ := List.mem_map.mp hx
      exact ⟨_, Part.noConfusion, rfl⟩
    · obtain ⟨_, _, rfl⟩ := List.mem_map.mp hx
      exact ⟨_, by decide, rfl⟩

theorem hardwareIdentities_nodup (h : app.Distinct) :
    (app.hardware.flatMap hardwareIdentities).Nodup := by
  rw [List.nodup_flatMap]
  constructor
  · exact fun hw hhw => hardwareEntry_nodup (h.products hw hhw) (h.programs hw hhw)
  · refine (List.pairwise_map.mp h.hardware).imp ?_
    intro hw hw' hne x hx hx'
    obtain ⟨part, _, rfl⟩ := hardwareIdentities_owner hx
    obtain ⟨part', _, hsame⟩ := hardwareIdentities_owner hx'
    obtain ⟨hserial, hversion, _⟩ := Identity.part.inj hsame
    exact hne (Prod.ext hserial hversion)

/-- The ids of a product whose entries are distinct are distinct exactly when its catalog items
are of different hardware. -/
theorem product_ids_nodup (h : app.Distinct) (indent indent' : Nat) :
    (idsOf (app.writeCatalog indent ++ app.writeHardware indent')).Nodup ↔ app.ItemsApart := by
  rw [idsOf_append, writeCatalog_ids, writeHardware_ids, ← List.map_append,
    List.nodup_map_iff app.identityId_injective, List.nodup_append',
    app.catalogIdentities_nodup h.sections]
  refine ⟨fun hnodup => hnodup.1, fun hapart => ⟨hapart, app.hardwareIdentities_nodup h, ?_⟩⟩
  intro x hcatalog hhardware
  obtain ⟨hw, _, hx⟩ := List.mem_flatMap.mp hhardware
  obtain ⟨part, hpart, rfl⟩ := hardwareIdentities_owner hx
  obtain ⟨sect, _, hx⟩ := List.mem_flatMap.mp hcatalog
  rcases List.mem_cons.mp hx with hx | hx
  · cases hx
  · obtain ⟨_, _, hx⟩ := List.mem_map.mp hx
    exact hpart (Identity.part.inj hx).2.2.symm

end AppProgram

/-- Two order numbers of one hardware, each with its catalog item. -/
def pairProgram (second : String) : AppProgram :=
  { AppProgram.new "M-00FA_A-0001-01-0000".toList with
    catalogSections := [⟨"S".toList, "S".toList, "1".toList, "de-DE".toList,
      [⟨"A".toList, "1".toList, "0x01".toList, 1, "A".toList, "de-DE".toList⟩,
        ⟨"B".toList, "2".toList, second.toList, 1, "B".toList, "de-DE".toList⟩]⟩]
    hardware := [⟨"0x01".toList, 1, "H".toList, 10, true, true,
      [⟨"A".toList, "A".toList, true, "de-DE".toList⟩, ⟨"B".toList, "B".toList, true, "de-DE".toList⟩],
      [⟨"MT-0".toList, "0001/1".toList⟩]⟩] }

theorem pairProgram_references : ∃ sect item product program,
    sect ∈ (pairProgram "0x01").catalogSections ∧ item ∈ sect.items ∧ item.orderNumber = ['B'] ∧
    ("ProductRefId", Value.plain product) ∈
      ((pairProgram "0x01").writeCatalogItem 10 item).attributes ∧
    ("Hardware2ProgramRefId", Value.plain program) ∈
      ((pairProgram "0x01").writeCatalogItem 10 item).attributes ∧
    AppProgram.Declares ((pairProgram "0x01").documentLines helpInfo "xtask".toList "1.0".toList)
      "Product" product ∧
    AppProgram.Declares ((pairProgram "0x01").documentLines helpInfo "xtask".toList "1.0".toList)
      "Hardware2Program" program := by
  obtain ⟨_, _, _, _, _, _, _, declared⟩ :=
    AppProgram.ids_identify (pairProgram "0x01") helpInfo "xtask".toList "1.0".toList
  obtain ⟨product, program, hproduct⟩ := declared _ List.mem_cons_self _
    (List.mem_cons_of_mem _ List.mem_cons_self)
    ⟨_, List.mem_cons_self, by decide, rfl,
      ⟨_, List.mem_cons_of_mem _ List.mem_cons_self, by decide⟩, List.cons_ne_nil _ _⟩ 10
  exact ⟨_, _, product, program, List.mem_cons_self, List.mem_cons_of_mem _ List.mem_cons_self,
    by decide, hproduct⟩

theorem pairProgram_distinct : (pairProgram "0x02").Distinct where
  hardware := by decide
  products := by decide
  programs := by decide
  sections := by decide
  items := by decide

theorem pairProgram_ids :
    (AppProgram.idsOf ((pairProgram "0x02").writeCatalog 6 ++
      (pairProgram "0x02").writeHardware 6)).Nodup ↔ (pairProgram "0x02").ItemsApart :=
  AppProgram.product_ids_nodup _ pairProgram_distinct 6 6

/-- Two products of one hardware have catalog items with one id. -/
theorem pair_of_items_clash :
    ¬∀ (app : AppProgram) (indent indent' : Nat), app.Distinct →
      (AppProgram.idsOf (app.writeCatalog indent ++ app.writeHardware indent')).Nodup := by
  intro h
  have hdistinct : (pairProgram "0x01").Distinct :=
    ⟨by decide, by decide, by decide, by decide, by decide⟩
  have hnodup := h (pairProgram "0x01") 6 6 hdistinct
  exact absurd hnodup (by decide)

end KnxRs.Author
