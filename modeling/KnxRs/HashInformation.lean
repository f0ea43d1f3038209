import KnxRs.HashTrees
import Mathlib.Data.Multiset.Basic

set_option autoImplicit false

/-!
# The hash and the information in a document

The information of a document leaves out the order and the quoting of attributes, comments
and instructions, and how character data is written. Where inner texts are plain, the octets
are a function of it. A comment inside an inner text ends the element early.
-/
namespace KnxRs.Hash
open Texts XmlDocuments XmlScan Renumber

inductive Info where
  | element (name : Text) (attributes : Multiset (Text × Text)) (children : List Info)
  | emptyElement (name : Text) (attributes : Multiset (Text × Text))
  | characters (s : Text)

def attributesOf (lib : Library) (e : Element) : Multiset (Text × Text) :=
  (e.attributes.map fun (name, value) => (name, (lib.normalizedValue value).getD value) :
    List (Text × Text))

def withCharacters (s : Text) (infos : List Info) : List Info :=
  if s = [] then infos
  else match infos with
    | .characters t :: rest => .characters (s ++ t) :: rest
    | _ => .characters s :: infos

mutual

/-- A node before other information. -/
def Node.information (lib : Library) : Node → List Info → List Info
  | .element e children, infos =>
    .element e.name (attributesOf lib e) (informationOf lib children) :: infos
  | .emptyElement e, infos => .emptyElement e.name (attributesOf lib e) :: infos
  | node, infos => withCharacters (charsOf node) infos

def informationOf (lib : Library) : List Node → List Info
  | [] => []
  | node :: nodes => node.information lib (informationOf lib nodes)

end

def HasText : Node → Prop
  | .element e children =>
    innerKind (localName e.name) ≠ none → isBlank (characters children) = false
  | .emptyElement e => innerKind (localName e.name) = none
  | _ => True

/-! ## The hash of the information -/

noncomputable def valueIn (attributes : Multiset (Text × Text)) (name : Text) : Option Text :=
  open Classical in
  if h : ∃ attr ∈ attributes, localName attr.1 = name then some h.choose.2 else none

def serializeValues (lib : Library) (info : ElementInfo) (value : Text → Option Text) :
    Except Failure Serialized :=
  match info.kind with
  | .attrs attributes sortAttr => do
    let written ← attributes.mapM fun info => writeAttr lib info (value info.xmlName)
    .ok ⟨written.flatten, (sortAttr.bind value).map normalizeApplProgId, info.ordered⟩
  | .innerTextUInt32 tag | .innerTextString tag | .innerTextBase64 tag => .ok ⟨[tag], none, false⟩

def resultOfValues (lib : Library) (parentName name : Text) (value : Text → Option Text)
    (stream : Octets) : Except Failure GenResult :=
  match registry name with
  | some info => do
    let attrs ← serializeValues lib info value
    let octets := attrs.octets ++ stream
    .ok ⟨octets, orderKeyOf lib attrs.sortKey octets, orderRelevant attrs.ordered name parentName⟩
  | none => .ok ⟨stream, orderKeyOf lib none stream, false⟩

def charactersIn (infos : List Info) : Text :=
  infos.flatMap fun
    | .characters s => s
    | _ => []

mutual

noncomputable def generateInfo (lib : Library) (parentName : Text) :
    Info → Except Failure (Option GenResult)
  | .element name attributes children =>
    (resultOfValues lib parentName (localName name) (valueIn attributes) []).bind fun _ =>
      (innerOf lib (innerKind (localName name)) (charactersIn children)
        (generateInfos lib (localName name) ⟨[], 0⟩ children)).bind fun stream =>
          (resultOfValues lib parentName (localName name) (valueIn attributes) stream).map some
  | .emptyElement name attributes =>
    (resultOfValues lib parentName (localName name) (valueIn attributes) []).map some
  | .characters _ => .ok none

noncomputable def generateInfos (lib : Library) (parentName : Text) (children : Children) :
    List Info → Except Failure Children
  | [] => .ok children
  | info :: infos =>
    (generateInfo lib parentName info).bind fun result =>
      generateInfos lib parentName (children.pushNode result) infos

end

mutual

def Info.programs : Info → Option (List Info)
  | .element name _ children =>
    if localName name = applicationPrograms then some children else programsInfo children
  | _ => none

def programsInfo : List Info → Option (List Info)
  | [] => none
  | info :: infos => info.programs.or (programsInfo infos)

end

noncomputable def serializeInfo (lib : Library) (infos : List Info) : Except Failure Octets :=
  match programsInfo infos with
  | none => .error (.error (.missingElement applicationPrograms))
  | some children => (generateInfos lib applicationPrograms ⟨[], 0⟩ children).map Children.concat

/-! ## Attributes -/

variable {lib : Library}

theorem lookup_of_mem {entries : List (Text × Text)} (nodup : (entries.map Prod.fst).Nodup)
    {name value : Text} (h : (name, value) ∈ entries) : entries.lookup name = some value := by
  induction entries with
  | nil => cases h
  | cons entry entries ih =>
    obtain ⟨key, other⟩ := entry
    rw [List.map_cons, List.nodup_cons] at nodup
    rcases List.mem_cons.mp h with heq | hmem
    · obtain ⟨rfl, rfl⟩ := Prod.mk.inj heq
      exact List.lookup_cons_self
    · have hne : name ≠ key := by
        rintro rfl
        exact nodup.1 (List.mem_map.mpr ⟨_, hmem, rfl⟩)
      rw [List.lookup_cons, beq_eq_false_iff_ne.mpr hne]
      exact ih nodup.2 hmem

theorem attrMap_keys (e : Element) :
    (attrMap lib e).map Prod.fst = (e.attributes.map fun attr => localName attr.1).reverse := by
  unfold attrMap
  rw [List.map_reverse, List.map_map]
  rfl

theorem mem_attrMap {e : Element} {name value : Text} :
    (name, value) ∈ attrMap lib e ↔
      ∃ attr ∈ attributesOf lib e, localName attr.1 = name ∧ attr.2 = value := by
  unfold attrMap attributesOf
  rw [List.mem_reverse]
  simp only [Multiset.mem_coe, List.mem_map, Prod.mk.injEq]
  constructor
  · rintro ⟨attr, hattr, hname, hvalue⟩
    exact ⟨_, ⟨attr, hattr, rfl⟩, hname, hvalue⟩
  · rintro ⟨_, ⟨attr, hattr, rfl⟩, hname, hvalue⟩
    exact ⟨attr, hattr, hname, hvalue⟩

theorem attrMap_lookup {e : Element} (nodup : (e.attributes.map fun attr => localName attr.1).Nodup)
    (name : Text) : (attrMap lib e).lookup name = valueIn (attributesOf lib e) name := by
  unfold valueIn
  split_ifs with h
  · refine lookup_of_mem ?_ (mem_attrMap.mpr ⟨_, h.choose_spec.1, h.choose_spec.2, rfl⟩)
    rw [attrMap_keys]
    exact List.nodup_reverse.mpr nodup
  · rw [List.lookup_eq_none_iff]
    intro entry hentry
    obtain ⟨attr, hattr, hname, _⟩ := mem_attrMap.mp hentry
    rw [bne_iff_ne]
    rintro rfl
    exact h ⟨attr, hattr, hname⟩

theorem serializeRegistryAttrs_eq (info : ElementInfo) (e : Element) :
    serializeRegistryAttrs lib info e = serializeValues lib info fun name => (attrMap lib e).lookup name := by
  unfold serializeRegistryAttrs serializeValues
  cases info.kind <;> rfl

theorem resultOf_values (parentName : Text) {e : Element} {value : Text → Option Text}
    (h : (registry (localName e.name)).isSome = true → ∀ name,
      (attrMap lib e).lookup name = value name) (stream : Octets) :
    resultOf lib parentName e stream =
      resultOfValues lib parentName (localName e.name) value stream := by
  unfold resultOf resultOfValues
  cases hinfo : registry (localName e.name) with
  | none => rfl
  | some info =>
    have hvalue : (fun name => (attrMap lib e).lookup name) = value := by
      funext name
      exact h (by rw [hinfo]; rfl) name
    rw [← hvalue]
    dsimp only
    rw [serializeRegistryAttrs_eq]

theorem resultOf_distinct (parentName : Text) {e : Element} (distinct : DistinctAttributes e)
    (stream : Octets) : resultOf lib parentName e stream =
      resultOfValues lib parentName (localName e.name) (valueIn (attributesOf lib e)) stream :=
  resultOf_values parentName (fun registered => attrMap_lookup (distinct registered)) stream

/-! ## Trees -/

theorem generateInfos_withCharacters (parentName s : Text) (children : Children)
    (infos : List Info) : generateInfos lib parentName children (withCharacters s infos) =
      generateInfos lib parentName children infos := by
  unfold withCharacters
  split_ifs with hs
  · rfl
  · split <;> simp [generateInfos, generateInfo, Except.bind, Children.pushNode]

theorem charactersIn_withCharacters (s : Text) (infos : List Info) :
    charactersIn (withCharacters s infos) = s ++ charactersIn infos := by
  unfold withCharacters charactersIn
  split_ifs with hs
  · rw [hs, List.nil_append]
  · split <;> simp

theorem programsInfo_withCharacters (s : Text) (infos : List Info) :
    programsInfo (withCharacters s infos) = programsInfo infos := by
  unfold withCharacters
  split_ifs with hs
  · rfl
  · split <;> simp [programsInfo, Info.programs]

theorem charactersIn_information (nodes : List Node) :
    charactersIn (informationOf lib nodes) = characters nodes := by
  induction nodes with
  | nil => rfl
  | cons node nodes ih =>
    have hchars : characters (node :: nodes) = charsOf node ++ characters nodes := rfl
    rw [hchars, ← ih, informationOf]
    cases node with
    | element e children => rfl
    | emptyElement e => rfl
    | _ => exact charactersIn_withCharacters _ _

def SameChildren (lib : Library) (nodes : List Node) : Prop :=
  Plain nodes → ∀ parentName children, generateAll lib parentName children nodes =
    generateInfos lib parentName children (informationOf lib nodes)

theorem innerOctets_information {e : Element} {nodes : List Node} (ih : SameChildren lib nodes)
    (plain : Plain nodes) : innerOctets lib e nodes =
      innerOf lib (innerKind (localName e.name)) (charactersIn (informationOf lib nodes))
        (generateInfos lib (localName e.name) ⟨[], 0⟩ (informationOf lib nodes)) := by
  unfold innerOctets
  rw [charactersIn_information, ih plain]

theorem sameChildren (nodes : List Node) : SameChildren lib nodes := by
  refine nodes_induction
    (P := fun node => node.All PlainNode → ∀ parentName children infos,
      generateInfos lib parentName children (node.information lib infos) =
        (generate lib parentName node).bind fun result =>
          generateInfos lib parentName (children.pushNode result) infos)
    ?element ?leaf ?nil ?cons nodes
  case element =>
    intro e nodes ih plain parentName children infos
    rw [Node.information, generateInfos, generateInfo, generate_element,
      innerOctets_information ih plain.2]
    simp only [resultOf_distinct parentName plain.1.1]
  case leaf =>
    intro node leaf plain parentName children infos
    cases node with
    | element e nodes => exact absurd rfl (leaf e nodes)
    | emptyElement e =>
      rw [Node.information, generateInfos, generateInfo, generate, resultOf_distinct _ plain.1]
    | _ => exact generateInfos_withCharacters parentName _ children infos
  case nil => exact fun _ _ _ => rfl
  case cons =>
    intro node nodes hnode hnodes plain parentName children
    rw [generateAll, informationOf, hnode plain.1]
    have hrest := hnodes plain.2 parentName
    cases generate lib parentName node with
    | error f => rfl
    | ok result => exact hrest _

theorem programs_information (nodes : List Node) :
    programsInfo (informationOf lib nodes) = (programsIn nodes).map (informationOf lib) := by
  refine nodes_induction
    (P := fun node => ∀ infos, programsInfo (node.information lib infos) =
      (node.programs.map (informationOf lib)).or (programsInfo infos))
    (Q := fun nodes => programsInfo (informationOf lib nodes) =
      (programsIn nodes).map (informationOf lib)) ?element ?leaf ?nil ?cons nodes
  case element =>
    intro e nodes ih infos
    rw [Node.information, programsInfo, Info.programs, Node.programs]
    split_ifs with hname
    · rfl
    · rw [ih]
  case leaf =>
    intro node leaf infos
    cases node with
    | element e nodes => exact absurd rfl (leaf e nodes)
    | emptyElement e => rfl
    | _ => exact programsInfo_withCharacters _ infos
  case nil => rfl
  case cons =>
    intro node nodes hnode hnodes
    rw [informationOf, hnode, hnodes, programsIn]
    cases node.programs <;> rfl

mutual

theorem Node.All.programs {p : Node → Prop} {children : List Node} :
    {node : Node} → node.All p → node.programs = some children → AllIn p children
  | .element e nodes, h, found => by
    rw [Node.programs] at found
    split_ifs at found with hname
    · exact Option.some.inj found ▸ h.2
    · exact allIn_programs h.2 found

theorem allIn_programs {p : Node → Prop} {children : List Node} :
    {nodes : List Node} → AllIn p nodes → programsIn nodes = some children → AllIn p children
  | node :: nodes, h, found => by
    rw [programsIn, Option.or_eq_some_iff] at found
    rcases found with found | ⟨_, found⟩
    · exact Node.All.programs h.1 found
    · exact allIn_programs h.2 found

end

theorem serializeNodes_information {nodes : List Node} (plain : Plain nodes) :
    serializeNodes lib nodes = serializeInfo lib (informationOf lib nodes) := by
  unfold serializeNodes serializeInfo
  rw [programs_information]
  cases hfound : programsIn nodes with
  | none => rfl
  | some children =>
    dsimp only [Option.map]
    rw [sameChildren children (allIn_programs plain hfound)]

/-- Two documents with the same information are serialized alike where their inner texts are
plain. -/
theorem information_serialized {reader : Text → List Event} {first second : Text}
    {nodes others : List Node} (documented : lib.Documented) (reads : Reads reader first nodes)
    (reads' : Reads reader second others)
    (same : informationOf lib nodes = informationOf lib others) (plain : Plain nodes)
    (plain' : Plain others) :
    serializeAppProgram lib reader first = serializeAppProgram lib reader second := by
  rw [serialize_nodes documented reads plain, serialize_nodes documented reads' plain',
    serializeNodes_information plain, serializeNodes_information plain', same]

/-! ## Documents -/

instance : DecidablePred HasText
  | .element e children => inferInstanceAs (Decidable
      (innerKind (localName e.name) ≠ none → isBlank (characters children) = false))
  | .emptyElement e => inferInstanceAs (Decidable (innerKind (localName e.name) = none))
  | .text _ | .cdata _ | .reference _ | .comment _ | .instruction _ => .isTrue trivial

def scriptOf (children : List Node) : Node := .element ⟨"Script".toList, []⟩ children

def manufacturer : Text × List Node :=
  ("<ApplicationPrograms><Manufacturer RefId=\"M-0001\" Name=\"x\"><Script>a&lt;b</Script></Manufacturer></ApplicationPrograms>".toList,
    applicationProgramsOf [.element
      ⟨"Manufacturer".toList, [("RefId".toList, "M-0001".toList), ("Name".toList, "x".toList)]⟩
      [scriptOf [.text "a".toList, .reference "lt".toList, .text "b".toList]]])

def manufacturerAgain : Text × List Node :=
  ("<ApplicationPrograms><!-- x --><Manufacturer Name='x' RefId='M-0001'><Script><![CDATA[a<b]]></Script></Manufacturer></ApplicationPrograms>".toList,
    applicationProgramsOf [.comment " x ".toList, .element
      ⟨"Manufacturer".toList, [("Name".toList, "x".toList), ("RefId".toList, "M-0001".toList)]⟩
      [scriptOf [.cdata "a<b".toList]]])

def manufacturerDigests : List (Octets × Octets × Text) := [
  ([83, 3, 97, 60, 98], [219, 236, 28, 24, 202, 133, 148, 83, 95, 95, 163, 184, 17, 189, 76, 170],
    "2+wcGMqFlFNfX6O4Eb1Mqg==".toList),
  ([1, 82, 6, 77, 45, 48, 48, 48, 49, 83, 3, 97, 60, 98], [111, 0, 17, 231, 218, 88, 241, 177, 88, 151, 126, 241, 187, 147, 255, 158],
    "bwAR59pY8bFYl37xu5P/ng==".toList)]

def manufacturerReader : Text → List Event := readerOf [manufacturer, manufacturerAgain]

theorem manufacturer_ne : manufacturerAgain.1 ≠ manufacturer.1 := by
  delta manufacturer manufacturerAgain
  dsimp only
  exact String.toList_inj.ne.mpr (by decide +kernel)

theorem manufacturer_serialized :
    serializeAppProgram (libraryOf manufacturerDigests) manufacturerReader manufacturer.1 =
      serializeAppProgram (libraryOf manufacturerDigests) manufacturerReader manufacturerAgain.1 := by
  refine information_serialized (libraryOf_documented _)
    ⟨readerOf_first _ _, by decide +kernel⟩ ⟨readerOf_second manufacturer_ne, by decide +kernel⟩
    ?_ (plain_applicationPrograms (by decide +kernel))
    (plain_applicationPrograms (by decide +kernel))
  have hswap : attributesOf (libraryOf manufacturerDigests) ⟨"Manufacturer".toList,
      [("RefId".toList, "M-0001".toList), ("Name".toList, "x".toList)]⟩ =
        attributesOf (libraryOf manufacturerDigests) ⟨"Manufacturer".toList,
          [("Name".toList, "x".toList), ("RefId".toList, "M-0001".toList)]⟩ :=
    Multiset.coe_eq_coe.mpr (List.Perm.swap _ _ _)
  exact congrArg (fun attributes => [Info.element applicationPrograms 0 [.element
    "Manufacturer".toList attributes [.element "Script".toList 0 [.characters "a<b".toList]]]]) hswap

def script : Text × List Node :=
  ("<ApplicationPrograms><Script>ab</Script></ApplicationPrograms>".toList,
    applicationProgramsOf [scriptOf [.text "ab".toList]])

def commentedScript : Text × List Node :=
  ("<ApplicationPrograms><Script>a<!-- -->b</Script></ApplicationPrograms>".toList,
    applicationProgramsOf [scriptOf [.text "a".toList, .comment " ".toList, .text "b".toList]])

def scriptDigests : List (Octets × Octets × Text) := [
  ([83, 2, 97, 98], [127, 56, 30, 163, 8, 67, 231, 14, 245, 105, 137, 245, 68, 79, 133, 67],
    "fzgeowhD5w71aYn1RE+FQw==".toList),
  ([83, 1, 97], [37, 166, 160, 202, 124, 187, 27, 104, 177, 81, 84, 75, 22, 229, 19, 98],
    "Jaagyny7G2ixUVRLFuUTYg==".toList)]

def scriptReader : Text → List Event := readerOf [script, commentedScript]

theorem commented_script :
    Reads scriptReader script.1 script.2 ∧ Reads scriptReader commentedScript.1 commentedScript.2 ∧
      informationOf (libraryOf scriptDigests) script.2 =
        informationOf (libraryOf scriptDigests) commentedScript.2 ∧
      AllIn HasText script.2 ∧ AllIn HasText commentedScript.2 ∧
      serializeAppProgram (libraryOf scriptDigests) scriptReader script.1 = .ok [83, 2, 97, 98] ∧
      serializeAppProgram (libraryOf scriptDigests) scriptReader commentedScript.1 =
        .ok [83, 1, 97] := by
  have hne : commentedScript.1 ≠ script.1 := by
    delta script commentedScript
    dsimp only
    exact String.toList_inj.ne.mpr (by decide +kernel)
  have hfirst : scriptReader script.1 = eventsOf script.2 := readerOf_first _ _
  have hsecond : scriptReader commentedScript.1 = eventsOf commentedScript.2 :=
    readerOf_second hne
  refine ⟨⟨hfirst, ?_⟩, ⟨hsecond, ?_⟩, rfl, ?_, ?_, ?_, ?_⟩
  case refine_5 =>
    unfold serializeAppProgram
    rw [hfirst]
    decide +kernel
  case refine_6 =>
    unfold serializeAppProgram
    rw [hsecond]
    decide +kernel
  all_goals decide +kernel

end KnxRs.Hash
