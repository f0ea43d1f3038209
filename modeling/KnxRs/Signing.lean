import KnxRs.Authoring
import KnxRs.Codecs
import KnxRs.HashEvents
import KnxRs.KeyedRows
import KnxRs.Patterns

set_option autoImplicit false

/-!
# Signing an application program

The hash and the fingerprint are written over the old ones in the text of the application file,
the fingerprint in the other files of its directory and in the name of the file as well.
-/
namespace KnxRs.Sign
open Texts Patterns KeyedRows Codecs

/-! ## Patterns -/

/-- `[0-9A-Fa-f]`. -/
def isHexDigit (c : Char) : Bool := c.isDigit || ('A' ≤ c && c ≤ 'F') || ('a' ≤ c && c ≤ 'f')

def exactly (s : Text) : Pattern Char := s.map fun c d => d == c

/-- `(?i)`. -/
def anyCase (s : Text) : Pattern Char := s.map fun c d => d.toLower == c.toLower

def hexDigits (n : Nat) : Pattern Char := List.replicate n isHexDigit

/-- `_A-[0-9A-Fa-f]{4}-[0-9A-Fa-f]{2}-([0-9A-Fa-f]{4})`. -/
def fingerprintPattern : Pattern Char :=
  exactly "_A-".toList ++ hexDigits 4 ++ exactly "-".toList ++ hexDigits 2 ++ exactly "-".toList ++
    hexDigits 4

def extractFingerprint (filename : Text) : Option Text :=
  (search fingerprintPattern filename).map fun found => found.drop 11

/-- `_(?:A|HP)-[0-9A-Fa-f]{4}-[0-9A-Fa-f]{2}-` with one of the two kinds. -/
def stemPattern (kind : Text) : Pattern Char :=
  anyCase ("_".toList ++ kind ++ "-".toList) ++ hexDigits 4 ++ anyCase "-".toList ++ hexDigits 2 ++
    anyCase "-".toList

def fingerprintRegex (oldFp : Text) : List (Pattern Char) :=
  [stemPattern "A".toList ++ anyCase oldFp, stemPattern "HP".toList ++ anyCase oldFp]

/-- The characters before the old fingerprint are kept as they are. -/
def patchFingerprint (oldFp xml newFp : Text) : Text :=
  rewriteAll (fingerprintRegex oldFp)
    (fun found => found.take (found.length - oldFp.length) ++ newFp) xml

/-- `s.replace(old, new)` -/
def replace (old new s : Text) : Text := rewriteAll [exactly old] (fun _ => new) s

/-! ## The hash attribute -/

def hashAttribute : Text := "Hash=\"".toList

def programTag : Text := "<ApplicationProgram".toList

/-- `Hash="[^"]*"`: the value, and what follows it from its quote on. -/
def takeHash (s : Text) : Option (Text × Text) :=
  if hashAttribute.isPrefixOf s then
    match (s.drop hashAttribute.length).dropWhile (· ≠ '"') with
    | [] => none
    | quote :: rest => some ((s.drop hashAttribute.length).takeWhile (· ≠ '"'), quote :: rest)
  else none

/-- `[^>]*?Hash="[^"]*"`: what is skipped, the value, and what follows it. -/
def findHash : Text → Option (Text × Text × Text)
  | [] => none
  | c :: s =>
    match takeHash (c :: s) with
    | some (value, rest) => some ([], value, rest)
    | none =>
      if c = '>' then none
      else (findHash s).map fun (skipped, value, rest) => (c :: skipped, value, rest)

/-- The value of the first match of `(<ApplicationProgram[^>]*?)Hash="[^"]*"` between what stands
    before it and after it. -/
def hashPlace : Text → Option (Text × Text × Text)
  | [] => none
  | c :: s =>
    match (if programTag.isPrefixOf (c :: s) then findHash ((c :: s).drop programTag.length)
      else none) with
    | some (skipped, value, rest) => some (programTag ++ skipped ++ hashAttribute, value, rest)
    | none => (hashPlace s).map fun (before, value, rest) => (c :: before, value, rest)

def patchHashAttribute (xml newHash : Text) : Text :=
  match hashPlace xml with
  | some (before, _, rest) => before ++ newHash ++ rest
  | none => xml

/-! ## The directory of the manufacturer -/

inductive Entry where
  | file (content : Text)
  /-- A file that is not UTF-8. -/
  | binary
  | folder
  deriving DecidableEq

/-- The entries by their names. -/
structure Directory where
  entries : List (Text × Entry)
  distinct : (entries.map Prod.fst).Nodup

inductive SigningError where
  | io (name : Text)
  | hash (failure : Renumber.Failure)
  | noFingerprint (filename : Text)
  deriving DecidableEq

theorem put_name {name : Text} {entry : Entry} (x : Text × Entry) :
    (if x.1 = name then (name, entry) else x).1 = x.1 := by
  split_ifs with hx
  · exact hx.symm
  · rfl

namespace Directory
variable (dir : Directory)

def lookup (name : Text) : Option Entry := (row Prod.fst name dir.entries).map Prod.snd

def read (name : Text) : Except SigningError Text :=
  match dir.lookup name with
  | some (.file content) => .ok content
  | _ => .error (.io name)

def put (name : Text) (entry : Entry) : Directory :=
  if h : ∃ x ∈ dir.entries, x.1 = name then
    ⟨dir.entries.map fun x => if x.1 = name then (name, entry) else x, by
      rw [List.map_map, show Prod.fst ∘ (fun x : Text × Entry => if x.1 = name then (name, entry)
        else x) = Prod.fst from funext put_name]
      exact dir.distinct⟩
  else ⟨dir.entries ++ [(name, entry)], nodup_append dir.distinct fun hm => h (List.mem_map.mp hm)⟩

def write (name content : Text) : Except SigningError Directory :=
  if dir.lookup name = some .folder then .error (.io name) else .ok (dir.put name (.file content))

def remove (name : Text) : Except SigningError Directory :=
  match dir.lookup name with
  | none | some .folder => .error (.io name)
  | some _ =>
    .ok ⟨dir.entries.filter fun x => x.1 ≠ name, (dir.distinct.sublist (List.filter_sublist.map _))⟩

/-- The old file is removed unless the new one has its name. -/
def removeOld (newName filename : Text) : Except SigningError Directory :=
  if newName ≠ filename then dir.remove filename else .ok dir

end Directory

/-- What follows the last dot of a name that does not start with it. -/
def extension (name : Text) : Option Text :=
  match name.reverse.dropWhile (· ≠ '.') with
  | [] | [_] => none
  | _ => some (name.reverse.takeWhile (· ≠ '.')).reverse

def isXml (name : Text) : Bool :=
  (extension name).any fun ext => ext.map Char.toLower = "xml".toList

/-! ## Signing -/

/-- The files of a split product, by their names in the directory of the manufacturer. -/
structure SplitResult where
  catalog : Text
  hardware : Text
  application : Text
  deriving DecidableEq

/-- The siblings are rewritten where they are XML files. -/
def patchSibling (oldFp newFp newName name : Text) (entry : Entry) : Except SigningError Entry :=
  if name = newName ∨ entry = .folder ∨ !isXml name then .ok entry
  else match entry with
    | .file content => .ok (.file (patchFingerprint oldFp content newFp))
    | _ => .error (.io name)

def patchSiblings (oldFp newFp newName : Text) :
    List (Text × Entry) → Except SigningError (List (Text × Entry))
  | [] => .ok []
  | (name, entry) :: entries => do
    let patched ← patchSibling oldFp newFp newName name entry
    let others ← patchSiblings oldFp newFp newName entries
    .ok ((name, patched) :: others)

theorem patchSiblings_cons {oldFp newFp newName : Text} {x : Text × Entry}
    {entries patched : List (Text × Entry)}
    (h : patchSiblings oldFp newFp newName (x :: entries) = .ok patched) :
    ∃ entry others, patchSibling oldFp newFp newName x.1 x.2 = .ok entry ∧
      patchSiblings oldFp newFp newName entries = .ok others ∧ patched = (x.1, entry) :: others := by
  unfold patchSiblings at h
  obtain ⟨entry, hentry, h⟩ := bind_ok h
  obtain ⟨others, hothers, h⟩ := bind_ok h
  exact ⟨entry, others, hentry, hothers, (Except.ok.inj h).symm⟩

theorem patchSiblings_names {oldFp newFp newName : Text} {entries patched : List (Text × Entry)}
    (h : patchSiblings oldFp newFp newName entries = .ok patched) :
    patched.map Prod.fst = entries.map Prod.fst := by
  induction entries generalizing patched with
  | nil =>
    cases h
    rfl
  | cons x entries ih =>
    obtain ⟨entry, others, -, hothers, rfl⟩ := patchSiblings_cons h
    rw [List.map_cons, List.map_cons, ih hothers]

def Directory.patch (dir : Directory) (oldFp newFp newName : Text) :
    Except SigningError Directory :=
  match h : patchSiblings oldFp newFp newName dir.entries with
  | .ok entries => .ok ⟨entries, (patchSiblings_names h).symm ▸ dir.distinct⟩
  | .error e => .error e

/-- `{:04X}`. -/
def fingerprintHex (hash : Hash.AppProgramHash) : Text := Author.upperHex 4 hash.fingerprint

def hashBase64 (lib : Hash.Library) (hash : Hash.AppProgramHash) : Text := lib.encode hash.md5

/-- The application file is written under its new name before the old one is removed, and then the
    siblings are rewritten. -/
def signApplication (lib : Hash.Library) (reader : Text → List Hash.Event) (dir : Directory)
    (split : SplitResult) : Except SigningError (Directory × SplitResult) := do
  let filename := split.application
  let xml ← dir.read filename
  let hash ← (Hash.hashApplicationProgram lib reader xml).mapError .hash
  let newFp := fingerprintHex hash
  match extractFingerprint filename with
  | none => .error (.noFingerprint filename)
  | some oldFp =>
    let patched := patchFingerprint oldFp (patchHashAttribute xml (hashBase64 lib hash)) newFp
    let newName := replace oldFp newFp filename
    let dir ← dir.write newName patched
    let dir ← dir.removeOld newName filename
    let dir ← dir.patch oldFp newFp newName
    .ok (dir, { split with application := newName })

/-! ## What a directory holds afterwards -/

section
variable {dir dir' : Directory} {name other : Text}

theorem Directory.read_ok {content : Text} :
    dir.read name = .ok content ↔ dir.lookup name = some (.file content) := by
  unfold Directory.read
  split
  · next content' h =>
    rw [h, Except.ok.injEq, Option.some_inj, Entry.file.injEq]
  · next h =>
    constructor
    · intro he
      cases he
    · intro he
      exact absurd he (h content)

theorem Directory.put_same (entry : Entry) : (dir.put name entry).lookup name = some entry := by
  unfold Directory.put Directory.lookup
  split_ifs with h
  · obtain ⟨x, hx, rfl⟩ := h
    dsimp only
    rw [row_map put_name,
      row_of_mem dir.distinct hx, Option.map_some, Option.map_some, if_pos rfl]
  · dsimp only
    rw [row_append, row_none.mpr fun hm => h (List.mem_map.mp hm), Option.none_or, if_pos rfl]
    rfl

theorem Directory.put_other {entry : Entry} (h : other ≠ name) :
    (dir.put name entry).lookup other = dir.lookup other := by
  unfold Directory.put Directory.lookup
  split_ifs with hmem
  · dsimp only
    rw [row_map put_name, Option.map_map]
    cases hrow : row Prod.fst other dir.entries with
    | none => rfl
    | some x =>
      have hx : x.1 ≠ name := (row_some hrow).2.trans_ne h
      rw [Option.map_some, Option.map_some, Function.comp_apply, if_neg hx]
  · dsimp only
    rw [row_append, if_neg h.symm, Option.or_none]

theorem Directory.write_ok {content : Text} (h : dir.write name content = .ok dir') :
    dir' = dir.put name (.file content) := by
  unfold Directory.write at h
  split_ifs at h
  exact (Except.ok.inj h).symm

theorem Directory.remove_other (h : dir.remove name = .ok dir') (hne : other ≠ name) :
    dir'.lookup other = dir.lookup other := by
  unfold Directory.remove at h
  split at h
  · cases h
  · cases h
  · obtain rfl := Except.ok.inj h
    unfold Directory.lookup
    dsimp only
    rw [row_filter dir.distinct]
    cases hrow : row Prod.fst other dir.entries with
    | none => rfl
    | some x =>
      have hx : x.1 ≠ name := (row_some hrow).2.trans_ne hne
      rw [Option.filter_some, if_pos (decide_eq_true hx)]

theorem Directory.removeOld_other {newName : Text} (h : dir.removeOld newName name = .ok dir')
    (hne : other ≠ name ∨ other = newName) : dir'.lookup other = dir.lookup other := by
  unfold Directory.removeOld at h
  split_ifs at h with hnew
  · exact Directory.remove_other h (hne.elim id fun he => he ▸ hnew)
  · rw [Except.ok.inj h]

theorem patchSiblings_row {oldFp newFp newName : Text} {entries patched : List (Text × Entry)}
    (h : patchSiblings oldFp newFp newName entries = .ok patched) {entry : Entry}
    (hrow : (row Prod.fst name entries).map Prod.snd = some entry) :
    ∃ entry', (row Prod.fst name patched).map Prod.snd = some entry' ∧
      patchSibling oldFp newFp newName name entry = .ok entry' := by
  induction entries generalizing patched with
  | nil => cases hrow
  | cons x entries ih =>
    obtain ⟨entry', others, hentry, hothers, rfl⟩ := patchSiblings_cons h
    by_cases hx : x.1 = name
    · rw [row_cons_self hx] at hrow
      obtain rfl := Option.some.inj hrow
      refine ⟨entry', ?_, hx ▸ hentry⟩
      have hrow' : row Prod.fst name ((x.1, entry') :: others) = some (x.1, entry') :=
        row_cons_self hx
      rw [hrow']
      rfl
    · rw [row_cons_ne hx] at hrow
      obtain ⟨found, hfound, hpatched⟩ := ih hothers hrow
      refine ⟨found, ?_, hpatched⟩
      have hrow' : row Prod.fst name ((x.1, entry') :: others) = row Prod.fst name others :=
        row_cons_ne hx
      rw [hrow', hfound]

theorem Directory.patch_entry {oldFp newFp newName : Text}
    (h : dir.patch oldFp newFp newName = .ok dir') {entry : Entry}
    (hentry : dir.lookup name = some entry) :
    ∃ entry', dir'.lookup name = some entry' ∧
      patchSibling oldFp newFp newName name entry = .ok entry' := by
  unfold Directory.patch at h
  split at h
  · next entries hentries =>
    obtain rfl := Except.ok.inj h
    exact patchSiblings_row hentries hentry
  · cases h

end

/-- What signing leaves in the directory. -/
structure Signed (lib : Hash.Library) (reader : Text → List Hash.Event) (dir dir' : Directory)
    (filename newName oldFp : Text) (xml : Text) (hash : Hash.AppProgramHash) : Prop where
  old : extractFingerprint filename = some oldFp
  given : dir.read filename = .ok xml
  hashed : Hash.hashApplicationProgram lib reader xml = .ok hash
  renamed : newName = replace oldFp (fingerprintHex hash) filename
  written : dir'.read newName = .ok
    (patchFingerprint oldFp (patchHashAttribute xml (hashBase64 lib hash)) (fingerprintHex hash))
  siblings : ∀ name content, name ≠ filename → name ≠ newName → isXml name = true →
    dir.read name = .ok content →
      dir'.read name = .ok (patchFingerprint oldFp content (fingerprintHex hash))

theorem signApplication_ok {lib : Hash.Library} {reader : Text → List Hash.Event}
    {dir dir' : Directory} {split split' : SplitResult}
    (h : signApplication lib reader dir split = .ok (dir', split')) :
    ∃ oldFp xml hash, Signed lib reader dir dir' split.application split'.application oldFp xml hash ∧
      split' = { split with application := split'.application } := by
  unfold signApplication at h
  dsimp only at h
  obtain ⟨xml, hxml, h⟩ := bind_ok h
  obtain ⟨hash, hhash, h⟩ := bind_ok h
  have hhashed : Hash.hashApplicationProgram lib reader xml = .ok hash := by
    cases hresult : Hash.hashApplicationProgram lib reader xml with
    | error e =>
      rw [hresult] at hhash
      cases hhash
    | ok found =>
      rw [hresult] at hhash
      exact congrArg Except.ok (Except.ok.inj hhash)
  split at h
  · cases h
  · next oldFp hold =>
    obtain ⟨written, hwritten, h⟩ := bind_ok h
    obtain ⟨removed, hremoved, h⟩ := bind_ok h
    obtain ⟨patched, hpatched, h⟩ := bind_ok h
    obtain ⟨rfl, rfl⟩ := Prod.mk.inj (Except.ok.inj h)
    obtain rfl := Directory.write_ok hwritten
    refine ⟨oldFp, xml, hash, ⟨hold, hxml, hhashed, rfl, ?_, ?_⟩, rfl⟩
    · have hentry : removed.lookup (replace oldFp (fingerprintHex hash) split.application) =
          some (.file _) :=
        (Directory.removeOld_other hremoved (.inr rfl)).trans (Directory.put_same _)
      obtain ⟨entry', hentry', hsibling⟩ := Directory.patch_entry hpatched hentry
      unfold patchSibling at hsibling
      rw [if_pos (.inl rfl)] at hsibling
      rw [Directory.read_ok, hentry', ← Except.ok.inj hsibling]
    · intro name content hfilename hnew hxmlName hread
      have hentry : removed.lookup name = some (.file content) := by
        rw [Directory.removeOld_other hremoved (.inl hfilename), Directory.put_other hnew]
        exact Directory.read_ok.mp hread
      obtain ⟨entry', hentry', hsibling⟩ := Directory.patch_entry hpatched hentry
      unfold patchSibling at hsibling
      rw [if_neg (by simp [hnew, hxmlName])] at hsibling
      rw [Directory.read_ok, hentry', ← Except.ok.inj hsibling]

end KnxRs.Sign
