import Mathlib
import SlotLanes.Config.Load
import SlotLanes.Files.Tree
import SlotLanes.Proofs.DistinctKeys
import SlotLanes.Proofs.Settled
import SlotLanes.Proofs.Utf8Sequences

/-! The documents that are a configuration: no key but that of the section, and in the section a
kind of source, the fields of that kind and nothing else. A field that may be absent has its
default then. Since no key is given twice, neither the order of the keys nor the way the section is
written counts. Defaults replace a whole file only where nothing is seen to stand at its path. -/
namespace SlotLanes.Files

/-- Following its names, the path leads to the entry. -/
def Tree.Holds (tree : Tree) (path : String) (entry : Entry) : Prop :=
  path.contains '\x00' = false ∧ path ≠ "" ∧ path.utf8ByteSize ≤ maxPathLength ∧
    Entry.follow [] (.directory (if path.startsWith "/" then [] else tree)) (components path) =
      .ok entry

namespace Tree
variable {tree : Tree} {path : String}

theorem find_eq_ok_iff {entry : Entry} : tree.find path = .ok entry ↔ tree.Holds path entry := by
  unfold find Holds
  split
  next zero => simp [zero]
  next noZero =>
    split
    next unnamed => simp [unnamed]
    next named =>
      split
      next long => simp [Nat.not_le.mpr long]
      next short => simp [noZero, named, Nat.not_lt.mp short]

theorem present_iff_holds : tree.files.present path = true ↔ ∃ entry, tree.Holds path entry := by
  simp only [files, present, ← find_eq_ok_iff]
  cases tree.find path <;> simp [Except.isOk, Except.toBool]

end Tree
end SlotLanes.Files

namespace SlotLanes.Config
open SlotLanes.Toml (Value Origin)

def IsText (value : Value) (text : String) : Prop :=
  value = .string text

/-- The entries of the section choose this source. -/
inductive Chosen (entries : List (String × Value)) : Source → Prop
  | table {path : String} (kind : entries.lookup "source" = some (.string "static"))
      (only : OnlyNames entries ["source", "path"])
      (settles : Settles IsText (entries.lookup "path") Table.defaultPath path) :
      Chosen entries (.table path)
  | inventory {path mainBoard : String}
      (kind : entries.lookup "source" = some (.string "dynamic"))
      (only : OnlyNames entries ["source", "inventory", "main-board"])
      (given : entries.lookup "inventory" = some (.string path))
      (settles : Settles IsText (entries.lookup "main-board") defaultMainBoard mainBoard) :
      Chosen entries (.inventory path mainBoard)

/-- The document says this configuration. -/
inductive Described (document : Toml.Table) : Config → Prop
  | absent (only : OnlyNames document.entries ["bifurcation"])
      (absent : document.get? "bifurcation" = none) :
      Described document ⟨.table Table.defaultPath⟩
  | given {origin : Origin} {entries : List (String × Value)} {source : Source}
      (only : OnlyNames document.entries ["bifurcation"])
      (given : document.get? "bifurcation" = some (.table origin entries))
      (chosen : Chosen entries source) : Described document ⟨source⟩

section Fields
variable {entries fields : List (String × Value)} {entry : String × Value} {key : String}
variable {value : Value}

theorem stringOf_eq_ok_iff {expected text : String} :
    stringOf expected value = .ok text ↔ IsText value text := by
  cases value <;> simp [stringOf, IsText]

theorem foldlM_staticEntry (distinct : (fields.map Prod.fst).Nodup) {before after : String} :
    fields.foldlM staticEntry before = .ok after ↔
      OnlyNames fields ["path"] ∧ Settles IsText (fields.lookup "path") before after := by
  apply foldlM_eq_ok_iff_settled _ settles_none (fun _ fresh => settles_cons fresh) distinct
  · intro before entry after
    obtain ⟨name, value⟩ := entry
    unfold staticEntry
    split
    next named =>
      obtain rfl : name = "path" := named
      rw [settles_single, pathOf, stringOf_eq_ok_iff]
      simp
    next other => simp [other]

theorem foldlM_dynamicEntry (distinct : (fields.map Prod.fst).Nodup)
    {before after : DynamicDraft} :
    fields.foldlM dynamicEntry before = .ok after ↔
      OnlyNames fields ["inventory", "main-board"] ∧
        Settles (fun value path? => ∃ path, IsText value path ∧ path? = some path)
          (fields.lookup "inventory") before.inventory after.inventory ∧
        Settles IsText (fields.lookup "main-board") before.mainBoard after.mainBoard := by
  apply foldlM_eq_ok_iff_settled _ _ _ distinct
  · intro before entry after
    obtain ⟨name, value⟩ := entry
    obtain ⟨inventory, mainBoard⟩ := after
    unfold dynamicEntry
    split
    next named =>
      obtain rfl : name = "inventory" := named
      simp only [bind_eq_ok_iff, pathOf, stringOf_eq_ok_iff, pure_eq_ok_iff, DynamicDraft.mk.injEq]
      rw [settles_single, settles_apart (by decide)]
      simp [← and_assoc]
    next =>
      split
      next named =>
        obtain rfl : name = "main-board" := named
        simp only [bind_eq_ok_iff, mainBoardOf, stringOf_eq_ok_iff, pure_eq_ok_iff,
          DynamicDraft.mk.injEq]
        rw [settles_single, settles_apart (by decide)]
        simp [and_comm]
      next noInventory noBoard => simp [noInventory, noBoard]
  · intro before after
    obtain ⟨inventory, mainBoard⟩ := after
    obtain ⟨inventoryBefore, mainBoardBefore⟩ := before
    simp [Settles]
  · intro entry fields before after _ fresh
    rw [settles_cons fresh, settles_cons fresh]
    constructor
    · intro settled
      obtain ⟨⟨path, first, paths⟩, board, second, boards⟩ := settled
      exact ⟨⟨path, board⟩, ⟨first, second⟩, paths, boards⟩
    · intro settled
      obtain ⟨middle, ⟨first, second⟩, paths, boards⟩ := settled
      exact ⟨⟨_, first, paths⟩, _, second, boards⟩

theorem kindOfValue_eq_ok_iff {kind : Kind} : Kind.ofValue value = .ok kind ↔
    kind = .static ∧ value = .string "static" ∨ kind = .dynamic ∧ value = .string "dynamic" := by
  unfold Kind.ofValue
  split
  next name =>
    by_cases static : name = "static"
    · simp [static, eq_comm]
    · by_cases dynamic : name = "dynamic"
      · simp [dynamic, eq_comm]
      · simp [static, dynamic]
  next noText =>
    have text (name : String) : value ≠ .string name := fun same => noText name same
    simp [text]

theorem sourceOfEntries_eq_ok_iff (distinct : (entries.map Prod.fst).Nodup) {source : Source} :
    sourceOfEntries entries = .ok source ↔ Chosen entries source := by
  have fields : ((entries.filter (·.1 ≠ "source")).map Prod.fst).Nodup :=
    distinct.sublist (List.filter_sublist.map Prod.fst)
  unfold sourceOfEntries
  split
  next absent =>
    constructor
    · nofun
    · intro chosen
      cases chosen with
      | table kind => simp [absent] at kind
      | inventory kind => simp [absent] at kind
  next value given =>
    simp only [bind_eq_ok_iff, kindOfValue_eq_ok_iff]
    constructor
    · intro read
      obtain ⟨kind, ⟨rfl, rfl⟩ | ⟨rfl, rfl⟩, read⟩ := read
      · obtain ⟨path, folded, made⟩ := bind_eq_ok_iff.mp read
        obtain rfl := pure_eq_ok_iff.mp made
        obtain ⟨only, settles⟩ := (foldlM_staticEntry fields).mp folded
        rw [lookup_filter_ne (by decide)] at settles
        exact .table given (onlyNames_filter.mp only) settles
      · obtain ⟨draft, folded, made⟩ := bind_eq_ok_iff.mp read
        obtain ⟨only, path, board⟩ := (foldlM_dynamicEntry fields).mp folded
        rw [lookup_filter_ne (by decide)] at path board
        split at made
        next inventory filled =>
          obtain rfl := pure_eq_ok_iff.mp made
          rw [filled] at path
          obtain ⟨_, missing⟩ | ⟨_, named, _, rfl, same⟩ := path
          · cases missing
          · obtain rfl := Option.some.inj same
            exact .inventory given (onlyNames_filter.mp only) named board
        next => cases made
    · intro chosen
      cases chosen with
      | table kind only settles =>
        obtain rfl := Option.some.inj (given.symm.trans kind)
        refine ⟨.static, .inl ⟨rfl, rfl⟩, bind_eq_ok_iff.mpr ⟨_, ?_, pure_eq_ok_iff.mpr rfl⟩⟩
        rw [foldlM_staticEntry fields, lookup_filter_ne (by decide)]
        exact ⟨onlyNames_filter.mpr only, settles⟩
      | inventory kind only path settles =>
        obtain rfl := Option.some.inj (given.symm.trans kind)
        refine ⟨.dynamic, .inr ⟨rfl, rfl⟩, bind_eq_ok_iff.mpr ⟨⟨some _, _⟩, ?_, pure_eq_ok_iff.mpr rfl⟩⟩
        rw [foldlM_dynamicEntry fields, lookup_filter_ne (by decide), lookup_filter_ne (by decide)]
        exact ⟨onlyNames_filter.mpr only, .inr ⟨_, path, _, rfl, rfl⟩, settles⟩

theorem foldlM_readEntry (distinct : (fields.map Prod.fst).Nodup) {before after : Config} :
    fields.foldlM readEntry before = .ok after ↔
      OnlyNames fields ["bifurcation"] ∧
        Settles (fun value config => sourceOfValue value = .ok config.source)
          (fields.lookup "bifurcation") before after := by
  apply foldlM_eq_ok_iff_settled _ settles_none (fun _ fresh => settles_cons fresh) distinct
  · intro before entry after
    obtain ⟨name, value⟩ := entry
    obtain ⟨source⟩ := after
    unfold readEntry
    split
    next named =>
      obtain rfl : name = "bifurcation" := named
      simp only [bind_eq_ok_iff, pure_eq_ok_iff, Config.mk.injEq]
      rw [settles_single]
      simp
    next other => simp [other]

end Fields

/-- What a document gives for the section, if anything, is a table. -/
def SectionIsTable (document : Toml.Table) : Prop :=
  ∀ value, document.get? "bifurcation" = some value → ∃ origin entries, value = .table origin entries

section Documents
variable {document other : Toml.Table} {config : Config}

theorem ofToml_eq_ok_iff (distinct : document.Distinct) (isTable : SectionIsTable document) :
    ofToml document = .ok config ↔ Described document config := by
  obtain ⟨keys, each⟩ := Toml.Table.distinct_iff.mp distinct
  rw [ofToml, foldlM_readEntry keys]
  constructor
  · intro read
    obtain ⟨only, ⟨absent, rfl⟩ | ⟨value, given, chosen⟩⟩ := read
    · exact .absent only absent
    · obtain ⟨origin, entries, rfl⟩ := isTable value given
      have inside := distinct.nodup_of_get? given
      exact .given only given ((sourceOfEntries_eq_ok_iff inside).mp chosen)
  · intro described
    cases described with
    | absent only absent => exact ⟨only, .inl ⟨absent, rfl⟩⟩
    | given only given chosen =>
      have inside := distinct.nodup_of_get? given
      exact ⟨only, .inr ⟨_, given, (sourceOfEntries_eq_ok_iff inside).mpr chosen⟩⟩

/-- The same keys, and in the section the same keys with the same values. -/
def SameKeys (document other : Toml.Table) : Prop :=
  (∀ key, (document.get? key).isSome = (other.get? key).isSome) ∧
  ∀ origin entries otherOrigin others,
    document.get? "bifurcation" = some (.table origin entries) →
    other.get? "bifurcation" = some (.table otherOrigin others) →
    ∀ key, entries.lookup key = others.lookup key

theorem Chosen.congr {entries others : List (String × Value)} {source : Source}
    (same : ∀ key, entries.lookup key = others.lookup key) (chosen : Chosen entries source) :
    Chosen others source := by
  cases chosen with
  | table kind only settles =>
    rw [onlyNames_iff_lookup] at only
    simp only [same] at kind only settles
    exact .table kind (onlyNames_iff_lookup.mpr only) settles
  | inventory kind only given settles =>
    rw [onlyNames_iff_lookup] at only
    simp only [same] at kind only given settles
    exact .inventory kind (onlyNames_iff_lookup.mpr only) given settles

theorem Described.congr (same : SameKeys document other) (isTable : SectionIsTable other)
    (described : Described document config) : Described other config := by
  obtain ⟨keys, values⟩ := same
  have keep (only : OnlyNames document.entries ["bifurcation"]) :
      OnlyNames other.entries ["bifurcation"] := by
    rw [onlyNames_iff_lookup] at only ⊢
    intro key present
    exact only key ((keys key).trans present)
  cases described with
  | absent only absent =>
    have none : (other.get? "bifurcation").isSome = false := by rw [← keys, absent]; rfl
    exact .absent (keep only) (Option.isSome_eq_false_iff.mp none |> Option.isNone_iff_eq_none.mp)
  | given only given chosen =>
    have present : (other.get? "bifurcation").isSome := by rw [← keys, given]; rfl
    obtain ⟨value, found⟩ := Option.isSome_iff_exists.mp present
    obtain ⟨origin, entries, rfl⟩ := isTable value found
    exact .given (keep only) found (chosen.congr (values _ _ _ _ given found))

theorem SameKeys.symm (same : SameKeys document other) : SameKeys other document := by
  refine ⟨fun key => (same.1 key).symm, ?_⟩
  intro origin entries otherOrigin others given otherGiven key
  exact (same.2 _ _ _ _ otherGiven given key).symm

/-- The file at the path is text, and the text is this document. -/
def Stored (files : Files) (path : String) (document : Toml.Table) : Prop :=
  ∃ bytes chars, files.read path = .ok bytes ∧ Text.Utf8.decode? bytes = some chars ∧
    Toml.readDocument chars = some document

variable {files : Files} {path : String}

theorem load_eq_ok_iff_described (stored : Stored files path document)
    (isTable : SectionIsTable document) :
    load files path = .ok config ↔ Described document config := by
  obtain ⟨bytes, chars, held, decoded, read⟩ := stored
  rw [← ofToml_eq_ok_iff (Toml.distinct_readDocument read) isTable, load, mapError_eq_ok_iff, held]
  change ofBytes bytes = .ok config ↔ _
  rw [ofBytes, decoded]
  simp only [read, mapError_eq_ok_iff]

theorem load_eq_of_sameKeys {otherFiles : Files} {otherPath : String}
    (stored : Stored files path document) (otherStored : Stored otherFiles otherPath other)
    (isTable : SectionIsTable document) (otherIsTable : SectionIsTable other)
    (same : SameKeys document other) :
    load files path = .ok config ↔ load otherFiles otherPath = .ok config := by
  rw [load_eq_ok_iff_described stored isTable, load_eq_ok_iff_described otherStored otherIsTable]
  exact ⟨.congr same otherIsTable, .congr same.symm isTable⟩

theorem loadOrDefault_of_present (present : files.present path = true) :
    loadOrDefault files path = ⟨load files path, []⟩ :=
  if_pos present

theorem loadOrDefault_of_absent (absent : files.present path = false) :
    loadOrDefault files path = ⟨.ok {}, [.configAbsent path]⟩ :=
  if_neg (Bool.eq_false_iff.mp absent)

end Documents

/-- A configuration is loaded from a document exactly if the document describes it, and documents
with the same keys and values give the same, in whatever order and form they give them. Where
something is seen to stand at the path, it is loaded or its fault is told; only where nothing is
seen are there defaults. In a tree of directories that is where the path leads nowhere. -/
theorem configuration_described (files : Files) (path : String) :
    (∀ document, Stored files path document → SectionIsTable document → ∀ config,
      load files path = .ok config ↔ Described document config) ∧
    (∀ document other otherFiles otherPath, Stored files path document →
      Stored otherFiles otherPath other → SectionIsTable document → SectionIsTable other →
      SameKeys document other → ∀ config,
      load files path = .ok config ↔ load otherFiles otherPath = .ok config) ∧
    (files.present path = true → loadOrDefault files path = ⟨load files path, []⟩) ∧
    (files.present path = false → loadOrDefault files path = ⟨.ok {}, [.configAbsent path]⟩) ∧
    ∀ tree : Files.Tree,
      (∀ entry, tree.Holds path entry →
        loadOrDefault tree.files path = ⟨load tree.files path, []⟩) ∧
      ((∀ entry, ¬tree.Holds path entry) →
        loadOrDefault tree.files path = ⟨.ok {}, [.configAbsent path]⟩) := by
  refine ⟨fun _ stored isTable _ => load_eq_ok_iff_described stored isTable,
    fun _ _ _ _ stored otherStored isTable otherIsTable same _ =>
      load_eq_of_sameKeys stored otherStored isTable otherIsTable same,
    loadOrDefault_of_present, loadOrDefault_of_absent, fun tree => ⟨?_, ?_⟩⟩
  · intro entry holds
    exact loadOrDefault_of_present (Files.Tree.present_iff_holds.mpr ⟨entry, holds⟩)
  · intro lost
    apply loadOrDefault_of_absent
    rw [Bool.eq_false_iff, ne_eq, Files.Tree.present_iff_holds]
    exact not_exists.mpr lost

/-- A section with the kind last. -/
def boardSection : String :=
  "[bifurcation]\nmain-board = \"/board\"\ninventory = \"/i.json\"\nsource = \"dynamic\"\n"

def boardDocument : Toml.Table :=
  ⟨.stated, [("bifurcation", .table .stated [("main-board", .string "/board"),
    ("inventory", .string "/i.json"), ("source", .string "dynamic")])]⟩

/-- The same section in braces. -/
def boardBraces : String :=
  "bifurcation = \x7b source = 'dynamic', inventory = \"/i.json\", \"main-board\" = '/board' \x7d"

def boardBracesDocument : Toml.Table :=
  ⟨.stated, [("bifurcation", .table .inline [("source", .string "dynamic"),
    ("inventory", .string "/i.json"), ("main-board", .string "/board")])]⟩

def textFiles (text : String) : Files :=
  ⟨fun _ => .ok (text.toList.flatMap String.utf8EncodeChar), fun _ => true⟩

theorem boards_sameKeys : SameKeys boardDocument boardBracesDocument := by
  refine ⟨fun key => ?_, ?_⟩
  · rw [Toml.Table.get?, Toml.Table.get?, boardDocument, boardBracesDocument]
    simp only [lookup_cons_eq_ite]
    split <;> rfl
  · intro origin entries otherOrigin others given otherGiven key
    obtain ⟨_, rfl⟩ := Value.table.inj (Option.some.inj given)
    obtain ⟨_, rfl⟩ := Value.table.inj (Option.some.inj otherGiven)
    simp only [lookup_cons_eq_ite]
    grind

theorem board_described :
    load (textFiles boardSection) "handler.toml" = .ok ⟨.inventory "/i.json" "/board"⟩ ∧
      load (textFiles boardBraces) "handler.toml" = .ok ⟨.inventory "/i.json" "/board"⟩ ∧
      loadOrDefault (Files.Tree.files [("dir", .directory [])]) "dir" =
        ⟨load (Files.Tree.files [("dir", .directory [])]) "dir", []⟩ := by
  have decoded (text : String) := Text.Utf8.decode?_utf8EncodeChars text.toList
  have stored : Stored (textFiles boardSection) "handler.toml" boardDocument :=
    ⟨_, _, rfl, decoded _, by cbv⟩
  have bracesStored : Stored (textFiles boardBraces) "handler.toml" boardBracesDocument :=
    ⟨_, _, rfl, decoded _, by cbv⟩
  have isTable : SectionIsTable boardDocument := fun _ found => ⟨_, _, (Option.some.inj found).symm⟩
  have bracesIsTable : SectionIsTable boardBracesDocument :=
    fun _ found => ⟨_, _, (Option.some.inj found).symm⟩
  have described : Described boardDocument ⟨.inventory "/i.json" "/board"⟩ :=
    .given (by simp [OnlyNames, boardDocument]) rfl
      (.inventory rfl (by simp [OnlyNames]) rfl (.inr ⟨_, rfl, rfl⟩))
  have holds : Files.Tree.Holds [("dir", .directory [])] "dir" (.directory []) :=
    ⟨by cbv, by decide, by cbv, by cbv⟩
  obtain ⟨loads, _⟩ := configuration_described (textFiles boardSection) "handler.toml"
  obtain ⟨_, alike, _⟩ := configuration_described (textFiles boardSection) "handler.toml"
  obtain ⟨_, _, _, _, trees⟩ := configuration_described (textFiles boardSection) "dir"
  have loaded := (loads _ stored isTable _).mpr described
  have same := alike _ _ _ _ stored bracesStored isTable bracesIsTable boards_sameKeys
  exact ⟨loaded, (same _).mp loaded, (trees [("dir", .directory [])]).1 _ holds⟩

end SlotLanes.Config
