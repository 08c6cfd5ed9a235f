import SlotLanes.Config.Basic
import SlotLanes.Toml.Reader

/-! A configuration from the table of its document. The kind of source is settled first,
then the other entries are visited in their order. A list of values stands for the kind
and its fields by position. -/
namespace SlotLanes.Config
open SlotLanes.Toml (Value)

inductive Kind where
  | static
  | dynamic
  deriving DecidableEq, Repr

def Kind.ofValue : Value → Except Mismatch Kind
  | .string name =>
    if name = "static" then .ok .static
    else if name = "dynamic" then .ok .dynamic
    else .error (.unknownVariant name ["static", "dynamic"])
  | value => .error (.wrongKind value.found "variant identifier")

def stringOf (expected : String) : Value → Except Mismatch String
  | .string text => .ok text
  | value => .error (.wrongKind value.found expected)

def pathOf : Value → Except Mismatch String := stringOf "path string"

def mainBoardOf : Value → Except Mismatch String := stringOf "a string"

def staticEntry (_path : String) (entry : String × Value) : Except Mismatch String :=
  if entry.1 = "path" then pathOf entry.2 else .error (.unknownField entry.1 ["path"])

structure DynamicDraft where
  inventory : Option String := none
  mainBoard : String := defaultMainBoard

def dynamicEntry (draft : DynamicDraft) (entry : String × Value) :
    Except Mismatch DynamicDraft :=
  if entry.1 = "inventory" then do return { draft with inventory := some (← pathOf entry.2) }
  else if entry.1 = "main-board" then do return { draft with mainBoard := ← mainBoardOf entry.2 }
  else .error (.unknownField entry.1 ["inventory", "main-board"])

def sourceOfEntries (entries : List (String × Value)) : Except Mismatch Source :=
  match entries.lookup "source" with
  | none => .error (.missingField "source")
  | some value => do
    let fields := entries.filter (·.1 ≠ "source")
    match ← Kind.ofValue value with
    | .static => return .table (← fields.foldlM staticEntry Table.defaultPath)
    | .dynamic =>
      let draft ← fields.foldlM dynamicEntry {}
      match draft.inventory with
      | some inventory => return .inventory inventory draft.mainBoard
      | none => throw (.missingField "inventory")

def checkFields (most : Nat) (expected : String) (fields : List Value) : Except Mismatch Unit :=
  if fields.length ≤ most then .ok () else .error (.wrongLength fields.length expected)

def sourceOfItems : List Value → Except Mismatch Source
  | [] => .error (.missingField "source")
  | kind :: fields => do
    match ← Kind.ofValue kind with
    | .static =>
      let path ← (fields.head?.map pathOf).getD (.ok Table.defaultPath)
      checkFields 1 "1 element in sequence" fields
      return .table path
    | .dynamic =>
      match fields with
      | [] =>
        throw (.wrongLength 0 "struct variant BifurcationConfig::Dynamic with 2 elements")
      | inventory :: more =>
        let inventory ← pathOf inventory
        let mainBoard ← (more.head?.map mainBoardOf).getD (.ok defaultMainBoard)
        checkFields 2 "2 elements in sequence" fields
        return .inventory inventory mainBoard

def sourceOfValue : Value → Except Mismatch Source
  | .table _ entries => sourceOfEntries entries
  | .array _ items => sourceOfItems items
  | .dateTime => .error (.missingField "source")
  | value => .error (.wrongKind value.found "internally tagged enum BifurcationConfig")

def readEntry (_config : Config) (entry : String × Value) : Except Mismatch Config :=
  if entry.1 = "bifurcation" then do return ⟨← sourceOfValue entry.2⟩
  else .error (.unknownField entry.1 ["bifurcation"])

def ofToml (table : Toml.Table) : Except Mismatch Config :=
  table.entries.foldlM readEntry {}

end SlotLanes.Config
