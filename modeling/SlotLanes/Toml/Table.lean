import SlotLanes.Toml.Value

/-! How headers and keys build up the tables of a document. Each key is given once,
and each table is defined once: by its header, or by dotted keys, or by braces. -/
namespace SlotLanes.Toml

namespace Table

def get? (table : Table) (key : String) : Option Value :=
  table.entries.lookup key

def append (table : Table) (key : String) (value : Value) : Table :=
  { table with entries := table.entries ++ [(key, value)] }

def replace (table : Table) (key : String) (value : Value) : Table :=
  { table with
    entries := table.entries.map fun entry => if entry.1 = key then (key, value) else entry }

def erase (table : Table) (key : String) : Table :=
  { table with entries := table.entries.filter (·.1 ≠ key) }

/-- Changes the table at a path; tables missing on the way are created. A header leads
through any table but one in braces, and through the last element of a list of tables; a
dotted key does not lead through a table that has a header. -/
def descend (dotted : Bool) (change : Table → Option (Table × β)) :
    List String → Table → Option (Table × β)
  | [], table => change table
  | key :: path, table =>
    match table.get? key with
    | none => do
      let (inner, result) ← descend dotted change path ⟨if dotted then .dotted else .implied, []⟩
      return (table.append key (.ofTable inner), result)
    | some (.table origin entries) => do
      if origin = .inline ∨ (dotted ∧ origin = .stated) then none
      let (inner, result) ← descend dotted change path ⟨origin, entries⟩
      return (table.replace key (.ofTable inner), result)
    | some (.array true items) =>
      match items.getLast? with
      | some (.table origin entries) => do
        let (inner, result) ← descend dotted change path ⟨origin, entries⟩
        return (table.replace key (.array true (items.dropLast ++ [.ofTable inner])), result)
      | _ => none
    | some _ => none

def update (dotted : Bool) (change : Table → Option Table) (path : List String) (table : Table) :
    Option Table :=
  (descend dotted (fun inner => (change inner).map (·, ())) path table).map (·.1)

end Table

structure Assignment where
  path : List String
  key : String
  value : Value

/-- Gives a table a new entry. Dotted keys add only to tables that dotted keys made. -/
def Table.assign (table : Table) (entry : Assignment) : Option Table :=
  let dotted := !entry.path.isEmpty
  table.update dotted
    (fun parent =>
      if decide (parent.origin = .dotted) ≠ dotted ∨ (parent.get? entry.key).isSome then none
      else some (parent.append entry.key entry.value))
    entry.path

structure Header where
  isElement : Bool
  path : List String
  key : String

inductive Line where
  | assignment (entry : Assignment)
  | header (header : Header)

/-- A document of which some lines are read: the tables that are complete, and the one
that is being filled. -/
structure Draft where
  root : Table
  header : Option Header
  current : Table

def Draft.close (draft : Draft) : Option Table :=
  match draft.header with
  | none => some draft.current
  | some header =>
    draft.root.update false
      (fun parent =>
        if header.isElement then
          match parent.get? header.key with
          | none => some (parent.append header.key (.array true [.ofTable draft.current]))
          | some (.array true items) =>
            some (parent.replace header.key (.array true (items ++ [.ofTable draft.current])))
          | some _ => none
        else some (parent.append header.key (.ofTable draft.current)))
      header.path

/-- Starts the table of a header. One that so far was only implied keeps its entries and
moves to the end of its parent. -/
def Draft.start (root : Table) (header : Header) : Option Draft :=
  if header.isElement then some ⟨root, some header, ⟨.stated, []⟩⟩
  else do
    let (root, entries) ← root.descend false
      (fun parent =>
        match parent.get? header.key with
        | none => some (parent, [])
        | some (.table .implied entries) => some (parent.erase header.key, entries)
        | some _ => none)
      header.path
    return ⟨root, some header, ⟨.stated, entries⟩⟩

def Draft.step (draft : Draft) : Line → Option Draft
  | .assignment entry => do return { draft with current := ← draft.current.assign entry }
  | .header header => do Draft.start (← draft.close) header

def Table.ofLines (lines : List Line) : Option Table := do
  let draft ← lines.foldlM Draft.step ⟨⟨.stated, []⟩, none, ⟨.stated, []⟩⟩
  draft.close

end SlotLanes.Toml
