import SlotLanes.Files.Basic

/-! A tree of directories and files and how paths lead through it. Nothing stands
outside the tree: its root is the working directory, and above it and at absolute paths
there are only empty directories. -/
namespace SlotLanes.Files

inductive Entry where
  | file (bytes : List UInt8)
  | directory (entries : List (String × Entry))

abbrev Tree := List (String × Entry)

def maxNameLength : Nat := 255

def maxPathLength : Nat := 4095

/-- The names along a path; a slash at the end asks for a directory, as `.` does. -/
def components (path : String) : List String :=
  let names := (path.splitOn "/").filter (· ≠ "")
  if path.endsWith "/" then names ++ ["."] else names

def pass (back : List String) (name : String) : List String :=
  if name = "." then back else if name = ".." then back.drop 1 else name :: back

def direct (names : List String) : List String :=
  (names.foldl pass []).reverse

/-- Follows names from an entry; `above` are the directories that lead to it, the
nearest first. -/
def Entry.follow (above : List Entry) : Entry → List String → Except Fault Entry
  | entry, [] => .ok entry
  | .file _, _ :: _ => .error .notDirectory
  | .directory entries, name :: names =>
    if name = "." then follow above (.directory entries) names
    else if name = ".." then
      match above with
      | [] => follow [] (.directory []) names
      | parent :: above => follow above parent names
    else if maxNameLength < name.utf8ByteSize then .error .nameTooLong
    else
      match entries.lookup name with
      | none => .error .missing
      | some entry => follow (.directory entries :: above) entry names

def Entry.read : Entry → Except Fault (List UInt8)
  | file bytes => .ok bytes
  | directory _ => .error .isDirectory

namespace Tree

/-- What stands at a path, or why nothing is seen there. -/
def find (tree : Tree) (path : String) : Except Fault Entry :=
  if path.contains '\x00' then .error .zeroInName
  else if path = "" then .error .missing
  else if maxPathLength < path.utf8ByteSize then .error .nameTooLong
  else
    let start := if path.startsWith "/" then [] else tree
    Entry.follow [] (.directory start) (components path)

def read (tree : Tree) (path : String) : Except Fault (List UInt8) := do
  (← tree.find path).read

def present (tree : Tree) (path : String) : Bool :=
  (tree.find path).isOk

def files (tree : Tree) : Files := ⟨tree.read, tree.present⟩

def erase (name : String) (tree : Tree) : Tree :=
  tree.filter (·.1 ≠ name)

def put (name : String) (entry : Entry) (tree : Tree) : Tree :=
  (name, entry) :: erase name tree

def extend : List String → Tree → Tree
  | [], tree => tree
  | name :: names, tree =>
    match tree.lookup name with
    | none => put name (.directory (extend names [])) tree
    | some (.directory entries) => put name (.directory (extend names entries)) tree
    | some (.file _) => tree

def change (edit : String → Tree → Tree) : List String → Tree → Tree
  | [], tree => tree
  | [name], tree => edit name tree
  | name :: names, tree =>
    match tree.lookup name with
    | some (.directory entries) => put name (.directory (change edit names entries)) tree
    | _ => tree

def write (tree : Tree) (path : String) (bytes : List UInt8) : Tree :=
  let names := direct (components path)
  change (fun name => put name (.file bytes)) names (extend names.dropLast tree)

def makeDirectory (tree : Tree) (path : String) : Tree :=
  extend (direct (components path)) tree

def remove (tree : Tree) (path : String) : Tree :=
  change erase (direct (components path)) tree

end Tree
end SlotLanes.Files
