import Mathlib
import SlotLanes.Inventory.Load
import SlotLanes.Proofs.ObjectReadings

/-! The two ways to an inventory, straight from a file and by way of the value of the whole
document. What the first gives the second gives too. The second may also give an inventory
where an object names a member more than once, since its value keeps only the last; apart
from that the first gives what the second gives. -/
namespace SlotLanes.Json

mutual

/-- No object in the document names a member twice, the names compared as they read. -/
def Node.Distinct : Node → Prop
  | .array _ items => items.Distinct
  | .object _ members => members.keys.Nodup ∧ members.Distinct
  | .scalar _ _ => True
  | .broken _ => True

def Items.Distinct : Items → Prop
  | .item node more => node.Distinct ∧ more.Distinct
  | .close _ => True
  | .broken _ => True

def Members.Distinct : Members → Prop
  | .member _ _ node more => node.Distinct ∧ more.Distinct
  | .close _ => True
  | .broken _ => True

end

end SlotLanes.Json

namespace SlotLanes.Inventory
open SlotLanes.Json

theorem NamesOnce.of_distinct {node : Node} (distinct : node.Distinct) : NamesOnce node := by
  cases node with
  | object start members => exact distinct.1
  | _ => trivial

/-- A member's value and the object it stands for. -/
abbrev Describes : String × Value → String × Object → Prop :=
  Alike fun value object => Object.ofValue value = .ok object

theorem describes_rightUnique : Relator.RightUnique Describes := by
  intro member entry other first second
  apply Prod.ext
  · exact first.1.symm.trans second.1
  · exact Except.ok.inj (first.2.symm.trans second.2)

section Objects
variable {inventory result : Inventory} {entries : List (String × Value)}

theorem objectsOfValue_object_iff :
    objectsOfValue (.object entries) = .ok inventory ↔
      ∃ objects, List.Forall₂ Describes entries objects ∧ inventory = .ofList objects := by
  have single (member : String × Value) (entry : String × Object) :
      (do return (member.1, ← Object.ofValue member.2)) = Except.ok entry ↔ Describes member entry := by
    simp only [bind_eq_ok_iff, pure_eq_ok_iff]
    constructor
    · intro read
      obtain ⟨object, read, rfl⟩ := read
      exact ⟨rfl, read⟩
    · intro described
      exact ⟨entry.2, described.2, Prod.ext described.1.symm rfl⟩
  simp only [objectsOfValue, bind_eq_ok_iff, pure_eq_ok_iff, mapM_eq_ok_iff, single]

theorem objectsOfMembers_carries (members : Members) (linked : members.Linked)
    (inventory : Inventory) (read : objectsOfMembers inventory members = .ok result) :
    ∃ entries objects, members.entries = .ok entries ∧ List.Forall₂ Describes entries objects ∧
      result = objects.foldl (fun inventory entry => inventory.insert entry.1 entry.2) inventory := by
  match members with
  | .close _ => exact ⟨[], [], rfl, .nil, (Except.ok.inj read).symm⟩
  | .member path after node more =>
    obtain ⟨object, first, read⟩ := bind_eq_ok_iff.mp read
    obtain ⟨_, value, whole, described⟩ := (Object.ofNode_eq_ok_iff linked.1).mp first
    obtain ⟨entries, objects, wholes, rest, same⟩ := objectsOfMembers_carries more linked.2 _ read
    have all : (Members.member path after node more).entries = .ok ((path, value) :: entries) :=
      Members.entries_member_iff.mpr ⟨value, entries, whole, wholes, rfl⟩
    exact ⟨_, (path, object) :: objects, all, .cons ⟨rfl, described⟩ rest, same⟩

theorem objectsOfMembers_of_entries (members : Members) (linked : members.Linked)
    (distinct : members.Distinct) (inventory : Inventory) (entries : List (String × Value))
    (objects : List (String × Object)) (whole : members.entries = .ok entries)
    (described : List.Forall₂ Describes entries objects) :
    objectsOfMembers inventory members =
      .ok (objects.foldl (fun inventory entry => inventory.insert entry.1 entry.2) inventory) := by
  match members with
  | .close _ =>
    cases whole
    cases described
    rfl
  | .member path _ node more =>
    obtain ⟨value, others, first, rest, rfl⟩ := Members.entries_member_iff.mp whole
    cases described with
    | @cons _ entry _ objects describes goesOn =>
      obtain ⟨rfl, read⟩ := describes
      have object := (Object.ofNode_eq_ok_iff linked.1).mpr
        ⟨.of_distinct distinct.1, value, first, read⟩
      rw [objectsOfMembers]
      refine bind_eq_ok_iff.mpr ⟨entry.2, object, ?_⟩
      exact objectsOfMembers_of_entries more linked.2 distinct.2 _ others objects rest goesOn

theorem objectsOfNode_carries {node : Node} (linked : node.Linked)
    (read : objectsOfNode node = .ok inventory) :
    ∃ value, node.value = .ok value ∧ objectsOfValue value = .ok inventory := by
  cases node with
  | object start members =>
    obtain ⟨entries, objects, whole, described, rfl⟩ := objectsOfMembers_carries members linked _ read
    refine ⟨_, Node.value_object_iff.mpr ⟨entries, whole, rfl⟩, objectsOfValue_object_iff.mpr ?_⟩
    refine ⟨sortEntries objects, sortEntries_alike described, ?_⟩
    exact (Dictionary.ofList_sortEntries objects).symm
  | scalar scalar rest => exact absurd read (refuse_ne_ok _ _ _)
  | array start items => exact absurd read (refuse_ne_ok _ _ _)
  | broken fault => exact absurd read (refuse_ne_ok _ _ _)

theorem objectsOfNode_of_value {node : Node} (linked : node.Linked) (distinct : node.Distinct)
    {value : Value} (whole : node.value = .ok value) (read : objectsOfValue value = .ok inventory) :
    objectsOfNode node = .ok inventory := by
  cases node with
  | object start members =>
    obtain ⟨entries, all, rfl⟩ := Node.value_object_iff.mp whole
    obtain ⟨sorted, described, rfl⟩ := objectsOfValue_object_iff.mp read
    have different : (entries.map Prod.fst).Nodup := Members.keys_eq all ▸ distinct.1
    obtain ⟨objects, written, _⟩ :=
      List.perm_comp_forall₂ (sortEntries_perm different).symm described
    have same : sortEntries objects = sorted :=
      describes_rightUnique.forall₂ (sortEntries_alike written) described
    rw [← same, Dictionary.ofList_sortEntries]
    exact objectsOfMembers_of_entries members linked distinct.2 _ entries objects all written
  | scalar scalar rest =>
    cases whole
    cases read
  | array start items =>
    obtain ⟨values, _, rfl⟩ := Node.value_array_iff.mp whole
    cases read
  | broken fault => cases whole

theorem readMember_eq_ok_iff {read found : Option Inventory} {member : String × Value} :
    readMember read member = .ok found ↔ member.1 = "objects" ∧
      ∃ inventory, objectsOfValue member.2 = .ok inventory ∧ found = some inventory := by
  unfold readMember
  split
  next named => simp only [named, true_and, bind_eq_ok_iff, pure_eq_ok_iff]
  next other => simp [other]

theorem names_of_foldlM_readMember {read found : Option Inventory}
    (all : entries.foldlM readMember read = .ok found) : ∀ entry ∈ entries, entry.1 = "objects" := by
  induction entries generalizing read with
  | nil => simp
  | cons entry entries ih =>
    obtain ⟨middle, first, rest⟩ := bind_eq_ok_iff.mp all
    intro other member
    rcases List.mem_cons.mp member with rfl | member
    · exact (readMember_eq_ok_iff.mp first).1
    · exact ih rest other member

theorem ofMembers_some_iff {members : Members} :
    ofMembers (some inventory) members = .ok result ↔
      (∃ rest, members = .close rest) ∧ result = inventory := by
  cases members with
  | close rest => simp [ofMembers, eq_comm]
  | broken fault => simp [ofMembers]
  | member key after node more =>
    unfold ofMembers
    split <;> simp

theorem ofMembers_none_iff {members : Members} :
    ofMembers none members = .ok result ↔ ∃ after node rest,
      members = .member "objects" after node (.close rest) ∧ objectsOfNode node = .ok result := by
  cases members with
  | close rest => simp [ofMembers]
  | broken fault => simp [ofMembers]
  | member key after node more =>
    unfold ofMembers
    split
    next other => simp [other]
    next named =>
      simp only [Option.isSome_none, Bool.false_eq_true, if_false, bind_eq_ok_iff, ofMembers_some_iff]
      constructor
      · intro read
        obtain ⟨inventory, read, ⟨rest, rfl⟩, rfl⟩ := read
        obtain rfl := not_not.mp named
        exact ⟨after, node, rest, rfl, read⟩
      · intro read
        obtain ⟨_, _, rest, same, read⟩ := read
        cases same
        exact ⟨result, read, ⟨rest, rfl⟩, rfl⟩

theorem ofValue_single_iff {value : Value} :
    ofValue (.object [("objects", value)]) = .ok inventory ↔ objectsOfValue value = .ok inventory := by
  simp only [ofValue, List.foldlM_cons, List.foldlM_nil, bind_eq_ok_iff, pure_eq_ok_iff,
    readMember_eq_ok_iff, true_and]
  constructor
  · intro read
    obtain ⟨_, ⟨_, ⟨found, read, rfl⟩, rfl⟩, same⟩ := read
    exact pure_eq_ok_iff.mp same ▸ read
  · intro read
    exact ⟨some inventory, ⟨_, ⟨inventory, read, rfl⟩, rfl⟩, rfl⟩

/-- Where no name comes twice, an inventory comes from a single member. -/
theorem exists_single_of_ofValue (distinct : (entries.map Prod.fst).Nodup)
    (read : ofValue (.object (sortEntries entries)) = .ok inventory) :
    ∃ value, entries = [("objects", value)] ∧ objectsOfValue value = .ok inventory := by
  have sorted := sortEntries_perm distinct
  obtain ⟨found, folded, last⟩ := bind_eq_ok_iff.mp read
  have named : ∀ entry ∈ entries, entry.1 = "objects" := fun entry member =>
    names_of_foldlM_readMember folded entry (sorted.mem_iff.mpr member)
  match entries with
  | [] =>
    cases folded
    cases last
  | [(name, value)] =>
    obtain rfl : name = "objects" := named (name, value) (by simp)
    exact ⟨value, rfl, ofValue_single_iff.mp read⟩
  | first :: second :: rest =>
    have same : first.1 = second.1 := (named first (by simp)).trans (named second (by simp)).symm
    exact absurd (by simp [same]) (List.nodup_cons.mp distinct).1

theorem ofValue_array_iff {values : List Value} :
    ofValue (.array values) = .ok inventory ↔
      ∃ value, values = [value] ∧ objectsOfValue value = .ok inventory := by
  match values with
  | [] => simp [ofValue]
  | value :: more =>
    simp only [ofValue, bind_eq_ok_iff, pure_eq_ok_iff]
    constructor
    · intro read
      obtain ⟨_, read, _, short, rfl⟩ := read
      have few : more.length + 1 ≤ 1 := checkLength_eq_ok_iff.mp short
      have none : more = [] := List.eq_nil_of_length_eq_zero (by omega)
      exact ⟨value, by rw [none], read⟩
    · intro read
      obtain ⟨_, same, read⟩ := read
      cases same
      exact ⟨inventory, read, (), rfl, rfl⟩

theorem ofNode_carries {node : Node} (linked : node.Linked) (read : ofNode node = .ok inventory) :
    ∃ value, node.value = .ok value ∧ ofValue value = .ok inventory := by
  match node with
  | .object start members =>
    obtain ⟨after, inner, rest, rfl, objects⟩ := ofMembers_none_iff.mp read
    obtain ⟨value, whole, described⟩ := objectsOfNode_carries linked.1 objects
    have single : (Members.member "objects" after inner (.close rest)).entries =
        .ok [("objects", value)] := Members.entries_member_iff.mpr ⟨value, [], whole, rfl, rfl⟩
    exact ⟨_, Node.value_object_iff.mpr ⟨_, single, rfl⟩, ofValue_single_iff.mpr described⟩
  | .array start (.item inner more) =>
    obtain ⟨found, objects, goesOn⟩ := bind_eq_ok_iff.mp read
    obtain ⟨rest, ends, last⟩ := bind_eq_ok_iff.mp goesOn
    obtain ⟨_, closed, same⟩ := bind_eq_ok_iff.mp last
    obtain rfl := pure_eq_ok_iff.mp same
    obtain ⟨value, whole, described⟩ := objectsOfNode_carries linked.1 objects
    obtain ⟨_, closes⟩ := linked.2 value rest ⟨whole, ends⟩
    obtain ⟨after, rfl⟩ := closes.mpr closed
    have single : (Items.item inner (.close after)).values = .ok [value] :=
      Items.values_item_iff.mpr ⟨value, [], whole, rfl, rfl⟩
    exact ⟨_, Node.value_array_iff.mpr ⟨_, single, rfl⟩, ofValue_array_iff.mpr ⟨value, rfl, described⟩⟩
  | .scalar scalar rest => exact absurd read (refuse_ne_ok _ _ _)
  | .broken fault => exact absurd read (refuse_ne_ok _ _ _)

theorem ofNode_of_value {node : Node} (linked : node.Linked) (distinct : node.Distinct) {value : Value}
    (whole : node.value = .ok value) (read : ofValue value = .ok inventory) :
    ofNode node = .ok inventory := by
  match node with
  | .object start members =>
    obtain ⟨entries, all, rfl⟩ := Node.value_object_iff.mp whole
    obtain ⟨inner, rfl, described⟩ := exists_single_of_ofValue (Members.keys_eq all ▸ distinct.1) read
    match members with
    | .member key after node more =>
      obtain ⟨_, _, first, others, same⟩ := Members.entries_member_iff.mp all
      cases same
      obtain ⟨rest, rfl⟩ := Members.entries_eq_nil_iff.mp others
      have objects := objectsOfNode_of_value linked.1 distinct.2.1 first described
      exact ofMembers_none_iff.mpr ⟨after, node, rest, rfl, objects⟩
  | .array start items =>
    obtain ⟨values, all, rfl⟩ := Node.value_array_iff.mp whole
    obtain ⟨inner, rfl, described⟩ := ofValue_array_iff.mp read
    match items with
    | .item node more =>
      obtain ⟨_, _, first, others, same⟩ := Items.values_item_iff.mp all
      cases same
      obtain ⟨rest, ends⟩ := Node.exists_rest node inner first
      obtain ⟨_, closes⟩ := linked.2 inner rest ⟨first, ends⟩
      have closed := closes.mp (Items.values_eq_nil_iff.mp others)
      have objects := objectsOfNode_of_value linked.1 distinct.1 first described
      refine bind_eq_ok_iff.mpr ⟨inventory, objects, bind_eq_ok_iff.mpr ⟨rest, ends, ?_⟩⟩
      exact bind_eq_ok_iff.mpr ⟨(), closed, rfl⟩
  | .scalar scalar rest =>
    cases whole
    cases read
  | .broken fault => cases whole

end Objects

section Documents
variable {bytes : Bytes} {inventory : Inventory}

theorem ofDocument_eq_ok_iff :
    ofDocument bytes = .ok inventory ↔ ofNode (readDocument bytes) = .ok inventory ∧
      ∃ rest, (readDocument bytes).rest = .ok rest ∧ checkEnd rest = .ok () := by
  simp only [ofDocument, mapError_eq_ok_iff, bind_eq_ok_iff, pure_eq_ok_iff]
  constructor
  · intro read
    obtain ⟨_, objects, rest, ends, _, finished, rfl⟩ := read
    exact ⟨objects, rest, ends, finished⟩
  · intro read
    obtain ⟨objects, rest, ends, finished⟩ := read
    exact ⟨inventory, objects, rest, ends, (), finished, rfl⟩

theorem exists_value_of_ofDocument (read : ofDocument bytes = .ok inventory) :
    ∃ value, Value.ofBytes bytes = .ok value ∧ ofValue value = .ok inventory := by
  obtain ⟨objects, rest, ends, finished⟩ := ofDocument_eq_ok_iff.mp read
  obtain ⟨value, whole, found⟩ := ofNode_carries (readNode_linked _ _) objects
  exact ⟨value, Value.ofBytes_eq_ok_iff.mpr ⟨rest, ⟨whole, ends⟩, finished⟩, found⟩

theorem ofDocument_of_value {value : Value} (read : Value.ofBytes bytes = .ok value)
    (distinct : (readDocument bytes).Distinct) (found : ofValue value = .ok inventory) :
    ofDocument bytes = .ok inventory := by
  obtain ⟨rest, ⟨whole, ends⟩, finished⟩ := Value.ofBytes_eq_ok_iff.mp read
  have objects := ofNode_of_value (readNode_linked _ _) distinct whole found
  exact ofDocument_eq_ok_iff.mpr ⟨objects, rest, ends, finished⟩

theorem load_eq_ok_iff {files : Files} {path : String} (stored : files.read path = .ok bytes) :
    load files path = .ok inventory ↔ ofDocument bytes = .ok inventory := by
  rw [load, stored]
  exact mapError_eq_ok_iff

/-- An inventory that a file gives, the value of its document gives as well; and one that the
value gives, the file gives, unless an object in it names a member twice. -/
theorem load_agrees_with_fromValue {files : Files} {path : String}
    (stored : files.read path = .ok bytes) (inventory : Inventory) :
    (load files path = .ok inventory →
      ∃ value, Value.ofBytes bytes = .ok value ∧ fromValue value = .ok inventory) ∧
    (∀ value, Value.ofBytes bytes = .ok value → (readDocument bytes).Distinct →
      fromValue value = .ok inventory → load files path = .ok inventory) := by
  rw [load_eq_ok_iff stored]
  simp only [fromValue, mapError_eq_ok_iff]
  exact ⟨exists_value_of_ofDocument, fun value => ofDocument_of_value⟩

end Documents

/-- A slot with one card, the slot by names and the card by places. -/
def pluggedCard : Bytes :=
  "\x7b\"objects\": \x7b\"/slot\": \x7b\"bus\": null, \"l\\u0061nes\": 8, ".toUTF8.toList ++
    "\"children\": [\"/card\"]\x7d, \"/card\": [3, 8]\x7d\x7d".toUTF8.toList

def pluggedCardInventory : Inventory :=
  .ofList [("/slot", { lanes := some 8, children := ["/card"] }),
    ("/card", { bus := some 3, maxLanes := some 8 })]

def pluggedCardFiles : Files := ⟨fun _ => .ok pluggedCard, fun _ => true⟩

theorem ofDocument_pluggedCard : ofDocument pluggedCard = .ok pluggedCardInventory := by
  cbv

theorem load_pluggedCard : load pluggedCardFiles "inventory.json" = .ok pluggedCardInventory :=
  (load_eq_ok_iff rfl).mpr ofDocument_pluggedCard

theorem pluggedCard_read_both_ways : ∃ value, Value.ofBytes pluggedCard = .ok value ∧
    (readDocument pluggedCard).Distinct ∧ fromValue value = .ok pluggedCardInventory ∧
      load pluggedCardFiles "inventory.json" = .ok pluggedCardInventory := by
  have stored : pluggedCardFiles.read "inventory.json" = .ok pluggedCard := rfl
  have agrees := load_agrees_with_fromValue stored pluggedCardInventory
  have distinct : (readDocument pluggedCard).Distinct := by
    cbv
    decide
  obtain ⟨value, read, found⟩ := agrees.1 load_pluggedCard
  exact ⟨value, read, distinct, found, agrees.2 value read distinct found⟩

/-- Where a bus is written twice, the value keeps the last and the file is refused. -/
example :
    let written := "[\x7b\"/card\": \x7b\"bus\": 1, \"bus\": 2\x7d\x7d]".toUTF8.toList
    (Value.ofBytes written).toOption.map (fun value => (fromValue value).isOk) = some true ∧
      (load ⟨fun _ => .ok written, fun _ => true⟩ "inventory.json").isOk = false := by
  cbv

end SlotLanes.Inventory
