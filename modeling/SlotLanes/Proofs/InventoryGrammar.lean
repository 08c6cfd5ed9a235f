import SlotLanes.Proofs.Settled
import SlotLanes.Proofs.TwoReadings
import SlotLanes.Proofs.WrittenInventory

/-! The values that are an inventory: under the one name, or alone in a list, an object that gives
each path an object, by the names of its fields or by their places. A number is null or an integer
of sixty-four bits without a sign, children are a list of strings, and nothing else is let
through. What is not given is what an empty object has. -/
namespace SlotLanes.Json

/-- Each object keeps its members in the order of their names, none of which comes twice. -/
inductive Value.Ordered : Value → Prop
  | scalar (scalar : Scalar) : Ordered (.scalar scalar)
  | array {items : List Value} (each : ∀ item ∈ items, Ordered item) : Ordered (.array items)
  | object {members : List (String × Value)} (sorted : Sorted members)
      (each : ∀ member ∈ members, Ordered member.2) : Ordered (.object members)

mutual

theorem Node.ordered_value : (node : Node) → (value : Value) → node.value = .ok value →
    value.Ordered
  | .scalar scalar _, _, rfl => .scalar scalar
  | .array _ items, value, whole => by
    obtain ⟨values, all, rfl⟩ := Node.value_array_iff.mp whole
    exact .array (items.ordered_values values all)
  | .object _ members, value, whole => by
    obtain ⟨entries, all, rfl⟩ := Node.value_object_iff.mp whole
    refine .object (sorted_sortEntries entries) fun member inside => ?_
    exact members.ordered_entries entries all member (mem_of_mem_sortEntries inside)

theorem Items.ordered_values : (items : Items) → (values : List Value) →
    items.values = .ok values → ∀ value ∈ values, value.Ordered
  | .close _, _, rfl => by simp
  | .item node more, _, all => by
    obtain ⟨value, values, whole, others, rfl⟩ := Items.values_item_iff.mp all
    exact List.forall_mem_cons.mpr ⟨node.ordered_value value whole, more.ordered_values values others⟩

theorem Members.ordered_entries : (members : Members) → (entries : List (String × Value)) →
    members.entries = .ok entries → ∀ entry ∈ entries, entry.2.Ordered
  | .close _, _, rfl => by simp
  | .member _ _ node more, _, all => by
    obtain ⟨value, entries, whole, others, rfl⟩ := Members.entries_member_iff.mp all
    exact List.forall_mem_cons.mpr
      ⟨node.ordered_value value whole, more.ordered_entries entries others⟩

end

theorem Value.ordered_ofBytes {bytes : Bytes} {value : Value} (read : Value.ofBytes bytes = .ok value) :
    value.Ordered := by
  obtain ⟨_, ⟨whole, _⟩, _⟩ := Value.ofBytes_eq_ok_iff.mp read
  exact Node.ordered_value _ value whole

end SlotLanes.Json

namespace SlotLanes.Inventory
open SlotLanes.Json

/-- The value gives a field this content. -/
def Gives (value : Value) : Content → Prop
  | .count none => value = .scalar .null
  | .count (some n) => value = .scalar (.number (.natural n))
  | .paths children => value = .array (children.map fun child => .scalar (.string child))

/-- The fields that a value gives, by their names or in their order. -/
inductive Lists : Value → List (String × Value) → Prop
  | named (members : List (String × Value)) : Lists (.object members) members
  | placed {items : List Value} (few : items.length ≤ Field.names.length) :
      Lists (.array items) (Field.names.zip items)

/-- What entries settle of an object: each field by the value under its name. -/
def Object.Settled (entries : List (String × Value)) (before after : Object) : Prop :=
  ∀ field : Field,
    Settles Gives (entries.lookup field.name) (before.content field) (after.content field)

/-- The value gives the object: its fields and no others, and what it does not give is what an
empty object has. -/
def GivesObject (value : Value) (object : Object) : Prop :=
  ∃ entries, Lists value entries ∧ OnlyNames entries Field.names ∧ Object.Settled entries {} object

def IsCount (value : Value) : Prop :=
  value = .scalar .null ∨ ∃ n, value = .scalar (.number (.natural n))

def IsPaths (value : Value) : Prop :=
  ∃ texts : List String, value = .array (texts.map fun text => .scalar (.string text))

/-- The value may stand for the field. -/
def Field.Admits : Field → Value → Prop
  | .bus => IsCount
  | .maxLanes => IsCount
  | .lanes => IsCount
  | .children => IsPaths

/-- The value may stand for an object. -/
def Admitted (value : Value) : Prop :=
  ∃ entries, Lists value entries ∧
    ∀ entry ∈ entries, ∃ field : Field, field.name = entry.1 ∧ field.Admits entry.2

/-- The value is an object of these members under the one name of a document, or in a list by
itself. -/
inductive Contents : Value → List (String × Value) → Prop
  | named (members : List (String × Value)) :
      Contents (.object [("objects", .object members)]) members
  | placed (members : List (String × Value)) : Contents (.array [.object members]) members

section Fields
variable {value : Value} {object before after : Object} {field : Field}

theorem countOfValue_eq_ok_iff {count : Option UInt64} :
    countOfValue value = .ok count ↔ Gives value (.count count) := by
  unfold countOfValue
  split
  next scalar =>
    unfold countOfScalar
    cases count with
    | none => split <;> simp_all [Gives]
    | some n => split <;> simp_all [Gives]
  next noScalar =>
    have apart (scalar : Scalar) : value ≠ .scalar scalar := fun same => noScalar scalar same
    cases count <;> simp [Gives, apart]

theorem stringOfValue_eq_ok_iff {text : String} :
    stringOfValue value = .ok text ↔ value = .scalar (.string text) := by
  unfold stringOfValue
  split
  next scalar => cases scalar <;> simp [stringOfScalar]
  next noScalar =>
    have apart (scalar : Scalar) : value ≠ .scalar scalar := fun same => noScalar scalar same
    simp [apart]

theorem pathsOfValue_eq_ok_iff {children : List String} :
    pathsOfValue value = .ok children ↔ Gives value (.paths children) := by
  unfold pathsOfValue
  dsimp only [Gives]
  split
  next items =>
    rw [Value.array.injEq]
    exact mapM_eq_ok_iff_eq_map fun _ _ => stringOfValue_eq_ok_iff
  next noList =>
    constructor
    · nofun
    · intro list
      exact absurd list (noList _)

theorem Content.reads_iff_gives {content : Content} : content.Reads value ↔ Gives value content := by
  cases content with
  | count n => exact countOfValue_eq_ok_iff
  | paths children => exact pathsOfValue_eq_ok_iff

theorem isCount_iff : IsCount value ↔ ∃ count, Gives value (.count count) := by
  constructor
  · intro count
    obtain given | ⟨n, given⟩ := count
    · exact ⟨none, given⟩
    · exact ⟨some n, given⟩
  · intro given
    obtain ⟨_ | n, given⟩ := given
    · exact .inl given
    · exact .inr ⟨n, given⟩

theorem Object.exists_readField_iff :
    (∃ after, before.readField valueReader field value = .ok after) ↔ field.Admits value := by
  have count : IsCount value ↔ ∃ count, countOfValue value = .ok count := by
    simp only [isCount_iff, countOfValue_eq_ok_iff]
  have paths : IsPaths value ↔ ∃ paths, pathsOfValue value = .ok paths := by
    simp only [pathsOfValue_eq_ok_iff]
    rfl
  cases field
  all_goals
    simp only [Object.readField, Field.Admits, count, paths, bind_eq_ok_iff, pure_eq_ok_iff]
    constructor
    · intro read
      obtain ⟨_, piece, read, _⟩ := read
      exact ⟨piece, read⟩
    · intro read
      obtain ⟨piece, read⟩ := read
      exact ⟨_, piece, read, rfl⟩

theorem Object.readField_eq_ok_iff :
    before.readField valueReader field value = .ok after ↔
      Gives value (after.content field) ∧
        ∀ other, other ≠ field → after.content other = before.content other := by
  constructor
  · intro read
    cases field
    all_goals
      obtain ⟨piece, found, stored⟩ := bind_eq_ok_iff.mp read
      obtain rfl := pure_eq_ok_iff.mp stored
      refine ⟨Content.reads_iff_gives.mp found, fun other apart => ?_⟩
      cases other <;> first | rfl | exact absurd rfl apart
  · intro given
    obtain ⟨given, kept⟩ := given
    obtain ⟨result, read, filled, others⟩ :=
      readField_of_reads (Content.reads_iff_gives.mpr given) before
    have same : result = after := by
      refine ext_content fun other => ?_
      by_cases same : other = field
      · rw [same, filled]
      · rw [others other same, kept other same]
    rw [read, same]

theorem Object.exists_readMember_iff {member : String × Value} :
    (∃ after, before.readMember member = .ok after) ↔
      ∃ field : Field, field.name = member.1 ∧ field.Admits member.2 := by
  simp only [readMember_eq_ok_iff]
  constructor
  · intro read
    obtain ⟨after, field, named, read⟩ := read
    exact ⟨field, named, exists_readField_iff.mp ⟨after, read⟩⟩
  · intro admitted
    obtain ⟨field, named, admits⟩ := admitted
    obtain ⟨after, read⟩ := exists_readField_iff.mpr admits
    exact ⟨after, field, named, read⟩

end Fields

section Objects
variable {value : Value} {object before after source : Object} {entries : List (String × Value)}

theorem Field.name_mem_names (field : Field) : field.name ∈ Field.names := by
  cases field <;> simp [Field.names, Field.all]

/-- One field as another object has it. -/
def Object.withField (object source : Object) : Field → Object
  | .bus => { object with bus := source.bus }
  | .maxLanes => { object with maxLanes := source.maxLanes }
  | .lanes => { object with lanes := source.lanes }
  | .children => { object with children := source.children }

theorem Object.content_withField (field other : Field) :
    (object.withField source field).content other =
      if other = field then source.content other else object.content other := by
  cases field <;> cases other <;> rfl

theorem Object.settled_single {field : Field} :
    Settled [(field.name, value)] before after ↔ Gives value (after.content field) ∧
      ∀ other, other ≠ field → after.content other = before.content other := by
  constructor
  · intro settled
    refine ⟨settles_single.mp (settled field), fun other apart => ?_⟩
    have named : other.name ≠ field.name := fun same => apart (Field.name_injective same)
    exact (settles_apart named).mp (settled other)
  · intro given other
    by_cases same : other = field
    · rw [same, settles_single]
      exact given.1
    · have named : other.name ≠ field.name := fun equal => same (Field.name_injective equal)
      rw [settles_apart named]
      exact given.2 other same

theorem Object.settled_cons {entry : String × Value} {fields : List (String × Value)}
    (known : entry.1 ∈ Field.names) (fresh : entry.1 ∉ fields.map Prod.fst) :
    Settled (entry :: fields) before after ↔
      ∃ middle, Settled [entry] before middle ∧ Settled fields middle after := by
  obtain ⟨name, value⟩ := entry
  obtain ⟨field, _, rfl⟩ := List.mem_map.mp known
  constructor
  · intro settled
    refine ⟨before.withField after field, fun other => ?_, fun other => ?_⟩
    all_goals
      obtain ⟨middle, first, rest⟩ := (settles_cons fresh).mp (settled other)
      -- The first entry settles its own field for good and leaves the others.
      have same : (before.withField after field).content other = middle := by
        rw [content_withField]
        split
        next own =>
          rw [own, lookup_eq_none_iff_absent.mpr fresh] at rest
          exact own ▸ settles_none.mp rest
        next apart =>
          have named : other.name ≠ field.name := fun same => apart (Field.name_injective same)
          exact ((settles_apart named).mp first).symm
      rw [same]
    · exact first
    · exact rest
  · intro settled other
    obtain ⟨middle, first, rest⟩ := settled
    exact (settles_cons fresh).mpr ⟨_, first other, rest other⟩

theorem Object.foldlM_readMember_iff (distinct : (entries.map Prod.fst).Nodup) :
    entries.foldlM Object.readMember before = .ok after ↔
      OnlyNames entries Field.names ∧ Settled entries before after := by
  apply foldlM_eq_ok_iff_settled _ _ settled_cons distinct
  · intro before entry after
    obtain ⟨name, value⟩ := entry
    rw [readMember_eq_ok_iff]
    constructor
    · intro read
      obtain ⟨field, rfl, read⟩ := read
      exact ⟨Field.name_mem_names field, settled_single.mpr (readField_eq_ok_iff.mp read)⟩
    · intro settled
      obtain ⟨known, settled⟩ := settled
      obtain ⟨field, _, rfl⟩ := List.mem_map.mp known
      exact ⟨field, rfl, readField_eq_ok_iff.mpr (settled_single.mp settled)⟩
  · intro before after
    constructor
    · intro settled
      exact ext_content fun field => settles_none.mp (settled field)
    · intro same field
      exact settles_none.mpr (congrArg (·.content field) same)

theorem nodup_names_zip {names : List String} (distinct : names.Nodup) (items : List Value) :
    ((names.zip items).map Prod.fst).Nodup := by
  induction names generalizing items with
  | nil => exact .nil
  | cons name names ih =>
    cases items with
    | nil => exact .nil
    | cons item items =>
      obtain ⟨fresh, distinct⟩ := List.nodup_cons.mp distinct
      refine List.nodup_cons.mpr ⟨?_, ih distinct items⟩
      intro named
      obtain ⟨⟨_, value⟩, member, rfl⟩ := List.mem_map.mp named
      exact fresh (List.of_mem_zip member).1

/-- Places are names in their order. -/
theorem Object.foldlM_zip (items : List Value) (object : Object) :
    (Field.all.zip items).foldlM
        (fun object (field, value) => object.readField valueReader field value) object =
      (Field.names.zip items).foldlM Object.readMember object := by
  rw [Field.names, List.zip_map_left, List.foldlM_map]
  congr 1
  funext object entry
  obtain ⟨field, value⟩ := entry
  have known : Field.ofName? field.name = some field := Field.ofName?_eq_some_iff.mpr rfl
  simp only [Object.readMember, Prod.map, known]
  rfl

theorem Object.ofValue_eq_ok_iff :
    Object.ofValue value = .ok object ↔
      ∃ entries, Lists value entries ∧ entries.foldlM Object.readMember {} = .ok object := by
  cases value with
  | scalar scalar =>
    constructor
    · nofun
    · intro read
      obtain ⟨_, lists, _⟩ := read
      cases lists
  | array items =>
    rw [Object.ofValue, Object.foldlM_zip, bind_eq_ok_iff]
    constructor
    · intro read
      obtain ⟨_, folded, last⟩ := read
      obtain ⟨_, few, same⟩ := bind_eq_ok_iff.mp last
      obtain rfl := pure_eq_ok_iff.mp same
      exact ⟨_, .placed (checkLength_eq_ok_iff.mp few), folded⟩
    · intro read
      obtain ⟨_, lists, folded⟩ := read
      cases lists with
      | placed few =>
        exact ⟨object, folded, bind_eq_ok_iff.mpr ⟨(), checkLength_eq_ok_iff.mpr few, rfl⟩⟩
  | object members =>
    constructor
    · intro read
      exact ⟨members, .named members, read⟩
    · intro read
      obtain ⟨_, lists, folded⟩ := read
      cases lists
      exact folded

theorem names_nodup_of_lists (ordered : value.Ordered) (lists : Lists value entries) :
    (entries.map Prod.fst).Nodup := by
  cases lists with
  | named =>
    cases ordered with
    | object sorted _ => exact Sorted.names_nodup sorted
  | placed => exact nodup_names_zip (by decide) _

theorem ofValue_eq_ok_iff_gives (ordered : value.Ordered) :
    Object.ofValue value = .ok object ↔ GivesObject value object := by
  rw [Object.ofValue_eq_ok_iff]
  constructor
  · intro read
    obtain ⟨entries, lists, folded⟩ := read
    have distinct := names_nodup_of_lists ordered lists
    exact ⟨entries, lists, (Object.foldlM_readMember_iff distinct).mp folded⟩
  · intro given
    obtain ⟨entries, lists, settled⟩ := given
    have distinct := names_nodup_of_lists ordered lists
    exact ⟨entries, lists, (Object.foldlM_readMember_iff distinct).mpr settled⟩

theorem Object.exists_foldlM_iff :
    (∃ object, entries.foldlM Object.readMember before = .ok object) ↔
      ∀ entry ∈ entries, ∃ field : Field, field.name = entry.1 ∧ field.Admits entry.2 := by
  apply exists_foldlM_ok_iff
  intro before entry
  exact exists_readMember_iff

theorem exists_object_iff_admitted :
    (∃ object, Object.ofValue value = .ok object) ↔ Admitted value := by
  simp only [Object.ofValue_eq_ok_iff]
  constructor
  · intro read
    obtain ⟨object, entries, lists, folded⟩ := read
    exact ⟨entries, lists, Object.exists_foldlM_iff.mp ⟨object, folded⟩⟩
  · intro admitted
    obtain ⟨entries, lists, each⟩ := admitted
    obtain ⟨object, folded⟩ := Object.exists_foldlM_iff.mpr each
    exact ⟨object, entries, lists, folded⟩

end Objects

section Inventories
variable {value : Value} {inventory : Inventory} {members : List (String × Value)}

theorem objectsOfValue_eq_ok_iff :
    objectsOfValue value = .ok inventory ↔
      ∃ members, value = .object members ∧ objectsOfValue (.object members) = .ok inventory := by
  cases value <;> simp [objectsOfValue]

theorem ofValue_eq_ok_iff_contents (ordered : value.Ordered) :
    ofValue value = .ok inventory ↔
      ∃ members, Contents value members ∧ objectsOfValue (.object members) = .ok inventory := by
  constructor
  · intro read
    cases value with
    | scalar scalar => cases read
    | array items =>
      obtain ⟨inner, rfl, objects⟩ := ofValue_array_iff.mp read
      obtain ⟨members, rfl, objects⟩ := objectsOfValue_eq_ok_iff.mp objects
      exact ⟨members, .placed members, objects⟩
    | object entries =>
      cases ordered with
      | object sorted _ =>
        rw [← sortEntries_of_sorted sorted] at read
        obtain ⟨inner, rfl, objects⟩ := exists_single_of_ofValue (Sorted.names_nodup sorted) read
        obtain ⟨members, rfl, objects⟩ := objectsOfValue_eq_ok_iff.mp objects
        exact ⟨members, .named members, objects⟩
  · intro given
    obtain ⟨members, contents, objects⟩ := given
    cases contents with
    | named => exact ofValue_single_iff.mpr objects
    | placed => exact ofValue_array_iff.mpr ⟨_, rfl, objects⟩

theorem contents_ordered (ordered : value.Ordered) (contents : Contents value members) :
    (Value.object members).Ordered := by
  cases contents with
  | named =>
    cases ordered with
    | object _ each => exact each ("objects", .object members) (by simp)
  | placed =>
    cases ordered with
    | array each => exact each _ (by simp)

/-- All objects are read if each one is. -/
theorem exists_objects_iff :
    (∃ inventory, objectsOfValue (.object members) = .ok inventory) ↔
      ∀ member ∈ members, ∃ object, Object.ofValue member.2 = .ok object := by
  simp only [objectsOfValue_object_iff]
  constructor
  · intro read member inside
    obtain ⟨_, objects, described, _⟩ := read
    obtain ⟨entry, describes⟩ := exists_forall₂_iff.mp ⟨objects, described⟩ member inside
    exact ⟨entry.2, describes.2⟩
  · intro each
    have entries : ∀ member ∈ members, ∃ entry, Describes member entry := fun member inside =>
      (each member inside).imp' (member.1, ·) fun _ read => ⟨rfl, read⟩
    obtain ⟨objects, described⟩ := exists_forall₂_iff.mpr entries
    exact ⟨_, objects, described, rfl⟩

theorem get?_of_objects (sorted : Sorted members)
    (read : objectsOfValue (.object members) = .ok inventory) (path : String) :
    Option.Rel (fun value object => Object.ofValue value = .ok object) (members.lookup path)
      (inventory.get? path) := by
  obtain ⟨objects, described, rfl⟩ := objectsOfValue_object_iff.mp read
  have objectsSorted : Sorted objects := by
    rw [sorted_iff_names, ← names_eq_of_alike described, ← sorted_iff_names]
    exact sorted
  rw [Dictionary.get?, Dictionary.entries_ofList, sortEntries_of_sorted objectsSorted]
  exact lookup_alike described path

theorem rel_congr {related alike : β → α → Prop} {x : Option β} {y : Option α}
    (agree : ∀ value, x = some value → ∀ a, related value a ↔ alike value a) :
    Option.Rel related x y ↔ Option.Rel alike x y := by
  cases x with
  | none => cases y <;> simp
  | some value => cases y <;> simp [agree value rfl]

theorem eq_of_rel {related : β → α → Prop} {x : Option β} {a b : Option α}
    (first : Option.Rel related x a) (second : Option.Rel related x b)
    (unique : ∀ {value a b}, related value a → related value b → a = b) : a = b := by
  cases first with
  | none =>
    cases second
    rfl
  | some holds =>
    cases second with
    | some again => rw [unique holds again]

/-- The paths with their objects tell the inventory. -/
theorem objects_eq_ok_iff (sorted : Sorted members) :
    objectsOfValue (.object members) = .ok inventory ↔
      ∀ path, Option.Rel (fun value object => Object.ofValue value = .ok object)
        (members.lookup path) (inventory.get? path) := by
  constructor
  · exact get?_of_objects sorted
  · intro given
    have each : ∀ member ∈ members, ∃ object, Object.ofValue member.2 = .ok object := by
      intro member inside
      have found := lookup_of_mem (Sorted.names_nodup sorted) inside
      have related := given member.1
      rw [found] at related
      generalize inventory.get? member.1 = object? at related
      cases related with
      | some read => exact ⟨_, read⟩
    obtain ⟨other, read⟩ := exists_objects_iff.mpr each
    have same : other = inventory := by
      apply Dictionary.eq_of_get?
      intro path
      exact eq_of_rel (get?_of_objects sorted read path) (given path) fun first second =>
        Except.ok.inj (first.symm.trans second)
    rw [read, same]

theorem exists_inventory_iff (ordered : value.Ordered) :
    (∃ inventory, ofValue value = .ok inventory) ↔
      ∃ members, Contents value members ∧ ∀ member ∈ members, Admitted member.2 := by
  simp only [ofValue_eq_ok_iff_contents ordered, ← exists_object_iff_admitted]
  constructor
  · intro read
    obtain ⟨inventory, members, contents, objects⟩ := read
    exact ⟨members, contents, exists_objects_iff.mp ⟨inventory, objects⟩⟩
  · intro admitted
    obtain ⟨members, contents, each⟩ := admitted
    obtain ⟨inventory, objects⟩ := exists_objects_iff.mpr each
    exact ⟨inventory, members, contents, objects⟩

/-- What a path has in the inventory is what its member gives, and paths without a member have
nothing. -/
theorem ofValue_eq_ok_iff_gives_each (ordered : value.Ordered) :
    ofValue value = .ok inventory ↔ ∃ members, Contents value members ∧
      ∀ path, Option.Rel GivesObject (members.lookup path) (inventory.get? path) := by
  rw [ofValue_eq_ok_iff_contents ordered]
  have same {members : List (String × Value)} (contents : Contents value members) :
      objectsOfValue (.object members) = .ok inventory ↔
        ∀ path, Option.Rel GivesObject (members.lookup path) (inventory.get? path) := by
    cases contents_ordered ordered contents with
    | object sorted each =>
      rw [objects_eq_ok_iff sorted]
      apply forall_congr'
      intro path
      apply rel_congr
      intro value found object
      exact ofValue_eq_ok_iff_gives (each _ (mem_of_lookup found))
  constructor
  · intro read
    obtain ⟨members, contents, objects⟩ := read
    exact ⟨members, contents, (same contents).mp objects⟩
  · intro given
    obtain ⟨members, contents, objects⟩ := given
    exact ⟨members, contents, (same contents).mpr objects⟩

end Inventories

/-- The values of documents are ordered, and of those exactly the ones are an inventory that have
the objects under their one name or alone in a list, with nothing in an object that its fields do
not admit. The inventory has the paths of the members and no others, and at each what the member
gives. -/
theorem inventory_given :
    (∀ (bytes : Bytes) value, Value.ofBytes bytes = .ok value → value.Ordered) ∧
    ∀ value : Value, value.Ordered →
      ((∃ inventory, fromValue value = .ok inventory) ↔
        ∃ members, Contents value members ∧ ∀ member ∈ members, Admitted member.2) ∧
      ∀ inventory, fromValue value = .ok inventory ↔ ∃ members, Contents value members ∧
        ∀ path, Option.Rel GivesObject (members.lookup path) (inventory.get? path) := by
  simp only [fromValue, mapError_eq_ok_iff]
  exact ⟨fun _ _ => Value.ordered_ofBytes, fun _ ordered =>
    ⟨exists_inventory_iff ordered, fun _ => ofValue_eq_ok_iff_gives_each ordered⟩⟩

def placedCard : Value :=
  .array [.scalar .null, .scalar (.number (.natural 8))]

def namedSlot : Value :=
  .object [("children", .array [.scalar (.string "/card")]), ("lanes", .scalar (.number (.natural 16)))]

def childlessCard : Value :=
  .object [("children", .scalar .null)]

/-- A card by places is read below a slot by names, and one with null for its children is not. -/
theorem placedCard_given :
    (∃ inventory, fromValue (.array [.object [("/card", placedCard), ("/slot", namedSlot)]]) =
        .ok inventory) ∧
      ¬∃ inventory, fromValue (.array [.object [("/card", childlessCard)]]) = .ok inventory := by
  have cardOrdered : placedCard.Ordered := .array (by simp [Value.Ordered.scalar])
  have children : (Value.array [.scalar (.string "/card")]).Ordered :=
    .array (by simp [Value.Ordered.scalar])
  have fields : "children" < "lanes" := String.lt_iff_toList_lt.mpr (by decide)
  have slotOrdered : namedSlot.Ordered :=
    .object (List.pairwise_pair.mpr fields) (by simp [children, Value.Ordered.scalar])
  have paths : "/card" < "/slot" := String.lt_iff_toList_lt.mpr (by decide)
  have ordered : (Value.object [("/card", placedCard), ("/slot", namedSlot)]).Ordered :=
    .object (List.pairwise_pair.mpr paths) (by simp [cardOrdered, slotOrdered])
  have childlessOrdered : childlessCard.Ordered :=
    .object (by simp [Sorted]) (by simp [Value.Ordered.scalar])
  have childless : (Value.object [("/card", childlessCard)]).Ordered :=
    .object (by simp [Sorted]) (by simp [childlessOrdered])
  have card : Admitted placedCard := by
    refine ⟨_, .placed (by decide), List.forall_mem_cons.mpr ⟨⟨.bus, rfl, .inl rfl⟩, ?_⟩⟩
    exact List.forall_mem_singleton.mpr ⟨.maxLanes, rfl, .inr ⟨8, rfl⟩⟩
  have slot : Admitted namedSlot := by
    refine ⟨_, .named _, List.forall_mem_cons.mpr ⟨⟨.children, rfl, ["/card"], rfl⟩, ?_⟩⟩
    exact List.forall_mem_singleton.mpr ⟨.lanes, rfl, .inr ⟨16, rfl⟩⟩
  obtain ⟨_, read⟩ := inventory_given
  refine ⟨(read _ (.array (List.forall_mem_singleton.mpr ordered))).1.mpr ⟨_, .placed _, ?_⟩, ?_⟩
  · exact List.forall_mem_cons.mpr ⟨card, List.forall_mem_singleton.mpr slot⟩
  · intro given
    obtain ⟨_, contents, each⟩ :=
      (read _ (.array (List.forall_mem_singleton.mpr childless))).1.mp given
    cases contents
    obtain ⟨_, lists, admits⟩ := each _ (List.mem_singleton.mpr rfl)
    cases lists
    obtain ⟨field, named, admits⟩ := admits _ (List.mem_singleton.mpr rfl)
    obtain rfl : field = .children := Field.name_injective named
    obtain ⟨_, same⟩ := admits
    cases same

end SlotLanes.Inventory
