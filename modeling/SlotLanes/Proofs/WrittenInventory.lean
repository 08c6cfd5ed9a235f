import SlotLanes.Inventory.Load
import SlotLanes.Proofs.WrittenValues

/-! An inventory written as a document and loaded again. The fields of an object may come in any
order, and one that says nothing may be left out; the text is loaded as the same inventory,
however it is laid out. -/
namespace SlotLanes.Inventory
open SlotLanes.Json

/-- What a field of an object holds. -/
inductive Content where
  | count (n : Option UInt64)
  | paths (children : List String)

def Object.content (object : Object) : Field → Content
  | .bus => .count object.bus
  | .maxLanes => .count object.maxLanes
  | .lanes => .count object.lanes
  | .children => .paths object.children

def Object.members (object : Object) (fields : List Field) : List (String × Content) :=
  fields.map fun field => (field.name, object.content field)

/-- A field's value as text: a number in decimal or null, or a list of strings. -/
def Content.Written : Content → Bytes → Prop
  | count none, bytes => bytes = ascii ['n', 'u', 'l', 'l']
  | count (some n), bytes => DecimalWritten n.toNat bytes
  | paths children, bytes => ListWritten StringWritten children bytes

/-- An object as text: its fields in some order, without any that hold what they would hold
if they are not there. -/
def Object.Written (object : Object) (bytes : Bytes) : Prop :=
  ∃ fields : List Field, fields.Nodup ∧
    (∀ field, field ∉ fields → object.content field = Object.content {} field) ∧
    ObjectWritten Content.Written (object.members fields) bytes

/-- All objects of an inventory in some order, under the one name that a document has. -/
def Layout (inventory : Inventory) (bytes : Bytes) : Prop :=
  ∃ entries, entries.Perm inventory.entries ∧
    ObjectWritten (ObjectWritten Object.Written) [("objects", entries)] bytes

/-- An inventory as the text of a document. -/
def Written (inventory : Inventory) : Bytes → Prop :=
  Spaced inventory.Layout

/-- A value from which a field is read. -/
def Content.Reads : Content → Value → Prop
  | count n, value => countOfValue value = .ok n
  | paths children, value => pathsOfValue value = .ok children

theorem readsBack_path (path : String) (depth : Nat) :
    ReadsBack (CleanAt depth) (StringWritten path) (fun value => stringOfValue value = .ok path) := by
  apply (readsBack_string path depth).imp
  intro value same
  rw [same]
  rfl

theorem readsBack_content (content : Content) (depth : Nat) :
    ReadsBack (CleanAt (depth + 1)) content.Written content.Reads := by
  match content with
  | .count none =>
    apply (readsBack_null (depth + 1)).imp
    intro value same
    rw [same]
    rfl
  | .count (some n) =>
    have fits : n.toNat ≤ maxSignificand := Nat.le_of_lt_succ n.toNat_lt
    apply (readsBack_decimal fits (depth + 1)).imp
    intro value same
    rw [same]
    exact congrArg (fun n => Except.ok (some n)) UInt64.ofNat_toNat
  | .paths children =>
    apply (readsBack_list fun path _ => readsBack_path path depth).imp
    intro value read
    obtain ⟨values, meant, rfl⟩ := read
    exact mapM_eq_ok_iff.mpr meant.flip

section Objects
variable {object : Object} {bytes : Bytes}

theorem Object.ext_content {object other : Object}
    (same : ∀ field, object.content field = other.content field) : object = other := by
  have bus := same .bus
  have maxLanes := same .maxLanes
  have lanes := same .lanes
  have children := same .children
  simp only [Object.content, Content.count.injEq, Content.paths.injEq] at bus maxLanes lanes children
  cases object
  cases other
  simp_all

/-- Reading a field gives the object its content there and leaves the others. -/
theorem Object.readField_of_reads {field : Field} {value : Value}
    (reads : (object.content field).Reads value) (start : Object) :
    ∃ result, start.readField valueReader field value = .ok result ∧
      result.content field = object.content field ∧
        ∀ other, other ≠ field → result.content other = start.content other := by
  cases field
  all_goals
    refine ⟨_, bind_eq_ok_iff.mpr ⟨_, reads, rfl⟩, rfl, fun other apart => ?_⟩
    cases other <;> first | rfl | exact absurd rfl apart

theorem Field.name_injective : Function.Injective Field.name := by
  intro field other same
  have known : Field.ofName? other.name = some field := Field.ofName?_eq_some_iff.mpr same
  have knownOther : Field.ofName? other.name = some other := Field.ofName?_eq_some_iff.mpr rfl
  exact Option.some.inj (known.symm.trans knownOther)

/-- An entry of an object from which one of its fields is read. -/
def Object.Fills (object : Object) (entry : String × Value) : Prop :=
  ∃ field : Field, field.name = entry.1 ∧ (object.content field).Reads entry.2

theorem Object.foldlM_readMember {entries : List (String × Value)}
    (fills : ∀ entry ∈ entries, object.Fills entry) (start : Object) :
    ∃ result, entries.foldlM Object.readMember start = .ok result ∧
      ∀ field : Field, field.name ∈ entries.map Prod.fst ∨ start.content field = object.content field →
        result.content field = object.content field := by
  induction entries generalizing start with
  | nil => exact ⟨start, rfl, fun field known => known.resolve_left (by simp)⟩
  | cons entry entries ih =>
    obtain ⟨field, named, reads⟩ := fills entry (by simp)
    obtain ⟨middle, read, filled, others⟩ := readField_of_reads reads start
    obtain ⟨result, rest, agrees⟩ := ih (fun entry member => fills entry (by simp [member])) middle
    have first : start.readMember entry = .ok middle := readMember_eq_ok_iff.mpr ⟨field, named, read⟩
    refine ⟨result, ?_, fun other known => agrees other ?_⟩
    · rw [List.foldlM_cons]
      exact bind_eq_ok_iff.mpr ⟨middle, first, rest⟩
    · by_cases same : other = field
      · exact .inr (same ▸ filled)
      · have different : other.name ≠ entry.1 := fun name =>
          same (Field.name_injective (name.trans named.symm))
        rw [others other same]
        simpa [different] using known

theorem Object.names_members (object : Object) (fields : List Field) :
    (object.members fields).map Prod.fst = fields.map Field.name := by
  rw [members, List.map_map]
  rfl

theorem Object.fills_of_alike {fields : List Field} {entries : List (String × Value)}
    (meant : List.Forall₂ (Alike Content.Reads) (object.members fields) entries) :
    ∀ entry ∈ entries, object.Fills entry := by
  induction fields generalizing entries with
  | nil =>
    cases meant
    nofun
  | cons field fields ih =>
    cases meant with
    | cons first others => exact List.forall_mem_cons.mpr ⟨⟨field, first⟩, ih others⟩

theorem Object.ofValue_of_readsMembers {fields : List Field} {value : Value} (distinct : fields.Nodup)
    (default : ∀ field, field ∉ fields → object.content field = Object.content {} field)
    (read : ReadsMembers Content.Reads (object.members fields) value) :
    Object.ofValue value = .ok object := by
  obtain ⟨entries, meant, rfl⟩ := read
  have names : entries.map Prod.fst = fields.map Field.name :=
    (names_eq_of_alike meant).symm.trans (object.names_members fields)
  have differ : (entries.map Prod.fst).Nodup := names ▸ distinct.map Field.name_injective
  have sorted := sortEntries_perm differ
  have fills : ∀ entry ∈ sortEntries entries, object.Fills entry :=
    fun entry member => fills_of_alike meant entry (sorted.mem_iff.mp member)
  obtain ⟨result, folded, agrees⟩ := foldlM_readMember fills {}
  have whole : result = object := by
    refine ext_content fun field => agrees field ?_
    by_cases written : field ∈ fields
    · left
      rw [(sorted.map Prod.fst).mem_iff, names]
      exact List.mem_map_of_mem written
    · right
      exact (default field written).symm
  rw [Object.ofValue, folded, whole]

/-- A value from which an object is read. -/
abbrev Holds (object : Object) (value : Value) : Prop :=
  Object.ofValue value = .ok object

theorem readsBack_inventoryObject (object : Object) (depth : Nat) :
    ReadsBack (CleanAt (depth + 2)) object.Written (Holds object) := by
  intro bytes written
  obtain ⟨fields, distinct, default, members⟩ := written
  have differ : ((object.members fields).map Prod.fst).Nodup :=
    object.names_members fields ▸ distinct.map Field.name_injective
  have back := readsBack_object_clean (fun member _ => readsBack_content member.2 depth) differ
  exact back.imp (fun _ => Object.ofValue_of_readsMembers distinct default) bytes members

end Objects

section Inventories
variable {inventory : Inventory} {bytes : Bytes} {entries : List (String × Object)}

theorem names_nodup (perm : entries.Perm inventory.entries) : (entries.map Prod.fst).Nodup :=
  (perm.map Prod.fst).nodup_iff.mpr inventory.sorted.names_nodup

theorem ofList_eq_of_perm (perm : entries.Perm inventory.entries) :
    Dictionary.ofList (sortEntries entries) = inventory := by
  have same : sortEntries entries = inventory.entries := by
    apply List.Perm.eq_of_pairwise _ (sorted_sortEntries entries) inventory.sorted
      ((sortEntries_perm (names_nodup perm)).trans perm)
    intro entry other _ _ less greater
    exact absurd greater (String.lt_asymm less)
  apply Dictionary.eq_of_get?
  intro path
  rw [Dictionary.ofList_sortEntries, Dictionary.get?, Dictionary.entries_ofList, same, Dictionary.get?]

/-- A value from which the objects of an inventory are read. -/
abbrev HoldsAll (inventory : Inventory) (value : Value) : Prop :=
  objectsOfValue value = .ok inventory

theorem holdsAll_of_readsMembers (perm : entries.Perm inventory.entries) {value : Value}
    (read : ReadsMembers Holds entries value) : HoldsAll inventory value := by
  obtain ⟨members, meant, rfl⟩ := read
  have described : List.Forall₂ Describes members entries :=
    (List.Forall₂.flip meant).imp fun _ _ alike => ⟨alike.1.symm, alike.2⟩
  have objects := objectsOfValue_object_iff.mpr ⟨_, sortEntries_alike described, rfl⟩
  rw [HoldsAll, objects, ofList_eq_of_perm perm]

theorem ofValue_of_readsMembers {value : Value}
    (read : ReadsMembers (fun _ => HoldsAll inventory) [("objects", entries)] value) :
    ofValue value = .ok inventory := by
  obtain ⟨members, meant, rfl⟩ := read
  cases meant with
  | @cons _ member _ _ alike others =>
    cases others
    obtain ⟨name, value⟩ := member
    obtain rfl : "objects" = name := alike.1
    exact ofValue_single_iff.mpr alike.2

theorem readsBack_objects (perm : entries.Perm inventory.entries) (depth : Nat) :
    ReadsBack (CleanAt (depth + 3)) (ObjectWritten Object.Written entries) (HoldsAll inventory) := by
  have back : ReadsBack (CleanAt (depth + 3)) (ObjectWritten Object.Written entries)
      (ReadsMembers Holds entries) :=
    readsBack_object_clean (fun member _ => readsBack_inventoryObject member.2 depth) (names_nodup perm)
  exact back.imp fun _ => holdsAll_of_readsMembers perm

theorem readsBack_inventory (inventory : Inventory) (depth : Nat) :
    ReadsBack (CleanAt (depth + 4)) inventory.Layout (fun value => ofValue value = .ok inventory) := by
  intro bytes written
  obtain ⟨entries, perm, document⟩ := written
  have single : ∀ member ∈ [("objects", entries)], ReadsBack (CleanAt (depth + 3))
      (ObjectWritten Object.Written member.2) (HoldsAll inventory) := by
    intro member inside
    obtain rfl := List.mem_singleton.mp inside
    exact readsBack_objects perm depth
  have back : ReadsBack (CleanAt (depth + 4))
      (ObjectWritten (ObjectWritten Object.Written) [("objects", entries)])
      (ReadsMembers (fun _ => HoldsAll inventory) [("objects", entries)]) :=
    readsBack_object_clean single (List.nodup_singleton _)
  exact back.imp (fun _ => ofValue_of_readsMembers) bytes document

theorem ofDocument_written (written : Written inventory bytes) : ofDocument bytes = .ok inventory := by
  have back : ReadsBack (CleanAt maxDepth) inventory.Layout (fun value => ofValue value = .ok inventory) :=
    readsBack_inventory inventory 123
  obtain ⟨value, rest, found, stands, finished⟩ :=
    back.document (cleanAt_skipsBlanks maxDepth) written
  have whole : Value.ofBytes bytes = .ok value :=
    Value.ofBytes_eq_ok_iff.mpr ⟨rest, stands.1, finished⟩
  exact ofDocument_of_value whole stands.2 found

theorem exists_contentWritten (content : Content) : ∃ bytes, content.Written bytes := by
  match content with
  | .count none => exact ⟨_, rfl⟩
  | .count (some n) => exact exists_decimalWritten n.toNat
  | .paths children => exact exists_bracketed '[' ']' fun path _ => exists_stringWritten path

theorem exists_inventoryObjectWritten (object : Object) : ∃ bytes, object.Written bytes := by
  have each : ∀ member ∈ object.members Field.all, ∃ bytes, member.2.Written bytes :=
    fun member _ => exists_contentWritten member.2
  obtain ⟨bytes, members⟩ := exists_objectWritten each
  have every : ∀ field, field ∈ Field.all := by
    intro field
    cases field <;> decide
  exact ⟨bytes, Field.all, by decide, fun field absent => absurd (every field) absent, members⟩

theorem exists_written (inventory : Inventory) : ∃ bytes, Written inventory bytes := by
  have each : ∀ member ∈ inventory.entries, ∃ bytes, Object.Written member.2 bytes :=
    fun member _ => exists_inventoryObjectWritten member.2
  have whole : ∀ member ∈ [("objects", inventory.entries)],
      ∃ bytes, ObjectWritten Object.Written member.2 bytes := by
    intro member single
    obtain rfl := List.mem_singleton.mp single
    exact exists_objectWritten each
  obtain ⟨bytes, document⟩ := exists_objectWritten whole
  exact ⟨bytes, .of_written ⟨inventory.entries, .refl _, document⟩⟩

/-- An inventory that is written as a document, with its fields in any order, with any escapes and
blanks, and without some of the fields that say nothing, is loaded as it was. -/
theorem written_inventory_loaded (inventory : Inventory) :
    (∃ bytes, Written inventory bytes) ∧
    ∀ bytes, Written inventory bytes → ∀ (files : Files) (path : String),
      files.read path = .ok bytes → load files path = .ok inventory := by
  refine ⟨exists_written inventory, ?_⟩
  intro bytes written files path stored
  exact (load_eq_ok_iff stored).mpr (ofDocument_written written)

end Inventories

/-- A card that can use as many lanes as there are numbers for. -/
def widestCard : Inventory :=
  .ofList [("/", { maxLanes := some 0xffffffffffffffff })]

/-- Its bus is written as null, and the rest that it does not say is left out. -/
def widestCardText : Bytes :=
  "\x7b\"objects\": \x7b\"\\/\":\x7b\"max-lanes\":18446744073709551615,".toUTF8.toList ++
    "\"bus\":null\x7d\x7d\x7d".toUTF8.toList

def widestCardFiles : Files := ⟨fun _ => .ok widestCardText, fun _ => true⟩

theorem widestCard_written : Written widestCard widestCardText := by
  have maxLanes : MemberWritten Content.Written ("max-lanes", .count (some 0xffffffffffffffff)) _ :=
    ⟨_, [], [], _, stringWritten_plain rfl, blank_nil, blank_nil, ⟨_, isDecimal_toDigits _, rfl⟩, rfl⟩
  have bus : MemberWritten Content.Written ("bus", .count none) _ :=
    ⟨_, [], [], _, stringWritten_plain rfl, blank_nil, blank_nil, rfl, rfl⟩
  have others (field : Field) (absent : field ∉ [Field.maxLanes, .bus]) :
      Object.content { maxLanes := some 0xffffffffffffffff } field = Object.content {} field := by
    cases field <;> first | rfl | simp at absent
  have fields : ObjectWritten Content.Written _ _ :=
    .elements (.more (.of_written maxLanes) (.one (.of_written bus)))
  have card : Object.Written { maxLanes := some 0xffffffffffffffff } _ :=
    ⟨[.maxLanes, .bus], by decide, others, fields⟩
  have slash : CharWritten '/' (ascii ['\\', '/']) := .named (by decide)
  have path : StringWritten "/" _ := ⟨_, .cons slash .nil, rfl⟩
  have member : MemberWritten Object.Written ("/", _) _ :=
    ⟨_, [], [], _, path, blank_nil, blank_nil, card, rfl⟩
  have objects : MemberWritten (ObjectWritten Object.Written) ("objects", widestCard.entries) _ :=
    ⟨_, [], ascii [' '], _, stringWritten_plain rfl, blank_nil, blank_of_all rfl,
      .elements (.one (.of_written member)), rfl⟩
  refine ⟨[], _, [], blank_nil, ⟨widestCard.entries, .refl _, .elements (.one (.of_written objects))⟩,
    blank_nil, ?_⟩
  decide +kernel

theorem widestCard_loaded : load widestCardFiles "inventory.json" = .ok widestCard :=
  (written_inventory_loaded widestCard).2 _ widestCard_written widestCardFiles "inventory.json" rfl

end SlotLanes.Inventory
