import SlotLanes.Inventory.OfDocument
import SlotLanes.Inventory.OfValue
import SlotLanes.Proofs.Entries
import SlotLanes.Proofs.ListEnds
import SlotLanes.Proofs.Outcome

/-! One object of an inventory, read from its node and from the node's value. The first reader
stops at the first mismatch and the second starts only when the whole document is there; they
give the same object, except that the first refuses a name that is written twice. -/
namespace SlotLanes.Json

mutual

theorem Node.exists_rest : (node : Node) → (value : Value) → node.value = .ok value →
    ∃ rest, node.rest = .ok rest
  | .scalar _ rest, _, _ => ⟨rest, rfl⟩
  | .array _ items, value, whole => by
    obtain ⟨values, read, _⟩ := Node.value_array_iff.mp whole
    exact Items.exists_rest items values read
  | .object _ members, value, whole => by
    obtain ⟨entries, read, _⟩ := Node.value_object_iff.mp whole
    exact Members.exists_rest members entries read

theorem Items.exists_rest : (items : Items) → (values : List Value) → items.values = .ok values →
    ∃ rest, items.rest = .ok rest
  | .close rest, _, _ => ⟨rest, rfl⟩
  | .item _ more, _, whole => by
    obtain ⟨_, others, _, read, _⟩ := Items.values_item_iff.mp whole
    exact Items.exists_rest more others read

theorem Members.exists_rest : (members : Members) → (entries : List (String × Value)) →
    members.entries = .ok entries → ∃ rest, members.rest = .ok rest
  | .close rest, _, _ => ⟨rest, rfl⟩
  | .member _ _ _ more, _, whole => by
    obtain ⟨_, others, _, read, _⟩ := Members.entries_member_iff.mp whole
    exact Members.exists_rest more others read

end

theorem Items.values_eq_nil_iff {items : Items} :
    items.values = .ok [] ↔ ∃ after, items = .close after := by
  cases items with
  | close after => simp [Items.values]
  | item node more => simp [Items.values_item_iff]
  | broken fault => simp [Items.values]

theorem Members.entries_eq_nil_iff {members : Members} :
    members.entries = .ok [] ↔ ∃ after, members = .close after := by
  cases members with
  | close after => simp [Members.entries]
  | member key after node more => simp [Members.entries_member_iff]
  | broken fault => simp [Members.entries]

/-- The names of an object's members as they are written. -/
def Members.keys : Members → List String
  | .member key _ _ more => key :: more.keys
  | .close _ => []
  | .broken _ => []

theorem Members.keys_eq {members : Members} {entries : List (String × Value)}
    (whole : members.entries = .ok entries) : members.keys = entries.map Prod.fst := by
  induction entries generalizing members with
  | nil =>
    cases members with
    | close => rfl
    | member =>
      obtain ⟨_, _, _, _, absent⟩ := Members.entries_member_iff.mp whole
      cases absent
    | broken => rfl
  | cons entry entries ih =>
    cases members with
    | close => cases whole
    | member key after node more =>
      obtain ⟨value, others, _, read, same⟩ := Members.entries_member_iff.mp whole
      cases same
      exact congrArg (key :: ·) (ih read)
    | broken => cases whole

end SlotLanes.Json

namespace SlotLanes.Inventory
open SlotLanes.Json

variable {α β : Type}

/-- Reading from a node gives what reading its value gives, where there is a value. -/
def Agree (fromNode : Node → Except Json.Fault α) (fromValue : Value → Except Mismatch α)
    (node : Node) : Prop :=
  ∀ result, fromNode node = .ok result ↔
    ∃ value, node.value = .ok value ∧ fromValue value = .ok result

section Agreement
variable {fromNode : Node → Except Json.Fault α} {fromValue : Value → Except Mismatch α}

theorem refuse_ne_ok (node : Node) (expected : String) (result : α) :
    refuse node expected ≠ .ok result := by
  intro read
  obtain ⟨_, _, refused⟩ := bind_eq_ok_iff.mp read
  cases refused

theorem Agree.of_refused {node : Node} (refused : ∀ result, fromNode node ≠ .ok result)
    (mismatched : ∀ value result, node.value = .ok value → fromValue value ≠ .ok result) :
    Agree fromNode fromValue node := by
  intro result
  constructor
  · intro read
    exact absurd read (refused result)
  · intro read
    obtain ⟨value, whole, read⟩ := read
    exact absurd read (mismatched value result whole)

theorem Agree.of_refused_array {start : Bytes} {items : Items}
    (refused : ∀ result, fromNode (.array start items) ≠ .ok result)
    (mismatched : ∀ values result, fromValue (.array values) ≠ .ok result) :
    Agree fromNode fromValue (.array start items) := by
  apply Agree.of_refused refused
  intro value result whole
  obtain ⟨values, _, rfl⟩ := Node.value_array_iff.mp whole
  exact mismatched values result

theorem Agree.of_refused_object {start : Bytes} {members : Members}
    (refused : ∀ result, fromNode (.object start members) ≠ .ok result)
    (mismatched : ∀ entries result, fromValue (.object entries) ≠ .ok result) :
    Agree fromNode fromValue (.object start members) := by
  apply Agree.of_refused refused
  intro value result whole
  obtain ⟨entries, _, rfl⟩ := Node.value_object_iff.mp whole
  exact mismatched _ result

theorem Agree.of_refused_broken {fault : Json.Fault}
    (refused : ∀ result, fromNode (.broken fault) ≠ .ok result) :
    Agree fromNode fromValue (.broken fault) := by
  apply Agree.of_refused refused
  intro value result whole
  cases whole

theorem Agree.map {node : Node} (agree : Agree fromNode fromValue node) (f : α → β) :
    Agree (fun node => do return f (← fromNode node)) (fun value => do return f (← fromValue value))
      node := by
  intro result
  simp only [bind_eq_ok_iff, pure_eq_ok_iff]
  constructor
  · intro read
    obtain ⟨found, read, same⟩ := read
    obtain ⟨value, whole, read⟩ := (agree found).mp read
    exact ⟨value, whole, found, read, same⟩
  · intro read
    obtain ⟨value, whole, found, read, same⟩ := read
    exact ⟨found, (agree found).mpr ⟨value, whole, read⟩, same⟩

end Agreement

theorem countOfNode_agrees (node : Node) : Agree countOfNode countOfValue node := by
  cases node with
  | scalar scalar rest =>
    intro count
    simp [countOfNode, mapError_eq_ok_iff, Node.value, countOfValue]
  | array start items => exact .of_refused_array (refuse_ne_ok _ _) (by simp [countOfValue])
  | object start members => exact .of_refused_object (refuse_ne_ok _ _) (by simp [countOfValue])
  | broken fault => exact .of_refused_broken (refuse_ne_ok _ _)

theorem stringOfNode_agrees (node : Node) : Agree stringOfNode stringOfValue node := by
  cases node with
  | scalar scalar rest =>
    intro text
    simp [stringOfNode, mapError_eq_ok_iff, Node.value, stringOfValue]
  | array start items => exact .of_refused_array (refuse_ne_ok _ _) (by simp [stringOfValue])
  | object start members => exact .of_refused_object (refuse_ne_ok _ _) (by simp [stringOfValue])
  | broken fault => exact .of_refused_broken (refuse_ne_ok _ _)

theorem stringsOfItems_eq_ok_iff : (items : Items) → (texts : List String) →
    (stringsOfItems items = .ok texts ↔
      ∃ values, items.values = .ok values ∧ values.mapM stringOfValue = .ok texts)
  | .close _, texts => by simp [stringsOfItems, Items.values, pure_eq_ok_iff]
  | .broken _, texts => by simp [stringsOfItems, Items.values]
  | .item node more, texts => by
    simp only [stringsOfItems, bind_eq_ok_iff, pure_eq_ok_iff]
    constructor
    · intro read
      obtain ⟨text, first, others, next, rfl⟩ := read
      obtain ⟨value, whole, found⟩ := (stringOfNode_agrees node text).mp first
      obtain ⟨values, wholes, founds⟩ := (stringsOfItems_eq_ok_iff more others).mp next
      refine ⟨value :: values, Items.values_item_iff.mpr ⟨value, values, whole, wholes, rfl⟩, ?_⟩
      exact mapM_eq_ok_iff.mpr (.cons found (mapM_eq_ok_iff.mp founds))
    · intro read
      obtain ⟨_, wholes, founds⟩ := read
      obtain ⟨value, values, first, next, rfl⟩ := Items.values_item_iff.mp wholes
      cases mapM_eq_ok_iff.mp founds with
      | cons found others =>
        have text := (stringOfNode_agrees node _).mpr ⟨value, first, found⟩
        have texts := (stringsOfItems_eq_ok_iff more _).mpr ⟨values, next, mapM_eq_ok_iff.mpr others⟩
        exact ⟨_, text, _, texts, rfl⟩

theorem pathsOfNode_agrees (node : Node) : Agree pathsOfNode pathsOfValue node := by
  cases node with
  | scalar scalar rest =>
    apply Agree.of_refused (refuse_ne_ok _ _)
    intro value paths whole
    cases whole
    simp [pathsOfValue]
  | array start items =>
    intro paths
    rw [pathsOfNode, stringsOfItems_eq_ok_iff]
    simp only [Node.value_array_iff]
    constructor
    · intro read
      obtain ⟨values, whole, found⟩ := read
      exact ⟨.array values, ⟨values, whole, rfl⟩, found⟩
    · intro read
      obtain ⟨_, ⟨values, whole, rfl⟩, found⟩ := read
      exact ⟨values, whole, found⟩
  | object start members => exact .of_refused_object (refuse_ne_ok _ _) (by simp [pathsOfValue])
  | broken fault => exact .of_refused_broken (refuse_ne_ok _ _)

theorem readField_agrees (object : Object) (field : Field) (node : Node) :
    Agree (object.readField nodeReader field) (object.readField valueReader field) node := by
  cases field with
  | bus => exact (countOfNode_agrees node).map fun count => { object with bus := count }
  | maxLanes => exact (countOfNode_agrees node).map fun count => { object with maxLanes := count }
  | lanes => exact (countOfNode_agrees node).map fun count => { object with lanes := count }
  | children => exact (pathsOfNode_agrees node).map fun paths => { object with children := paths }

theorem Field.ofName?_eq_some_iff {name : String} {field : Field} :
    Field.ofName? name = some field ↔ field.name = name := by
  constructor
  · intro found
    simpa using List.find?_some found
  · rintro rfl
    cases field <;> rfl

theorem Object.readMember_eq_ok_iff {object result : Object} {member : String × Value} :
    object.readMember member = .ok result ↔
      ∃ field : Field, field.name = member.1 ∧
        object.readField valueReader field member.2 = .ok result := by
  unfold Object.readMember
  constructor
  · intro read
    split at read
    next => cases read
    next field known => exact ⟨field, Field.ofName?_eq_some_iff.mp known, read⟩
  · intro read
    obtain ⟨field, named, read⟩ := read
    rw [Field.ofName?_eq_some_iff.mpr named]
    exact read

/-- Two fields are read in either order. -/
theorem Object.readField_swap {field other : Field} (apart : field ≠ other) {value otherValue : Value}
    {object middle result : Object} (first : object.readField valueReader field value = .ok middle)
    (second : middle.readField valueReader other otherValue = .ok result) :
    ∃ middle, object.readField valueReader other otherValue = .ok middle ∧
      middle.readField valueReader field value = .ok result := by
  cases field <;> cases other <;> try exact absurd rfl apart
  all_goals
    obtain ⟨piece, read, stored⟩ := bind_eq_ok_iff.mp first
    obtain rfl := pure_eq_ok_iff.mp stored
    obtain ⟨otherPiece, readOther, stored⟩ := bind_eq_ok_iff.mp second
    obtain rfl := pure_eq_ok_iff.mp stored
    exact ⟨_, bind_eq_ok_iff.mpr ⟨otherPiece, readOther, rfl⟩, bind_eq_ok_iff.mpr ⟨piece, read, rfl⟩⟩

theorem Object.readMember_swap {first second : String × Value} (apart : first.1 ≠ second.1)
    {object middle result : Object} (reading : object.readMember first = .ok middle)
    (goesOn : middle.readMember second = .ok result) :
    ∃ other, object.readMember second = .ok other ∧ other.readMember first = .ok result := by
  obtain ⟨field, named, reading⟩ := readMember_eq_ok_iff.mp reading
  obtain ⟨next, nextNamed, goesOn⟩ := readMember_eq_ok_iff.mp goesOn
  have different : field ≠ next := by
    rintro rfl
    exact apart (named.symm.trans nextNamed)
  obtain ⟨other, swapped, rest⟩ := readField_swap different reading goesOn
  exact ⟨other, readMember_eq_ok_iff.mpr ⟨next, nextNamed, swapped⟩,
    readMember_eq_ok_iff.mpr ⟨field, named, rest⟩⟩

theorem Object.readMembers_eq_ok_iff : (members : Members) → (seen : List Field) →
    (object result : Object) → (Object.readMembers seen object members = .ok result ↔
      ∃ entries, members.entries = .ok entries ∧ members.keys.Nodup ∧
        (∀ field ∈ seen, field.name ∉ members.keys) ∧
        entries.foldlM Object.readMember object = .ok result)
  | .close _, seen, object, result => by
    simp only [Object.readMembers, Members.entries, Members.keys, Except.ok.injEq, exists_eq_left',
      List.foldlM_nil, pure_eq_ok_iff]
    simp [eq_comm]
  | .broken _, seen, object, result => by simp [Object.readMembers, Members.entries]
  | .member key after node more, seen, object, result => by
    unfold Object.readMembers
    simp only [Members.keys, List.nodup_cons, List.mem_cons, not_or]
    constructor
    · intro read
      split at read
      next => cases read
      next field known =>
        split at read
        next => cases read
        next fresh =>
          have named := Field.ofName?_eq_some_iff.mp known
          obtain ⟨middle, first, read⟩ := bind_eq_ok_iff.mp read
          obtain ⟨value, whole, first⟩ := (readField_agrees object field node middle).mp first
          obtain ⟨entries, wholes, distinct, unseen, rest⟩ :=
            (readMembers_eq_ok_iff more (field :: seen) middle result).mp read
          refine ⟨(key, value) :: entries, Members.entries_member_iff.mpr ⟨_, _, whole, wholes, rfl⟩,
            ⟨named ▸ unseen field (by simp), distinct⟩, ?_, ?_⟩
          · intro other member
            refine ⟨?_, unseen other (by simp [member])⟩
            intro same
            have known' := Field.ofName?_eq_some_iff.mpr same
            rw [known] at known'
            exact fresh (Option.some.inj known' ▸ member)
          · rw [List.foldlM_cons, bind_eq_ok_iff]
            exact ⟨middle, readMember_eq_ok_iff.mpr ⟨field, named, first⟩, rest⟩
    · intro read
      obtain ⟨_, all, ⟨fresh, distinct⟩, unseen, read⟩ := read
      obtain ⟨value, entries, whole, wholes, rfl⟩ := Members.entries_member_iff.mp all
      rw [List.foldlM_cons, bind_eq_ok_iff] at read
      obtain ⟨middle, first, rest⟩ := read
      obtain ⟨field, named, first⟩ := readMember_eq_ok_iff.mp first
      have notSeen : field ∉ seen := fun member => (unseen field member).1 named
      rw [Field.ofName?_eq_some_iff.mpr named]
      simp only [if_neg notSeen]
      refine bind_eq_ok_iff.mpr ⟨middle, (readField_agrees object field node middle).mpr
        ⟨value, whole, first⟩, ?_⟩
      refine (readMembers_eq_ok_iff more (field :: seen) middle result).mpr
        ⟨entries, wholes, distinct, ?_, rest⟩
      intro other member
      rcases List.mem_cons.mp member with rfl | member
      · exact named ▸ fresh
      · exact (unseen other member).2

section Positions
variable {items : Items} {object result : Object} {ahead : Bytes}

/-- Whether the list goes on after the last field is looked up in the bytes. -/
theorem Object.readItems_nil_iff
    (closes : (∃ after, items = .close after) ↔ closeList ahead = .ok ()) :
    Object.readItems [] object ahead items = .ok result ↔ items.values = .ok [] ∧ result = object := by
  rw [Object.readItems, bind_eq_ok_iff, Items.values_eq_nil_iff, closes]
  constructor
  · intro read
    obtain ⟨_, closed, read⟩ := read
    exact ⟨closed, pure_eq_ok_iff.mp read⟩
  · intro read
    exact ⟨(), read.1, pure_eq_ok_iff.mpr read.2⟩

theorem Object.readItems_eq_ok_iff {fields : List Field} (linked : items.Linked)
    (closes : fields = [] → ((∃ after, items = .close after) ↔ closeList ahead = .ok ())) :
    Object.readItems fields object ahead items = .ok result ↔
      ∃ values, items.values = .ok values ∧ values.length ≤ fields.length ∧
        (fields.zip values).foldlM
          (fun object entry => object.readField valueReader entry.1 entry.2) object = .ok result := by
  induction fields generalizing items object ahead with
  | nil =>
    rw [readItems_nil_iff (closes rfl)]
    simp only [List.length_nil, Nat.le_zero_eq, List.length_eq_zero_iff, List.zip_nil_left,
      List.foldlM_nil, pure_eq_ok_iff, exists_eq_left, and_left_comm]
  | cons field fields ih =>
    cases items with
    | close after =>
      simp only [Object.readItems, Items.values, Except.ok.injEq, exists_eq_left', List.zip_nil_right,
        List.foldlM_nil, pure_eq_ok_iff, List.length_nil, Nat.zero_le, true_and]
      exact eq_comm
    | broken fault => simp [Object.readItems, Items.values]
    | item node more =>
      obtain ⟨_, linked⟩ := linked
      simp only [Object.readItems, bind_eq_ok_iff]
      constructor
      · intro read
        obtain ⟨middle, first, after, ends, read⟩ := read
        obtain ⟨value, whole, first⟩ := (readField_agrees object field node middle).mp first
        obtain ⟨goesOn, closes⟩ := linked value after ⟨whole, ends⟩
        obtain ⟨values, wholes, few, rest⟩ := (ih goesOn fun _ => closes).mp read
        refine ⟨value :: values, Items.values_item_iff.mpr ⟨_, _, whole, wholes, rfl⟩,
          Nat.succ_le_succ few, ?_⟩
        rw [List.zip_cons_cons, List.foldlM_cons]
        exact bind_eq_ok_iff.mpr ⟨middle, first, rest⟩
      · intro read
        obtain ⟨_, all, few, read⟩ := read
        obtain ⟨value, values, whole, wholes, rfl⟩ := Items.values_item_iff.mp all
        rw [List.zip_cons_cons, List.foldlM_cons] at read
        obtain ⟨middle, first, rest⟩ := bind_eq_ok_iff.mp read
        obtain ⟨after, ends⟩ := Node.exists_rest node value whole
        obtain ⟨goesOn, closes⟩ := linked value after ⟨whole, ends⟩
        have direct := (readField_agrees object field node middle).mpr ⟨value, whole, first⟩
        refine ⟨middle, direct, after, ends, (ih goesOn fun _ => closes).mpr ?_⟩
        exact ⟨values, wholes, Nat.le_of_succ_le_succ few, rest⟩

end Positions

theorem checkLength_eq_ok_iff {most : Nat} {values : List Value} :
    checkLength most values = .ok () ↔ values.length ≤ most := by
  unfold checkLength
  split
  next few => simp [few]
  next many => simp [many]

/-- A node that is an object names no member of its own twice. -/
def NamesOnce : Node → Prop
  | .object _ members => members.keys.Nodup
  | _ => True

/-- An object is read from its node as from its value, as long as no name comes twice. -/
theorem Object.ofNode_eq_ok_iff {node : Node} (linked : node.Linked) {result : Object} :
    Object.ofNode node = .ok result ↔ NamesOnce node ∧
      ∃ value, node.value = .ok value ∧ Object.ofValue value = .ok result := by
  cases node with
  | scalar scalar rest =>
    have refused : Object.ofNode (.scalar scalar rest) ≠ .ok result := refuse_ne_ok _ _ _
    simp [refused, Node.value, Object.ofValue]
  | array start items =>
    rw [Object.ofNode, readItems_eq_ok_iff linked (by simp [Field.all])]
    simp only [NamesOnce, true_and, Node.value_array_iff]
    constructor
    · intro read
      obtain ⟨values, whole, few, read⟩ := read
      refine ⟨_, ⟨values, whole, rfl⟩, ?_⟩
      exact bind_eq_ok_iff.mpr ⟨result, read, bind_eq_ok_iff.mpr
        ⟨(), checkLength_eq_ok_iff.mpr few, rfl⟩⟩
    · intro read
      obtain ⟨_, ⟨values, whole, rfl⟩, read⟩ := read
      obtain ⟨object, fields, read⟩ := bind_eq_ok_iff.mp read
      obtain ⟨_, few, read⟩ := bind_eq_ok_iff.mp read
      obtain rfl := pure_eq_ok_iff.mp read
      exact ⟨values, whole, checkLength_eq_ok_iff.mp few, fields⟩
  | object start members =>
    rw [Object.ofNode, readMembers_eq_ok_iff]
    simp only [NamesOnce, Node.value_object_iff]
    constructor
    · intro read
      obtain ⟨entries, whole, distinct, _, read⟩ := read
      have different : (entries.map Prod.fst).Nodup := Members.keys_eq whole ▸ distinct
      refine ⟨distinct, _, ⟨entries, whole, rfl⟩, ?_⟩
      exact foldlM_ok_of_perm readMember_swap (sortEntries_perm different).symm different read
    · intro read
      obtain ⟨distinct, _, ⟨entries, whole, rfl⟩, read⟩ := read
      have different : (entries.map Prod.fst).Nodup := Members.keys_eq whole ▸ distinct
      have sorted := sortEntries_perm different
      refine ⟨entries, whole, distinct, by simp, ?_⟩
      have sortedNames := (sorted.map Prod.fst).nodup_iff.mpr different
      exact foldlM_ok_of_perm readMember_swap sorted sortedNames read
  | broken fault =>
    have refused : Object.ofNode (.broken fault) ≠ .ok result := refuse_ne_ok _ _ _
    simp [refused, Node.value]

end SlotLanes.Inventory
