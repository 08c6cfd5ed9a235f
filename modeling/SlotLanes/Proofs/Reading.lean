import SlotLanes.Json.Value
import SlotLanes.Proofs.NumberEnds
import SlotLanes.Proofs.Outcome
import SlotLanes.Proofs.TextEnds

/-! Which bytes are a document, as rules on what stands one after the other. A node is whole
if nothing in it is broken; the reader gives whole nodes for the bytes that the rules
admit, and for no others. The rules count no steps. -/
namespace SlotLanes.Json

/-- A node that is whole: its value, and the bytes after it. -/
structure Node.Gives (node : Node) (value : Value) (rest : Bytes) : Prop where
  value_eq : node.value = .ok value
  rest_eq : node.rest = .ok rest

structure Items.Gives (items : Items) (values : List Value) (rest : Bytes) : Prop where
  values_eq : items.values = .ok values
  rest_eq : items.rest = .ok rest

structure Members.Gives (members : Members) (entries : List (String × Value)) (rest : Bytes) :
    Prop where
  entries_eq : members.entries = .ok entries
  rest_eq : members.rest = .ok rest

section Rules
variable (close : UInt8) (element : Bytes → α → Bytes → Prop)

/-- What stands after an element: the closing mark, or a comma and more elements. -/
inductive Following : Bytes → List α → Bytes → Prop
  | close {input rest : Bytes} (closed : skipBlanks input = close :: rest) : Following input [] rest
  | more {input after start between rest : Bytes} {first : UInt8} {value : α} {values : List α}
      (comma : skipBlanks input = ','.toUInt8 :: after)
      (present : skipBlanks after = first :: start) (notClosed : first ≠ close)
      (stands : element (first :: start) value between)
      (follows : Following between values rest) : Following input (value :: values) rest

/-- What stands after an opening mark: the closing one, or elements between commas. -/
inductive Enclosed : Bytes → List α → Bytes → Prop
  | empty {input rest : Bytes} (closed : skipBlanks input = close :: rest) : Enclosed input [] rest
  | elements {input start between rest : Bytes} {first : UInt8} {value : α} {values : List α}
      (present : skipBlanks input = first :: start) (notClosed : first ≠ close)
      (stands : element (first :: start) value between)
      (follows : Following close element between values rest) : Enclosed input (value :: values) rest

end Rules

/-- A member of an object: its name, a colon and its value. -/
inductive MemberAt (reads : Bytes → Value → Bytes → Prop) :
    Bytes → String × Value → Bytes → Prop
  | member {input after start rest : Bytes} {key : String} {value : Value}
      (name : readText input = .ok (key, after))
      (colon : skipBlanks after = ':'.toUInt8 :: start) (stands : reads start value rest) :
      MemberAt reads ('"'.toUInt8 :: input) (key, value) rest

variable {node : Bytes → Node} {input rest after : Bytes}

theorem Items.gives_close_iff {values : List Value} :
    (Items.close after).Gives values rest ↔ values = [] ∧ rest = after := by
  constructor
  · rintro ⟨values, ends⟩
    exact ⟨(Except.ok.inj values).symm, (Except.ok.inj ends).symm⟩
  · rintro ⟨rfl, rfl⟩
    exact ⟨rfl, rfl⟩

theorem Members.gives_close_iff {entries : List (String × Value)} :
    (Members.close after).Gives entries rest ↔ entries = [] ∧ rest = after := by
  constructor
  · rintro ⟨entries, ends⟩
    exact ⟨(Except.ok.inj entries).symm, (Except.ok.inj ends).symm⟩
  · rintro ⟨rfl, rfl⟩
    exact ⟨rfl, rfl⟩

theorem Items.not_gives_broken {fault : Fault} {values : List Value} :
    ¬(Items.broken fault).Gives values rest :=
  fun gives => nomatch gives.rest_eq

theorem Members.not_gives_broken {fault : Fault} {entries : List (String × Value)} :
    ¬(Members.broken fault).Gives entries rest :=
  fun gives => nomatch gives.rest_eq

theorem Node.value_array_iff {start : Bytes} {items : Items} {value : Value} :
    (Node.array start items).value = .ok value ↔
      ∃ values, items.values = .ok values ∧ value = .array values := by
  simp only [Node.value, bind_eq_ok_iff, pure_eq_ok_iff]

theorem Node.value_object_iff {start : Bytes} {members : Members} {value : Value} :
    (Node.object start members).value = .ok value ↔
      ∃ entries, members.entries = .ok entries ∧ value = .object (sortEntries entries) := by
  simp only [Node.value, bind_eq_ok_iff, pure_eq_ok_iff]

theorem Items.values_item_iff {item : Node} {more : Items} {values : List Value} :
    (Items.item item more).values = .ok values ↔ ∃ value others,
      item.value = .ok value ∧ more.values = .ok others ∧ values = value :: others := by
  simp only [Items.values, bind_eq_ok_iff, pure_eq_ok_iff, exists_and_left]

theorem Members.entries_member_iff {key : String} {item : Node} {more : Members}
    {entries : List (String × Value)} :
    (Members.member key after item more).entries = .ok entries ↔ ∃ value others,
      item.value = .ok value ∧ more.entries = .ok others ∧ entries = (key, value) :: others := by
  simp only [Members.entries, bind_eq_ok_iff, pure_eq_ok_iff, exists_and_left]

theorem Items.gives_item_iff {item : Node} {more : Items} {values : List Value} :
    (Items.item item more).Gives values rest ↔ ∃ value others,
      item.value = .ok value ∧ more.Gives others rest ∧ values = value :: others := by
  constructor
  · rintro ⟨read, ends⟩
    obtain ⟨value, others, first, next, same⟩ := values_item_iff.mp read
    exact ⟨value, others, first, ⟨next, ends⟩, same⟩
  · rintro ⟨value, others, first, ⟨next, ends⟩, same⟩
    exact ⟨values_item_iff.mpr ⟨value, others, first, next, same⟩, ends⟩

theorem Members.gives_member_iff {key : String} {item : Node} {more : Members}
    {entries : List (String × Value)} :
    (Members.member key after item more).Gives entries rest ↔ ∃ value others,
      item.value = .ok value ∧ more.Gives others rest ∧ entries = (key, value) :: others := by
  constructor
  · rintro ⟨read, ends⟩
    obtain ⟨value, others, first, next, same⟩ := entries_member_iff.mp read
    exact ⟨value, others, first, ⟨next, ends⟩, same⟩
  · rintro ⟨value, others, first, ⟨next, ends⟩, same⟩
    exact ⟨entries_member_iff.mpr ⟨value, others, first, next, same⟩, ends⟩

theorem Items.gives_cons_iff {item : Node} {read : Bytes → Items} {values : List Value} :
    (Items.cons item read).Gives values rest ↔ ∃ value others between,
      item.Gives value between ∧ (read between).Gives others rest ∧ values = value :: others := by
  rw [Items.cons, gives_item_iff]
  cases ends : item.rest with
  | error fault =>
    constructor
    · rintro ⟨_, _, _, broken, _⟩
      exact absurd broken not_gives_broken
    · rintro ⟨_, _, _, ⟨_, whole⟩, _⟩
      cases ends.symm.trans whole
  | ok between =>
    constructor
    · rintro ⟨value, others, first, next, rfl⟩
      exact ⟨value, others, between, ⟨first, ends⟩, next, rfl⟩
    · rintro ⟨value, others, _, ⟨first, whole⟩, next, rfl⟩
      obtain rfl := Except.ok.inj (ends.symm.trans whole)
      exact ⟨value, others, first, next, rfl⟩

theorem Node.not_gives_broken {fault : Fault} {value : Value} :
    ¬(Node.broken fault).Gives value rest :=
  fun gives => nomatch gives.rest_eq

theorem readMemberValue_gives_iff {value : Value} :
    (readMemberValue node input).Gives value rest ↔
      ∃ start, skipBlanks input = ':'.toUInt8 :: start ∧ (node start).Gives value rest := by
  unfold readMemberValue
  constructor
  · intro gives
    split at gives
    next => exact absurd gives Node.not_gives_broken
    next byte start stands =>
      split at gives
      next colon => exact ⟨start, colon ▸ stands, gives⟩
      next => exact absurd gives Node.not_gives_broken
  · rintro ⟨start, colon, gives⟩
    simpa only [colon, if_true] using gives

theorem Members.gives_cons_iff {read : Bytes → Members} {entries : List (String × Value)} :
    (Members.cons node input read).Gives entries rest ↔ ∃ entry others between,
      MemberAt (fun start value => (node start).Gives value) ('"'.toUInt8 :: input) entry between ∧
        (read between).Gives others rest ∧ entries = entry :: others := by
  unfold Members.cons
  constructor
  · intro gives
    split at gives
    next => exact absurd gives not_gives_broken
    next key after name =>
      obtain ⟨value, others, first, next, rfl⟩ := gives_member_iff.mp gives
      cases ends : (readMemberValue node after).rest with
      | error fault =>
        rw [ends] at next
        exact absurd next not_gives_broken
      | ok between =>
        rw [ends] at next
        obtain ⟨start, colon, stands⟩ := readMemberValue_gives_iff.mp ⟨first, ends⟩
        exact ⟨(key, value), others, between, .member name colon stands, next, rfl⟩
  · rintro ⟨_, others, between, member, next, rfl⟩
    cases member with
    | member name colon stands =>
      have gives := readMemberValue_gives_iff.mpr ⟨_, colon, stands⟩
      simp only [name, gives.rest_eq]
      exact gives_member_iff.mpr ⟨_, others, gives.value_eq, next, rfl⟩

/-- Each element takes up a comma, so the count of steps that is left does not matter as
long as it is greater than the number of elements. -/
theorem readItemsWithin_gives_iff {count : Nat} {values : List Value} :
    (readItemsWithin node count input).Gives values rest ↔ values.length < count ∧
      Following ']'.toUInt8 (fun start value => (node start).Gives value) input values rest := by
  induction count generalizing input values with
  | zero =>
    rw [readItemsWithin]
    constructor
    · intro gives
      exact absurd gives Items.not_gives_broken
    · rintro ⟨few, _⟩
      exact absurd few (Nat.not_lt_zero _)
  | succ count ih =>
    unfold readItemsWithin
    constructor
    · intro gives
      split at gives
      next => exact absurd gives Items.not_gives_broken
      next byte after stands =>
        split at gives
        next closed =>
          obtain ⟨rfl, rfl⟩ := Items.gives_close_iff.mp gives
          exact ⟨Nat.succ_pos count, .close (closed ▸ stands)⟩
        next =>
          split at gives
          next comma =>
            split at gives
            next => exact absurd gives Items.not_gives_broken
            next first start present =>
              split at gives
              next => exact absurd gives Items.not_gives_broken
              next notClosed =>
                obtain ⟨value, others, between, item, next, rfl⟩ := Items.gives_cons_iff.mp gives
                obtain ⟨few, follows⟩ := ih.mp next
                exact ⟨Nat.succ_lt_succ few, .more (comma ▸ stands) present notClosed item follows⟩
          next => exact absurd gives Items.not_gives_broken
    · rintro ⟨few, follows⟩
      have noComma : ¬ ','.toUInt8 = ']'.toUInt8 := by decide
      cases follows with
      | close closed =>
        simp only [closed, if_true]
        exact Items.gives_close_iff.mpr ⟨rfl, rfl⟩
      | more comma present notClosed item follows =>
        simp only [comma, present, if_neg noComma, if_neg notClosed, if_true]
        exact Items.gives_cons_iff.mpr
          ⟨_, _, _, item, ih.mpr ⟨Nat.lt_of_succ_lt_succ few, follows⟩, rfl⟩

theorem readItems_gives_iff {values : List Value} :
    (readItems node input).Gives values rest ↔ values.length ≤ input.length ∧
      Enclosed ']'.toUInt8 (fun start value => (node start).Gives value) input values rest := by
  unfold readItems
  constructor
  · intro gives
    split at gives
    next => exact absurd gives Items.not_gives_broken
    next byte start stands =>
      split at gives
      next closed =>
        obtain ⟨rfl, rfl⟩ := Items.gives_close_iff.mp gives
        exact ⟨Nat.zero_le _, .empty (closed ▸ stands)⟩
      next notClosed =>
        obtain ⟨value, others, between, item, next, rfl⟩ := Items.gives_cons_iff.mp gives
        obtain ⟨few, follows⟩ := readItemsWithin_gives_iff.mp next
        exact ⟨few, .elements stands notClosed item follows⟩
  · rintro ⟨few, stands⟩
    cases stands with
    | empty closed =>
      simp only [closed, if_true]
      exact Items.gives_close_iff.mpr ⟨rfl, rfl⟩
    | elements present notClosed item follows =>
      simp only [present, if_neg notClosed]
      exact Items.gives_cons_iff.mpr ⟨_, _, _, item, readItemsWithin_gives_iff.mpr ⟨few, follows⟩, rfl⟩

theorem readMembersWithin_gives_iff {count : Nat} {entries : List (String × Value)} :
    (readMembersWithin node count input).Gives entries rest ↔ entries.length < count ∧
      Following '\x7d'.toUInt8 (MemberAt fun start value => (node start).Gives value)
        input entries rest := by
  induction count generalizing input entries with
  | zero =>
    rw [readMembersWithin]
    constructor
    · intro gives
      exact absurd gives Members.not_gives_broken
    · rintro ⟨few, _⟩
      exact absurd few (Nat.not_lt_zero _)
  | succ count ih =>
    unfold readMembersWithin
    constructor
    · intro gives
      split at gives
      next => exact absurd gives Members.not_gives_broken
      next byte after stands =>
        split at gives
        next closed =>
          obtain ⟨rfl, rfl⟩ := Members.gives_close_iff.mp gives
          exact ⟨Nat.succ_pos count, .close (closed ▸ stands)⟩
        next =>
          split at gives
          next comma =>
            split at gives
            next => exact absurd gives Members.not_gives_broken
            next first start present =>
              split at gives
              next quote =>
                obtain ⟨entry, others, between, member, next, rfl⟩ := Members.gives_cons_iff.mp gives
                obtain ⟨few, follows⟩ := ih.mp next
                exact ⟨Nat.succ_lt_succ few, .more (comma ▸ stands) present
                  (quote ▸ by decide) (quote ▸ member) follows⟩
              next =>
                split at gives
                next => exact absurd gives Members.not_gives_broken
                next => exact absurd gives Members.not_gives_broken
          next => exact absurd gives Members.not_gives_broken
    · rintro ⟨few, follows⟩
      have noComma : ¬ ','.toUInt8 = '\x7d'.toUInt8 := by decide
      cases follows with
      | close closed =>
        simp only [closed, if_true]
        exact Members.gives_close_iff.mpr ⟨rfl, rfl⟩
      | more comma present notClosed member follows =>
        cases member with
        | member name colon stands =>
          simp only [comma, present, if_neg noComma, if_true]
          exact Members.gives_cons_iff.mpr ⟨_, _, _, .member name colon stands,
            ih.mpr ⟨Nat.lt_of_succ_lt_succ few, follows⟩, rfl⟩

theorem readMembers_gives_iff {entries : List (String × Value)} :
    (readMembers node input).Gives entries rest ↔ entries.length ≤ input.length ∧
      Enclosed '\x7d'.toUInt8 (MemberAt fun start value => (node start).Gives value)
        input entries rest := by
  unfold readMembers
  constructor
  · intro gives
    split at gives
    next => exact absurd gives Members.not_gives_broken
    next byte start stands =>
      split at gives
      next closed =>
        obtain ⟨rfl, rfl⟩ := Members.gives_close_iff.mp gives
        exact ⟨Nat.zero_le _, .empty (closed ▸ stands)⟩
      next notClosed =>
        split at gives
        next quote =>
          obtain ⟨entry, others, between, member, next, rfl⟩ := Members.gives_cons_iff.mp gives
          obtain ⟨few, follows⟩ := readMembersWithin_gives_iff.mp next
          exact ⟨few, .elements stands notClosed (quote ▸ member) follows⟩
        next => exact absurd gives Members.not_gives_broken
  · rintro ⟨few, stands⟩
    cases stands with
    | empty closed =>
      simp only [closed, if_true]
      exact Members.gives_close_iff.mpr ⟨rfl, rfl⟩
    | elements present notClosed member follows =>
      cases member with
      | member name colon stands =>
        simp only [present, if_neg notClosed, if_true]
        exact Members.gives_cons_iff.mpr ⟨_, _, _, .member name colon stands,
          readMembersWithin_gives_iff.mpr ⟨few, follows⟩, rfl⟩

theorem checkEnd_eq_ok_iff : checkEnd rest = .ok () ↔ ∀ byte ∈ rest, isBlank byte = true := by
  rw [← List.dropWhile_eq_nil_iff]
  change checkEnd rest = .ok () ↔ skipBlanks rest = []
  unfold checkEnd
  split
  next nothing => simp [nothing]
  next byte more present => simp [present]

theorem Value.ofBytes_eq_ok_iff {bytes : Bytes} {value : Value} :
    Value.ofBytes bytes = .ok value ↔
      ∃ rest, (readDocument bytes).Gives value rest ∧ checkEnd rest = .ok () := by
  simp only [Value.ofBytes, mapError_eq_ok_iff, bind_eq_ok_iff, pure_eq_ok_iff]
  constructor
  · intro read
    obtain ⟨_, whole, rest, ends, _, finished, rfl⟩ := read
    exact ⟨rest, ⟨whole, ends⟩, finished⟩
  · intro read
    obtain ⟨rest, ⟨whole, ends⟩, finished⟩ := read
    exact ⟨value, whole, rest, ends, (), finished, rfl⟩

end SlotLanes.Json
