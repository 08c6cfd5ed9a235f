import SlotLanes.Proofs.TwoReadings

/-! Nodes in which no object names a member twice. What is read of a list or an object keeps
this if its elements do, and the names of the object's own members differ. -/
namespace SlotLanes.Json

variable {β : Type}

theorem Following.imp {close : UInt8} {element other : Bytes → β → Bytes → Prop}
    (step : ∀ input value rest, element input value rest → other input value rest)
    {input rest : Bytes} {values : List β} (follows : Following close element input values rest) :
    Following close other input values rest := by
  induction follows with
  | close closed => exact .close closed
  | more comma present notClosed stands _ ih => exact .more comma present notClosed (step _ _ _ stands) ih

theorem Enclosed.imp {close : UInt8} {element other : Bytes → β → Bytes → Prop}
    (step : ∀ input value rest, element input value rest → other input value rest)
    {input rest : Bytes} {values : List β} (encloses : Enclosed close element input values rest) :
    Enclosed close other input values rest := by
  cases encloses with
  | empty closed => exact .empty closed
  | elements present notClosed stands follows =>
    exact .elements present notClosed (step _ _ _ stands) (follows.imp step)

theorem MemberAt.imp {reads other : Bytes → Value → Bytes → Prop}
    (step : ∀ input value rest, reads input value rest → other input value rest)
    (input : Bytes) (entry : String × Value) (rest : Bytes) (member : MemberAt reads input entry rest) :
    MemberAt other input entry rest := by
  cases member with
  | member name colon stands => exact .member name colon (step _ _ _ stands)

/-- A node that is whole and in which no object names a member twice. -/
def CleanAt (depth : Nat) (input : Bytes) (value : Value) (rest : Bytes) : Prop :=
  NodeAt depth input value rest ∧ (readNode depth input).Distinct

section Clean
variable {depth : Nat} {input start rest : Bytes}

theorem readNode_of_scalarAt {scalar : Scalar} (token : ScalarAt input scalar rest) (depth : Nat) :
    readNode depth input = .scalar scalar rest := by
  cases depth with
  | zero => exact token
  | succ depth =>
    have noList (start : Bytes) : skipBlanks input ≠ '['.toUInt8 :: start :=
      fun opens => not_scalarAt_of_list opens token
    have noObject (start : Bytes) : skipBlanks input ≠ '\x7b'.toUInt8 :: start :=
      fun opens => not_scalarAt_of_object opens token
    rw [readNode, readValue_other _ noList noObject]
    exact token

theorem CleanAt.of_scalarAt {scalar : Scalar} (token : ScalarAt input scalar rest) (depth : Nat) :
    CleanAt depth input (.scalar scalar) rest := by
  rw [CleanAt, NodeAt, readNode_of_scalarAt token]
  exact ⟨⟨rfl, rfl⟩, trivial⟩

theorem readItemsWithin_distinct {count : Nat} {values : List Value} (few : values.length < count)
    (follows : Following ']'.toUInt8 (CleanAt depth) input values rest) :
    (readItemsWithin (readNode depth) count input).Distinct := by
  have noComma : ¬ ','.toUInt8 = ']'.toUInt8 := by decide
  induction follows generalizing count with
  | close closed =>
    obtain ⟨count, rfl⟩ := Nat.exists_eq_succ_of_ne_zero (Nat.ne_zero_of_lt few)
    simp only [readItemsWithin, closed, if_true]
    trivial
  | more comma present notClosed stands _ ih =>
    obtain ⟨count, rfl⟩ := Nat.exists_eq_succ_of_ne_zero (Nat.ne_zero_of_lt few)
    have others := ih (Nat.lt_of_succ_lt_succ few)
    simp only [readItemsWithin, comma, present, if_neg noComma, if_neg notClosed, if_true, Items.cons,
      stands.1.rest_eq]
    exact ⟨stands.2, others⟩

theorem readItems_distinct {values : List Value}
    (encloses : Enclosed ']'.toUInt8 (CleanAt depth) input values rest)
    (few : values.length ≤ input.length) : (readItems (readNode depth) input).Distinct := by
  cases encloses with
  | empty closed =>
    simp only [readItems, closed, if_true]
    trivial
  | elements present notClosed stands follows =>
    have others := readItemsWithin_distinct few follows
    simp only [readItems, present, if_neg notClosed, Items.cons, stands.1.rest_eq]
    exact ⟨stands.2, others⟩

theorem membersCons_distinct {read : Bytes → Members} {entry : String × Value}
    (member : MemberAt (CleanAt depth) ('"'.toUInt8 :: input) entry rest)
    (others : (read rest).Distinct) :
    (Members.cons (readNode depth) input read).Distinct := by
  cases member with
  | member name colon stands =>
    have ends := stands.1.rest_eq
    simp only [Members.cons, name, readMemberValue, colon, if_true, ends]
    exact ⟨stands.2, others⟩

theorem readMembersWithin_distinct {count : Nat} {entries : List (String × Value)}
    (few : entries.length < count)
    (follows : Following '\x7d'.toUInt8 (MemberAt (CleanAt depth)) input entries rest) :
    (readMembersWithin (readNode depth) count input).Distinct := by
  have noComma : ¬ ','.toUInt8 = '\x7d'.toUInt8 := by decide
  induction follows generalizing count with
  | close closed =>
    obtain ⟨count, rfl⟩ := Nat.exists_eq_succ_of_ne_zero (Nat.ne_zero_of_lt few)
    simp only [readMembersWithin, closed, if_true]
    trivial
  | more comma present notClosed member _ ih =>
    obtain ⟨count, rfl⟩ := Nat.exists_eq_succ_of_ne_zero (Nat.ne_zero_of_lt few)
    have others := ih (Nat.lt_of_succ_lt_succ few)
    cases member with
    | member name colon stands =>
      simp only [readMembersWithin, comma, present, if_neg noComma, if_true]
      exact membersCons_distinct (.member name colon stands) others

theorem readMembers_distinct {entries : List (String × Value)}
    (encloses : Enclosed '\x7d'.toUInt8 (MemberAt (CleanAt depth)) input entries rest)
    (few : entries.length ≤ input.length) : (readMembers (readNode depth) input).Distinct := by
  cases encloses with
  | empty closed =>
    simp only [readMembers, closed, if_true]
    trivial
  | elements present notClosed member follows =>
    have others := readMembersWithin_distinct few follows
    cases member with
    | member name colon stands =>
      simp only [readMembers, present, if_neg notClosed, if_true]
      exact membersCons_distinct (.member name colon stands) others

theorem CleanAt.array {values : List Value} (opens : skipBlanks input = '['.toUInt8 :: start)
    (encloses : Enclosed ']'.toUInt8 (CleanAt depth) start values rest) :
    CleanAt (depth + 1) input (.array values) rest := by
  have ends := nodeAt_endsBeforeNext depth
  have whole : Enclosed ']'.toUInt8 (NodeAt depth) start values rest :=
    encloses.imp fun _ _ _ => And.left
  refine ⟨(nodeAt_succ_iff ends).mpr (.array opens whole), ?_⟩
  rw [readNode, readValue_array _ opens]
  exact readItems_distinct encloses (whole.length_le ends)

theorem NodeAt.object {entries : List (String × Value)}
    (opens : skipBlanks input = '\x7b'.toUInt8 :: start)
    (encloses : Enclosed '\x7d'.toUInt8 (MemberAt (NodeAt depth)) start entries rest) :
    NodeAt (depth + 1) input (.object (sortEntries entries)) rest :=
  (nodeAt_succ_iff (nodeAt_endsBeforeNext depth)).mpr (.object opens encloses)

theorem CleanAt.object {entries : List (String × Value)}
    (opens : skipBlanks input = '\x7b'.toUInt8 :: start)
    (encloses : Enclosed '\x7d'.toUInt8 (MemberAt (CleanAt depth)) start entries rest)
    (distinct : (entries.map Prod.fst).Nodup) :
    CleanAt (depth + 1) input (.object (sortEntries entries)) rest := by
  have whole : Enclosed '\x7d'.toUInt8 (MemberAt (NodeAt depth)) start entries rest :=
    encloses.imp (MemberAt.imp fun _ _ _ => And.left)
  have few := whole.length_le (memberAt_endsBeforeNext (nodeAt_endsBeforeNext depth))
  have read := readMembers_gives_iff.mpr ⟨few, whole⟩
  refine ⟨NodeAt.object opens whole, ?_⟩
  rw [readNode, readValue_object _ opens]
  have names := Members.keys_eq read.entries_eq
  exact ⟨names ▸ distinct, readMembers_distinct encloses few⟩

end Clean

end SlotLanes.Json
