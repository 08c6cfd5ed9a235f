import SlotLanes.Inventory.OfDocument
import SlotLanes.Proofs.Boundaries

/-! A reader that wants no more items of a list looks at the bytes after the last one, not at
what the list goes on with. Where the node was read from bytes, both say the same: the list
is closed there, or it is not. -/
namespace SlotLanes.Json
open SlotLanes.Inventory (closeList)

mutual

/-- After whole items the list ends if and only if the bytes there close it. -/
def Node.Linked : Node → Prop
  | .array _ items => items.Linked
  | .object _ members => members.Linked
  | .scalar _ _ => True
  | .broken _ => True

def Items.Linked : Items → Prop
  | .item node more => node.Linked ∧ ∀ value rest, node.Gives value rest →
      more.Linked ∧ ((∃ after, more = .close after) ↔ closeList rest = .ok ())
  | .close _ => True
  | .broken _ => True

def Members.Linked : Members → Prop
  | .member _ _ node more => node.Linked ∧ more.Linked
  | .close _ => True
  | .broken _ => True

end

theorem closeList_eq_ok_iff {input : Bytes} :
    closeList input = .ok () ↔ ∃ rest, skipBlanks input = ']'.toUInt8 :: rest := by
  unfold closeList
  split
  next nothing => simp [nothing]
  next byte rest stands =>
    rw [stands]
    split
    next closed => simp [closed]
    next notClosed =>
      simp only [List.cons.injEq, notClosed, false_and, exists_false, iff_false]
      split
      · split <;> nofun
      · nofun

variable {node : Bytes → Node}

theorem readItemsWithin_eq_close_iff {count : Nat} {input : Bytes} (enough : input.length ≤ count) :
    (∃ rest, readItemsWithin node count input = .close rest) ↔ closeList input = .ok () := by
  rw [closeList_eq_ok_iff]
  cases count with
  | zero =>
    obtain rfl := List.eq_nil_of_length_eq_zero (Nat.le_zero.mp enough)
    simp [readItemsWithin, skipBlanks]
  | succ count =>
    unfold readItemsWithin
    split
    next nothing => simp [nothing]
    next byte rest stands =>
      rw [stands]
      split
      next closed => simp [closed]
      next notClosed =>
        simp only [List.cons.injEq, notClosed, false_and, exists_false, iff_false]
        intro closes
        obtain ⟨_, closes⟩ := closes
        split at closes
        next =>
          split at closes
          next => cases closes
          next => split at closes <;> cases closes
        next => cases closes

theorem linked_cons {item : Node} {count : Nat} (linked : item.Linked)
    (shorter : ∀ value rest, item.Gives value rest → rest.length ≤ count)
    (goesOn : ∀ rest : Bytes, rest.length ≤ count → (readItemsWithin node count rest).Linked) :
    (Items.cons item (readItemsWithin node count)).Linked := by
  refine ⟨linked, fun value rest gives => ?_⟩
  have enough := shorter value rest gives
  rw [gives.rest_eq]
  exact ⟨goesOn rest enough, readItemsWithin_eq_close_iff enough⟩

section Nodes
variable (linked : ∀ input, (node input).Linked)
  (ends : EndsBeforeNext fun input value rest => (node input).Gives value rest)
include linked ends

theorem readItemsWithin_linked {count : Nat} {input : Bytes} (enough : input.length ≤ count) :
    (readItemsWithin node count input).Linked := by
  induction count generalizing input with
  | zero => trivial
  | succ count ih =>
    unfold readItemsWithin
    split
    next => trivial
    next byte after stands =>
      split
      next => trivial
      next =>
        split
        next =>
          split
          next => trivial
          next first start present =>
            split
            next => trivial
            next =>
              refine linked_cons (linked _) (fun value rest gives => ?_) fun rest => ih
              have blanks := length_skipBlanks_le input
              have moreBlanks := length_skipBlanks_le after
              have taken := ends.length_le gives
              rw [stands] at blanks
              rw [present] at moreBlanks
              simp only [List.length_cons] at *
              omega
        next => trivial

theorem readItems_linked (input : Bytes) : (readItems node input).Linked := by
  unfold readItems
  split
  next => trivial
  next first start present =>
    split
    next => trivial
    next =>
      refine linked_cons (linked _) (fun value rest gives => ?_) fun rest enough =>
        readItemsWithin_linked linked ends enough
      have blanks := length_skipBlanks_le input
      have taken := ends.length_le gives
      rw [present] at blanks
      exact taken.trans blanks

omit ends

theorem readMemberValue_linked (input : Bytes) : (readMemberValue node input).Linked := by
  unfold readMemberValue
  split
  next => trivial
  next byte rest _ =>
    split
    next => exact linked rest
    next => trivial

theorem linked_membersCons {count : Nat} (input : Bytes)
    (goesOn : ∀ rest, (readMembersWithin node count rest).Linked) :
    (Members.cons node input (readMembersWithin node count)).Linked := by
  unfold Members.cons
  split
  next => trivial
  next key after _ =>
    refine ⟨readMemberValue_linked linked after, ?_⟩
    split
    next rest _ => exact goesOn rest
    next => trivial

theorem readMembersWithin_linked (count : Nat) (input : Bytes) :
    (readMembersWithin node count input).Linked := by
  induction count generalizing input with
  | zero => trivial
  | succ count ih =>
    unfold readMembersWithin
    split
    next => trivial
    next =>
      split
      next => trivial
      next =>
        split
        next =>
          split
          next => trivial
          next =>
            split
            next => exact linked_membersCons linked _ ih
            next => split <;> trivial
        next => trivial

theorem readMembers_linked (input : Bytes) : (readMembers node input).Linked := by
  unfold readMembers
  split
  next => trivial
  next =>
    split
    next => trivial
    next =>
      split
      next => exact linked_membersCons linked _ (readMembersWithin_linked linked _)
      next => trivial

end Nodes

theorem readValue_linked (input : Bytes) : (readValue none input).Linked := by
  rcases readValue_none_cases input with ⟨scalar, rest, token⟩ | ⟨fault, broken⟩
  · rw [token]
    trivial
  · rw [broken]
    trivial

/-- However deep a document may nest, its lists end where their bytes close them. -/
theorem readNode_linked (depth : Nat) (input : Bytes) : (readNode depth input).Linked := by
  induction depth generalizing input with
  | zero => exact readValue_linked input
  | succ depth ih =>
    rw [readNode]
    by_cases list : ∃ start, skipBlanks input = '['.toUInt8 :: start
    · obtain ⟨start, opens⟩ := list
      rw [readValue_array _ opens]
      exact readItems_linked ih (nodeAt_endsBeforeNext depth) start
    · by_cases object : ∃ start, skipBlanks input = '\x7b'.toUInt8 :: start
      · obtain ⟨start, opens⟩ := object
        rw [readValue_object _ opens]
        exact readMembers_linked ih start
      · rw [readValue_other _ (not_exists.mp list) (not_exists.mp object)]
        exact readValue_linked input

end SlotLanes.Json
