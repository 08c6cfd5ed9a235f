import Mathlib.Data.List.Perm.Basic
import SlotLanes.Proofs.Entries
import SlotLanes.Proofs.OutOfReach

/-! An inventory that objects are inserted into, one after another. Each path keeps the object
that came last, so only the order of the insertions at one path counts. The children that show
at a path follow the objects there are now, wherever in the sequence they came; an insertion
shows at other paths only in whether the inserted one is among their children. -/
namespace SlotLanes

namespace Dictionary

variable {dictionary : Dictionary α} {entries : List (String × α)} {name : String} {value : α}

/-- Inserts the entries in the order in which they are given. -/
def insertAll (dictionary : Dictionary α) (entries : List (String × α)) : Dictionary α :=
  entries.foldl (fun dictionary entry => dictionary.insert entry.1 entry.2) dictionary

theorem insertAll_append (dictionary : Dictionary α) (entries later : List (String × α)) :
    dictionary.insertAll (entries ++ later) = (dictionary.insertAll entries).insertAll later :=
  List.foldl_append

theorem insertAll_concat (dictionary : Dictionary α) (entries : List (String × α))
    (entry : String × α) :
    dictionary.insertAll (entries ++ [entry]) =
      (dictionary.insertAll entries).insert entry.1 entry.2 :=
  dictionary.insertAll_append entries [entry]

/-- The entries are searched from the last one on, and what was there before comes after them. -/
theorem get?_insertAll (dictionary : Dictionary α) (entries : List (String × α)) (name : String) :
    (dictionary.insertAll entries).get? name =
      (entries.reverse.lookup name).or (dictionary.get? name) := by
  induction entries using List.reverseRecOn with
  | nil => rfl
  | append_singleton entries entry ih =>
    rw [insertAll_concat, get?_insert, ih, List.reverse_append, List.reverse_singleton,
      List.singleton_append, lookup_cons_eq_ite]
    split
    · rfl
    · rfl

theorem get?_insertAll_of_absent (absent : name ∉ entries.map Prod.fst) :
    (dictionary.insertAll entries).get? name = dictionary.get? name := by
  rw [get?_insertAll, lookup_reverse_eq_none_iff.mpr absent, Option.none_or]

theorem get?_insertAll_of_last {before after : List (String × α)}
    (absent : name ∉ after.map Prod.fst) :
    (dictionary.insertAll (before ++ (name, value) :: after)).get? name = some value := by
  have last : (before ++ (name, value) :: after).reverse.lookup name = some value :=
    lookup_reverse_eq_some_iff.mpr ⟨before, after, rfl, absent⟩
  rw [get?_insertAll, last, Option.some_or]

theorem insert_comm (dictionary : Dictionary α) {first second : String × α}
    (apart : first.1 ≠ second.1) :
    (dictionary.insert first.1 first.2).insert second.1 second.2 =
      (dictionary.insert second.1 second.2).insert first.1 first.2 := by
  apply eq_of_get?
  intro name
  simp only [get?_insert]
  by_cases asked : name = first.1
  · rw [if_pos asked, if_neg (asked ▸ apart), if_pos asked]
  · rw [if_neg asked, if_neg asked]

theorem insertAll_swap (dictionary : Dictionary α) (before after : List (String × α))
    {first second : String × α} (apart : first.1 ≠ second.1) :
    dictionary.insertAll (before ++ first :: second :: after) =
      dictionary.insertAll (before ++ second :: first :: after) := by
  rw [insertAll_append, insertAll_append]
  exact congrArg (insertAll · after) ((dictionary.insertAll before).insert_comm apart)

end Dictionary

/-- What is left of some items if exactly those that satisfy a condition stay, each in its place
and as often as it was there. -/
structure KeepsExactly (keep : String → Prop) (kept items : List String) : Prop where
  sublist : kept.Sublist items
  stays : ∀ item, keep item → kept.count item = items.count item
  goes : ∀ item, ¬keep item → item ∉ kept

/-- There is but one such list. -/
theorem keepsExactly_iff {keep : String → Prop} {keeps : String → Bool}
    (decides : ∀ item, keeps item = true ↔ keep item) {kept items : List String} :
    KeepsExactly keep kept items ↔ kept = items.filter keeps := by
  constructor
  · intro trimmed
    have all : kept.filter keeps = kept := by
      rw [List.filter_eq_self]
      intro item member
      rw [decides]
      by_contra dropped
      exact trimmed.goes item dropped member
    -- A sublist that has every item as often as the list itself is all of it.
    have sublist : kept.Sublist (items.filter keeps) := all ▸ trimmed.sublist.filter keeps
    have perm : kept.Perm (items.filter keeps) := by
      rw [List.perm_iff_count]
      intro item
      by_cases stays : keep item
      · rw [trimmed.stays item stays, List.count_filter ((decides item).mpr stays)]
      · have outside : item ∉ items.filter keeps := by
          intro member
          exact stays ((decides item).mp (List.mem_filter.mp member).2)
        rw [List.count_eq_zero.mpr (trimmed.goes item stays), List.count_eq_zero.mpr outside]
    exact sublist.eq_of_length perm.length_eq
  · intro same
    subst same
    refine ⟨List.filter_sublist, fun item stays => ?_, fun item goes member => ?_⟩
    · exact List.count_filter ((decides item).mpr stays)
    · exact goes ((decides item).mp (List.mem_filter.mp member).2)

namespace Inventory

variable {inventory : Inventory} {inserted path : String}

/-- There is an object at the path, and it declares lanes of one kind or the other. -/
def Shows (inventory : Inventory) (path : String) : Prop :=
  ∃ object, inventory.get? path = some object ∧ (object.maxLanes ≠ none ∨ object.lanes ≠ none)

theorem any_isDeviceOrSlot_iff (inventory : Inventory) (path : String) :
    (inventory.get? path).any Object.isDeviceOrSlot = true ↔ inventory.Shows path := by
  simp [Option.any_eq_true, Object.isDeviceOrSlot, Shows, Option.isSome_iff_ne_none]

theorem keepsExactly_children_iff (inventory : Inventory) (path : String) (shown : List String) :
    KeepsExactly inventory.Shows shown (inventory.listedChildren path) ↔
      shown = inventory.client.children path :=
  keepsExactly_iff inventory.any_isDeviceOrSlot_iff

/-- All that an object inserted at one path can change of what is told of another. -/
structure ShowsOnlyAsChild (inserted : String) (inventory grown : Inventory) (path : String) :
    Prop where
  bus : grown.client.bus path = inventory.client.bus path
  maxLanes : grown.client.maxLanes path = inventory.client.maxLanes path
  lanes : grown.client.lanes path = inventory.client.lanes path
  listed : grown.listedChildren path = inventory.listedChildren path
  others : (grown.client.children path).filter (· ≠ inserted) =
    (inventory.client.children path).filter (· ≠ inserted)
  alike : (grown.Shows inserted ↔ inventory.Shows inserted) →
    grown.client.children path = inventory.client.children path

theorem SameButAt.showsOnlyAsChild {grown : Inventory} (same : SameButAt inserted inventory grown)
    (apart : path ≠ inserted) : ShowsOnlyAsChild inserted inventory grown path where
  bus := (same.busOf_eq apart).symm
  maxLanes := congrArg (·.bind Object.maxLanes) (same path apart).symm
  lanes := congrArg (·.bind Object.lanes) (same path apart).symm
  listed := (listedChildren_congr (same path apart)).symm
  others := by
    change (grown.childrenOf path).filter _ = (inventory.childrenOf path).filter _
    rw [childrenOf, childrenOf, listedChildren_congr (same path apart), List.filter_filter,
      List.filter_filter]
    apply List.filter_congr
    intro child _
    by_cases changed : child = inserted
    · simp [changed]
    · rw [same child changed]
  alike := by
    intro shows
    apply (childrenOf_congr (same path apart) ?_).symm
    intro child _
    by_cases changed : child = inserted
    · rw [changed, Bool.eq_iff_iff, any_isDeviceOrSlot_iff, any_isDeviceOrSlot_iff]
      exact shows.symm
    · rw [same child changed]

end Inventory

/-- Whatever is inserted into whatever inventory, a path has the object that was inserted there
last, or else the one it had; and neighbours in the sequence can change places if their paths
differ. The children told of a path are those that it lists now and that show now. A further
insertion changes no more than that at another path. -/
theorem insertions_followed (inventory : Inventory) (inserts : List (String × Inventory.Object)) :
    let state : Inventory := inventory.insertAll inserts
    (∀ path,
      (path ∉ inserts.map Prod.fst → state.get? path = inventory.get? path) ∧
      ∀ before object after, inserts = before ++ (path, object) :: after →
        path ∉ after.map Prod.fst → state.get? path = some object) ∧
    (∀ before first second after, inserts = before ++ first :: second :: after →
      first.1 ≠ second.1 → inventory.insertAll (before ++ second :: first :: after) = state) ∧
    (∀ path shown, KeepsExactly state.Shows shown (state.listedChildren path) ↔
      shown = state.client.children path) ∧
    ∀ inserted object path, path ≠ inserted →
      Inventory.ShowsOnlyAsChild inserted state
        (inventory.insertAll (inserts ++ [(inserted, object)])) path := by
  intro state
  refine ⟨fun path => ⟨Dictionary.get?_insertAll_of_absent, ?_⟩, ?_,
    state.keepsExactly_children_iff, ?_⟩
  · intro before object after split absent
    subst split
    exact Dictionary.get?_insertAll_of_last absent
  · intro before first second after split apart
    subst split
    exact (inventory.insertAll_swap before after apart).symm
  · intro inserted object path apart
    rw [Dictionary.insertAll_concat]
    exact (state.sameButAt_insert inserted object).showsOnlyAsChild apart

/-- A card takes the place of a fan, and a riser loses its lanes. The board showed the riser at
first and shows the card in the end, as often as it lists the place. -/
theorem fan_replaced_by_card :
    let board : Inventory.Object := { children := ["/bay", "/riser", "/bay"] }
    let start : Inventory :=
      .ofList [("/board", board), ("/bay", { bus := some 4 }), ("/riser", { lanes := some 4 })]
    let card : Inventory.Object := { maxLanes := some 8 }
    let riser : Inventory.Object := { bus := some 1 }
    let state : Inventory := start.insertAll [("/bay", card), ("/riser", riser)]
    start.client.children "/board" = ["/riser"] ∧
      state.get? "/bay" = some card ∧
      state.get? "/board" = start.get? "/board" ∧
      start.insertAll [("/riser", riser), ("/bay", card)] = state ∧
      KeepsExactly state.Shows ["/bay", "/bay"] (state.listedChildren "/board") ∧
      Inventory.ShowsOnlyAsChild "/riser" (start.insertAll [("/bay", card)]) state "/board" := by
  intro board start card riser state
  have first : start.client.children "/board" = ["/riser"] := by decide
  have after : ["/bay", "/bay"] = state.client.children "/board" := by decide
  obtain ⟨last, swapped, shown, _⟩ :=
    insertions_followed start [("/bay", card), ("/riser", riser)]
  obtain ⟨_, _, _, further⟩ := insertions_followed start [("/bay", card)]
  refine ⟨first, ?_, ?_, ?_, (shown "/board" ["/bay", "/bay"]).mpr after, ?_⟩
  · exact (last "/bay").2 [] card [("/riser", riser)] rfl (by decide)
  · exact (last "/board").1 (by decide)
  · exact swapped [] ("/bay", card) ("/riser", riser) [] rfl (by decide)
  · exact further "/riser" riser "/board" (by decide)

end SlotLanes
