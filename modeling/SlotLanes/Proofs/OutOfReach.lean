import SlotLanes.Proofs.Questions

/-! Objects out of reach. A walk looks at nothing but the paths that slots list one below
another, missing ones included; so an object at any other path can be added, replaced or made
a device or a slot, and neither the lanes nor the warnings nor the calls change. -/
namespace SlotLanes

namespace Inventory

/-- The same objects at all other paths. -/
def SameButAt (changed : String) (inventory other : Inventory) : Prop :=
  ∀ path, path ≠ changed → inventory.get? path = other.get? path

theorem sameButAt_insert (inventory : Inventory) (inserted : String) (object : Object) :
    SameButAt inserted inventory (inventory.insert inserted object) := by
  intro path apart
  rw [Dictionary.get?_insert, if_neg apart]

namespace SameButAt

variable {changed path : String} {inventory other : Inventory}
variable (same : SameButAt changed inventory other)
include same

theorem busOf_eq (apart : path ≠ changed) : inventory.busOf path = other.busOf path := by
  rw [busOf, busOf, same path apart]

/-- Which children are kept depends on their own objects, so the changed path may be none of
those that are listed, whether it is kept or not. -/
theorem childrenOf_eq (apart : path ≠ changed)
    (unlisted : changed ∉ inventory.listedChildren path) :
    inventory.childrenOf path = other.childrenOf path := by
  apply childrenOf_congr (same path apart)
  intro child member
  have childApart : child ≠ changed := fun equal => unlisted (equal ▸ member)
  rw [same child childApart]

/-- A call of a walk is answered as before if the changed path is out of the walk's reach. -/
theorem alike_of_walk {active : List String} {call : Call}
    (unreached : ¬ inventory.listing.Reaches path changed)
    (made : call ∈ (walk inventory.client active path).calls) :
    call.Alike inventory.client.toAccessors other.client.toAccessors := by
  obtain ⟨kept, mayAsk⟩ := walk_asks made
  -- What passes the filter of children was listed.
  have reached : inventory.listing.Reaches path call.path := by
    apply Relation.ReflTransGen.mono _ _ _ kept
    intro parent child lists
    exact ⟨lists.1, List.mem_of_mem_filter lists.2⟩
  have apart : call.path ≠ changed := fun equal => unreached (equal ▸ reached)
  have found := same call.path apart
  cases call with
  | bus path => exact mayAsk.elim
  | maxLanes path => exact congrArg (·.bind Object.maxLanes) found
  | lanes path => exact congrArg (·.bind Object.lanes) found
  | children parent =>
    apply same.childrenOf_eq apart
    intro listed
    exact unreached (reached.tail ⟨mayAsk, listed⟩)

end SameButAt
end Inventory

/-- An object that is inserted outside what a path reaches changes nothing of what the path
brings. For a bus the same holds outside the main board and all that its listed children
reach, themselves included, whatever they are and whatever bus they are on. -/
theorem unreached_insert_immaterial (inventory : Inventory) (inserted : String)
    (object : Inventory.Object) :
    let grown : Inventory := inventory.insert inserted object
    (∀ path, ¬ inventory.listing.Reaches path inserted →
      parseDevices inventory.client path = parseDevices grown.client path) ∧
    ∀ mainBoard, inserted ≠ mainBoard →
      (∀ child ∈ inventory.listedChildren mainBoard, ¬ inventory.listing.Reaches child inserted) →
      ∀ bus, select inventory.client mainBoard bus = select grown.client mainBoard bus := by
  intro grown
  have same : Inventory.SameButAt inserted inventory grown :=
    Inventory.sameButAt_insert inventory inserted object
  refine ⟨fun path unreached => ?_, fun mainBoard apart unreached bus => ?_⟩
  · apply walk_congr_calls
    intro call made
    exact same.alike_of_walk unreached made
  · apply select_congr_calls
    intro call made
    rcases mem_calls_select.mp made with first | ⟨child, member, asked⟩
    · rw [first]
      apply same.childrenOf_eq apart.symm
      intro listed
      exact unreached inserted listed .refl
    · have listed : child ∈ inventory.listedChildren mainBoard := List.mem_of_mem_filter member
      rcases asked with first | ⟨_, inside⟩
      · rw [first]
        apply same.busOf_eq
        intro equal
        exact unreached child listed (equal ▸ .refl)
      · exact same.alike_of_walk (unreached child listed) inside

/-- A riser that leads back to its slot and lists a path that is missing, beside a card that
lists a path as well. -/
def loopedRiser : Inventory :=
  .ofList [("/board", { children := ["/slot"] }),
    ("/slot", { bus := some 1, lanes := some 16, children := ["/riser", "/card"] }),
    ("/riser", { lanes := some 4, children := ["/slot", "/missing"] }),
    ("/card", { maxLanes := some 8, children := ["/hidden"] })]

theorem loopedRiser_reaches {path : String}
    (reaches : loopedRiser.listing.Reaches "/slot" path) :
    path ∈ ["/slot", "/riser", "/card", "/missing"] := by
  let region : Set String := {path | path ∈ ["/slot", "/riser", "/card", "/missing"]}
  change path ∈ region
  apply reaches.mem_of_closed
  · simp [region]
  · intro parent inside child lists
    obtain ⟨⟨noDevice, _⟩, listed⟩ := lists
    simp only [Inventory.listing, Inventory.maxLanesOf, Inventory.listedChildren, loopedRiser,
      Dictionary.ofList, List.foldl_cons, List.foldl_nil, Dictionary.get?_insert,
      Dictionary.get?_empty] at noDevice listed
    simp only [region, Set.mem_ofPred_eq, List.mem_cons, List.not_mem_nil, or_false] at inside ⊢
    grind

/-- A slot that only a card lists can be inserted, and what the slots above the card bring
stays as it was. -/
theorem loopedRiser_hidden_slot_inserted :
    let hidden : Inventory.Object := { lanes := some 1, children := ["/slot"] }
    let grown : Inventory := loopedRiser.insert "/hidden" hidden
    ¬ loopedRiser.listing.Reaches "/slot" "/hidden" ∧
      loopedRiser.listedChildren "/board" = ["/slot"] ∧
      parseDevices loopedRiser.client "/slot" = parseDevices grown.client "/slot" ∧
      select loopedRiser.client "/board" 1 = select grown.client "/board" 1 := by
  intro hidden grown
  have unreached : ¬ loopedRiser.listing.Reaches "/slot" "/hidden" := by
    intro reaches
    have inside := loopedRiser_reaches reaches
    simp at inside
  have listed : loopedRiser.listedChildren "/board" = ["/slot"] := by
    simp [Inventory.listedChildren, loopedRiser, Dictionary.ofList]
  have immaterial := unreached_insert_immaterial loopedRiser "/hidden" hidden
  refine ⟨unreached, listed, immaterial.1 "/slot" unreached, ?_⟩
  apply immaterial.2 "/board" (by decide)
  intro child member
  rw [listed, List.mem_singleton] at member
  exact member ▸ unreached

end SlotLanes
