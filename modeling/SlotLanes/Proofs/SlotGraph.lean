import Mathlib
import SlotLanes.Walk

/-! The graph of slots below one another, as a client reports it. It may be cyclic and
share slots between parents; devices and other objects are no part of it. A walk looks
into its working set only for slots that its path leads to. -/
namespace SlotLanes

namespace Accessors

def IsSlot (accessors : Accessors) (path : String) : Prop :=
  accessors.maxLanes path = none ∧ (accessors.lanes path).isSome

def SlotEdge (accessors : Accessors) (parent child : String) : Prop :=
  accessors.IsSlot parent ∧ child ∈ accessors.children parent ∧ accessors.IsSlot child

/-- A path leads to itself and to every slot below it. -/
def Leads (accessors : Accessors) : String → String → Prop :=
  Relation.ReflTransGen accessors.SlotEdge

def OnCycle (accessors : Accessors) (path : String) : Prop :=
  Relation.TransGen accessors.SlotEdge path path

theorem isSlot_of {accessors : Accessors} {path : String} {capacity : UInt64}
    (noDevice : accessors.maxLanes path = none) (slot : accessors.lanes path = some capacity) :
    accessors.IsSlot path :=
  ⟨noDevice, by simp [slot]⟩

theorem acc_of_acyclic {accessors : Accessors} {path : String}
    (finite : {slot | Relation.TransGen accessors.SlotEdge path slot}.Finite)
    (acyclic : ∀ slot, accessors.Leads path slot → ¬ accessors.OnCycle slot) :
    Acc (fun child parent => accessors.SlotEdge parent child) path := by
  -- Without a cycle, the slots below a child are fewer than those below its parent.
  induction equal : {slot | Relation.TransGen accessors.SlotEdge path slot}.ncard
    using Nat.strong_induction_on generalizing path with
  | _ size ih =>
    refine ⟨_, fun child edge => ?_⟩
    have inside : {slot | Relation.TransGen accessors.SlotEdge child slot} ⊆
        {slot | Relation.TransGen accessors.SlotEdge path slot} :=
      fun _ below => Relation.TransGen.head edge below
    have outside : child ∉ {slot | Relation.TransGen accessors.SlotEdge child slot} :=
      acyclic child (.single edge)
    have fewer : {slot | Relation.TransGen accessors.SlotEdge child slot}.ncard < size := by
      rw [← equal]
      apply Set.ncard_lt_ncard ⟨inside, fun back => ?_⟩ finite
      exact outside (back (Relation.TransGen.single edge))
    exact ih _ fewer (finite.subset inside)
      (fun slot leads => acyclic slot (Relation.ReflTransGen.head edge leads)) rfl

theorem not_onCycle_of_descends {accessors : Accessors} (height : String → Nat)
    (descends : ∀ parent child, accessors.SlotEdge parent child → height child < height parent)
    (slot : String) : ¬ accessors.OnCycle slot := by
  have below : ∀ first last, Relation.TransGen accessors.SlotEdge first last →
      height last < height first := by
    intro first last path
    induction path with
    | single edge => exact descends _ _ edge
    | tail _ edge ih => exact (descends _ _ edge).trans ih
  exact fun cycle => Nat.lt_irrefl _ (below slot slot cycle)

end Accessors

theorem Accessors.Leads.isSlot {accessors : Accessors} {path slot : String}
    (leads : accessors.Leads path slot) (isSlot : accessors.IsSlot slot) :
    accessors.IsSlot path := by
  rcases Relation.ReflTransGen.cases_head leads with rfl | ⟨_, edge, _⟩
  · exact isSlot
  · exact edge.1

theorem Client.finite_slots (client : Client) : {path | client.IsSlot path}.Finite :=
  client.slots.finite_toSet.subset fun path slot => client.mem_slots path slot.1 slot.2

theorem walk_congr_active {client : Client} {active : List String} {path : String}
    {other : List String} (same : ∀ slot, client.IsSlot slot → client.Leads path slot →
      (slot ∈ active ↔ slot ∈ other)) :
    walk client active path = walk client other path := by
  induction active, path using walk_induction client generalizing other with
  | device active path most device => rw [walk_device device, walk_device device]
  | neither active path noDevice noSlot =>
    rw [walk_neither noDevice noSlot, walk_neither noDevice noSlot]
  | seen active path capacity noDevice slot seen =>
    have isSlot := Accessors.isSlot_of noDevice slot
    rw [walk_repeat noDevice slot seen, walk_repeat noDevice slot ((same path isSlot .refl).mp seen)]
  | slot active path capacity noDevice slot fresh ih =>
    have isSlot := Accessors.isSlot_of noDevice slot
    have stillFresh : path ∉ other := fun seen => fresh ((same path isSlot .refl).mpr seen)
    have children : below client active path = below client other path := by
      apply congrArg Visit.concat
      apply List.map_congr_left
      intro child member
      apply ih child member
      intro nested nestedSlot leads
      have edge : client.SlotEdge path child := ⟨isSlot, member, leads.isSlot nestedSlot⟩
      have elsewhere := same nested nestedSlot (Relation.ReflTransGen.head edge leads)
      simp only [List.mem_cons, elsewhere]
    rw [walk_slot noDevice slot fresh, walk_slot noDevice slot stillFresh, children]

end SlotLanes
