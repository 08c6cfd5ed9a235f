import SlotLanes.Proofs.Richest

/-! Children that are neither devices nor slots. A walk finds nothing at such a child, reports
nothing of it and leaves the branch as it was, and as a candidate for a bus it is never longer
than another; so it does not show in any answer whether a client lists such children or not. -/
namespace SlotLanes

/-- Two visits that differ at most in what was asked on the way. -/
structure Visit.SameAnswer (visit other : Visit) : Prop where
  lanes : visit.lanes = other.lanes
  notices : visit.notices = other.notices

def Accessors.isDeviceOrSlot (accessors : Accessors) (path : String) : Bool :=
  (accessors.maxLanes path).isSome || (accessors.lanes path).isSome

/-- The same answers, but children that are neither devices nor slots are left out. -/
structure Accessors.Trims (accessors other : Accessors) : Prop where
  bus : ∀ path, accessors.bus path = other.bus path
  maxLanes : ∀ path, accessors.maxLanes path = other.maxLanes path
  lanes : ∀ path, accessors.lanes path = other.lanes path
  children : ∀ path, accessors.children path = (other.children path).filter other.isDeviceOrSlot

namespace Visit.SameAnswer

theorem refl (visit : Visit) : visit.SameAnswer visit :=
  ⟨rfl, rfl⟩

variable {visit other : Visit}

theorem append {first second : Visit} (same : first.SameAnswer second)
    (later : visit.SameAnswer other) : (first.append visit).SameAnswer (second.append other) := by
  refine ⟨?_, ?_⟩
  · simp only [Visit.append, same.lanes, later.lanes]
  · simp only [Visit.append, same.notices, later.notices]

/-- What brings neither lanes nor notices changes no answer. -/
theorem append_silent (same : visit.SameAnswer other) (calls : List Call) :
    visit.SameAnswer (Visit.append ⟨[], [], calls⟩ other) :=
  ⟨same.lanes, same.notices⟩

theorem settle (same : visit.SameAnswer other) (path : String) (capacity : UInt64) :
    (settle path capacity visit).SameAnswer (settle path capacity other) := by
  refine ⟨?_, ?_⟩
  · simp only [SlotLanes.settle, same.lanes]
    split
    · rfl
    · split <;> simp [same.lanes]
  · rw [settle_notices, settle_notices, same.lanes, same.notices]

theorem orLonger {best otherBest : Visit} (same : best.SameAnswer otherBest) (bus : UInt8)
    (child : String) (walked : visit.SameAnswer other) :
    (best.orLonger bus child visit).SameAnswer (otherBest.orLonger bus child other) := by
  refine ⟨?_, ?_⟩
  · simp only [Visit.orLonger, same.lanes, walked.lanes]
  · simp only [Visit.orLonger, same.lanes, same.notices, walked.lanes, walked.notices]

end Visit.SameAnswer

theorem walk_neither_of_not {client : Client} (active : List String) {path : String}
    (neither : client.isDeviceOrSlot path = false) :
    walk client active path = ⟨[], [], [.maxLanes path, .lanes path]⟩ := by
  simp only [Accessors.isDeviceOrSlot, Bool.or_eq_false_iff, Option.isSome_eq_false_iff,
    Option.isNone_iff_eq_none] at neither
  exact walk_neither neither.1 neither.2

/-- A candidate that is neither device nor slot is never longer than the best so far. -/
theorem sameAnswer_consider_neither {client : Client} {mainBoard child : String} {bus : UInt8}
    {best other : Visit} (same : best.SameAnswer other)
    (neither : client.isDeviceOrSlot child = false) :
    best.SameAnswer (consider client mainBoard bus other child) := by
  unfold consider
  split
  · rw [walk_neither_of_not _ neither]
    exact ⟨by simp [Visit.orLonger, same.lanes], by simp [Visit.orLonger, same.notices]⟩
  · exact ⟨same.lanes, same.notices⟩

section Trimmed
variable {client other : Client} (trims : client.toAccessors.Trims other.toAccessors)
include trims

theorem below_sameAnswer {active : List String} {path : String}
    (each : ∀ child ∈ client.children path,
      (walk client (path :: active) child).SameAnswer (walk other (path :: active) child)) :
    (below client active path).SameAnswer (below other active path) := by
  unfold below
  rw [trims.children] at each ⊢
  generalize other.children path = listed at each
  induction listed with
  | nil => exact .refl _
  | cons child children ih =>
    cases kept : other.isDeviceOrSlot child with
    | true =>
      rw [List.filter_cons_of_pos kept] at each ⊢
      obtain ⟨first, rest⟩ := List.forall_mem_cons.mp each
      exact first.append (ih rest)
    | false =>
      have dropped : ¬ other.isDeviceOrSlot child = true := by simp [kept]
      rw [List.filter_cons_of_neg dropped] at each ⊢
      rw [List.map_cons, walk_neither_of_not _ kept]
      exact (ih each).append_silent _

/-- The walk of a client that leaves such children out is a walk of one that lists them, but
for the questions about them. -/
theorem walk_sameAnswer (active : List String) (path : String) :
    (walk client active path).SameAnswer (walk other active path) := by
  induction active, path using walk_induction client with
  | device active path most device =>
    rw [walk_device device, walk_device (trims.maxLanes path ▸ device)]
    exact .refl _
  | neither active path noDevice noSlot =>
    rw [walk_neither noDevice noSlot,
      walk_neither (trims.maxLanes path ▸ noDevice) (trims.lanes path ▸ noSlot)]
    exact .refl _
  | seen active path capacity noDevice slot seen =>
    rw [walk_repeat noDevice slot seen,
      walk_repeat (trims.maxLanes path ▸ noDevice) (trims.lanes path ▸ slot) seen]
    exact .refl _
  | slot active path capacity noDevice slot fresh ih =>
    have below := below_sameAnswer trims ih
    rw [walk_slot noDevice slot fresh,
      walk_slot (trims.maxLanes path ▸ noDevice) (trims.lanes path ▸ slot) fresh]
    apply Visit.SameAnswer.settle
    exact ⟨below.lanes, below.notices⟩

variable {mainBoard : String} {bus : UInt8} {best otherBest : Visit}

theorem consider_sameAnswer (same : best.SameAnswer otherBest) (child : String) :
    (consider client mainBoard bus best child).SameAnswer
      (consider other mainBoard bus otherBest child) := by
  unfold consider
  rw [trims.bus child]
  split
  · exact same.orLonger bus child (walk_sameAnswer trims [mainBoard] child)
  · exact ⟨same.lanes, same.notices⟩

theorem foldl_consider_sameAnswer (children : List String) (same : best.SameAnswer otherBest) :
    ((children.filter other.isDeviceOrSlot).foldl (consider client mainBoard bus) best).SameAnswer
      (children.foldl (consider other mainBoard bus) otherBest) := by
  induction children generalizing best otherBest with
  | nil => exact same
  | cons child children ih =>
    rw [List.foldl_cons]
    cases kept : other.isDeviceOrSlot child with
    | true =>
      rw [List.filter_cons_of_pos kept, List.foldl_cons]
      exact ih (consider_sameAnswer trims same child)
    | false =>
      have dropped : ¬ other.isDeviceOrSlot child = true := by simp [kept]
      rw [List.filter_cons_of_neg dropped]
      exact ih (sameAnswer_consider_neither same kept)

theorem select_sameAnswer (mainBoard : String) (bus : UInt8) :
    (select client mainBoard bus).SameAnswer (select other mainBoard bus) := by
  unfold select
  rw [trims.children mainBoard]
  exact foldl_consider_sameAnswer trims _ (.refl _)

end Trimmed

namespace Inventory

theorem any_isDeviceOrSlot (inventory : Inventory) (path : String) :
    (inventory.get? path).any Object.isDeviceOrSlot = inventory.listing.isDeviceOrSlot path := by
  cases found : inventory.get? path with
  | none => simp [Accessors.isDeviceOrSlot, listing, maxLanesOf, lanesOf, found]
  | some object =>
    simp [Accessors.isDeviceOrSlot, listing, maxLanesOf, lanesOf, found, Object.isDeviceOrSlot]

theorem client_trims_listing (inventory : Inventory) :
    inventory.client.toAccessors.Trims inventory.listing.toAccessors where
  bus _ := rfl
  maxLanes _ := rfl
  lanes _ := rfl
  children path := by
    apply List.filter_congr
    intro child _
    exact inventory.any_isDeviceOrSlot child

end Inventory

/-- An inventory that leaves out the children that are neither devices nor slots, or missing,
and one that lists them all give the same lanes and the same notices, for every path and on
every branch, and for every bus and main board. -/
theorem child_filter_invisible (inventory : Inventory) :
    (∀ active path,
      (walk inventory.client active path).lanes = (walk inventory.listing active path).lanes ∧
      (walk inventory.client active path).notices = (walk inventory.listing active path).notices) ∧
    (∀ path,
      (parseDevices inventory.client path).bytes = (parseDevices inventory.listing path).bytes ∧
      (parseDevices inventory.client path).notices =
        (parseDevices inventory.listing path).notices) ∧
    ∀ mainBoard bus,
      (select inventory.client mainBoard bus).bytes =
        (select inventory.listing mainBoard bus).bytes ∧
      (select inventory.client mainBoard bus).notices =
        (select inventory.listing mainBoard bus).notices := by
  have trims := inventory.client_trims_listing
  refine ⟨fun active path => ?_, fun path => ?_, fun mainBoard bus => ?_⟩
  · have same := walk_sameAnswer trims active path
    exact ⟨same.lanes, same.notices⟩
  · have same := walk_sameAnswer trims [] path
    exact ⟨congrArg (List.map narrow) same.lanes, same.notices⟩
  · have same := select_sameAnswer trims mainBoard bus
    exact ⟨congrArg (List.map narrow) same.lanes, same.notices⟩

end SlotLanes
