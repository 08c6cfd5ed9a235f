import SlotLanes.Proofs.HostView

/-! Inventories that list the same children in different orders. The order shows in the order
of the lanes and of the warnings and nowhere else: what fits one order of the children fits
any, since totals do not depend on it, and a slot is cut off where it was cut off before. -/
namespace SlotLanes

section Totals
variable {lanes others : List UInt64}

theorem exactTotal_perm (perm : lanes.Perm others) : exactTotal lanes = exactTotal others :=
  (perm.map UInt64.toNat).sum_eq

theorem totalLanes_perm (perm : lanes.Perm others) : totalLanes lanes = totalLanes others := by
  apply UInt64.toNat_inj.mp
  rw [totalLanes_toNat, totalLanes_toNat, exactTotal_perm perm]

end Totals

/-- Two visits that differ at most in the order of what they bring. -/
structure Visit.Reordered (visit other : Visit) : Prop where
  lanes : visit.lanes.Perm other.lanes
  notices : visit.notices.Perm other.notices
  calls : visit.calls.Perm other.calls

theorem Visit.Reordered.refl (visit : Visit) : visit.Reordered visit :=
  ⟨.refl _, .refl _, .refl _⟩

theorem Visit.Reordered.settle {visit other : Visit} (reordered : visit.Reordered other)
    (path : String) (capacity : UInt64) :
    (settle path capacity visit).Reordered (settle path capacity other) := by
  have total := totalLanes_perm reordered.lanes
  simp only [SlotLanes.settle, total]
  split
  · exact ⟨.refl _, reordered.notices.append_right _, reordered.calls⟩
  · split
    · exact ⟨reordered.lanes.append_right _, reordered.notices, reordered.calls⟩
    · exact reordered

theorem Visit.reordered_concat {children others : List String} (perm : children.Perm others)
    {visit other : String → Visit} (each : ∀ child ∈ children, (visit child).Reordered (other child)) :
    (Visit.concat (children.map visit)).Reordered (Visit.concat (others.map other)) := by
  simp only [Visit.concat, List.flatMap_map]
  exact ⟨perm.flatMap fun child member => (each child member).lanes,
    perm.flatMap fun child member => (each child member).notices,
    perm.flatMap fun child member => (each child member).calls⟩

/-- The same answers, but for the order of the children. -/
structure Accessors.Reordered (accessors other : Accessors) : Prop where
  bus : ∀ path, accessors.bus path = other.bus path
  maxLanes : ∀ path, accessors.maxLanes path = other.maxLanes path
  lanes : ∀ path, accessors.lanes path = other.lanes path
  children : ∀ path, (accessors.children path).Perm (other.children path)

theorem Accessors.Reordered.symm {accessors other : Accessors}
    (reordered : accessors.Reordered other) : other.Reordered accessors where
  bus path := (reordered.bus path).symm
  maxLanes path := (reordered.maxLanes path).symm
  lanes path := (reordered.lanes path).symm
  children path := (reordered.children path).symm

section Clients
variable {client other : Client} (reordered : client.toAccessors.Reordered other.toAccessors)
include reordered

theorem walk_reordered (active : List String) (path : String) :
    (walk client active path).Reordered (walk other active path) := by
  induction active, path using walk_induction client with
  | device active path most device =>
    have device' := (reordered.maxLanes path).symm.trans device
    rw [walk_device device, walk_device device']
    exact .refl _
  | neither active path noDevice noSlot =>
    have noDevice' := (reordered.maxLanes path).symm.trans noDevice
    have noSlot' := (reordered.lanes path).symm.trans noSlot
    rw [walk_neither noDevice noSlot, walk_neither noDevice' noSlot']
    exact .refl _
  | seen active path capacity noDevice slot seen =>
    have noDevice' := (reordered.maxLanes path).symm.trans noDevice
    have slot' := (reordered.lanes path).symm.trans slot
    rw [walk_repeat noDevice slot seen, walk_repeat noDevice' slot' seen]
    exact .refl _
  | slot active path capacity noDevice slot fresh ih =>
    have noDevice' := (reordered.maxLanes path).symm.trans noDevice
    have slot' := (reordered.lanes path).symm.trans slot
    have below : (below client active path).Reordered (below other active path) :=
      Visit.reordered_concat (reordered.children path) ih
    rw [walk_slot noDevice slot fresh, walk_slot noDevice' slot' fresh]
    apply Visit.Reordered.settle
    exact ⟨below.lanes, below.notices, below.calls.append_left _⟩

/-- The longest list on a bus has its equal in length in the other client. -/
theorem length_select_le (mainBoard : String) (bus : UInt8) :
    (select client mainBoard bus).lanes.length ≤ (select other mainBoard bus).lanes.length := by
  by_cases present : (select client mainBoard bus).lanes = []
  · rw [present]
    exact Nat.zero_le _
  · obtain ⟨child, member, sameBus, found⟩ := exists_richest_child present
    have considered := considered_foldl other mainBoard bus (other.children mainBoard)
    have candidate : child ∈ onBus other.toAccessors bus (other.children mainBoard) := by
      refine mem_onBus.mpr ⟨(reordered.children mainBoard).mem_iff.mp member, ?_⟩
      exact (reordered.bus child).symm.trans sameBus
    have atMost := considered.richest.length_le
      (List.mem_map_of_mem candidate (f := fun child => (walk other [mainBoard] child).lanes))
    have same := (walk_reordered reordered [mainBoard] child).lanes.length_eq
    rw [← found, same]
    exact atMost

end Clients

namespace Inventory

/-- Two objects that differ at most in the order of their children. -/
structure Object.Reordered (object other : Object) : Prop where
  bus : object.bus = other.bus
  maxLanes : object.maxLanes = other.maxLanes
  lanes : object.lanes = other.lanes
  children : object.children.Perm other.children

/-- The same paths, and at each of them objects that differ at most in the order of their
children. -/
def Reordered (inventory other : Inventory) : Prop :=
  ∀ path, Option.Rel Object.Reordered (inventory.get? path) (other.get? path)

theorem Object.Reordered.refl (object : Object) : object.Reordered object :=
  ⟨rfl, rfl, rfl, .refl _⟩

section Objects
variable {object? other? : Option Object} (alike : Option.Rel Object.Reordered object? other?)
include alike

theorem bind_eq_of_reordered {read : Object → Option α}
    (same : ∀ {object other : Object}, object.Reordered other → read object = read other) :
    object?.bind read = other?.bind read := by
  cases alike with
  | some reordered => exact same reordered
  | none => rfl

theorem isDeviceOrSlot_eq_of_reordered :
    object?.any Object.isDeviceOrSlot = other?.any Object.isDeviceOrSlot := by
  cases alike with
  | some reordered => simp [Object.isDeviceOrSlot, reordered.maxLanes, reordered.lanes]
  | none => rfl

theorem children_perm_of_reordered :
    (object?.elim [] Object.children).Perm (other?.elim [] Object.children) := by
  cases alike with
  | some reordered => exact reordered.children
  | none => exact .refl _

end Objects

theorem listedChildren_eq_elim (inventory : Inventory) (path : String) :
    inventory.listedChildren path = (inventory.get? path).elim [] Object.children := by
  unfold listedChildren
  split
  next absent => rw [absent]; rfl
  next object found => rw [found]; rfl

/-- Which children are left out does not depend on their order, so the clients of two such
inventories give the same answers but for it. -/
theorem Reordered.client {inventory other : Inventory} (reordered : inventory.Reordered other) :
    inventory.client.toAccessors.Reordered other.client.toAccessors where
  bus path := bind_eq_of_reordered (reordered path) fun alike => by simp only [alike.bus]
  maxLanes path := bind_eq_of_reordered (reordered path) Object.Reordered.maxLanes
  lanes path := bind_eq_of_reordered (reordered path) Object.Reordered.lanes
  children path := by
    have kept (child : String) := isDeviceOrSlot_eq_of_reordered (reordered child)
    have listed := children_perm_of_reordered (reordered path)
    rw [← listedChildren_eq_elim, ← listedChildren_eq_elim] at listed
    simp only [Inventory.client, childrenOf, ← kept]
    exact listed.filter _

end Inventory

/-- Where two inventories differ only in the order of children, a walk brings the same lanes in
another order, and nothing from the one where it brings nothing from the other; it gives the
same warnings with the same totals; and the answers for a bus are equally long. -/
theorem child_order_immaterial {inventory other : Inventory} (reordered : inventory.Reordered other) :
    (∀ active path,
      (walk inventory.client active path).lanes.Perm (walk other.client active path).lanes ∧
      ((walk inventory.client active path).lanes = [] ↔
        (walk other.client active path).lanes = []) ∧
      (walk inventory.client active path).notices.Perm (walk other.client active path).notices) ∧
    ∀ mainBoard bus files,
      ((Handler.graph inventory.client mainBoard).lanes? files bus).value.map List.length =
        ((Handler.graph other.client mainBoard).lanes? files bus).value.map List.length := by
  have alike := reordered.client
  refine ⟨fun active path => ?_, fun mainBoard bus files => ?_⟩
  · have walked := walk_reordered alike active path
    refine ⟨walked.lanes, ?_, walked.notices⟩
    rw [← List.length_eq_zero_iff, ← List.length_eq_zero_iff, walked.lanes.length_eq]
  · have same : (select inventory.client mainBoard bus).lanes.length =
        (select other.client mainBoard bus).lanes.length :=
      Nat.le_antisymm (length_select_le alike mainBoard bus) (length_select_le alike.symm mainBoard bus)
    simpa [Handler.lanes?, Visit.bytes] using same

/-- A riser that leads back to its slot and needs more than it has, and a card beside it. -/
def riserAndCard (children : List String) : Inventory :=
  .ofList [("/board", { children := ["/slot"] }),
    ("/slot", { bus := some 1, lanes := some 16, children := children }),
    ("/riser", { lanes := some 4, children := ["/slot", "/ssd"] }),
    ("/ssd", { maxLanes := some 8 }), ("/card", { maxLanes := some 4 })]

theorem riserAndCard_reordered {children others : List String} (perm : children.Perm others) :
    (riserAndCard children).Reordered (riserAndCard others) := by
  intro path
  simp only [riserAndCard, Dictionary.ofList, List.foldl_cons, List.foldl_nil,
    Dictionary.get?_insert, Dictionary.get?_empty]
  repeat' split
  all_goals first
    | exact .none
    | exact .some (.refl _)
    | exact .some ⟨rfl, rfl, rfl, perm⟩

theorem riserAndCard_swapped :
    let first := riserAndCard ["/riser", "/card"]
    let second := riserAndCard ["/card", "/riser"]
    first.Reordered second ∧
      (walk first.client [] "/slot").lanes.Perm (walk second.client [] "/slot").lanes ∧
      (walk first.client [] "/slot").notices.Perm (walk second.client [] "/slot").notices ∧
      ∀ files, ((Handler.graph first.client "/board").lanes? files 1).value.map List.length =
        ((Handler.graph second.client "/board").lanes? files 1).value.map List.length := by
  have reordered := riserAndCard_reordered (.swap "/card" "/riser" [])
  have immaterial := child_order_immaterial reordered
  have walked := immaterial.1 [] "/slot"
  exact ⟨reordered, walked.1, walked.2.2, immaterial.2 "/board" 1⟩

end SlotLanes
