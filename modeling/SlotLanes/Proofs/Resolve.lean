import SlotLanes.Proofs.Capacity
import SlotLanes.Proofs.Descent
import SlotLanes.Proofs.SlotGraph

/-! The lanes below a path as they are specified: rules over unbounded numbers that
remember nothing on the way. Main statement: where no cycle can be reached, the rules give
one list, and the walk with its working set and its saturated sums gives exactly that. -/
namespace SlotLanes

def settled (capacity : Nat) (lanes : List Nat) : List Nat :=
  if capacity < lanes.sum then []
  else if lanes.sum < capacity then lanes ++ [capacity - lanes.sum]
  else lanes

mutual
/-- The lanes below a path: a device's own, nothing for what is neither device nor slot,
and for a slot what its children have, held against its capacity. -/
inductive Resolves (accessors : Accessors) : String → List Nat → Prop
  | device {path : String} {most : UInt64} (device : accessors.maxLanes path = some most) :
      Resolves accessors path [most.toNat]
  | neither {path : String} (noDevice : accessors.maxLanes path = none)
      (noSlot : accessors.lanes path = none) : Resolves accessors path []
  | slot {path : String} {capacity : UInt64} {below : List Nat}
      (noDevice : accessors.maxLanes path = none) (slot : accessors.lanes path = some capacity)
      (children : ResolvesAll accessors (accessors.children path) below) :
      Resolves accessors path (settled capacity.toNat below)

inductive ResolvesAll (accessors : Accessors) : List String → List Nat → Prop
  | nil : ResolvesAll accessors [] []
  | cons {child : String} {children : List String} {first rest : List Nat}
      (head : Resolves accessors child first) (tail : ResolvesAll accessors children rest) :
      ResolvesAll accessors (child :: children) (first ++ rest)

end

def openedSlots (calls : List Call) : List String :=
  calls.filterMap fun
    | .children path => some path
    | _ => none

theorem settle_lanes {path : String} {capacity : UInt64} {below : Visit}
    (roomy : capacity < greatestCount) :
    (settle path capacity below).lanes.map UInt64.toNat =
      settled capacity.toNat (below.lanes.map UInt64.toNat) := by
  rw [settled, ← exactTotal]
  split
  next exceeds => rw [settle_exceeding roomy exceeds, List.map_nil]
  next within =>
    rw [settle_within (by omega)]
    split
    · rfl
    · exact List.append_nil _

/-- A slot is opened once at the start and once for every time that an opened slot lists
it, so one that several parents share is walked in full below each of them. -/
def OpenedPerParent (accessors : Accessors) (path : String) (visit : Visit) : Prop :=
  ∀ slot, accessors.IsSlot slot → (openedSlots visit.calls).count slot =
    [path].count slot + ((openedSlots visit.calls).flatMap accessors.children).count slot

structure Refines (accessors : Accessors) (active : List String) (path : String) (visit : Visit) :
    Prop where
  answers : Descent.Answers accessors active path visit
  resolves : ∀ lanes, Resolves accessors path lanes ↔ lanes = visit.lanes.map UInt64.toNat
  noCycle : ∀ slot, .cycle slot ∉ visit.notices
  perParent : OpenedPerParent accessors path visit

variable {accessors : Accessors} {active : List String} {path : String}

private theorem resolves_device_iff {most : UInt64} (device : accessors.maxLanes path = some most)
    (lanes : List Nat) : Resolves accessors path lanes ↔ lanes = [most.toNat] := by
  constructor
  · intro resolves
    cases resolves with
    | device same => rw [Option.some.inj (device.symm.trans same)]
    | neither noDevice => simp [device] at noDevice
    | slot noDevice => simp [device] at noDevice
  · rintro rfl
    exact .device device

private theorem resolves_neither_iff (noDevice : accessors.maxLanes path = none)
    (noSlot : accessors.lanes path = none) (lanes : List Nat) :
    Resolves accessors path lanes ↔ lanes = [] := by
  constructor
  · intro resolves
    cases resolves with
    | device device => simp [noDevice] at device
    | neither => rfl
    | slot _ slot => simp [noSlot] at slot
  · rintro rfl
    exact .neither noDevice noSlot

private theorem resolves_slot_iff {capacity : UInt64} (noDevice : accessors.maxLanes path = none)
    (slot : accessors.lanes path = some capacity) (lanes : List Nat) :
    Resolves accessors path lanes ↔ ∃ below, ResolvesAll accessors (accessors.children path) below ∧
      lanes = settled capacity.toNat below := by
  constructor
  · intro resolves
    cases resolves with
    | device device => simp [noDevice] at device
    | neither _ noSlot => simp [slot] at noSlot
    | @slot _ _ below _ same children =>
      rw [Option.some.inj (slot.symm.trans same)]
      exact ⟨below, children, rfl⟩
  · rintro ⟨below, children, rfl⟩
    exact .slot noDevice slot children

private theorem refines_leaf (noSlot : ¬ accessors.IsSlot path) :
    ∃ visit, Refines accessors active path visit := by
  have other (slot : String) (isSlot : accessors.IsSlot slot) : path ≠ slot :=
    fun same => noSlot (same ▸ isSlot)
  cases noDevice : accessors.maxLanes path with
  | some most =>
    refine ⟨_, Descent.answers_device noDevice, resolves_device_iff noDevice, by simp, ?_⟩
    intro slot isSlot
    simp [openedSlots, other slot isSlot]
  | none =>
    cases lanes : accessors.lanes path with
    | some capacity => exact absurd (Accessors.isSlot_of noDevice lanes) noSlot
    | none =>
      refine ⟨_, Descent.answers_neither noDevice lanes, resolves_neither_iff noDevice lanes,
        by simp, ?_⟩
      intro slot isSlot
      simp [openedSlots, other slot isSlot]

private theorem exists_visits {children : List String} {R : String → Visit → Prop}
    (each : ∀ child ∈ children, ∃ visit, R child visit) :
    ∃ visits, List.Forall₂ R children visits := by
  induction children with
  | nil => exact ⟨[], .nil⟩
  | cons child children ih =>
    obtain ⟨visit, first⟩ := each child (by simp)
    obtain ⟨visits, rest⟩ := ih fun other member => each other (by simp [member])
    exact ⟨visit :: visits, .cons first rest⟩

private theorem resolvesAll_iff {children : List String} {visits : List Visit}
    (refined : List.Forall₂ (Refines accessors active) children visits) (below : List Nat) :
    ResolvesAll accessors children below ↔
      below = (Visit.concat visits).lanes.map UInt64.toNat := by
  induction refined generalizing below with
  | nil =>
    constructor
    · intro resolves
      cases resolves
      rfl
    · rintro rfl
      exact .nil
  | @cons child visit children visits first rest ih =>
    have joined : (Visit.concat (visit :: visits)).lanes.map UInt64.toNat =
        visit.lanes.map UInt64.toNat ++ (Visit.concat visits).lanes.map UInt64.toNat := by
      simp [Visit.concat]
    rw [joined]
    constructor
    · intro resolves
      cases resolves with
      | cons head tail => rw [(first.resolves _).mp head, (ih _).mp tail]
    · rintro rfl
      exact .cons ((first.resolves _).mpr rfl) ((ih _).mpr rfl)

private theorem noCycle_concat {children : List String} {visits : List Visit}
    (refined : List.Forall₂ (Refines accessors active) children visits) (slot : String) :
    .cycle slot ∉ (Visit.concat visits).notices := by
  induction refined with
  | nil => simp [Visit.concat]
  | cons first rest ih =>
    simp only [Visit.concat, List.flatMap_cons, List.mem_append, not_or] at ih ⊢
    exact ⟨first.noCycle slot, ih⟩

private theorem opened_concat {children : List String} {visits : List Visit}
    (refined : List.Forall₂ (Refines accessors active) children visits) {slot : String}
    (isSlot : accessors.IsSlot slot) :
    (openedSlots (Visit.concat visits).calls).count slot = children.count slot +
      ((openedSlots (Visit.concat visits).calls).flatMap accessors.children).count slot := by
  induction refined with
  | nil => simp [Visit.concat, openedSlots]
  | cons first rest ih =>
    have opened := first.perParent slot isSlot
    simp only [Visit.concat, openedSlots, List.flatMap_cons, List.filterMap_append,
      List.flatMap_append, List.count_append, List.count_cons, List.count_nil] at ih opened ⊢
    omega

private theorem refines_slot {capacity : UInt64} (noDevice : accessors.maxLanes path = none)
    (slot : accessors.lanes path = some capacity) (roomy : capacity < greatestCount)
    (fresh : path ∉ active)
    (below : ∀ child ∈ accessors.children path,
      ∃ visit, Refines accessors (path :: active) child visit) :
    ∃ visit, Refines accessors active path visit := by
  obtain ⟨visits, refined⟩ := exists_visits below
  refine ⟨_, Descent.answers_slot noDevice slot fresh (refined.imp fun _ _ each => each.answers),
    ?_, ?_, ?_⟩
  · intro lanes
    rw [settle_lanes roomy, resolves_slot_iff noDevice slot]
    simp only [resolvesAll_iff refined, exists_eq_left]
  · intro other cycle
    rw [settle_notices, List.mem_append] at cycle
    rcases cycle with inside | own
    · exact noCycle_concat refined other inside
    · split at own <;> simp at own
  · intro other isSlot
    have opened := opened_concat refined isSlot
    rw [settle_calls]
    simp only [openedSlots, List.cons_append, List.nil_append, List.filterMap_cons,
      List.flatMap_cons, List.count_append, List.count_cons, List.count_nil] at opened ⊢
    omega

private theorem refines_below
    (accessible : Acc (fun child parent => accessors.SlotEdge parent child) path)
    (acyclic : ∀ slot, accessors.Leads path slot → ¬ accessors.OnCycle slot)
    (roomy : ∀ slot capacity, accessors.Leads path slot → accessors.maxLanes slot = none →
      accessors.lanes slot = some capacity → capacity < greatestCount)
    (clear : ∀ slot ∈ active, accessors.IsSlot path → ¬ accessors.Leads path slot) :
    ∃ visit, Refines accessors active path visit := by
  -- The branch holds only slots further up, which `clear` keeps out of reach from here.
  induction accessible generalizing active with
  | intro path _ ih =>
    by_cases isSlot : accessors.IsSlot path
    · obtain ⟨capacity, slot⟩ := Option.isSome_iff_exists.mp isSlot.2
      have fresh : path ∉ active := fun seen => clear path seen isSlot .refl
      apply refines_slot isSlot.1 slot (roomy path capacity .refl isSlot.1 slot) fresh
      intro child member
      by_cases childSlot : accessors.IsSlot child
      · have edge : accessors.SlotEdge path child := ⟨isSlot, member, childSlot⟩
        refine ih child edge (fun slot leads => acyclic slot (.head edge leads))
          (fun slot capacity leads => roomy slot capacity (.head edge leads)) ?_
        intro other seen _ leads
        rcases List.mem_cons.mp seen with rfl | seen
        · exact acyclic other .refl (Relation.TransGen.head' edge leads)
        · exact clear other seen isSlot (.head edge leads)
      · exact refines_leaf childSlot
    · exact refines_leaf isSlot

/-- From a path that leads to finitely many slots and to no cycle, the walk comes to an
end with exactly the lanes that are specified, saturates no sum and reports no cycle. Its
bytes are these lanes, each at most a byte. A slot with several parents is walked in full
below each of them. -/
theorem walk_gives_resolved_lanes (accessors : Accessors) (path : String)
    (finite : {slot | accessors.IsSlot slot ∧ accessors.Leads path slot}.Finite)
    (acyclic : ∀ slot, accessors.Leads path slot → ¬ accessors.OnCycle slot)
    (roomy : ∀ slot capacity, accessors.Leads path slot → accessors.maxLanes slot = none →
      accessors.lanes slot = some capacity → capacity < greatestCount) :
    ∃ visit lanes, Descent.Ends accessors ⟨[], [], .enter path⟩ ⟨[], [], .leave visit⟩ ∧
      (∀ client : Client, client.toAccessors = accessors → parseDevices client path = visit) ∧
      (∀ other, Resolves accessors path other ↔ other = lanes) ∧
      visit.lanes.map UInt64.toNat = lanes ∧
      visit.bytes.map UInt8.toNat = lanes.map (min · 255) ∧
      (∀ slot, .cycle slot ∉ visit.notices) ∧
      OpenedPerParent accessors path visit := by
  have below : {slot | Relation.TransGen accessors.SlotEdge path slot}.Finite := by
    apply finite.subset
    intro slot leads
    obtain ⟨_, _, edge⟩ := Relation.TransGen.tail'_iff.mp leads
    exact ⟨edge.2.2, leads.to_reflTransGen⟩
  have nothing : ∀ slot ∈ ([] : List String),
      accessors.IsSlot path → ¬ accessors.Leads path slot := by
    simp
  obtain ⟨visit, refined⟩ :=
    refines_below (Accessors.acc_of_acyclic below acyclic) acyclic roomy nothing
  refine ⟨visit, _, refined.answers.ends, ?_, refined.resolves, rfl, ?_, refined.noCycle,
    refined.perParent⟩
  · rintro client rfl
    have same := (Descent.walk_answers client [] path).ends.unique refined.answers.ends
    simpa [parseDevices] using same
  · simp [Visit.bytes, Function.comp_def, narrow_toNat]

def sharedCarrier : Accessors where
  bus _ := none
  maxLanes path := if path = "nic" then some 2 else none
  lanes path :=
    if path = "slot" then some 16
    else if path = "left" ∨ path = "right" then some 4
    else if path = "carrier" then some 3
    else none
  children path :=
    if path = "slot" then ["left", "right"]
    else if path = "left" ∨ path = "right" then ["carrier"]
    else if path = "carrier" then ["nic"]
    else []

private theorem sharedCarrier_slots {path : String} (slot : sharedCarrier.IsSlot path) :
    path ∈ ["slot", "left", "right", "carrier"] := by
  have some_lanes := slot.2
  simp only [sharedCarrier] at some_lanes
  grind

private theorem sharedCarrier_descends (parent child : String)
    (edge : sharedCarrier.SlotEdge parent child) :
    ["carrier", "left", "right", "slot"].idxOf child <
      ["carrier", "left", "right", "slot"].idxOf parent := by
  obtain ⟨isSlot, member, childSlot⟩ := edge
  have parents := sharedCarrier_slots isSlot
  have children := sharedCarrier_slots childSlot
  simp only [sharedCarrier] at member
  fin_cases parents <;> fin_cases children <;> simp_all

theorem sharedCarrier_resolved :
    {slot | sharedCarrier.IsSlot slot ∧ sharedCarrier.Leads "slot" slot}.Finite ∧
      (∀ slot, sharedCarrier.Leads "slot" slot → ¬ sharedCarrier.OnCycle slot) ∧
      (∀ slot capacity, sharedCarrier.Leads "slot" slot → sharedCarrier.maxLanes slot = none →
        sharedCarrier.lanes slot = some capacity → capacity < greatestCount) ∧
      ∃ visit, Descent.Ends sharedCarrier ⟨[], [], .enter "slot"⟩ ⟨[], [], .leave visit⟩ ∧
        visit.lanes.map UInt64.toNat = [2, 1, 1, 2, 1, 1, 8] := by
  have finite : {slot | sharedCarrier.IsSlot slot ∧ sharedCarrier.Leads "slot" slot}.Finite :=
    ["slot", "left", "right", "carrier"].finite_toSet.subset
      fun _ member => sharedCarrier_slots member.1
  have acyclic (slot : String) (_ : sharedCarrier.Leads "slot" slot) :
      ¬ sharedCarrier.OnCycle slot :=
    Accessors.not_onCycle_of_descends _ sharedCarrier_descends slot
  have roomy (slot : String) (capacity : UInt64) (_ : sharedCarrier.Leads "slot" slot)
      (_ : sharedCarrier.maxLanes slot = none) (lanes : sharedCarrier.lanes slot = some capacity) :
      capacity < greatestCount := by
    simp only [sharedCarrier] at lanes
    split_ifs at lanes <;> cases lanes <;> decide
  obtain ⟨visit, lanes, ends, _, resolved, same, _⟩ :=
    walk_gives_resolved_lanes sharedCarrier "slot" finite acyclic roomy
  refine ⟨finite, acyclic, roomy, visit, ends, ?_⟩
  have device : sharedCarrier.maxLanes "nic" = some 2 := rfl
  have small : sharedCarrier.lanes "carrier" = some 3 := rfl
  have left : sharedCarrier.lanes "left" = some 4 := rfl
  have right : sharedCarrier.lanes "right" = some 4 := rfl
  have large : sharedCarrier.lanes "slot" = some 16 := rfl
  have nic : Resolves sharedCarrier "nic" [2] := (resolves_device_iff device _).mpr rfl
  have carrier : Resolves sharedCarrier "carrier" [2, 1] :=
    (resolves_slot_iff rfl small _).mpr ⟨_, .cons nic .nil, rfl⟩
  have first : Resolves sharedCarrier "left" [2, 1, 1] :=
    (resolves_slot_iff rfl left _).mpr ⟨_, .cons carrier .nil, rfl⟩
  have second : Resolves sharedCarrier "right" [2, 1, 1] :=
    (resolves_slot_iff rfl right _).mpr ⟨_, .cons carrier .nil, rfl⟩
  have slot : Resolves sharedCarrier "slot" [2, 1, 1, 2, 1, 1, 8] :=
    (resolves_slot_iff rfl large _).mpr ⟨_, .cons first (.cons second .nil), rfl⟩
  rw [same]
  exact ((resolved _).mp slot).symm

end SlotLanes
