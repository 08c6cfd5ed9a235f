import SlotLanes.Proofs.OverCapacity
import SlotLanes.Proofs.Printed

/-! Slots that bring nothing say why. A slot with any lanes at all is refused only if its
children need more than it has, and then the walk says so of that slot exactly once, whatever
its children say of other slots or of a cycle through the slot itself. A slot that is on the
branch already says that it comes round again, and nothing else. -/
namespace SlotLanes

/-- The notices that this path has too little. -/
def refusals (path : String) (notices : List Notice) : List Notice :=
  notices.filter fun
    | .overCapacity other _ _ => other = path
    | _ => false

theorem mem_refusals {path : String} {notices : List Notice} {notice : Notice} :
    notice ∈ refusals path notices ↔
      notice ∈ notices ∧ ∃ total limit, notice = .overCapacity path total limit := by
  unfold refusals
  rw [List.mem_filter]
  apply and_congr_right
  intro _
  cases notice <;> simp

section Records

theorem overCapacity_letters (path : String) (total capacity : UInt64) :
    (Notice.overCapacity path total capacity).record.text.toList =
      ((path.toList ++ ": devices need".toList) ++ ' ' :: Nat.toDigits 10 total.toNat ++
        " lanes but slot only has".toList) ++ ' ' :: Nat.toDigits 10 capacity.toNat := by
  simp [Notice.record]

theorem cycle_letters (path : String) :
    (Notice.cycle path).record.text.toList =
      ("inventory cycle through ".toList ++ path.toList ++ "; ignoring".toList) ++
        ' ' :: "repeat".toList := by
  simp [Notice.record]

/-- A record that a slot has too little is never mistaken for another one, even though a path
may be any text: read from its end it tells the capacity, the total and the path. -/
theorem record_eq_overCapacity_iff {notice : Notice} {path : String} {total capacity : UInt64} :
    notice.record = (Notice.overCapacity path total capacity).record ↔
      notice = .overCapacity path total capacity := by
  constructor
  · intro same
    have letters := congrArg (fun entry => entry.text.toList) same
    simp only [overCapacity_letters] at letters
    cases notice with
    | gives bus child lanes =>
      have level := congrArg LogRecord.level same
      cases level
    | cycle other =>
      rw [cycle_letters] at letters
      have last := (eq_and_eq_of_last_mark (by decide) (not_mem_toDigits rfl _) letters).2
      have digit : 'r' ∉ Nat.toDigits 10 capacity.toNat := not_mem_toDigits rfl _
      rw [← last] at digit
      simp at digit
    | overCapacity other otherTotal otherCapacity =>
      rw [overCapacity_letters] at letters
      obtain ⟨front, capacities⟩ :=
        eq_and_eq_of_last_mark (not_mem_toDigits rfl _) (not_mem_toDigits rfl _) letters
      obtain ⟨paths, totals⟩ := eq_and_eq_of_last_mark (not_mem_toDigits rfl _)
        (not_mem_toDigits rfl _) (List.append_cancel_right front)
      have samePath : other = path := String.toList_inj.mp (List.append_cancel_right paths)
      have sameTotal : otherTotal = total := UInt64.toNat_inj.mp (toDigits_injective totals)
      have sameCapacity : otherCapacity = capacity :=
        UInt64.toNat_inj.mp (toDigits_injective capacities)
      rw [samePath, sameTotal, sameCapacity]
  · intro same
    rw [same]

end Records

theorem settle_lanes_eq_nil_iff {path : String} {capacity : UInt64} {below : Visit}
    (positive : 0 < capacity) :
    (settle path capacity below).lanes = [] ↔ capacity < totalLanes below.lanes := by
  simp only [settle]
  split
  next exceeds => simp [exceeds]
  next within =>
    split
    next less => simp [within]
    next full =>
      have present : below.lanes ≠ [] := by
        intro nothing
        rw [nothing] at full
        exact full positive
      simp [within, present]

section Slot
variable {client : Client} {active : List String} {path : String} {capacity : UInt64}
variable (noDevice : client.maxLanes path = none) (slot : client.lanes path = some capacity)
variable (fresh : path ∉ active)
include noDevice slot fresh

theorem refusals_walk : refusals path (walk client active path).notices =
    if capacity < totalLanes (below client active path).lanes then
      [.overCapacity path (totalLanes (below client active path).lanes) capacity] else [] := by
  have silent : refusals path (below client active path).notices = [] := by
    apply List.eq_nil_iff_forall_not_mem.mpr
    intro notice member
    obtain ⟨inside, total, limit, same⟩ := mem_refusals.mp member
    obtain ⟨child, _, reported⟩ := mem_notices_below.mp (same ▸ inside)
    exact fresh_of_overCapacity reported List.mem_cons_self
  rw [walk_slot noDevice slot fresh, settle_notices]
  unfold refusals at silent ⊢
  rw [List.filter_append, silent, List.nil_append]
  split <;> simp

theorem walk_lanes_eq_nil_iff (positive : 0 < capacity) :
    (walk client active path).lanes = [] ↔
      capacity < totalLanes (below client active path).lanes := by
  rw [walk_slot noDevice slot fresh]
  exact settle_lanes_eq_nil_iff positive

end Slot

/-- A slot that was not on the branch and has any lanes brings nothing if and only if the walk
says that this slot has too little. It says so at most once, with the slot's capacity and with
the true total of what its children bring, as far as that can be counted, which is more than
the capacity; and the records tell this path from every other. On the branch already, the slot
is reported to come round again, that is all, and no children are asked for. -/
theorem refused_slot_reported (client : Client) (active : List String) (path : String)
    (capacity : UInt64) (noDevice : client.maxLanes path = none)
    (slot : client.lanes path = some capacity) :
    let visit := walk client active path
    let brought := (client.children path).flatMap fun child =>
      (walk client (path :: active) child).lanes
    (path ∉ active →
      (0 < capacity →
        (visit.lanes = [] ↔ ∃ total limit, .overCapacity path total limit ∈ visit.notices)) ∧
      (refusals path visit.notices).length ≤ 1 ∧
      ∀ total limit, .overCapacity path total limit ∈ visit.notices → limit = capacity ∧
        total.toNat = min (exactTotal brought) greatestCount.toNat ∧ capacity < total) ∧
    (∀ total limit, (Notice.overCapacity path total limit).record ∈ visit.notices.map Notice.record ↔
      .overCapacity path total limit ∈ visit.notices) ∧
    (path ∈ active → visit.lanes = [] ∧ visit.notices = [.cycle path] ∧
      ∀ other, .children other ∉ visit.calls) := by
  intro visit brought
  have same : (below client active path).lanes = brought := by
    simp [below, Visit.concat, List.flatMap_map, brought]
  refine ⟨fun fresh => ⟨fun positive => ?_, ?_, fun total limit reported => ?_⟩, ?_, fun seen => ?_⟩
  · rw [walk_lanes_eq_nil_iff noDevice slot fresh positive]
    simp only [visit, overCapacity_own_iff noDevice slot fresh]
    constructor
    · intro exceeds
      exact ⟨_, _, exceeds, rfl, rfl⟩
    · intro reported
      obtain ⟨_, _, exceeds, _⟩ := reported
      exact exceeds
  · rw [refusals_walk noDevice slot fresh]
    split <;> simp
  · obtain ⟨exceeds, sameTotal, sameLimit⟩ :=
      (overCapacity_own_iff noDevice slot fresh).mp reported
    rw [sameTotal, ← same, totalLanes_toNat]
    exact ⟨sameLimit, rfl, exceeds⟩
  · intro total limit
    simp only [List.mem_map, record_eq_overCapacity_iff, exists_eq_right]
  · simp [visit, walk_repeat noDevice slot seen]

/-- A slot whose riser leads back to it, and whose card needs more than the slot has. -/
def crampedSlot : Client where
  bus _ := none
  maxLanes path := if path = "card" then some 8 else none
  lanes path := if path = "slot" ∨ path = "riser" then some 4 else none
  children path :=
    if path = "slot" then ["riser", "card"] else if path = "riser" then ["slot"] else []
  slots := ["slot", "riser"]
  mem_slots path _ slot := by
    split at slot <;> simp_all

theorem crampedSlot_below :
    below crampedSlot [] "slot" = ⟨[4, 8], [.cycle "slot"], [.maxLanes "riser", .lanes "riser",
      .children "riser", .maxLanes "slot", .lanes "slot", .maxLanes "card"]⟩ := by
  have slot : crampedSlot.lanes "slot" = some 4 := rfl
  have riser : crampedSlot.lanes "riser" = some 4 := rfl
  have card : crampedSlot.maxLanes "card" = some 8 := rfl
  have noDevice : crampedSlot.maxLanes "riser" = none := rfl
  have again : walk crampedSlot ["riser", "slot"] "slot" =
      ⟨[], [.cycle "slot"], [.maxLanes "slot", .lanes "slot"]⟩ := walk_repeat rfl slot (by decide)
  have children : crampedSlot.children "riser" = ["slot"] := rfl
  have first : walk crampedSlot ["slot"] "riser" = ⟨[4], [.cycle "slot"], [.maxLanes "riser",
      .lanes "riser", .children "riser", .maxLanes "slot", .lanes "slot"]⟩ := by
    rw [walk_slot noDevice riser (by decide), below, children, List.map_singleton, again]
    decide
  have all : crampedSlot.children "slot" = ["riser", "card"] := rfl
  simp [below, all, first, walk_device card, Visit.concat]

theorem crampedSlot_reported :
    crampedSlot.maxLanes "slot" = none ∧ crampedSlot.lanes "slot" = some 4 ∧
      "slot" ∉ ([] : List String) ∧ (0 : UInt64) < 4 ∧ "slot" ∈ ["slot"] ∧
      (walk crampedSlot [] "slot").lanes = [] ∧
      (refusals "slot" (walk crampedSlot [] "slot").notices).length ≤ 1 ∧
      (walk crampedSlot ["slot"] "slot").notices = [.cycle "slot"] := by
  have lanes : crampedSlot.lanes "slot" = some 4 := rfl
  obtain ⟨first, _, _⟩ := refused_slot_reported crampedSlot [] "slot" 4 rfl lanes
  obtain ⟨silent, once, _⟩ := first List.not_mem_nil
  obtain ⟨_, _, again⟩ := refused_slot_reported crampedSlot ["slot"] "slot" 4 rfl lanes
  have exceeds : 4 < totalLanes (below crampedSlot [] "slot").lanes := by
    rw [crampedSlot_below]
    decide
  have reported : .overCapacity "slot" 12 4 ∈ (walk crampedSlot [] "slot").notices := by
    rw [overCapacity_own_iff rfl lanes List.not_mem_nil, crampedSlot_below]
    decide
  refine ⟨rfl, lanes, List.not_mem_nil, by decide, by simp, ?_, once, (again (by simp)).2.1⟩
  exact (silent (by decide)).mpr ⟨12, 4, reported⟩

end SlotLanes
