import Mathlib
import SlotLanes.Proofs.SlotGraph

/-! Whose notices a walk brings along. A slot adds to those of its children nothing but the
word that they need more than it has, and only a slot that was not on the branch does so. -/
namespace SlotLanes

theorem mem_notices_concat {notice : Notice} {visits : List Visit} :
    notice ∈ (Visit.concat visits).notices ↔ ∃ visit ∈ visits, notice ∈ visit.notices := by
  simp [Visit.concat, List.mem_flatMap]

variable {client : Client} {active : List String} {path : String}

theorem mem_notices_below {notice : Notice} :
    notice ∈ (below client active path).notices ↔
      ∃ child ∈ client.children path, notice ∈ (walk client (path :: active) child).notices := by
  simp [below, mem_notices_concat]

theorem mem_notices_slot {notice : Notice} {capacity : UInt64}
    (noDevice : client.maxLanes path = none) (slot : client.lanes path = some capacity)
    (fresh : path ∉ active) :
    notice ∈ (walk client active path).notices ↔
      (∃ child ∈ client.children path, notice ∈ (walk client (path :: active) child).notices) ∨
      (capacity < totalLanes (below client active path).lanes ∧
        notice = .overCapacity path (totalLanes (below client active path).lanes) capacity) := by
  rw [walk_slot noDevice slot fresh, settle_notices, List.mem_append, mem_notices_below]
  apply or_congr_right
  split
  next exceeds => simp [exceeds]
  next within => simp [within]

/-- A slot on the branch is not settled again below itself. -/
theorem fresh_of_overCapacity {other : String} {total limit : UInt64}
    (reported : .overCapacity other total limit ∈ (walk client active path).notices) :
    other ∉ active := by
  induction active, path using walk_induction client with
  | device active path most device => simp [walk_device device] at reported
  | neither active path noDevice noSlot => simp [walk_neither noDevice noSlot] at reported
  | seen active path capacity noDevice slot seen =>
    simp [walk_repeat noDevice slot seen] at reported
  | slot active path capacity noDevice slot fresh ih =>
    rcases (mem_notices_slot noDevice slot fresh).mp reported with ⟨child, member, inside⟩ | ⟨_, own⟩
    · exact fun seen => ih child member inside (List.mem_cons_of_mem path seen)
    · cases own
      exact fresh

end SlotLanes
