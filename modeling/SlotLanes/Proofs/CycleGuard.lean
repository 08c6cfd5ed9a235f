import SlotLanes.Proofs.Notices
import SlotLanes.Proofs.Richest

/-! The cycle guard is sound and complete. A walk reports a cycle if and only if its path
leads to a slot that is on the branch already or on a cycle of slots. With nothing on the
branch at the start, that leaves the cycles; with the main board on it, a candidate that
leads back to the main board closes one. -/
namespace SlotLanes

variable {client : Client} {active : List String} {path slot : String}

/-- A slot that a walk can meet once more: it is on the branch already, or on a cycle. -/
def Accessors.ComesBack (accessors : Accessors) (active : List String) (slot : String) : Prop :=
  accessors.IsSlot slot ∧ (slot ∈ active ∨ accessors.OnCycle slot)

theorem comesBack_of_cycle_notice
    (noticed : .cycle slot ∈ (walk client active path).notices) :
    client.Leads path slot ∧ client.ComesBack active slot := by
  induction active, path using walk_induction client with
  | device active path most device => simp [walk_device device] at noticed
  | neither active path noDevice noSlot => simp [walk_neither noDevice noSlot] at noticed
  | seen active path capacity noDevice lanes seen =>
    have same : slot = path := by simpa [walk_repeat noDevice lanes seen] using noticed
    subst same
    exact ⟨.refl, Accessors.isSlot_of noDevice lanes, .inl seen⟩
  | slot active path capacity noDevice lanes fresh ih =>
    rcases (mem_notices_slot noDevice lanes fresh).mp noticed with ⟨child, member, inside⟩ | ⟨_, own⟩
    · obtain ⟨leads, isSlot, back⟩ := ih child member inside
      have edge : client.SlotEdge path child :=
        ⟨Accessors.isSlot_of noDevice lanes, member, leads.isSlot isSlot⟩
      refine ⟨.head edge leads, isSlot, ?_⟩
      -- The child's branch is longer by `path`; meeting just that closes a cycle through it.
      rcases back with onBranch | onCycle
      · rcases List.mem_cons.mp onBranch with rfl | further
        · exact .inr (Relation.TransGen.head' edge leads)
        · exact .inl further
      · exact .inr onCycle
    · cases own

/-- What can be met once more below a fresh slot can be met below one of its children, where
the slot itself is on the branch. -/
theorem comesBack_below (fresh : path ∉ active) (leads : client.Leads path slot)
    (back : client.ComesBack active slot) :
    ∃ child ∈ client.children path, ∃ other,
      client.Leads child other ∧ client.ComesBack (path :: active) other := by
  rcases Relation.ReflTransGen.cases_head leads with rfl | ⟨child, edge, rest⟩
  · rcases back with ⟨isSlot, seen | onCycle⟩
    · exact absurd seen fresh
    · obtain ⟨child, edge, rest⟩ := Relation.TransGen.head'_iff.mp onCycle
      exact ⟨child, edge.2.1, path, rest, isSlot, .inl List.mem_cons_self⟩
  · exact ⟨child, edge.2.1, slot, rest, back.1, back.2.imp (List.mem_cons_of_mem path) id⟩

theorem exists_cycle_notice (leads : client.Leads path slot)
    (back : client.ComesBack active slot) :
    ∃ other, .cycle other ∈ (walk client active path).notices := by
  induction active, path using walk_induction client generalizing slot with
  | device active path most device =>
    have isSlot := leads.isSlot back.1
    simp [Accessors.IsSlot, device] at isSlot
  | neither active path noDevice noSlot =>
    have isSlot := leads.isSlot back.1
    simp [Accessors.IsSlot, noSlot] at isSlot
  | seen active path capacity noDevice lanes seen =>
    exact ⟨path, by simp [walk_repeat noDevice lanes seen]⟩
  | slot active path capacity noDevice lanes fresh ih =>
    -- What is met below the child need not be `slot`: it may be `path` itself.
    obtain ⟨child, member, other, leadsBack, comesBack⟩ := comesBack_below fresh leads back
    obtain ⟨noticed, inside⟩ := ih child member leadsBack comesBack
    exact ⟨noticed, (mem_notices_slot noDevice lanes fresh).mpr (.inl ⟨child, member, inside⟩)⟩

theorem exists_cycle_notice_iff :
    (∃ other, .cycle other ∈ (walk client active path).notices) ↔
      ∃ slot, client.Leads path slot ∧ client.ComesBack active slot := by
  constructor
  · rintro ⟨slot, noticed⟩
    exact ⟨slot, comesBack_of_cycle_notice noticed⟩
  · rintro ⟨slot, leads, back⟩
    exact exists_cycle_notice leads back

namespace Accessors

variable {accessors : Accessors}

def LeadsToCycle (accessors : Accessors) (path : String) : Prop :=
  ∃ slot, accessors.Leads path slot ∧ accessors.OnCycle slot

theorem OnCycle.isSlot (onCycle : accessors.OnCycle slot) : accessors.IsSlot slot := by
  obtain ⟨_, edge, _⟩ := Relation.TransGen.head'_iff.mp onCycle
  exact edge.1

theorem LeadsToCycle.isSlot (leads : accessors.LeadsToCycle path) : accessors.IsSlot path := by
  obtain ⟨_, leads, onCycle⟩ := leads
  exact leads.isSlot onCycle.isSlot

theorem comesBack_nil_iff : accessors.ComesBack [] slot ↔ accessors.OnCycle slot := by
  constructor
  · rintro ⟨_, seen | onCycle⟩
    · exact absurd seen List.not_mem_nil
    · exact onCycle
  · exact fun onCycle => ⟨onCycle.isSlot, .inr onCycle⟩

/-- The main board is on every candidate's branch. A candidate that leads back to it
closes a cycle, since the candidate is its child. -/
theorem comesBack_mainBoard_iff {mainBoard child : String}
    (member : child ∈ accessors.children mainBoard) (leads : accessors.Leads child slot) :
    accessors.ComesBack [mainBoard] slot ↔ accessors.OnCycle slot := by
  constructor
  · rintro ⟨isSlot, seen | onCycle⟩
    · cases List.mem_singleton.mp seen
      exact Relation.TransGen.head' ⟨isSlot, member, leads.isSlot isSlot⟩ leads
    · exact onCycle
  · exact fun onCycle => ⟨onCycle.isSlot, .inr onCycle⟩

end Accessors

private theorem mem_notices_foldl {notice : Notice} {mainBoard : String} {bus : UInt8}
    (walked : ∀ bus child lanes, notice ≠ .gives bus child lanes) (children : List String)
    (best : Visit) :
    notice ∈ (children.foldl (consider client mainBoard bus) best).notices ↔
      notice ∈ best.notices ∨ ∃ child ∈ onBus client.toAccessors bus children,
        notice ∈ (walk client [mainBoard] child).notices := by
  induction children generalizing best with
  | nil => simp [onBus]
  | cons child children ih =>
    rw [List.foldl_cons, ih, consider]
    split
    next sameBus => simp [onBus, sameBus, mem_notices_orLonger, walked, or_assoc]
    next otherBus => simp [onBus, otherBus, Visit.pass]

/-- Beside its own records, a pass over the main board's children reports what the walks
of the candidates report. -/
theorem mem_notices_select {notice : Notice} {mainBoard : String} {bus : UInt8}
    (walked : ∀ bus child lanes, notice ≠ .gives bus child lanes) :
    notice ∈ (select client mainBoard bus).notices ↔
      ∃ child ∈ onBus client.toAccessors bus (client.children mainBoard),
        notice ∈ (walk client [mainBoard] child).notices := by
  rw [select, mem_notices_foldl walked]
  simp

theorem onCycle_of_candidate_notice {mainBoard child : String} {bus : UInt8}
    (candidate : child ∈ onBus client.toAccessors bus (client.children mainBoard))
    (noticed : .cycle slot ∈ (walk client [mainBoard] child).notices) :
    client.Leads child slot ∧ client.OnCycle slot := by
  obtain ⟨leads, back⟩ := comesBack_of_cycle_notice noticed
  exact ⟨leads, (Accessors.comesBack_mainBoard_iff (mem_onBus.mp candidate).1 leads).mp back⟩

theorem exists_cycle_notice_candidate_iff {mainBoard child : String} {bus : UInt8}
    (candidate : child ∈ onBus client.toAccessors bus (client.children mainBoard)) :
    (∃ slot, .cycle slot ∈ (walk client [mainBoard] child).notices) ↔
      client.LeadsToCycle child := by
  rw [exists_cycle_notice_iff]
  apply exists_congr
  intro slot
  apply and_congr_right
  exact Accessors.comesBack_mainBoard_iff (mem_onBus.mp candidate).1

theorem onCycle_of_parse_notice (noticed : .cycle slot ∈ (parseDevices client path).notices) :
    client.Leads path slot ∧ client.OnCycle slot := by
  obtain ⟨leads, back⟩ := comesBack_of_cycle_notice noticed
  exact ⟨leads, Accessors.comesBack_nil_iff.mp back⟩

theorem onCycle_of_select_notice {mainBoard : String} {bus : UInt8}
    (noticed : .cycle slot ∈ (select client mainBoard bus).notices) :
    ∃ child ∈ client.children mainBoard, client.bus child = some bus ∧
      client.Leads child slot ∧ client.OnCycle slot := by
  obtain ⟨child, candidate, inside⟩ := (mem_notices_select (by simp)).mp noticed
  obtain ⟨member, sameBus⟩ := mem_onBus.mp candidate
  exact ⟨child, member, sameBus, onCycle_of_candidate_notice candidate inside⟩

theorem exists_cycle_notice_parse_iff :
    (∃ slot, .cycle slot ∈ (parseDevices client path).notices) ↔
      client.IsSlot path ∧ client.LeadsToCycle path := by
  rw [parseDevices, exists_cycle_notice_iff]
  simp only [Accessors.comesBack_nil_iff]
  exact ⟨fun leads => ⟨Accessors.LeadsToCycle.isSlot leads, leads⟩, And.right⟩

theorem exists_cycle_notice_select_iff {mainBoard : String} {bus : UInt8} :
    (∃ slot, .cycle slot ∈ (select client mainBoard bus).notices) ↔
      ∃ child ∈ client.children mainBoard, client.bus child = some bus ∧
        client.IsSlot child ∧ client.LeadsToCycle child := by
  constructor
  · rintro ⟨slot, noticed⟩
    obtain ⟨child, member, sameBus, leads, onCycle⟩ := onCycle_of_select_notice noticed
    exact ⟨child, member, sameBus, leads.isSlot onCycle.isSlot, slot, leads, onCycle⟩
  · rintro ⟨child, member, sameBus, _, leads⟩
    have candidate := mem_onBus.mpr ⟨member, sameBus⟩
    obtain ⟨slot, inside⟩ := (exists_cycle_notice_candidate_iff candidate).mpr leads
    exact ⟨slot, (mem_notices_select (by simp)).mpr ⟨child, candidate, inside⟩⟩

/-- A walk for a path's own lanes reports a cycle if and only if the path is a slot that
leads to a cycle of slots, and the answer for a bus does so if and only if some child of
the main board on that bus is such a slot, cycles through the main board included. Each
report names a slot on a cycle; so slots that are only shared cause none. -/
theorem cycle_reported_iff_reachable (client : Client) :
    (∀ path, (∃ slot, .cycle slot ∈ (parseDevices client path).notices) ↔
      client.IsSlot path ∧ client.LeadsToCycle path) ∧
    (∀ mainBoard bus, (∃ slot, .cycle slot ∈ (select client mainBoard bus).notices) ↔
      ∃ child ∈ client.children mainBoard, client.bus child = some bus ∧
        client.IsSlot child ∧ client.LeadsToCycle child) ∧
    (∀ path slot, .cycle slot ∈ (parseDevices client path).notices →
      client.Leads path slot ∧ client.OnCycle slot) ∧
    (∀ mainBoard bus slot, .cycle slot ∈ (select client mainBoard bus).notices →
      ∃ child ∈ client.children mainBoard, client.bus child = some bus ∧
        client.Leads child slot ∧ client.OnCycle slot) ∧
    ((∀ slot, ¬ client.OnCycle slot) →
      (∀ path slot, .cycle slot ∉ (parseDevices client path).notices) ∧
      ∀ mainBoard bus slot, .cycle slot ∉ (select client mainBoard bus).notices) := by
  refine ⟨fun _ => exists_cycle_notice_parse_iff, fun _ _ => exists_cycle_notice_select_iff,
    fun _ _ => onCycle_of_parse_notice, fun _ _ _ => onCycle_of_select_notice,
    fun acyclic => ⟨?_, ?_⟩⟩
  · intro path slot noticed
    exact acyclic slot (onCycle_of_parse_notice noticed).2
  · intro mainBoard bus slot noticed
    obtain ⟨_, _, _, _, onCycle⟩ := onCycle_of_select_notice noticed
    exact acyclic slot onCycle

end SlotLanes
