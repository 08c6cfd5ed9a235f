import SlotLanes.Proofs.Candidates
import SlotLanes.Proofs.SlotGraph

/-! Every walk comes to an end. The slots that wait for their children are distinct, and
none of them was in the working set at the start; so a branch cannot be deeper than there
are such slots, whatever the graph. -/
namespace SlotLanes

def Descent.chain (state : Descent) : List String :=
  state.frames.map Frame.path

/-- Every moment of a walk that started with the working set `initial`: the set holds the
slots on the branch beside the initial ones, and no slot is on the branch twice. -/
structure Descent.OnBranch (accessors : Accessors) (initial : List String) (state : Descent) :
    Prop where
  active_eq : state.active = state.chain ++ initial
  distinct : state.chain.Nodup
  fresh : ∀ path ∈ state.chain, path ∉ initial
  slots : ∀ path ∈ state.chain, accessors.IsSlot path

namespace Descent

variable {accessors : Accessors} {initial : List String}

theorem onBranch_start (accessors : Accessors) (initial : List String) (path : String) :
    OnBranch accessors initial ⟨initial, [], .enter path⟩ where
  active_eq := rfl
  distinct := .nil
  fresh _ member := by simp [chain] at member
  slots _ member := by simp [chain] at member

theorem OnBranch.of_same {state next : Descent} (branch : OnBranch accessors initial state)
    (active : next.active = state.active) (chain : next.chain = state.chain) :
    OnBranch accessors initial next where
  active_eq := by rw [active, chain, branch.active_eq]
  distinct := chain ▸ branch.distinct
  fresh := chain ▸ branch.fresh
  slots := chain ▸ branch.slots

theorem OnBranch.enter {active : List String} {frames : List Frame} {path : String}
    (branch : OnBranch accessors initial ⟨active, frames, .enter path⟩) :
    OnBranch accessors initial (enter accessors active frames path) := by
  unfold Descent.enter
  split
  next => exact branch.of_same rfl rfl
  next noDevice =>
    split
    next => exact branch.of_same rfl rfl
    next capacity slot =>
      split
      next => exact branch.of_same rfl rfl
      next unseen =>
        have active_eq : active = frames.map Frame.path ++ initial := branch.active_eq
        rw [active_eq, List.mem_append, not_or] at unseen
        refine ⟨?_, ?_, ?_, ?_⟩
        · simp [chain, active_eq]
        · exact List.nodup_cons.mpr ⟨unseen.1, branch.distinct⟩
        · exact List.forall_mem_cons.mpr ⟨unseen.2, branch.fresh⟩
        · exact List.forall_mem_cons.mpr ⟨Accessors.isSlot_of noDevice slot, branch.slots⟩

theorem OnBranch.leave {active : List String} {frame : Frame} {frames : List Frame}
    {control next : Control} (branch : OnBranch accessors initial ⟨active, frame :: frames, control⟩) :
    OnBranch accessors initial ⟨remove frame.path active, frames, next⟩ := by
  have active_eq : active = frame.path :: (frames.map Frame.path ++ initial) := branch.active_eq
  have distinct := List.nodup_cons.mp branch.distinct
  have fresh := List.forall_mem_cons.mp branch.fresh
  refine ⟨?_, distinct.2, fresh.2, (List.forall_mem_cons.mp branch.slots).2⟩
  rw [active_eq]
  exact remove_cons (by simpa using ⟨by simpa using distinct.1, fresh.1⟩)

theorem OnBranch.step {state next : Descent} (branch : OnBranch accessors initial state)
    (step : Step accessors state next) : OnBranch accessors initial next := by
  obtain ⟨active, frames, control⟩ := state
  cases control with
  | enter path =>
    cases Option.some.inj step
    exact branch.enter
  | resume =>
    rcases frames with _ | ⟨⟨path, capacity, pending, found⟩, frames⟩
    · contradiction
    · cases pending with
      | nil =>
        cases Option.some.inj step
        exact branch.leave
      | cons child pending =>
        cases Option.some.inj step
        exact branch.of_same rfl rfl
  | leave visit =>
    rcases frames with _ | ⟨frame, frames⟩
    · contradiction
    · cases Option.some.inj step
      exact branch.of_same rfl rfl

theorem OnBranch.steps {state next : Descent} (branch : OnBranch accessors initial state)
    (steps : Steps accessors state next) : OnBranch accessors initial next := by
  induction steps with
  | refl => exact branch
  | tail _ step ih => exact ih.step step

theorem OnBranch.length_le {state : Descent} (branch : OnBranch accessors initial state)
    (finite : {path | accessors.IsSlot path}.Finite) :
    state.chain.length ≤ {path | accessors.IsSlot path ∧ path ∉ initial}.ncard := by
  rw [← List.toFinset_card_of_nodup branch.distinct, ← Set.ncard_coe_finset]
  apply Set.ncard_le_ncard
  · intro path member
    have member : path ∈ state.chain := by simpa using member
    exact ⟨branch.slots path member, branch.fresh path member⟩
  · exact finite.subset fun path member => member.1

end Descent

open Descent

/-- A walk from any path and any working set comes to an end, and at every moment before
that the nested slots are distinct and were not in the set at the start. So does a walk
for a path's own lanes, and the whole pass over the main board's children. -/
theorem walk_comes_to_an_end (client : Client) (active : List String) (path : String) :
    Ends client.toAccessors ⟨active, [], .enter path⟩
        ⟨active, [], .leave (walk client active path)⟩ ∧
      Acc (fun next state => Step client.toAccessors state next) ⟨active, [], .enter path⟩ ∧
      (∀ state, Steps client.toAccessors ⟨active, [], .enter path⟩ state →
        state.chain.Nodup ∧
        (∀ slot ∈ state.chain, client.IsSlot slot ∧ slot ∉ active) ∧
        state.chain.length ≤ {slot | client.IsSlot slot ∧ slot ∉ active}.ncard) ∧
      Ends client.toAccessors ⟨[], [], .enter path⟩ ⟨[], [], .leave (parseDevices client path)⟩ ∧
      ∀ mainBoard bus, Passes client.toAccessors bus [mainBoard] ⟨[], [], [.children mainBoard]⟩
        (client.children mainBoard) [mainBoard] (select client mainBoard bus) := by
  have ends := (walk_answers client active path).ends
  refine ⟨ends, ends.acc, ?_, (walk_answers client [] path).ends, passes_select client⟩
  intro state steps
  have branch := (onBranch_start client.toAccessors active path).steps steps
  exact ⟨branch.distinct, fun slot member => ⟨branch.slots slot member, branch.fresh slot member⟩,
    branch.length_le client.finite_slots⟩

end SlotLanes
