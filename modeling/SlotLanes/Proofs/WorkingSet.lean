import SlotLanes.Proofs.Descent
import SlotLanes.Proofs.SlotGraph

/-! The working set across a walk. Every walk, however it ends and whatever waits for it, gives
the set back as it found it; so each child of a slot is walked with the same set, and nothing
that was walked before it can show in its lanes. -/
namespace SlotLanes

namespace Descent

/-- The same moment of a walk, with more slots waiting below those that wait already. -/
def above (frames : List Frame) (state : Descent) : Descent :=
  { state with frames := state.frames ++ frames }

/-- A walk for which these slots wait is over. -/
def Back (frames : List Frame) (state : Descent) : Prop :=
  state.frames = frames ∧ ∃ visit, state.control = .leave visit

/-- A step that is still part of a walk for which these slots wait. -/
def StepWithin (accessors : Accessors) (frames : List Frame) (state next : Descent) : Prop :=
  Step accessors state next ∧ ¬Back frames state

/-- The walk that begins in one moment is over in the other, for the first time since. -/
def Returns (accessors : Accessors) (start last : Descent) : Prop :=
  Relation.ReflTransGen (StepWithin accessors start.frames) start last ∧ Back start.frames last

variable {accessors : Accessors} {state next last : Descent} {frames : List Frame}

theorem enter_above (active : List String) (waiting : List Frame) (path : String) :
    enter accessors active (waiting ++ frames) path =
      (enter accessors active waiting path).above frames := by
  unfold enter
  split
  · rfl
  · split
    · rfl
    · split <;> rfl

theorem Step.above (frames : List Frame) (step : Step accessors state next) :
    Step accessors (state.above frames) (next.above frames) := by
  obtain ⟨active, waiting, control⟩ := state
  cases control with
  | enter path =>
    cases step
    exact congrArg some (enter_above active waiting path)
  | resume =>
    cases waiting with
    | nil => cases step
    | cons frame waiting =>
      obtain ⟨path, capacity, pending, found⟩ := frame
      cases pending <;> (cases step; rfl)
  | leave visit =>
    cases waiting with
    | nil => cases step
    | cons frame waiting => cases step; rfl

/-- What goes on has not come back to the slots that wait below. -/
theorem Step.not_back (step : Step accessors state next) : ¬Back frames (state.above frames) := by
  intro back
  obtain ⟨active, waiting, control⟩ := state
  obtain ⟨same, visit, left⟩ := back
  have alone : waiting = [] := List.append_left_eq_self.mp same
  cases alone
  cases left
  cases step

theorem Ends.returns {active : List String} {control : Control} {visit : Visit}
    (ends : Ends accessors ⟨active, [], control⟩ last) (left : last.control = .leave visit)
    (alone : last.frames = []) (frames : List Frame) :
    Returns accessors ⟨active, frames, control⟩ (last.above frames) := by
  refine ⟨?_, ?_, visit, left⟩
  · exact ends.1.lift (above frames) fun _ _ step => ⟨step.above frames, step.not_back⟩
  · simp [above, alone]

theorem Returns.unique {start other : Descent} (first : Returns accessors start last)
    (second : Returns accessors start other) : last = other := by
  obtain ⟨steps, back⟩ := first
  obtain ⟨others, otherBack⟩ := second
  generalize start.frames = frames at *
  induction steps using Relation.ReflTransGen.head_induction_on with
  | refl =>
    cases others using Relation.ReflTransGen.head_induction_on with
    | refl => rfl
    | head step _ => exact absurd back step.2
  | head step _ ih =>
    rcases Relation.ReflTransGen.cases_head others with rfl | ⟨next, again, rest⟩
    · exact absurd otherBack step.2
    · have same := step.1.unique again.1
      exact ih (same ▸ rest)

theorem walk_returns (client : Client) (active : List String) (frames : List Frame) (path : String) :
    Returns client.toAccessors ⟨active, frames, .enter path⟩
      ⟨active, frames, .leave (walk client active path)⟩ :=
  (walk_answers client active path).ends.returns rfl rfl frames

/-- A slot that was not on the branch comes to each of its children with itself on it, and with
the visits of the children before, one after the other. -/
theorem pending_steps {client : Client} {active : List String} {path : String} {capacity : UInt64}
    (noDevice : client.maxLanes path = none) (slot : client.lanes path = some capacity)
    (fresh : path ∉ active) {before after : List String}
    (children : client.children path = before ++ after) (frames : List Frame) :
    Steps client.toAccessors ⟨active, frames, .enter path⟩
      ⟨path :: active, ⟨path, capacity, after,
        (asked path).append (.concat (before.map (walk client (path :: active))))⟩ :: frames,
        .resume⟩ := by
  have answers : List.Forall₂ (Answers client.toAccessors (path :: active)) before
      (before.map (walk client (path :: active))) := by
    rw [List.forall₂_map_right_iff, List.forall₂_same]
    exact fun child _ => walk_answers client (path :: active) child
  have entered := step_enter_slot noDevice slot fresh frames
  rw [children] at entered
  exact .head entered (children_steps answers after (asked path) frames)

theorem lanes_append_concat (path : String) (visits : List Visit) :
    ((asked path).append (.concat visits)).lanes = visits.flatMap Visit.lanes := by
  simp [asked, Visit.append, Visit.concat]

end Descent

open Descent

/-- A walk is over for the first time with the working set that it began with, on every branch
and above whatever slots wait. A slot walks each child with itself added to that set, comes to
the child whatever was found before it, and settles the lanes of all of them in a row. Which
set it is matters, not how it is written down: the same path brings the same visit wherever the
branch holds the same slots. -/
theorem walk_restores_working_set (client : Client) (active : List String) (path : String) :
    (∀ frames last, Returns client.toAccessors ⟨active, frames, .enter path⟩ last ↔
      last = ⟨active, frames, .leave (walk client active path)⟩) ∧
    (∀ capacity, client.maxLanes path = none → client.lanes path = some capacity → path ∉ active →
      (∀ before child after, client.children path = before ++ child :: after → ∀ frames, ∃ found,
        let entered : Descent :=
          ⟨path :: active, ⟨path, capacity, after, found⟩ :: frames, .enter child⟩
        Steps client.toAccessors ⟨active, frames, .enter path⟩ entered ∧
          ∀ last, Returns client.toAccessors entered last ↔
            last = { entered with control := .leave (walk client (path :: active) child) }) ∧
      ∀ frames, ∃ found,
        Steps client.toAccessors ⟨active, frames, .enter path⟩
          ⟨path :: active, ⟨path, capacity, [], found⟩ :: frames, .resume⟩ ∧
        found.lanes = (client.children path).flatMap
          (fun child => (walk client (path :: active) child).lanes) ∧
        (walk client active path).lanes = (settle path capacity found).lanes) ∧
    ∀ other, (∀ slot, slot ∈ other ↔ slot ∈ active) → ∀ frames last,
      Returns client.toAccessors ⟨other, frames, .enter path⟩ last ↔
        last = ⟨other, frames, .leave (walk client active path)⟩ := by
  have returns (branch : List String) (start : String) (frames : List Frame) (last : Descent) :
      Returns client.toAccessors ⟨branch, frames, .enter start⟩ last ↔
        last = ⟨branch, frames, .leave (walk client branch start)⟩ := by
    have ended := walk_returns client branch frames start
    exact ⟨fun ends => ends.unique ended, fun same => same ▸ ended⟩
  refine ⟨returns active path, ?_, ?_⟩
  · intro capacity noDevice slot fresh
    refine ⟨?_, ?_⟩
    · intro before child after children frames
      have waiting := pending_steps noDevice slot fresh children frames
      refine ⟨_, waiting.tail rfl, ?_⟩
      exact returns (path :: active) child _
    · intro frames
      have all : client.children path = client.children path ++ [] := (List.append_nil _).symm
      refine ⟨_, pending_steps noDevice slot fresh all frames, ?_, ?_⟩
      · rw [lanes_append_concat, List.flatMap_map]
      · rw [walk_slot noDevice slot fresh]
        rfl
  · intro other same frames last
    have alike : walk client other path = walk client active path :=
      walk_congr_active fun slot _ _ => same slot
    rw [returns other path, alike]

end SlotLanes
