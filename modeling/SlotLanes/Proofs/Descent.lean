import Mathlib
import SlotLanes.Selection

/-! The walk one step at a time, with a working set that is changed in place: a slot
enters it when it passes the cycle guard and leaves it when its children have been
walked. Nothing else is remembered, and nothing bounds the steps. Main statement: a walk
comes back to the slots that wait for it with the set as it was, and brings what `walk`
says. -/
namespace SlotLanes

structure Frame where
  path : String
  capacity : UInt64
  pending : List String
  found : Visit

inductive Control where
  | enter (path : String)
  | resume
  | leave (visit : Visit)

/-- A moment of a walk. The slots that wait for their children stand with the innermost
first; a path is about to be walked, the innermost slot is to go on, or a walk is over and
its visit goes to that slot. -/
structure Descent where
  active : List String
  frames : List Frame
  control : Control

namespace Descent

def remove (path : String) (active : List String) : List String :=
  active.filter (· ≠ path)

theorem remove_cons {path : String} {active : List String} (fresh : path ∉ active) :
    remove path (path :: active) = active := by
  rw [remove, List.filter_cons_of_neg (by simp), List.filter_eq_self]
  intro other member
  simpa using fun same : other = path => fresh (same ▸ member)

def enter (accessors : Accessors) (active : List String) (frames : List Frame) (path : String) :
    Descent :=
  match accessors.maxLanes path with
  | some most => ⟨active, frames, .leave ⟨[most], [], [.maxLanes path]⟩⟩
  | none =>
    match accessors.lanes path with
    | none => ⟨active, frames, .leave ⟨[], [], [.maxLanes path, .lanes path]⟩⟩
    | some capacity =>
      if path ∈ active then
        ⟨active, frames, .leave ⟨[], [.cycle path], [.maxLanes path, .lanes path]⟩⟩
      else
        let asked : Visit := ⟨[], [], [.maxLanes path, .lanes path, .children path]⟩
        ⟨path :: active, ⟨path, capacity, accessors.children path, asked⟩ :: frames, .resume⟩

def step (accessors : Accessors) : Descent → Option Descent
  | ⟨active, frames, .enter path⟩ => some (enter accessors active frames path)
  | ⟨active, ⟨path, capacity, child :: pending, found⟩ :: frames, .resume⟩ =>
    some ⟨active, ⟨path, capacity, pending, found⟩ :: frames, .enter child⟩
  | ⟨active, ⟨path, capacity, [], found⟩ :: frames, .resume⟩ =>
    some ⟨remove path active, frames, .leave (settle path capacity found)⟩
  | ⟨active, ⟨path, capacity, pending, found⟩ :: frames, .leave visit⟩ =>
    some ⟨active, ⟨path, capacity, pending, found.append visit⟩ :: frames, .resume⟩
  | ⟨_, [], .resume⟩ => none
  | ⟨_, [], .leave _⟩ => none

abbrev Step (accessors : Accessors) (state next : Descent) : Prop :=
  step accessors state = some next

abbrev Steps (accessors : Accessors) : Descent → Descent → Prop :=
  Relation.ReflTransGen (Step accessors)

def Ends (accessors : Accessors) (state last : Descent) : Prop :=
  Steps accessors state last ∧ step accessors last = none

theorem Step.unique {accessors : Accessors} {state next other : Descent}
    (first : Step accessors state next) (second : Step accessors state other) : next = other :=
  Option.some.inj (first.symm.trans second)

theorem Ends.continues {accessors : Accessors} {start state last : Descent}
    (ends : Ends accessors start last) (reached : Steps accessors start state) :
    Ends accessors state last := by
  induction reached with
  | refl => exact ends
  | tail _ next ih =>
    rcases Relation.ReflTransGen.cases_head ih.1 with rfl | ⟨other, first, rest⟩
    · rw [Step, ih.2] at next
      contradiction
    · rw [Step.unique next first]
      exact ⟨rest, ih.2⟩

theorem Ends.unique {accessors : Accessors} {start first second : Descent}
    (one : Ends accessors start first) (two : Ends accessors start second) : first = second := by
  rcases Relation.ReflTransGen.cases_head (one.continues two.1).1 with same | ⟨next, step, _⟩
  · exact same.symm
  · rw [Step, two.2] at step
    contradiction

theorem Ends.acc {accessors : Accessors} {start last : Descent} (ends : Ends accessors start last) :
    Acc (fun next state => Step accessors state next) start := by
  obtain ⟨steps, final⟩ := ends
  induction steps using Relation.ReflTransGen.head_induction_on with
  | refl =>
    refine ⟨_, fun next step => ?_⟩
    rw [Step, final] at step
    contradiction
  | head first _ ih => exact ⟨_, fun next step => Step.unique first step ▸ ih⟩

/-- The walk of a path ends with this visit, whoever waits for it, and leaves the working
set as it was. -/
def Answers (accessors : Accessors) (active : List String) (path : String) (visit : Visit) : Prop :=
  ∀ frames, Steps accessors ⟨active, frames, .enter path⟩ ⟨active, frames, .leave visit⟩

variable {accessors : Accessors} {active : List String} {path : String}

theorem answers_device {most : UInt64} (device : accessors.maxLanes path = some most) :
    Answers accessors active path ⟨[most], [], [.maxLanes path]⟩ := by
  intro frames
  apply Relation.ReflTransGen.single
  simp [Step, step, enter, device]

theorem answers_neither (noDevice : accessors.maxLanes path = none)
    (noSlot : accessors.lanes path = none) :
    Answers accessors active path ⟨[], [], [.maxLanes path, .lanes path]⟩ := by
  intro frames
  apply Relation.ReflTransGen.single
  simp [Step, step, enter, noDevice, noSlot]

theorem answers_repeat {capacity : UInt64} (noDevice : accessors.maxLanes path = none)
    (slot : accessors.lanes path = some capacity) (seen : path ∈ active) :
    Answers accessors active path ⟨[], [.cycle path], [.maxLanes path, .lanes path]⟩ := by
  intro frames
  apply Relation.ReflTransGen.single
  simp [Step, step, enter, noDevice, slot, seen]

/-- What is asked of a slot before its children are walked. -/
def asked (path : String) : Visit :=
  ⟨[], [], [.maxLanes path, .lanes path, .children path]⟩

theorem step_enter_slot {capacity : UInt64} (noDevice : accessors.maxLanes path = none)
    (slot : accessors.lanes path = some capacity) (fresh : path ∉ active) (frames : List Frame) :
    Step accessors ⟨active, frames, .enter path⟩
      ⟨path :: active, ⟨path, capacity, accessors.children path, asked path⟩ :: frames, .resume⟩ := by
  simp [Step, step, enter, noDevice, slot, fresh, asked]

/-- The children that are walked leave the working set to those after them. -/
theorem children_steps {capacity : UInt64} {pending : List String} {visits : List Visit}
    (answers : List.Forall₂ (Answers accessors active) pending visits) (later : List String)
    (found : Visit) (frames : List Frame) :
    Steps accessors ⟨active, ⟨path, capacity, pending ++ later, found⟩ :: frames, .resume⟩
      ⟨active, ⟨path, capacity, later, found.append (.concat visits)⟩ :: frames, .resume⟩ := by
  induction answers generalizing found with
  | nil =>
    have same : found.append (.concat []) = found := by simp [Visit.append, Visit.concat]
    rw [same, List.nil_append]
  | @cons child visit pending visits first rest ih =>
    have joined : found.append (.concat (visit :: visits)) =
        (found.append visit).append (.concat visits) := by
      simp [Visit.append, Visit.concat]
    rw [joined]
    refine .head (b := ⟨active, ⟨path, capacity, pending ++ later, found⟩ :: frames, .enter child⟩)
      rfl ?_
    refine (first _).trans ?_
    exact .head rfl (ih (found.append visit))

theorem answers_slot {capacity : UInt64} {visits : List Visit}
    (noDevice : accessors.maxLanes path = none) (slot : accessors.lanes path = some capacity)
    (fresh : path ∉ active)
    (answers : List.Forall₂ (Answers accessors (path :: active)) (accessors.children path) visits) :
    Answers accessors active path (settle path capacity
      { Visit.concat visits with
        calls := [.maxLanes path, .lanes path, .children path] ++ (Visit.concat visits).calls }) := by
  intro frames
  have walked : Steps accessors
      ⟨path :: active, ⟨path, capacity, accessors.children path, asked path⟩ :: frames, .resume⟩
      ⟨path :: active, ⟨path, capacity, [], (asked path).append (.concat visits)⟩ :: frames, .resume⟩ := by
    simpa using children_steps answers [] (asked path) frames
  have settled : Step accessors
      ⟨path :: active, ⟨path, capacity, [], (asked path).append (.concat visits)⟩ :: frames, .resume⟩
      ⟨active, frames, .leave (settle path capacity ((asked path).append (.concat visits)))⟩ := by
    simp [Step, step, remove_cons fresh]
  exact .head (step_enter_slot noDevice slot fresh frames) (walked.tail settled)

theorem walk_answers (client : Client) (active : List String) (path : String) :
    Answers client.toAccessors active path (walk client active path) := by
  induction active, path using walk_induction client with
  | device active path most device =>
    rw [walk_device device]
    exact answers_device device
  | neither active path noDevice noSlot =>
    rw [walk_neither noDevice noSlot]
    exact answers_neither noDevice noSlot
  | seen active path capacity noDevice slot seen =>
    rw [walk_repeat noDevice slot seen]
    exact answers_repeat noDevice slot seen
  | slot active path capacity noDevice slot fresh ih =>
    rw [walk_slot noDevice slot fresh]
    apply answers_slot noDevice slot fresh
    rw [List.forall₂_map_right_iff, List.forall₂_same]
    exact ih

theorem Answers.ends {visit : Visit} (answers : Answers accessors active path visit) :
    Ends accessors ⟨active, [], .enter path⟩ ⟨active, [], .leave visit⟩ :=
  ⟨answers [], rfl⟩

end Descent
end SlotLanes
