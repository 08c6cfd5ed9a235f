import SlotLanes.Proofs.Descent

/-! The main board's children one after the other. One working set serves all of them:
it starts with the main board, and each candidate is walked with the set that the one
before has left. Main statement: the pass comes to an end with the set as it was, and
its answer is that of `select`. -/
namespace SlotLanes
open Descent (Ends walk_answers)

/-- A pass over some children, from a working set and the longest answer so far to those
after the last of them. -/
inductive Passes (accessors : Accessors) (bus : UInt8) :
    List String → Visit → List String → List String → Visit → Prop
  | done (active : List String) (best : Visit) : Passes accessors bus active best [] active best
  | elsewhere {active after : List String} {best result : Visit} {child : String}
      {children : List String} (otherBus : accessors.bus child ≠ some bus)
      (rest : Passes accessors bus active (best.pass child) children after result) :
      Passes accessors bus active best (child :: children) after result
  | candidate {active middle after : List String} {best visit result : Visit} {child : String}
      {children : List String} (sameBus : accessors.bus child = some bus)
      (walked : Ends accessors ⟨active, [], .enter child⟩ ⟨middle, [], .leave visit⟩)
      (rest : Passes accessors bus middle (best.orLonger bus child visit) children after result) :
      Passes accessors bus active best (child :: children) after result

theorem passes_consider (client : Client) (mainBoard : String) (bus : UInt8)
    (children : List String) (best : Visit) :
    Passes client.toAccessors bus [mainBoard] best children [mainBoard]
      (children.foldl (consider client mainBoard bus) best) := by
  induction children generalizing best with
  | nil => exact .done _ _
  | cons child children ih =>
    rw [List.foldl_cons]
    by_cases sameBus : client.bus child = some bus
    · have considered : consider client mainBoard bus best child =
          best.orLonger bus child (walk client [mainBoard] child) := if_pos sameBus
      rw [considered]
      exact .candidate sameBus (walk_answers client [mainBoard] child).ends (ih _)
    · have considered : consider client mainBoard bus best child = best.pass child :=
        if_neg sameBus
      rw [considered]
      exact .elsewhere sameBus (ih _)

theorem passes_select (client : Client) (mainBoard : String) (bus : UInt8) :
    Passes client.toAccessors bus [mainBoard] ⟨[], [], [.children mainBoard]⟩
      (client.children mainBoard) [mainBoard] (select client mainBoard bus) :=
  passes_consider client mainBoard bus _ _

theorem Passes.unique {accessors : Accessors} {bus : UInt8}
    {active children after other : List String} {best result another : Visit}
    (first : Passes accessors bus active best children after result)
    (second : Passes accessors bus active best children other another) :
    after = other ∧ result = another := by
  induction first with
  | done => cases second; exact ⟨rfl, rfl⟩
  | elsewhere otherBus _ ih =>
    cases second with
    | elsewhere _ rest => exact ih rest
    | candidate sameBus => exact absurd sameBus otherBus
  | candidate sameBus walked _ ih =>
    cases second with
    | elsewhere otherBus => exact absurd sameBus otherBus
    | candidate _ walkedAgain rest =>
      cases walked.unique walkedAgain
      exact ih rest

end SlotLanes
