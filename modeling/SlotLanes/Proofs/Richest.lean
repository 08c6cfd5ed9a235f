import SlotLanes.Handler
import SlotLanes.Proofs.Candidates
import SlotLanes.Proofs.Notices

/-! The richest branch answers for a bus: of the main board's children on it the one with
the most entries, and of several the first. Lengths are compared before narrowing, and
no candidate can tell which ones were walked before it. -/
namespace SlotLanes

def onBus (accessors : Accessors) (bus : UInt8) (children : List String) : List String :=
  children.filter fun child => accessors.bus child = some bus

theorem mem_onBus {accessors : Accessors} {bus : UInt8} {children : List String} {child : String} :
    child ∈ onBus accessors bus children ↔ child ∈ children ∧ accessors.bus child = some bus := by
  simp [onBus]

/-- The first of the longest lists, or nothing if all of them are empty. -/
def Richest (lists : List (List UInt64)) (best : List UInt64) : Prop :=
  (best = [] ∧ ∀ list ∈ lists, list = []) ∨
    ∃ before after, lists = before ++ best :: after ∧ best ≠ [] ∧
      (∀ list ∈ before, list.length < best.length) ∧ ∀ list ∈ after, list.length ≤ best.length

def givenLanes (notices : List Notice) : List (List UInt64) :=
  notices.filterMap fun
    | .gives _ _ lanes => some lanes
    | _ => none

theorem Richest.length_le {lists : List (List UInt64)} {best : List UInt64}
    (richest : Richest lists best) {list : List UInt64} (member : list ∈ lists) :
    list.length ≤ best.length := by
  rcases richest with ⟨_, empty⟩ | ⟨before, after, rfl, _, shorter, atMost⟩
  · simp [empty list member]
  · rcases List.mem_append.mp member with earlier | later
    · exact (shorter list earlier).le
    · rcases List.mem_cons.mp later with rfl | later
      · exact le_rfl
      · exact atMost list later

theorem Richest.next {lists : List (List UInt64)} {best : List UInt64}
    (richest : Richest lists best) (list : List UInt64) :
    Richest (lists ++ [list]) (if best.length < list.length then list else best) := by
  split
  next longer =>
    have present : list ≠ [] := List.ne_nil_of_length_pos (by omega)
    refine .inr ⟨lists, [], rfl, present, fun other member => ?_, by simp⟩
    exact (richest.length_le member).trans_lt longer
  next notLonger =>
    rcases richest with ⟨rfl, empty⟩ | ⟨before, after, rfl, present, shorter, atMost⟩
    · have nothing : list = [] := List.eq_nil_of_length_eq_zero (by simpa using notLonger)
      rw [nothing]
      exact .inl ⟨rfl, by simpa [or_imp, forall_and] using empty⟩
    · refine .inr ⟨before, after ++ [list], by simp, present, shorter, fun other member => ?_⟩
      rcases List.mem_append.mp member with earlier | last
      · exact atMost other earlier
      · rw [List.mem_singleton.mp last]
        omega

theorem not_gives_of_walk {client : Client} (active : List String) (path : String) (bus : UInt8)
    (child : String) (lanes : List UInt64) :
    .gives bus child lanes ∉ (walk client active path).notices := by
  induction active, path using walk_induction client with
  | device active path most device => simp [walk_device device]
  | neither active path noDevice noSlot => simp [walk_neither noDevice noSlot]
  | seen active path capacity noDevice slot seen => simp [walk_repeat noDevice slot seen]
  | slot active path capacity noDevice slot fresh ih =>
    simp only [mem_notices_slot noDevice slot fresh, reduceCtorEq, and_false, or_false]
    rintro ⟨inner, member, inside⟩
    exact ih inner member inside

theorem givenLanes_walk (client : Client) (active : List String) (path : String) :
    givenLanes (walk client active path).notices = [] := by
  rw [givenLanes, List.filterMap_eq_nil_iff]
  intro notice member
  cases notice with
  | gives bus child lanes => exact absurd member (not_gives_of_walk active path bus child lanes)
  | cycle => rfl
  | overCapacity => rfl

structure Recorded (given : List (List UInt64)) (best : List UInt64) : Prop where
  increasing : given.Pairwise fun first second => first.length < second.length
  bounded : ∀ list ∈ given, list.length ≤ best.length
  last : given.getLast? = if best = [] then none else some best

theorem Recorded.next {given : List (List UInt64)} {best : List UInt64}
    (recorded : Recorded given best) (list : List UInt64) :
    Recorded (given ++ if best.length < list.length then [list] else [])
      (if best.length < list.length then list else best) := by
  split
  next longer =>
    have present : list ≠ [] := List.ne_nil_of_length_pos (by omega)
    refine ⟨?_, ?_, ?_⟩
    · rw [List.pairwise_append]
      refine ⟨recorded.increasing, by simp, fun first member second own => ?_⟩
      rw [List.mem_singleton.mp own]
      exact (recorded.bounded first member).trans_lt longer
    · intro other member
      rcases List.mem_append.mp member with before | own
      · exact (recorded.bounded other before).trans longer.le
      · rw [List.mem_singleton.mp own]
    · rw [List.getLast?_concat, if_neg present]
  next notLonger =>
    rw [List.append_nil]
    exact recorded

theorem givenLanes_orLonger (best visit : Visit) (bus : UInt8) (child : String)
    (silent : givenLanes visit.notices = []) :
    givenLanes (best.orLonger bus child visit).notices = givenLanes best.notices ++
      if best.lanes.length < visit.lanes.length then [visit.lanes] else [] := by
  simp only [givenLanes] at silent ⊢
  by_cases longer : best.lanes.length < visit.lanes.length
  · simp [Visit.orLonger, longer, silent]
  · simp [Visit.orLonger, longer, silent]

theorem mem_notices_orLonger {notice : Notice} {best visit : Visit} {bus : UInt8} {child : String} :
    notice ∈ (best.orLonger bus child visit).notices ↔ notice ∈ best.notices ∨
      notice ∈ visit.notices ∨
      (best.lanes.length < visit.lanes.length ∧ notice = .gives bus child visit.lanes) := by
  simp only [Visit.orLonger, List.mem_append, or_assoc]
  split
  next longer => simp [longer]
  next notLonger => simp [notLonger]

structure Considered (client : Client) (mainBoard : String) (bus : UInt8) (children : List String)
    (best : Visit) : Prop where
  richest : Richest ((onBus client.toAccessors bus children).map fun child =>
    (walk client [mainBoard] child).lanes) best.lanes
  given : ∀ other child lanes, .gives other child lanes ∈ best.notices →
    other = bus ∧ child ∈ onBus client.toAccessors bus children ∧
      lanes = (walk client [mainBoard] child).lanes
  recorded : Recorded (givenLanes best.notices) best.lanes

variable {client : Client} {mainBoard : String} {bus : UInt8} {children : List String} {best : Visit}

private theorem Considered.elsewhere (considered : Considered client mainBoard bus children best)
    {child : String} (otherBus : client.bus child ≠ some bus) :
    Considered client mainBoard bus (children ++ [child]) (best.pass child) := by
  have same : onBus client.toAccessors bus (children ++ [child]) =
      onBus client.toAccessors bus children := by
    simp [onBus, otherBus]
  refine ⟨?_, ?_, considered.recorded⟩
  · rw [same]
    exact considered.richest
  · rw [same]
    exact considered.given

private theorem Considered.candidate (considered : Considered client mainBoard bus children best)
    {child : String} (sameBus : client.bus child = some bus) :
    Considered client mainBoard bus (children ++ [child])
      (best.orLonger bus child (walk client [mainBoard] child)) := by
  have more : onBus client.toAccessors bus (children ++ [child]) =
      onBus client.toAccessors bus children ++ [child] := by
    simp [onBus, sameBus]
  refine ⟨?_, ?_, ?_⟩
  · rw [more, List.map_append]
    exact considered.richest.next _
  · intro other path lanes member
    rcases mem_notices_orLonger.mp member with before | walked | ⟨_, own⟩
    · obtain ⟨same, inside, found⟩ := considered.given other path lanes before
      exact ⟨same, by simp [more, inside], found⟩
    · exact absurd walked (not_gives_of_walk _ _ _ _ _)
    · cases own
      exact ⟨rfl, by simp [more], rfl⟩
  · rw [givenLanes_orLonger _ _ _ _ (givenLanes_walk _ _ _)]
    exact considered.recorded.next _

theorem considered_foldl (client : Client) (mainBoard : String) (bus : UInt8)
    (children : List String) :
    Considered client mainBoard bus children
      (children.foldl (consider client mainBoard bus) ⟨[], [], [.children mainBoard]⟩) := by
  -- By the last child, since the answer so far depends on those before it.
  induction children using List.reverseRecOn with
  | nil => exact ⟨.inl ⟨rfl, by simp [onBus]⟩, by simp, ⟨.nil, by simp [givenLanes], rfl⟩⟩
  | append_singleton children child ih =>
    rw [List.foldl_append, List.foldl_cons, List.foldl_nil, consider]
    split
    next sameBus => exact ih.candidate sameBus
    next otherBus => exact ih.elsewhere otherBus

private theorem toUInt8_eq_iff (stored : UInt64) (bus : UInt8) :
    (stored < 256 ∧ stored.toUInt8 = bus) ↔ stored.toNat = bus.toNat := by
  have bound := UInt8.toNat_lt bus
  rw [UInt64.lt_iff_toNat_lt, ← UInt8.toNat_inj, UInt64.toNat_toUInt8]
  have limit : (256 : UInt64).toNat = 256 := rfl
  omega

theorem busOf_eq_some_iff (inventory : Inventory) (path : String) (bus : UInt8) :
    inventory.busOf path = some bus ↔ ∃ object stored,
      inventory.get? path = some object ∧ object.bus = some stored ∧ stored.toNat = bus.toNat := by
  cases found : inventory.get? path with
  | none => simp [Inventory.busOf, found]
  | some object =>
    cases known : object.bus with
    | none => simp [Inventory.busOf, found, known]
    | some stored => simp [Inventory.busOf, found, known, toUInt8_eq_iff]

/-- The answer for a bus is the first of the longest lists that the children on it resolve
to, each with the main board alone on its branch, narrowed at the end. A candidate is
walked from whatever working set the ones before have left, and that is always the main
board alone; where the main board is out of reach, its list is the one that it has by
itself. Records are made of ever longer candidates, and the last of them shows the answer. -/
theorem richest_branch_answers (client : Client) (mainBoard : String) (bus : UInt8) :
    ∃ best, (∀ files, ((Handler.graph client mainBoard).lanes? files bus) =
        ⟨some (best.map narrow), (select client mainBoard bus).notices.map .walk⟩) ∧
      Richest ((onBus client.toAccessors bus (client.children mainBoard)).map fun child =>
        (walk client [mainBoard] child).lanes) best ∧
      (∀ (inventory : Inventory) path, inventory.client.bus path = some bus ↔ ∃ object stored,
        inventory.get? path = some object ∧ object.bus = some stored ∧
          stored.toNat = bus.toNat) ∧
      (∀ before child after, client.children mainBoard = before ++ child :: after →
        ∀ active visit, Passes client.toAccessors bus [mainBoard] ⟨[], [], [.children mainBoard]⟩
            before active visit →
          Descent.Ends client.toAccessors ⟨active, [], .enter child⟩
            ⟨active, [], .leave (walk client [mainBoard] child)⟩) ∧
      (∀ other child lanes, .gives other child lanes ∈ (select client mainBoard bus).notices →
        other = bus ∧ child ∈ onBus client.toAccessors bus (client.children mainBoard) ∧
          lanes = (walk client [mainBoard] child).lanes) ∧
      (givenLanes (select client mainBoard bus).notices).Pairwise
        (fun first second => first.length < second.length) ∧
      (givenLanes (select client mainBoard bus).notices).getLast? =
        (if best = [] then none else some best) ∧
      ∀ child ∈ onBus client.toAccessors bus (client.children mainBoard),
        ¬ (client.IsSlot mainBoard ∧ client.Leads child mainBoard) →
          (walk client [mainBoard] child).bytes = (parseDevices client child).bytes := by
  have considered := considered_foldl client mainBoard bus (client.children mainBoard)
  refine ⟨(select client mainBoard bus).lanes, fun _ => rfl, considered.richest,
    fun inventory path => busOf_eq_some_iff inventory path bus, ?_, considered.given,
    considered.recorded.increasing, considered.recorded.last, ?_⟩
  · intro before child _ _ active visit passed
    obtain ⟨rfl, _⟩ := passed.unique (passes_consider client mainBoard bus before _)
    exact (Descent.walk_answers client [mainBoard] child).ends
  · intro child _ unreachable
    have same : walk client [mainBoard] child = walk client [] child := by
      apply walk_congr_active
      intro slot isSlot leads
      have other : slot ≠ mainBoard := by
        rintro rfl
        exact unreachable ⟨isSlot, leads⟩
      simp [other]
    rw [parseDevices, same]

end SlotLanes
