import SlotLanes.Proofs.Questions

/-! The order in which a walk asks. A path is first asked whether it is a device; if not, it is
asked for its lanes at once; and if it has some, for its children at once, unless it is on the
branch already. Each child that is listed is walked as often as it is listed. Main statement:
the calls of a walk keep to this, told by the calls and their answers alone, and the calls for
the answer on a bus are such walks, one behind the question for the bus of each candidate. -/
namespace SlotLanes

/-- The path that is asked whether it is a device. -/
def Call.device? : Call → Option String
  | maxLanes path => some path
  | _ => none

def Call.isChildren : Call → Bool
  | children _ => true
  | _ => false

def Notice.isCycle : Notice → Bool
  | cycle _ => true
  | _ => false

namespace Accessors

/-- The paths that the answer to a call lists. -/
def listed (accessors : Accessors) : Call → List String
  | .children path => accessors.children path
  | _ => []

def findsLanes (accessors : Accessors) : Call → Bool
  | .lanes path => (accessors.lanes path).isSome
  | _ => false

/-- A walk's calls and notices, as they have to be whatever the client answers. -/
structure InTurn (accessors : Accessors) (path : String) (visit : Visit) : Prop where
  first : visit.calls.head? = some (.maxLanes path)
  noBus : ∀ other, .bus other ∉ visit.calls
  beforeLanes : ∀ front other back, visit.calls = front ++ .lanes other :: back →
    accessors.maxLanes other = none ∧ ∃ earlier, front = earlier ++ [.maxLanes other]
  afterNoDevice : ∀ front other back, visit.calls = front ++ .maxLanes other :: back →
    accessors.maxLanes other = none → ∃ later, back = .lanes other :: later
  beforeChildren : ∀ front other back, visit.calls = front ++ .children other :: back →
    (accessors.lanes other).isSome ∧ ∃ earlier, front = earlier ++ [.lanes other]
  eachListed : (visit.calls.filterMap Call.device?).Perm (path :: visit.calls.flatMap accessors.listed)
  deviceCount : (visit.calls.filterMap Call.device?).length =
    1 + (visit.calls.flatMap accessors.listed).length
  cycleCount : visit.calls.countP accessors.findsLanes =
    visit.calls.countP Call.isChildren + visit.notices.countP Notice.isCycle

/-- Nothing is due after a call: it was not the news that a path is no device. -/
def Over (accessors : Accessors) (call : Call) : Prop :=
  ∀ path, call = .maxLanes path → accessors.maxLanes path ≠ none

/-- Which call may come right after another. -/
def Follows (accessors : Accessors) : Call → Call → Prop
  | call, .maxLanes _ => accessors.Over call
  | call, .lanes path => call = .maxLanes path ∧ accessors.maxLanes path = none
  | call, .children path => call = .lanes path ∧ (accessors.lanes path).isSome
  | _, .bus _ => False

/-- Calls in turn that a walk starts and after which nothing is due, so that the calls of
another walk may follow. -/
structure Chained (accessors : Accessors) (calls : List Call) : Prop where
  chain : calls.IsChain accessors.Follows
  starts : ∀ call ∈ calls.head?, ∃ path, call = .maxLanes path
  ends : ∀ call ∈ calls.getLast?, accessors.Over call

variable {accessors : Accessors} {calls others : List Call}

theorem over_of_ne {call : Call} (other : ∀ path, call ≠ .maxLanes path) : accessors.Over call := by
  intro path same
  exact absurd same (other path)

theorem Chained.nil : accessors.Chained [] :=
  ⟨.nil, by simp, by simp⟩

theorem Chained.append (first : accessors.Chained calls) (second : accessors.Chained others) :
    accessors.Chained (calls ++ others) := by
  refine ⟨first.chain.append second.chain ?_, ?_, ?_⟩
  · intro last isLast next isNext
    obtain ⟨path, rfl⟩ := second.starts next isNext
    exact first.ends last isLast
  · cases calls with
    | nil => exact second.starts
    | cons call calls => exact first.starts
  · intro last isLast
    rw [List.getLast?_append] at isLast
    rcases Option.or_eq_some_iff.mp isLast with inSecond | ⟨_, inFirst⟩
    · exact second.ends last inSecond
    · exact first.ends last inFirst

theorem Chained.flatMap {children : List String} {callsOf : String → List Call}
    (each : ∀ child ∈ children, accessors.Chained (callsOf child)) :
    accessors.Chained (children.flatMap callsOf) := by
  induction children with
  | nil => exact .nil
  | cons child children ih =>
    rw [List.flatMap_cons]
    exact (each child (by simp)).append (ih fun other member => each other (by simp [member]))

section Splits
variable {front back : List Call} {other : String} (chained : accessors.Chained calls)
include chained

theorem Chained.follows_before {call : Call} (noStart : ∀ path, call ≠ .maxLanes path)
    (split : calls = front ++ call :: back) :
    ∃ earlier before, front = earlier ++ [before] ∧ accessors.Follows before call := by
  subst split
  rcases List.eq_nil_or_concat front with rfl | ⟨earlier, before, rfl⟩
  · obtain ⟨path, start⟩ := chained.starts call rfl
    exact absurd start (noStart path)
  · have chain := chained.chain
    rw [List.concat_eq_append, List.append_assoc] at chain
    exact ⟨earlier, before, List.concat_eq_append, (List.isChain_append_cons_cons.mp chain).2.1⟩

theorem Chained.before_lanes (split : calls = front ++ .lanes other :: back) :
    accessors.maxLanes other = none ∧ ∃ earlier, front = earlier ++ [.maxLanes other] := by
  obtain ⟨earlier, before, rfl, rfl, noDevice⟩ := chained.follows_before (by simp) split
  exact ⟨noDevice, earlier, rfl⟩

theorem Chained.before_children (split : calls = front ++ .children other :: back) :
    (accessors.lanes other).isSome ∧ ∃ earlier, front = earlier ++ [.lanes other] := by
  obtain ⟨earlier, before, rfl, rfl, slot⟩ := chained.follows_before (by simp) split
  exact ⟨slot, earlier, rfl⟩

theorem Chained.after_noDevice (split : calls = front ++ .maxLanes other :: back)
    (noDevice : accessors.maxLanes other = none) : ∃ later, back = .lanes other :: later := by
  subst split
  cases back with
  | nil => exact absurd noDevice (chained.ends (.maxLanes other) (by simp) other rfl)
  | cons next later =>
    have follows := (List.isChain_append_cons_cons.mp chained.chain).2.1
    cases next with
    | bus => exact follows.elim
    | maxLanes => exact absurd noDevice (follows other rfl)
    | lanes path =>
      obtain rfl : other = path := Call.maxLanes.inj follows.1
      exact ⟨later, rfl⟩
    | children => cases follows.1

end Splits

end Accessors

section Walk
variable {client : Client} {active : List String} {path : String}

theorem head?_calls (client : Client) (active : List String) (path : String) :
    (walk client active path).calls.head? = some (.maxLanes path) := by
  induction active, path using walk_induction client with
  | device active path most device => rw [walk_device device, List.head?_cons]
  | neither active path noDevice noSlot => rw [walk_neither noDevice noSlot, List.head?_cons]
  | seen active path capacity noDevice slot seen =>
    rw [walk_repeat noDevice slot seen, List.head?_cons]
  | slot active path capacity noDevice slot fresh => rw [calls_slot noDevice slot fresh]; rfl

theorem chained_before_guard (noDevice : client.maxLanes path = none) :
    client.Chained [.maxLanes path, .lanes path] := by
  refine ⟨List.isChain_pair.mpr ⟨rfl, noDevice⟩, by simp, ?_⟩
  intro call last
  cases last
  exact Accessors.over_of_ne (by simp)

theorem walk_chained (client : Client) (active : List String) (path : String) :
    client.Chained (walk client active path).calls := by
  induction active, path using walk_induction client with
  | device active path most device =>
    rw [walk_device device]
    refine ⟨.singleton _, by simp, ?_⟩
    intro call last other same
    cases last
    cases same
    simp [device]
  | neither active path noDevice noSlot =>
    rw [walk_neither noDevice noSlot]
    exact chained_before_guard noDevice
  | seen active path capacity noDevice slot seen =>
    rw [walk_repeat noDevice slot seen]
    exact chained_before_guard noDevice
  | slot active path capacity noDevice slot fresh ih =>
    have own : client.Chained [.maxLanes path, .lanes path, .children path] := by
      refine ⟨?_, by simp, ?_⟩
      · exact .cons_cons ⟨rfl, noDevice⟩ (List.isChain_pair.mpr ⟨rfl, by simp [slot]⟩)
      · intro call last
        cases last
        exact Accessors.over_of_ne (by simp)
    rw [calls_slot noDevice slot fresh]
    exact own.append (.flatMap ih)

theorem asked_flatMap {children : List String} {callsOf : String → List Call}
    (each : ∀ child ∈ children, ((callsOf child).filterMap Call.device?).Perm
      (child :: (callsOf child).flatMap client.listed)) :
    ((children.flatMap callsOf).filterMap Call.device?).Perm
      (children ++ (children.flatMap callsOf).flatMap client.listed) := by
  induction children with
  | nil => exact .nil
  | cons child children ih =>
    have own := each child (by simp)
    have others := ih fun other member => each other (by simp [member])
    rw [List.flatMap_cons, List.filterMap_append, List.flatMap_append]
    refine (own.append others).trans ?_
    rw [List.cons_append, List.cons_append]
    refine .cons child ?_
    rw [← List.append_assoc, ← List.append_assoc]
    exact List.perm_append_comm.append_right _

theorem walk_asks_each_listed (client : Client) (active : List String) (path : String) :
    ((walk client active path).calls.filterMap Call.device?).Perm
      (path :: (walk client active path).calls.flatMap client.listed) := by
  induction active, path using walk_induction client with
  | device active path most device => rw [walk_device device]; exact .refl _
  | neither active path noDevice noSlot => rw [walk_neither noDevice noSlot]; exact .refl _
  | seen active path capacity noDevice slot seen =>
    rw [walk_repeat noDevice slot seen]
    exact .refl _
  | slot active path capacity noDevice slot fresh ih =>
    rw [calls_slot noDevice slot fresh, List.filterMap_append, List.flatMap_append]
    have own : [.maxLanes path, .lanes path, .children path].flatMap client.listed =
        client.children path := by simp [Accessors.listed]
    rw [own]
    exact .cons path (asked_flatMap ih)

theorem notices_cycle_slot {capacity : UInt64} (noDevice : client.maxLanes path = none)
    (slot : client.lanes path = some capacity) (fresh : path ∉ active) :
    (walk client active path).notices.countP Notice.isCycle =
      ((client.children path).map fun child =>
        (walk client (path :: active) child).notices.countP Notice.isCycle).sum := by
  have own : (if capacity < totalLanes (below client active path).lanes then
      [Notice.overCapacity path (totalLanes (below client active path).lanes) capacity]
      else []).countP Notice.isCycle = 0 := by
    split <;> rfl
  rw [walk_slot noDevice slot fresh, settle_notices, List.countP_append, own, Nat.add_zero, below,
    Visit.concat, List.countP_flatMap, List.map_map]
  rfl

/-- A path that has lanes is asked for its children or reported to come round again. -/
theorem walk_counts_cycles (client : Client) (active : List String) (path : String) :
    (walk client active path).calls.countP client.findsLanes =
      (walk client active path).calls.countP Call.isChildren +
        (walk client active path).notices.countP Notice.isCycle := by
  induction active, path using walk_induction client with
  | device active path most device => rw [walk_device device]; rfl
  | neither active path noDevice noSlot =>
    rw [walk_neither noDevice noSlot]
    simp [Accessors.findsLanes, Call.isChildren, noSlot]
  | seen active path capacity noDevice slot seen =>
    rw [walk_repeat noDevice slot seen]
    simp [Accessors.findsLanes, Call.isChildren, Notice.isCycle, slot]
  | slot active path capacity noDevice slot fresh ih =>
    rw [notices_cycle_slot noDevice slot fresh, calls_slot noDevice slot fresh]
    have own : [.maxLanes path, .lanes path, .children path].countP client.findsLanes = 1 := by
      simp [Accessors.findsLanes, slot]
    have ownChildren : [.maxLanes path, .lanes path, .children path].countP Call.isChildren = 1 := rfl
    have each := List.map_congr_left ih
    rw [List.countP_append, List.countP_append, own, ownChildren, List.countP_flatMap,
      List.countP_flatMap, Nat.add_assoc, ← List.sum_map_add]
    exact congrArg (fun counts => 1 + counts.sum) each

theorem walk_inTurn (client : Client) (active : List String) (path : String) :
    client.InTurn path (walk client active path) := by
  have chained := walk_chained client active path
  have each := walk_asks_each_listed client active path
  refine ⟨head?_calls client active path, fun other asked => (walk_asks asked).2,
    fun _ _ _ => chained.before_lanes, fun _ _ _ => chained.after_noDevice,
    fun _ _ _ => chained.before_children, each, ?_, walk_counts_cycles client active path⟩
  rw [each.length_eq, List.length_cons, Nat.add_comm]

end Walk

/-- The calls for a path's own lanes are a walk in turn. For the answer on a bus, the main board
is asked for its children, and then each of them, as often as it is listed, for its bus; if and
only if that is the bus in question, all calls of a walk in turn come before the next child. -/
theorem calls_in_turn (client : Client) :
    (∀ path, client.InTurn path (parseDevices client path)) ∧
    ∀ mainBoard bus,
      (select client mainBoard bus).calls = .children mainBoard ::
        ((client.children mainBoard).flatMap fun child => .bus child ::
          if client.bus child = some bus then (walk client [mainBoard] child).calls else []) ∧
      ∀ child, client.InTurn child (walk client [mainBoard] child) :=
  ⟨fun path => walk_inTurn client [] path, fun mainBoard bus =>
    ⟨select_calls client mainBoard bus, fun child => walk_inTurn client [mainBoard] child⟩⟩

end SlotLanes
