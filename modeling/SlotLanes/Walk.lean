import SlotLanes.Client
import SlotLanes.Log

/-! The lanes used below a path. A device answers for itself; a slot answers for its
children and for the capacity they leave, and for nothing if they need more than it
has. A slot met again on its own branch ends the branch. Counts keep sixty-four bits
until the walk is over. -/
namespace SlotLanes

inductive Call where
  | bus (path : String)
  | maxLanes (path : String)
  | lanes (path : String)
  | children (path : String)
  deriving DecidableEq, Repr

def Call.text : Call → String
  | bus path => "bus " ++ path
  | maxLanes path => "max-lanes " ++ path
  | lanes path => "lanes " ++ path
  | children path => "children " ++ path

inductive Notice where
  | cycle (path : String)
  | overCapacity (path : String) (total capacity : UInt64)
  /-- A child of the main board has more entries than those before it. -/
  | gives (bus : UInt8) (path : String) (lanes : List UInt64)
  deriving DecidableEq, Repr

def Notice.record : Notice → LogRecord
  | cycle path => ⟨.warn, "inventory cycle through " ++ path ++ "; ignoring repeat"⟩
  | overCapacity path total capacity =>
    ⟨.warn, path ++ ": devices need " ++ toString total.toNat ++ " lanes but slot only has " ++
      toString capacity.toNat⟩
  | gives bus path lanes =>
    ⟨.debug, "bus " ++ toString bus.toNat ++ ": " ++ path ++ " gives " ++
      listText (lanes.map UInt64.toNat)⟩

/-- A walk's lanes, with its notices and calls in the order they came about. -/
structure Visit where
  lanes : List UInt64
  notices : List Notice
  calls : List Call
  deriving DecidableEq, Repr

def Visit.append (first second : Visit) : Visit where
  lanes := first.lanes ++ second.lanes
  notices := first.notices ++ second.notices
  calls := first.calls ++ second.calls

def Visit.concat (visits : List Visit) : Visit where
  lanes := visits.flatMap Visit.lanes
  notices := visits.flatMap Visit.notices
  calls := visits.flatMap Visit.calls

def greatestCount : UInt64 := 0xffffffffffffffff

def addCounts (sum count : UInt64) : UInt64 :=
  if greatestCount - sum < count then greatestCount else sum + count

def totalLanes (lanes : List UInt64) : UInt64 :=
  lanes.foldl addCounts 0

def settle (path : String) (capacity : UInt64) (below : Visit) : Visit :=
  let total := totalLanes below.lanes
  if capacity < total then
    { below with lanes := [], notices := below.notices ++ [.overCapacity path total capacity] }
  else if total < capacity then { below with lanes := below.lanes ++ [capacity - total] }
  else below

theorem settle_notices (path : String) (capacity : UInt64) (below : Visit) :
    (settle path capacity below).notices = below.notices ++
      (if capacity < totalLanes below.lanes then
        [.overCapacity path (totalLanes below.lanes) capacity] else []) := by
  simp only [settle]
  split
  · rfl
  · split <;> simp

theorem settle_calls (path : String) (capacity : UInt64) (below : Visit) :
    (settle path capacity below).calls = below.calls := by
  simp only [settle]
  split
  · rfl
  · split <;> rfl

/-- Visits a path; `active` are the slots on the branch that leads there. -/
def walk (client : Client) (active : List String) (path : String) : Visit :=
  match device : client.maxLanes path with
  | some most => ⟨[most], [], [.maxLanes path]⟩
  | none =>
    match slot : client.lanes path with
    | none => ⟨[], [], [.maxLanes path, .lanes path]⟩
    | some capacity =>
      if seen : path ∈ active then ⟨[], [.cycle path], [.maxLanes path, .lanes path]⟩
      else
        have := client.length_unvisited_lt
          (client.mem_slots path device (by simp [slot])) seen
        let below := Visit.concat
          ((client.children path).map fun child => walk client (path :: active) child)
        settle path capacity
          { below with calls := [.maxLanes path, .lanes path, .children path] ++ below.calls }
termination_by (client.unvisited active).length

theorem walk_device {client : Client} {active : List String} {path : String} {most : UInt64}
    (device : client.maxLanes path = some most) :
    walk client active path = ⟨[most], [], [.maxLanes path]⟩ := by
  rw [walk]; grind

theorem walk_neither {client : Client} {active : List String} {path : String}
    (noDevice : client.maxLanes path = none) (noSlot : client.lanes path = none) :
    walk client active path = ⟨[], [], [.maxLanes path, .lanes path]⟩ := by
  rw [walk]; grind

theorem walk_repeat {client : Client} {active : List String} {path : String} {capacity : UInt64}
    (noDevice : client.maxLanes path = none) (slot : client.lanes path = some capacity)
    (seen : path ∈ active) :
    walk client active path = ⟨[], [.cycle path], [.maxLanes path, .lanes path]⟩ := by
  rw [walk]; grind

def below (client : Client) (active : List String) (path : String) : Visit :=
  Visit.concat ((client.children path).map (walk client (path :: active)))

theorem walk_slot {client : Client} {active : List String} {path : String} {capacity : UInt64}
    (noDevice : client.maxLanes path = none) (slot : client.lanes path = some capacity)
    (fresh : path ∉ active) :
    walk client active path = settle path capacity
      { below client active path with
        calls := [.maxLanes path, .lanes path, .children path] ++ (below client active path).calls } := by
  rw [walk]
  split
  · grind
  · split
    · grind
    · simp_all [below]

/-- Induction along the branches of a walk: a fresh slot may use what holds of each of its
children with the slot on the branch. -/
@[elab_as_elim]
theorem walk_induction (client : Client) {motive : List String → String → Prop}
    (device : ∀ active path most, client.maxLanes path = some most → motive active path)
    (neither : ∀ active path, client.maxLanes path = none → client.lanes path = none →
      motive active path)
    (seen : ∀ active path capacity, client.maxLanes path = none →
      client.lanes path = some capacity → path ∈ active → motive active path)
    (slot : ∀ active path capacity, client.maxLanes path = none →
      client.lanes path = some capacity → path ∉ active →
      (∀ child ∈ client.children path, motive (path :: active) child) → motive active path)
    (active : List String) (path : String) : motive active path := by
  cases noDevice : client.maxLanes path with
  | some most => exact device active path most noDevice
  | none =>
    cases isSlot : client.lanes path with
    | none => exact neither active path noDevice isSlot
    | some capacity =>
      by_cases fresh : path ∈ active
      · exact seen active path capacity noDevice isSlot fresh
      · have fewer := client.length_unvisited_lt
          (client.mem_slots path noDevice (by simp [isSlot])) fresh
        exact slot active path capacity noDevice isSlot fresh fun child _ =>
          walk_induction client device neither seen slot (path :: active) child
termination_by (client.unvisited active).length

/-- A lane count as it travels: nothing real is wider than a byte. -/
def narrow (lanes : UInt64) : UInt8 :=
  UInt8.ofNat (min lanes.toNat 255)

def Visit.bytes (visit : Visit) : List UInt8 :=
  visit.lanes.map narrow

def parseDevices (client : Client) (path : String) : Visit :=
  walk client [] path

end SlotLanes
