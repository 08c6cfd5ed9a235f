import SlotLanes.Proofs.Richest
import SlotLanes.Proofs.SlotGraph

/-! The questions of a walk. All that a walk brings is decided by the answers that it gets, so
two clients that answer its questions alike are walked alike, however they differ elsewhere.
It asks only about paths that slots list one below another, for lanes only where there is no
device, and for children only below a slot. -/
namespace SlotLanes

def Call.path : Call → String
  | bus path => path
  | maxLanes path => path
  | lanes path => path
  | children path => path

/-- The two clients have one answer to a call. -/
def Call.Alike (accessors other : Accessors) : Call → Prop
  | bus path => accessors.bus path = other.bus path
  | maxLanes path => accessors.maxLanes path = other.maxLanes path
  | lanes path => accessors.lanes path = other.lanes path
  | children path => accessors.children path = other.children path

section Calls
variable {client : Client} {active : List String} {path : String} {call : Call}

theorem calls_slot {capacity : UInt64} (noDevice : client.maxLanes path = none)
    (slot : client.lanes path = some capacity) (fresh : path ∉ active) :
    (walk client active path).calls = [.maxLanes path, .lanes path, .children path] ++
      (client.children path).flatMap fun child => (walk client (path :: active) child).calls := by
  rw [walk_slot noDevice slot fresh, settle_calls]
  simp [below, Visit.concat, List.flatMap_map]

theorem mem_calls_slot {capacity : UInt64} (noDevice : client.maxLanes path = none)
    (slot : client.lanes path = some capacity) (fresh : path ∉ active) :
    call ∈ (walk client active path).calls ↔
      call ∈ [.maxLanes path, .lanes path, .children path] ∨
        ∃ child ∈ client.children path, call ∈ (walk client (path :: active) child).calls := by
  rw [calls_slot noDevice slot fresh, List.mem_append, List.mem_flatMap]

/-- Whatever a path is, it is asked for its lanes as a device. -/
theorem maxLanes_mem_calls (client : Client) (active : List String) (path : String) :
    .maxLanes path ∈ (walk client active path).calls := by
  induction active, path using walk_induction client with
  | device active path most device => simp [walk_device device]
  | neither active path noDevice noSlot => simp [walk_neither noDevice noSlot]
  | seen active path capacity noDevice slot seen => simp [walk_repeat noDevice slot seen]
  | slot active path capacity noDevice slot fresh =>
    apply (mem_calls_slot noDevice slot fresh).mpr
    simp

theorem lanes_mem_calls (active : List String) (noDevice : client.maxLanes path = none) :
    .lanes path ∈ (walk client active path).calls := by
  induction active, path using walk_induction client with
  | device active path most device => simp [noDevice] at device
  | neither active path noDevice noSlot => simp [walk_neither noDevice noSlot]
  | seen active path capacity noDevice slot seen => simp [walk_repeat noDevice slot seen]
  | slot active path capacity noDevice slot fresh =>
    apply (mem_calls_slot noDevice slot fresh).mpr
    simp

variable {mainBoard : String} {bus : UInt8}

private theorem consider_calls (best : Visit) (child : String) :
    (consider client mainBoard bus best child).calls = best.calls ++ .bus child ::
      if client.bus child = some bus then (walk client [mainBoard] child).calls else [] := by
  unfold consider
  split
  next => rfl
  next => rfl

private theorem foldl_consider_calls (children : List String) (best : Visit) :
    (children.foldl (consider client mainBoard bus) best).calls = best.calls ++
      children.flatMap fun child => .bus child ::
        if client.bus child = some bus then (walk client [mainBoard] child).calls else [] := by
  induction children generalizing best with
  | nil => simp
  | cons child children ih =>
    rw [List.foldl_cons, ih, consider_calls, List.flatMap_cons, List.append_assoc]

/-- For the answer on a bus, the main board is asked for its children, each of them for its
bus, and those on the bus are walked before the next is asked. -/
theorem select_calls (client : Client) (mainBoard : String) (bus : UInt8) :
    (select client mainBoard bus).calls = .children mainBoard ::
      (client.children mainBoard).flatMap fun child => .bus child ::
        if client.bus child = some bus then (walk client [mainBoard] child).calls else [] :=
  foldl_consider_calls _ _

theorem mem_calls_select :
    call ∈ (select client mainBoard bus).calls ↔ call = .children mainBoard ∨
      ∃ child ∈ client.children mainBoard, call = .bus child ∨
        (client.bus child = some bus ∧ call ∈ (walk client [mainBoard] child).calls) := by
  rw [select_calls, List.mem_cons, List.mem_flatMap]
  apply or_congr_right
  apply exists_congr
  intro child
  apply and_congr_right
  intro _
  rw [List.mem_cons]
  split
  next sameBus => simp [sameBus]
  next otherBus => simp [otherBus]

end Calls

section Congruence
variable {client other : Client}

/-- A walk cannot tell two clients apart that answer each of its calls alike. -/
theorem walk_congr_calls {active : List String} {path : String}
    (alike : ∀ call ∈ (walk client active path).calls,
      call.Alike client.toAccessors other.toAccessors) :
    walk client active path = walk other active path := by
  have maxLanes : client.maxLanes path = other.maxLanes path :=
    alike (.maxLanes path) (maxLanes_mem_calls client active path)
  induction active, path using walk_induction client with
  | device active path most device => rw [walk_device device, walk_device (maxLanes ▸ device)]
  | neither active path noDevice noSlot =>
    have lanes : client.lanes path = other.lanes path :=
      alike (.lanes path) (lanes_mem_calls active noDevice)
    rw [walk_neither noDevice noSlot, walk_neither (maxLanes ▸ noDevice) (lanes ▸ noSlot)]
  | seen active path capacity noDevice slot seen =>
    have lanes : client.lanes path = other.lanes path :=
      alike (.lanes path) (lanes_mem_calls active noDevice)
    rw [walk_repeat noDevice slot seen, walk_repeat (maxLanes ▸ noDevice) (lanes ▸ slot) seen]
  | slot active path capacity noDevice slot fresh ih =>
    have lanes : client.lanes path = other.lanes path :=
      alike (.lanes path) (lanes_mem_calls active noDevice)
    simp only [mem_calls_slot noDevice slot fresh] at alike
    have children : client.children path = other.children path :=
      alike (.children path) (.inl (by simp))
    have same : below client active path = below other active path := by
      unfold below
      rw [← children]
      apply congrArg Visit.concat
      apply List.map_congr_left
      intro child member
      have inside : ∀ call ∈ (walk client (path :: active) child).calls,
          call.Alike client.toAccessors other.toAccessors := by
        intro call made
        exact alike call (.inr ⟨child, member, made⟩)
      exact ih child member inside (inside _ (maxLanes_mem_calls client (path :: active) child))
    rw [walk_slot noDevice slot fresh, walk_slot (maxLanes ▸ noDevice) (lanes ▸ slot) fresh, same]

theorem select_congr_calls {mainBoard : String} {bus : UInt8}
    (alike : ∀ call ∈ (select client mainBoard bus).calls,
      call.Alike client.toAccessors other.toAccessors) :
    select client mainBoard bus = select other mainBoard bus := by
  simp only [mem_calls_select] at alike
  have askedChildren : client.children mainBoard = other.children mainBoard :=
    alike (.children mainBoard) (.inl rfl)
  unfold select
  rw [← askedChildren]
  apply List.foldl_ext
  intro best child member
  have askedBus : client.bus child = other.bus child :=
    alike (.bus child) (.inr ⟨child, member, .inl rfl⟩)
  unfold consider
  rw [← askedBus]
  split
  next sameBus =>
    have walked : walk client [mainBoard] child = walk other [mainBoard] child := by
      apply walk_congr_calls
      intro call inside
      exact alike call (.inr ⟨child, member, .inr ⟨sameBus, inside⟩⟩)
    rw [walked]
  next => rfl

end Congruence

namespace Accessors

/-- A slot lists its children, whatever they are. -/
def Lists (accessors : Accessors) (parent child : String) : Prop :=
  accessors.IsSlot parent ∧ child ∈ accessors.children parent

/-- The least set with the path itself in it and, with each slot, all that the slot lists. -/
def Reaches (accessors : Accessors) : String → String → Prop :=
  Relation.ReflTransGen accessors.Lists

/-- What a walk may ask a client. -/
def MayAsk (accessors : Accessors) : Call → Prop
  | .bus _ => False
  | .maxLanes _ => True
  | .lanes path => accessors.maxLanes path = none
  | .children path => accessors.IsSlot path

theorem Reaches.mem_of_closed {accessors : Accessors} {path other : String} {region : Set String}
    (reaches : accessors.Reaches path other) (inside : path ∈ region)
    (closed : ∀ parent ∈ region, ∀ child, accessors.Lists parent child → child ∈ region) :
    other ∈ region := by
  induction reaches with
  | refl => exact inside
  | tail _ lists ih => exact closed _ ih _ lists

end Accessors

theorem asks_before_guard {client : Client} {path : String} {call : Call}
    (noDevice : client.maxLanes path = none) (own : call ∈ [.maxLanes path, .lanes path]) :
    client.Reaches path call.path ∧ client.MayAsk call := by
  have either : call = .maxLanes path ∨ call = .lanes path := by simpa using own
  rcases either with same | same
  · rw [same]
    exact ⟨.refl, trivial⟩
  · rw [same]
    exact ⟨.refl, noDevice⟩

/-- Every call of a walk is about a path within reach, and is one that the answers before it
give a reason for. -/
theorem walk_asks {client : Client} {active : List String} {path : String} {call : Call}
    (made : call ∈ (walk client active path).calls) :
    client.Reaches path call.path ∧ client.MayAsk call := by
  induction active, path using walk_induction client with
  | device active path most device =>
    rw [walk_device device, List.mem_singleton] at made
    rw [made]
    exact ⟨.refl, trivial⟩
  | neither active path noDevice noSlot =>
    rw [walk_neither noDevice noSlot] at made
    exact asks_before_guard noDevice made
  | seen active path capacity noDevice slot seen =>
    rw [walk_repeat noDevice slot seen] at made
    exact asks_before_guard noDevice made
  | slot active path capacity noDevice slot fresh ih =>
    have isSlot := Accessors.isSlot_of noDevice slot
    rcases (mem_calls_slot noDevice slot fresh).mp made with own | ⟨child, member, inside⟩
    · have either : call ∈ [.maxLanes path, .lanes path] ∨ call = .children path := by
        simpa [or_assoc] using own
      rcases either with before | same
      · exact asks_before_guard noDevice before
      · rw [same]
        exact ⟨.refl, isSlot⟩
    · obtain ⟨reaches, mayAsk⟩ := ih child member inside
      exact ⟨.head ⟨isSlot, member⟩ reaches, mayAsk⟩

end SlotLanes
