import SlotLanes.Handler
import SlotLanes.Proofs.TwoReadings

/-! Files that are read while somebody writes them. A list or an object ends with the mark
that closes it, so what is left of a document that was cut before that mark is no document,
and neither a table nor an inventory is ever taken for a shorter one. -/
namespace SlotLanes.Json

variable {input rest torn lost document : Bytes}

/-- A list or an object begins there. -/
def OpensAt (input : Bytes) : Prop :=
  ∃ mark start, skipBlanks input = mark :: start ∧ (mark = '['.toUInt8 ∨ mark = '\x7b'.toUInt8)

def IsClosing (byte : UInt8) : Prop :=
  byte = ']'.toUInt8 ∨ byte = '\x7d'.toUInt8

theorem IsClosing.not_blank {byte : UInt8} (closing : IsClosing byte) : isBlank byte = false := by
  rcases closing with rfl | rfl <;> rfl

theorem OpensAt.of_append (opens : OpensAt (torn ++ lost)) (present : skipBlanks torn ≠ []) :
    OpensAt torn := by
  obtain ⟨first, start, stands⟩ := List.exists_cons_of_ne_nil present
  obtain ⟨taken, _, rfl, reads⟩ := skipBlanks_selfDelimiting stands
  obtain ⟨mark, after, opens, bracket⟩ := opens
  rw [List.append_assoc, reads] at opens
  cases opens
  exact ⟨_, start, stands, bracket⟩

theorem NodeAt.opensAt_iff {depth : Nat} {value : Value}
    (stands : NodeAt (depth + 1) input value rest) : OpensAt input ↔ ¬value.IsScalar := by
  rw [nodeAt_succ_iff (nodeAt_endsBeforeNext depth)] at stands
  cases stands with
  | scalar token =>
    have noOpen : ¬OpensAt input := by
      intro opens
      obtain ⟨mark, start, opens, rfl | rfl⟩ := opens
      · exact not_scalarAt_of_list opens token
      · exact not_scalarAt_of_object opens token
    simp [noOpen, Value.IsScalar]
  | array opens => exact iff_of_true ⟨_, _, opens, .inl rfl⟩ id
  | object opens => exact iff_of_true ⟨_, _, opens, .inr rfl⟩ id

theorem NodeAt.present {depth : Nat} {value : Value} (stands : NodeAt depth input value rest) :
    skipBlanks input ≠ [] := by
  intro nothing
  have broken : readNode depth input = .broken (.before .unfinishedValue []) := by
    cases depth <;> rw [readNode, readValue, nothing]
  rw [NodeAt, broken] at stands
  exact Node.not_gives_broken stands

/-- What is left of a list or an object without its closing mark is not a value. -/
theorem not_ofBytes_of_cut {value other : Value} (whole : Value.ofBytes (torn ++ lost) = .ok value)
    (bracketed : ¬value.IsScalar) (cut : ∃ mark ∈ lost, IsClosing mark) :
    Value.ofBytes torn ≠ .ok other := by
  intro read
  obtain ⟨rest, stands, finished⟩ := Value.ofBytes_eq_ok_iff.mp read
  obtain ⟨after, wholeStands, wholeFinished⟩ := Value.ofBytes_eq_ok_iff.mp whole
  have opens : OpensAt torn :=
    OpensAt.of_append ((NodeAt.opensAt_iff wholeStands).mpr bracketed) (NodeAt.present stands)
  have otherBracketed : ¬other.IsScalar := (NodeAt.opensAt_iff stands).mp opens
  obtain ⟨taken, _, rfl, reads⟩ := NodeAt.selfDelimiting stands otherBracketed
  -- The shorter reading goes through before the lost bytes too, so they all have to be blank.
  have extended := reads (rest ++ lost)
  rw [← List.append_assoc] at extended
  obtain rfl : rest ++ lost = after := Except.ok.inj (extended.rest_eq.symm.trans wholeStands.rest_eq)
  obtain ⟨mark, inside, closing⟩ := cut
  have blank := checkEnd_eq_ok_iff.mp wholeFinished mark (List.mem_append_right rest inside)
  cases closing.not_blank.symm.trans blank

end SlotLanes.Json

namespace SlotLanes
open SlotLanes.Json

variable {files : Files} {path : String} {torn lost : Bytes}

theorem Table.lookup_eq_of_unreadable {error : Json.Error} (stored : files.read path = .ok torn)
    (broken : Value.ofBytes torn = .error error) (name : String) :
    Table.lookup files path name = .error (.malformed error) := by
  rw [Table.lookup, stored]
  simp only [Except.mapError, bind, Except.bind, broken]

theorem Inventory.ofValue_ne_ok_of_scalar {value : Value} {inventory : Inventory}
    (scalar : value.IsScalar) : Inventory.ofValue value ≠ .ok inventory := by
  cases value with
  | scalar => nofun
  | array => exact scalar.elim
  | object => exact scalar.elim

/-- No lanes are given, and what there is to say is this one record. -/
def OnlyReported (answer : Logged (Option (List UInt8))) (entry : LogRecord) : Prop :=
  answer.value = none ∧ answer.events.map Event.record = [entry]

theorem Table.lanesOf_onlyReported {fault : Table.Fault} {name : String}
    (looked : Table.lookup files path name = .error fault) :
    OnlyReported (Table.lanesOf files path name) (fault.record path name) := by
  rw [Table.lanesOf, looked]
  exact ⟨rfl, rfl⟩

/-- A document cut before its last closing mark is reported, whoever reads it: the table gives
no slot any lanes and logs one error, and an inventory that was there is not loaded. -/
theorem torn_document_reported (stored : files.read path = .ok torn)
    (cut : ∃ mark ∈ lost, IsClosing mark) :
    (∀ value, Value.ofBytes (torn ++ lost) = .ok value → ¬value.IsScalar → ∃ error : Json.Error,
      let entry : LogRecord := ⟨.error, path ++ ": " ++ (Table.Fault.malformed error).message⟩
      (∀ name, Table.lookup files path name = .error (.malformed error)) ∧
      (∀ name, OnlyReported (Table.lanesOf files path name) entry) ∧
      (∀ index, OnlyReported ((Handler.table path).lanes? files index) entry)) ∧
    (∀ (whole : Files) (inventory : Inventory), whole.read path = .ok (torn ++ lost) →
      Inventory.load whole path = .ok inventory →
      ∃ error, Inventory.load files path = .error (.malformed error)) := by
  constructor
  · intro value whole bracketed
    match broken : Value.ofBytes torn with
    | .ok other => exact absurd broken (not_ofBytes_of_cut whole bracketed cut)
    | .error error =>
      have looked := Table.lookup_eq_of_unreadable stored broken
      have reported := fun name => Table.lanesOf_onlyReported (looked name)
      exact ⟨error, looked, reported, fun index => reported (Table.slotName index)⟩
  · intro whole inventory wholeStored loaded
    obtain ⟨value, read, found⟩ :=
      Inventory.exists_value_of_ofDocument ((Inventory.load_eq_ok_iff wholeStored).mp loaded)
    have bracketed : ¬value.IsScalar := fun scalar => Inventory.ofValue_ne_ok_of_scalar scalar found
    match broken : Inventory.ofDocument torn with
    | .ok other =>
      obtain ⟨_, tornRead, _⟩ := Inventory.exists_value_of_ofDocument broken
      exact absurd tornRead (not_ofBytes_of_cut read bracketed cut)
    | .error error =>
      refine ⟨error, ?_⟩
      rw [Inventory.load, stored]
      simp only [Except.mapError, bind, Except.bind, broken]

/-- The card's inventory, cut in the middle of an escape. -/
def tornCardFiles : Files := ⟨fun _ => .ok (Inventory.pluggedCard.take 42), fun _ => true⟩

theorem tornCard_reported :
    (∃ error, ∀ name, Table.lookup tornCardFiles "inventory.json" name = .error (.malformed error)) ∧
      ∃ error, Inventory.load tornCardFiles "inventory.json" = .error (.malformed error) := by
  have stored : tornCardFiles.read "inventory.json" = .ok (Inventory.pluggedCard.take 42) := rfl
  have cut : ∃ mark ∈ Inventory.pluggedCard.drop 42, IsClosing mark := by
    have inside : (Inventory.pluggedCard.drop 42).contains ']'.toUInt8 = true := by cbv
    exact ⟨_, List.contains_iff_mem.mp inside, .inl rfl⟩
  have joined : Inventory.pluggedCard.take 42 ++ Inventory.pluggedCard.drop 42 =
      Inventory.pluggedCard := List.take_append_drop 42 _
  have reported := torn_document_reported stored cut
  rw [joined] at reported
  obtain ⟨value, read, found⟩ := Inventory.exists_value_of_ofDocument Inventory.ofDocument_pluggedCard
  have bracketed : ¬value.IsScalar := fun scalar => Inventory.ofValue_ne_ok_of_scalar scalar found
  obtain ⟨error, looked, _⟩ := reported.1 value read bracketed
  exact ⟨⟨error, looked⟩, reported.2 Inventory.pluggedCardFiles _ rfl Inventory.load_pluggedCard⟩

end SlotLanes
