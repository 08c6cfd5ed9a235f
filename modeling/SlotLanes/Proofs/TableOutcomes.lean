import SlotLanes.Proofs.Documents
import SlotLanes.Proofs.TornRead
import SlotLanes.Proofs.WrittenTable

/-! What comes of a look-up in a table file. The file cannot be read, or is no document, or has
no entry for the name, or its last entry for the name is a list of bytes or something else; each
of the five is told by the file alone, and the other entries have no part in it. A question by
name is answered, or its fault is reported in one record of a level of its own. -/
namespace SlotLanes.Table
open SlotLanes.Json (Value Document ObjectDocument LastEntry)

/-- Lanes as an entry lists them: integers with neither sign nor point nor exponent. -/
def listValue (lanes : List UInt8) : Value :=
  .array (lanes.map fun lane => .scalar (.number (.natural lane.toUInt64)))

section Entries
variable {value : Value}

theorem laneOfValue_eq_ok_iff {lane : UInt8} :
    laneOfValue value = .ok lane ↔ value = .scalar (.number (.natural lane.toUInt64)) := by
  constructor
  · intro read
    unfold laneOfValue at read
    split at read
    next n =>
      split at read
      next small =>
        obtain rfl := Except.ok.inj read
        have same : n.toUInt8.toUInt64 = n := by
          apply UInt64.toNat_inj.mp
          rw [UInt8.toNat_toUInt64, UInt64.toNat_toUInt8]
          exact Nat.mod_eq_of_lt (UInt64.lt_iff_toNat_lt.mp small)
        rw [same]
      next => cases read
    next => cases read
    next => cases read
  · intro same
    rw [same, ← UInt64.ofNat_uInt8ToNat]
    exact laneOfValue_ofNat lane

theorem lanesOfValue_eq_ok_iff {lanes : List UInt8} :
    lanesOfValue value = .ok lanes ↔ value = listValue lanes := by
  unfold lanesOfValue listValue
  split
  next items =>
    rw [Value.array.injEq]
    exact mapM_eq_ok_iff_eq_map fun _ _ => laneOfValue_eq_ok_iff
  next noList =>
    constructor
    · nofun
    · intro list
      exact absurd list (noList _)

variable {table : Value} {name : String}

theorem lanesIn_eq_ok_iff {lanes : List UInt8} :
    lanesIn table name = .ok lanes ↔ table.get? name = some (listValue lanes) := by
  unfold lanesIn
  split
  next absent => simp [absent]
  next entry found =>
    rw [mapError_eq_ok_iff, lanesOfValue_eq_ok_iff, found, Option.some.injEq]

theorem lanesIn_eq_error_iff {fault : Fault} :
    lanesIn table name = .error fault ↔ (table.get? name = none ∧ fault = .noEntry) ∨
      ∃ entry why, table.get? name = some entry ∧ lanesOfValue entry = .error why ∧
        fault = .badList why := by
  unfold lanesIn
  split
  next absent => simp [absent, eq_comm]
  next entry found => simp [found, mapError_eq_error_iff]

theorem exists_error_iff_not_list :
    (∃ why, lanesOfValue value = .error why) ↔ ∀ lanes, value ≠ listValue lanes := by
  simp only [ne_eq, ← lanesOfValue_eq_ok_iff]
  cases lanesOfValue value with
  | ok lanes => simp
  | error why => simp

end Entries

section Files
variable {files : Files} {path name : String}

theorem lookup_eq_ok_iff {lanes : List UInt8} :
    lookup files path name = .ok lanes ↔
      ∃ bytes, files.read path = .ok bytes ∧ LastEntry bytes name (listValue lanes) := by
  simp only [lookup, bind_eq_ok_iff, mapError_eq_ok_iff, lanesIn_eq_ok_iff,
    Json.ofBytes_eq_ok_iff_document, Json.lastEntry_iff]

theorem lookup_eq_error_iff {fault : Fault} :
    lookup files path name = .error fault ↔
      (∃ why, files.read path = .error why ∧ fault = .unreadable why) ∨
      ∃ bytes, files.read path = .ok bytes ∧
        ((∃ why, Value.ofBytes bytes = .error why ∧ fault = .malformed why) ∨
          ∃ table, Document bytes table ∧ lanesIn table name = .error fault) := by
  simp only [lookup, bind_eq_error_iff, mapError_eq_error_iff, mapError_eq_ok_iff,
    Json.ofBytes_eq_ok_iff_document]

theorem lookup_unreadable_iff {why : Files.Fault} :
    lookup files path name = .error (.unreadable why) ↔ files.read path = .error why := by
  simp [lookup_eq_error_iff, lanesIn_eq_error_iff]

theorem lookup_malformed_iff :
    (∃ why, lookup files path name = .error (.malformed why)) ↔
      ∃ bytes, files.read path = .ok bytes ∧ ∀ value, ¬Document bytes value := by
  simp [lookup_eq_error_iff, lanesIn_eq_error_iff, ← Json.exists_error_iff_no_document,
    exists_comm (α := Json.Error)]

theorem lookup_noEntry_iff :
    lookup files path name = .error .noEntry ↔ ∃ bytes table, files.read path = .ok bytes ∧
      Document bytes table ∧
        ∀ entries, ObjectDocument bytes entries → name ∉ entries.map Prod.fst := by
  have absent (bytes : List UInt8) (table : Value) : Document bytes table ∧ table.get? name = none ↔
      Document bytes table ∧
        ∀ entries, ObjectDocument bytes entries → name ∉ entries.map Prod.fst :=
    and_congr_right Json.get?_eq_none_iff
  simp only [← absent]
  simp [lookup_eq_error_iff, lanesIn_eq_error_iff]

theorem lookup_badList_iff :
    (∃ why, lookup files path name = .error (.badList why)) ↔
      ∃ bytes entry, files.read path = .ok bytes ∧ LastEntry bytes name entry ∧
        ∀ lanes, entry ≠ listValue lanes := by
  simp only [← exists_error_iff_not_list, lookup_eq_error_iff, lanesIn_eq_error_iff,
    Json.lastEntry_iff]
  constructor
  · intro looked
    obtain ⟨_, ⟨_, _, ⟨⟩⟩ | ⟨bytes, stored, ⟨_, _, ⟨⟩⟩ | ⟨table, document, ⟨_, ⟨⟩⟩ | found⟩⟩⟩ := looked
    obtain ⟨entry, why, found, bad, _⟩ := found
    exact ⟨bytes, entry, stored, ⟨table, document, found⟩, why, bad⟩
  · intro holds
    obtain ⟨bytes, entry, stored, ⟨table, document, found⟩, why, bad⟩ := holds
    exact ⟨why, .inr ⟨bytes, stored, .inr ⟨table, document, .inr ⟨entry, why, found, bad, rfl⟩⟩⟩⟩

theorem lookup_of_document {bytes : List UInt8} {table : Value} (stored : files.read path = .ok bytes)
    (document : Document bytes table) : lookup files path name = lanesIn table name := by
  rw [lookup, stored]
  simp only [Except.mapError, bind, Except.bind, Json.ofBytes_eq_ok_iff_document.mpr document]

/-- What other entries hold makes no difference. -/
theorem lookup_congr_entry {other : Files} {otherPath : String} {bytes otherBytes : List UInt8}
    {table otherTable : Value} (stored : files.read path = .ok bytes)
    (otherStored : other.read otherPath = .ok otherBytes) (document : Document bytes table)
    (otherDocument : Document otherBytes otherTable)
    (same : ∀ entry, LastEntry bytes name entry ↔ LastEntry otherBytes name entry) :
    lookup files path name = lookup other otherPath name := by
  have found : table.get? name = otherTable.get? name := by
    apply Option.ext
    intro entry
    rw [Json.get?_eq_some_iff_lastEntry document, Json.get?_eq_some_iff_lastEntry otherDocument]
    exact same entry
  rw [lookup_of_document stored document, lookup_of_document otherStored otherDocument, lanesIn,
    lanesIn, found]

/-- No answer, and one record of this level that says why. -/
def ReportedAt (level : Level) (answer : Logged (Option (List UInt8))) : Prop :=
  ∃ text, OnlyReported answer ⟨level, text⟩

theorem reportedAt_iff {level : Level} :
    ReportedAt level (lanesOf files path name) ↔
      ∃ fault, lookup files path name = .error fault ∧ (fault.record path name).level = level := by
  match looked : lookup files path name with
  | .ok lanes => simp [ReportedAt, OnlyReported, lanesOf, looked]
  | .error fault =>
    obtain ⟨silent, told⟩ := lanesOf_onlyReported looked
    constructor
    · intro reported
      obtain ⟨text, _, records⟩ := reported
      rw [told] at records
      exact ⟨fault, rfl, congrArg LogRecord.level (List.head_eq_of_cons_eq records)⟩
    · intro known
      obtain ⟨other, same, rfl⟩ := known
      obtain rfl := Except.error.inj same
      exact ⟨_, silent, told⟩

theorem reportedAt_error_iff :
    ReportedAt .error (lanesOf files path name) ↔
      (∃ why, lookup files path name = .error (.unreadable why)) ∨
        ∃ why, lookup files path name = .error (.malformed why) := by
  rw [reportedAt_iff]
  constructor
  · intro reported
    obtain ⟨fault, looked, level⟩ := reported
    cases fault with
    | unreadable why => exact .inl ⟨why, looked⟩
    | malformed why => exact .inr ⟨why, looked⟩
    | noEntry => cases level
    | badList => cases level
  · intro known
    obtain ⟨why, looked⟩ | ⟨why, looked⟩ := known
    · exact ⟨_, looked, rfl⟩
    · exact ⟨_, looked, rfl⟩

theorem reportedAt_debug_iff :
    ReportedAt .debug (lanesOf files path name) ↔ lookup files path name = .error .noEntry := by
  rw [reportedAt_iff]
  constructor
  · intro reported
    obtain ⟨fault, looked, level⟩ := reported
    cases fault with
    | noEntry => exact looked
    | _ => cases level
  · intro looked
    exact ⟨_, looked, rfl⟩

theorem reportedAt_warn_iff :
    ReportedAt .warn (lanesOf files path name) ↔
      ∃ why, lookup files path name = .error (.badList why) := by
  rw [reportedAt_iff]
  constructor
  · intro reported
    obtain ⟨fault, looked, level⟩ := reported
    cases fault with
    | badList why => exact ⟨why, looked⟩
    | _ => cases level
  · intro known
    obtain ⟨why, looked⟩ := known
    exact ⟨_, looked, rfl⟩

theorem lanesOf_eq_iff {lanes : List UInt8} :
    lanesOf files path name = ⟨some lanes, []⟩ ↔ lookup files path name = .ok lanes := by
  rw [lanesOf]
  split <;> simp_all

end Files

end SlotLanes.Table

namespace SlotLanes
open SlotLanes.Json (Bytes Document ObjectDocument LastEntry lastEntry_iff
  get?_eq_some_iff_lastEntry)
open SlotLanes.Table (listValue ReportedAt)

/-- A look-up has five ends, told by what the file holds: it cannot be read; it is no document; it
is no object or has no entry for the name; the last entry for the name is a list of bytes, and
these are the lanes; or that entry is anything else. Of two tables it is alone the last entry for
the name that counts. A question by name gives the lanes and reports nothing, or gives none and
reports the fault once: as an error for a file that cannot be read or is no document, for
debugging if there is no entry, and as a warning of a bad one. -/
theorem table_lookup_classified (files : Files) (path name : String) :
    let looked := Table.lookup files path name
    let answer := Table.lanesOf files path name
    ((∀ why, looked = .error (.unreadable why) ↔ files.read path = .error why) ∧
      ((∃ why, looked = .error (.malformed why)) ↔
        ∃ bytes, files.read path = .ok bytes ∧ ∀ value, ¬Document bytes value) ∧
      (looked = .error .noEntry ↔ ∃ bytes value, files.read path = .ok bytes ∧
        Document bytes value ∧ ∀ entries, ObjectDocument bytes entries → name ∉ entries.map Prod.fst) ∧
      (∀ lanes, looked = .ok lanes ↔
        ∃ bytes, files.read path = .ok bytes ∧ LastEntry bytes name (listValue lanes)) ∧
      ((∃ why, looked = .error (.badList why)) ↔ ∃ bytes entry, files.read path = .ok bytes ∧
        LastEntry bytes name entry ∧ ∀ lanes, entry ≠ listValue lanes)) ∧
    (∀ (other : Files) (otherPath : String) (bytes otherBytes : List UInt8)
      (value otherValue : Json.Value), files.read path = .ok bytes →
      other.read otherPath = .ok otherBytes → Document bytes value → Document otherBytes otherValue →
      (∀ entry, LastEntry bytes name entry ↔ LastEntry otherBytes name entry) →
      looked = Table.lookup other otherPath name) ∧
    (∀ lanes, answer = ⟨some lanes, []⟩ ↔ looked = .ok lanes) ∧
    (ReportedAt .error answer ↔ (∃ why, looked = .error (.unreadable why)) ∨
      ∃ why, looked = .error (.malformed why)) ∧
    (ReportedAt .debug answer ↔ looked = .error .noEntry) ∧
    (ReportedAt .warn answer ↔ ∃ why, looked = .error (.badList why)) := by
  refine ⟨⟨fun _ => Table.lookup_unreadable_iff, Table.lookup_malformed_iff, Table.lookup_noEntry_iff,
    fun _ => Table.lookup_eq_ok_iff, Table.lookup_badList_iff⟩, ?_, fun _ => Table.lanesOf_eq_iff,
    Table.reportedAt_error_iff, Table.reportedAt_debug_iff, Table.reportedAt_warn_iff⟩
  intro other otherPath bytes otherBytes value otherValue
  exact Table.lookup_congr_entry

/-- A bad list that a later entry of the name makes good, and one that none does. -/
def mendedTable : Bytes :=
  "\x7b\"0\": [300], \"1\": [8, -1], \"0\": [8, 8]\x7d".toUTF8.toList

def mendedTableFiles : Files := ⟨fun _ => .ok mendedTable, fun _ => true⟩

theorem mendedTable_classified :
    LastEntry mendedTable "0" (listValue [8, 8]) ∧
      Table.lookup mendedTableFiles "table.json" "0" =
        Table.lookup escapedTableFiles "table.json" "0" ∧
      Table.lanesOf mendedTableFiles "table.json" "0" = ⟨some [8, 8], []⟩ ∧
      ReportedAt .warn (Table.lanesOf mendedTableFiles "table.json" "1") ∧
      ReportedAt .debug (Table.lanesOf mendedTableFiles "table.json" "2") := by
  have found : Table.lookup mendedTableFiles "table.json" "0" = .ok [8, 8] := by cbv
  have bad : ∃ why, Table.lookup mendedTableFiles "table.json" "1" = .error (.badList why) :=
    ⟨_, by cbv⟩
  have absent : Table.lookup mendedTableFiles "table.json" "2" = .error .noEntry := by cbv
  have written : Table.lookup escapedTableFiles "table.json" "0" = .ok [8, 8] :=
    Table.lookup_written escapedTable_written rfl "0"
  obtain ⟨⟨_, _, _, listed, _⟩, alike, answered, _⟩ :=
    table_lookup_classified mendedTableFiles "table.json" "0"
  obtain ⟨_, _, _, _, _, warned⟩ := table_lookup_classified mendedTableFiles "table.json" "1"
  obtain ⟨_, _, _, _, noted, _⟩ := table_lookup_classified mendedTableFiles "table.json" "2"
  obtain ⟨bytes, stored, last⟩ := (listed [8, 8]).mp found
  obtain rfl := Except.ok.inj stored
  obtain ⟨value, document, entry⟩ := lastEntry_iff.mp last
  obtain ⟨_, otherStored, otherLast⟩ := Table.lookup_eq_ok_iff.mp written
  obtain ⟨other, otherDocument, otherEntry⟩ := lastEntry_iff.mp otherLast
  have same := alike escapedTableFiles "table.json" _ _ value other rfl otherStored document
    otherDocument fun _ => by
      rw [← get?_eq_some_iff_lastEntry document, ← get?_eq_some_iff_lastEntry otherDocument, entry,
        otherEntry]
  exact ⟨last, same, (answered [8, 8]).mpr found, warned.mpr bad, noted.mpr absent⟩

end SlotLanes
