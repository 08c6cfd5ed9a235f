import SlotLanes.Proofs.Boundaries
import SlotLanes.Proofs.Entries

/-! Documents by the rules for what stands one after the other: a value whose lists and objects
nest so deep at most, and blanks up to the end. The rules are about lists and objects, their marks
and their depth. A word, a number or a text is what the reader takes it for, and so is the name
of an entry. An object may give a name more than once; the last entry is the one that counts. -/
namespace SlotLanes.Json

/-- What stands there is a value that nests so deep at most. -/
def StandsAt : Nat → Bytes → Value → Bytes → Prop
  | 0, input, value, rest => ∃ scalar, value = .scalar scalar ∧ ScalarAt input scalar rest
  | depth + 1, input, value, rest => ValueAt (StandsAt depth) input value rest

/-- The bytes are one value, with blanks before and after it. -/
def Document (bytes : Bytes) (value : Value) : Prop :=
  ∃ rest, StandsAt maxDepth bytes value rest ∧ ∀ byte ∈ rest, isBlank byte = true

/-- The bytes are an object with these entries, in this order. -/
def ObjectDocument (bytes : Bytes) (entries : List (String × Value)) : Prop :=
  ∃ start rest, skipBlanks bytes = '\x7b'.toUInt8 :: start ∧
    Enclosed '\x7d'.toUInt8 (MemberAt (StandsAt (maxDepth - 1))) start entries rest ∧
      ∀ byte ∈ rest, isBlank byte = true

/-- The bytes are an object, and this is the last of its entries with the name. -/
def LastEntry (bytes : Bytes) (name : String) (value : Value) : Prop :=
  ∃ before after, ObjectDocument bytes (before ++ (name, value) :: after) ∧
    name ∉ after.map Prod.fst

variable {bytes : Bytes} {value : Value}

theorem nodeAt_eq_standsAt (depth : Nat) : NodeAt depth = StandsAt depth := by
  induction depth with
  | zero =>
    funext input value rest
    exact propext nodeAt_zero_iff
  | succ depth ih =>
    funext input value rest
    rw [StandsAt, ← ih]
    exact propext (nodeAt_succ_iff (nodeAt_endsBeforeNext depth))

theorem ofBytes_eq_ok_iff_document : Value.ofBytes bytes = .ok value ↔ Document bytes value := by
  rw [Value.ofBytes_eq_ok_iff, Document, ← nodeAt_eq_standsAt]
  simp only [checkEnd_eq_ok_iff]
  rfl

theorem exists_error_iff_no_document :
    (∃ why, Value.ofBytes bytes = .error why) ↔ ∀ value, ¬Document bytes value := by
  simp only [← ofBytes_eq_ok_iff_document]
  cases Value.ofBytes bytes with
  | ok value => simp
  | error why => simp

theorem Document.unique {other : Value} (document : Document bytes value)
    (again : Document bytes other) : value = other := by
  rw [← ofBytes_eq_ok_iff_document] at document again
  exact Except.ok.inj (document.symm.trans again)

theorem ObjectDocument.document {entries : List (String × Value)}
    (object : ObjectDocument bytes entries) : Document bytes (.object (sortEntries entries)) := by
  obtain ⟨start, rest, opens, encloses, finished⟩ := object
  exact ⟨rest, .object opens encloses, finished⟩

theorem exists_objectDocument {members : List (String × Value)}
    (document : Document bytes (.object members)) :
    ∃ entries, ObjectDocument bytes entries ∧ members = sortEntries entries := by
  obtain ⟨rest, stands, finished⟩ := document
  cases stands with
  | object opens encloses => exact ⟨_, ⟨_, rest, opens, encloses, finished⟩, rfl⟩

/-- A document holds under a name what its last entry with the name says. -/
theorem get?_eq_some_iff_lastEntry {name : String} {entry : Value} (document : Document bytes value) :
    value.get? name = some entry ↔ LastEntry bytes name entry := by
  constructor
  · intro found
    cases value with
    | scalar => cases found
    | array => cases found
    | object members =>
      obtain ⟨entries, object, rfl⟩ := exists_objectDocument document
      rw [Value.get?, lookup_sortEntries] at found
      obtain ⟨before, after, rfl, last⟩ := lookup_reverse_eq_some_iff.mp found
      exact ⟨before, after, object, last⟩
  · intro stands
    obtain ⟨before, after, object, last⟩ := stands
    obtain rfl := document.unique object.document
    rw [Value.get?, lookup_sortEntries]
    exact lookup_reverse_eq_some_iff.mpr ⟨before, after, rfl, last⟩

theorem lastEntry_iff {name : String} {entry : Value} :
    LastEntry bytes name entry ↔
      ∃ value, Document bytes value ∧ value.get? name = some entry := by
  constructor
  · intro stands
    obtain ⟨before, after, object, _⟩ := id stands
    exact ⟨_, object.document, (get?_eq_some_iff_lastEntry object.document).mpr stands⟩
  · intro found
    obtain ⟨value, document, found⟩ := found
    exact (get?_eq_some_iff_lastEntry document).mp found

theorem get?_eq_none_iff {name : String} (document : Document bytes value) :
    value.get? name = none ↔ ∀ entries, ObjectDocument bytes entries → name ∉ entries.map Prod.fst := by
  constructor
  · intro absent entries object
    obtain rfl := document.unique object.document
    rw [Value.get?, lookup_sortEntries] at absent
    exact lookup_reverse_eq_none_iff.mp absent
  · intro absent
    apply Option.eq_none_iff_forall_ne_some.mpr
    intro entry found
    obtain ⟨before, after, object, _⟩ := (get?_eq_some_iff_lastEntry document).mp found
    exact absent _ object (by simp)

end SlotLanes.Json
