import SlotLanes.Proofs.CleanNodes
import SlotLanes.Proofs.WrittenScalars

/-! Lists and objects as they may be written in a document, with blanks wherever they are
allowed. What stands between the brackets is read element by element: if each element is read
up to its end whatever may stand behind it, so is the whole. -/
namespace SlotLanes.Json

variable {α β : Type}

section Writing

/-- Something with blanks around it. -/
def Spaced (written : Bytes → Prop) (bytes : Bytes) : Prop :=
  ∃ before inner after, Blank before ∧ written inner ∧ Blank after ∧ bytes = before ++ (inner ++ after)

variable (written : α → Bytes → Prop)

/-- Elements with commas between them. -/
inductive Separated : List α → Bytes → Prop
  | one {x : α} {bytes : Bytes} (element : Spaced (written x) bytes) : Separated [x] bytes
  | more {x : α} {xs : List α} {bytes others : Bytes} (element : Spaced (written x) bytes)
      (separated : Separated xs others) : Separated (x :: xs) (bytes ++ ','.toUInt8 :: others)

/-- Elements between brackets. -/
inductive Bracketed (opening closing : Char) : List α → Bytes → Prop
  | empty {inner : Bytes} (blank : Blank inner) :
      Bracketed opening closing [] (opening.toUInt8 :: (inner ++ [closing.toUInt8]))
  | elements {xs : List α} {inner : Bytes} (separated : Separated written xs inner) :
      Bracketed opening closing xs (opening.toUInt8 :: (inner ++ [closing.toUInt8]))

def ListWritten (xs : List α) (bytes : Bytes) : Prop :=
  Bracketed written '[' ']' xs bytes

def MemberWritten (member : String × α) (bytes : Bytes) : Prop :=
  ∃ name before after inner, StringWritten member.1 name ∧ Blank before ∧ Blank after ∧
    written member.2 inner ∧ bytes = name ++ (before ++ ':'.toUInt8 :: (after ++ inner))

def ObjectWritten (members : List (String × α)) (bytes : Bytes) : Prop :=
  Bracketed (MemberWritten written) '\x7b' '\x7d' members bytes

end Writing

section Blanks
variable {before rest : Bytes}

theorem skipBlanks_append (blank : Blank before) (rest : Bytes) :
    skipBlanks (before ++ rest) = skipBlanks rest := by
  rw [skipBlanks, List.dropWhile_append_of_pos fun byte inside => isBlank_iff.mpr (blank byte inside),
    skipBlanks]

theorem skipBlanks_mark {mark : UInt8} (stops : mark ∈ marks) (rest : Bytes) :
    skipBlanks (mark :: rest) = mark :: rest :=
  skipBlanks_of_not_blank (isBlank_of_mem_marks stops)

theorem stops_mark {mark : UInt8} (stops : mark ∈ marks) (rest : Bytes) : Stops (mark :: rest) := by
  intro byte next
  obtain rfl : mark = byte := Option.some.inj next
  exact List.mem_append_right _ stops

theorem Stops.of_blank (blank : Blank before) (stops : Stops rest) : Stops (before ++ rest) := by
  cases before with
  | nil => exact stops
  | cons byte before =>
    intro first next
    obtain rfl : byte = first := Option.some.inj next
    exact List.mem_append_left _ (blank byte (by simp))

theorem readNode_append (blank : Blank before) (depth : Nat) (rest : Bytes) :
    readNode depth (before ++ rest) = readNode depth rest := by
  cases depth with
  | zero => rw [readNode, readValue, readValue, skipBlanks_append blank]
  | succ depth => rw [readNode, readValue, readValue, skipBlanks_append blank]

end Blanks

section Readable
variable {reads : Bytes → β → Bytes → Prop} {means : β → Prop} {bytes rest : Bytes}

/-- What begins here is not passed over, and nothing is closed by it. -/
def Starts (bytes : Bytes) : Prop :=
  ∃ first more, bytes = first :: more ∧ isBlank first = false ∧ first ∉ marks

/-- What is written is read up to its end, whatever may stand behind it, and as what is meant. -/
structure Readable (reads : Bytes → β → Bytes → Prop) (means : β → Prop) (bytes : Bytes) : Prop where
  starts : Starts bytes
  reads : ∀ rest, Stops rest → ∃ value, means value ∧ reads (bytes ++ rest) value rest

/-- Whatever is written in this way can be read so. -/
def ReadsBack (reads : Bytes → β → Bytes → Prop) (written : Bytes → Prop) (means : β → Prop) : Prop :=
  ∀ bytes, written bytes → Readable reads means bytes

variable {text : Bytes → Prop}

theorem ReadsBack.imp {meansOther : β → Prop} (back : ReadsBack reads text means)
    (same : ∀ value, means value → meansOther value) : ReadsBack reads text meansOther := by
  intro bytes written
  obtain ⟨starts, reading⟩ := back bytes written
  refine ⟨starts, fun rest stops => ?_⟩
  obtain ⟨value, meant, stands⟩ := reading rest stops
  exact ⟨value, same value meant, stands⟩

theorem ReadsBack.weaken {other : Bytes → β → Bytes → Prop} (back : ReadsBack reads text means)
    (step : ∀ input value rest, reads input value rest → other input value rest) :
    ReadsBack other text means := by
  intro bytes written
  obtain ⟨starts, reading⟩ := back bytes written
  refine ⟨starts, fun rest stops => ?_⟩
  obtain ⟨value, meant, stands⟩ := reading rest stops
  exact ⟨value, meant, step _ _ _ stands⟩

theorem ReadsBack.of_spaced (back : ReadsBack reads text means) (spaced : Spaced text bytes)
    {mark : UInt8} (stops : mark ∈ marks) (rest : Bytes) :
    ∃ first start value between, skipBlanks (bytes ++ mark :: rest) = first :: start ∧
      first ∉ marks ∧ means value ∧ reads (first :: start) value between ∧
        skipBlanks between = mark :: rest := by
  obtain ⟨before, inner, after, blankBefore, element, blankAfter, rfl⟩ := spaced
  obtain ⟨⟨first, more, rfl, present, noMark⟩, reading⟩ := back inner element
  obtain ⟨value, meant, stands⟩ :=
    reading (after ++ mark :: rest) ((stops_mark stops rest).of_blank blankAfter)
  refine ⟨first, more ++ (after ++ mark :: rest), value, _, ?_, noMark, meant, stands, ?_⟩
  · rw [List.append_assoc, List.append_assoc, skipBlanks_append blankBefore, List.cons_append,
      skipBlanks_of_not_blank present]
  · rw [skipBlanks_append blankAfter, skipBlanks_mark stops]

variable {written : α → Bytes → Prop} {meaning : α → β → Prop} {xs : List α}

theorem Separated.encloses {closing : UInt8} (closes : closing ∈ marks)
    (separated : Separated written xs bytes)
    (back : ∀ x ∈ xs, ReadsBack reads (written x) (meaning x)) (rest : Bytes) :
    ∃ values, values ≠ [] ∧ List.Forall₂ meaning xs values ∧
      Enclosed closing reads (bytes ++ closing :: rest) values rest := by
  have apart {first : UInt8} (noMark : first ∉ marks) : first ≠ closing := by
    intro same
    exact noMark (same ▸ closes)
  induction separated with
  | one element =>
    obtain ⟨first, start, value, between, present, noMark, meant, stands, behind⟩ :=
      (back _ (by simp)).of_spaced element closes rest
    exact ⟨[value], by simp, .cons meant .nil, .elements present (apart noMark) stands (.close behind)⟩
  | @more x xs bytes others element _ ih =>
    obtain ⟨values, some, meant, encloses⟩ := ih fun x member => back x (List.mem_cons_of_mem _ member)
    have comma : ','.toUInt8 ∈ marks := by decide
    obtain ⟨first, start, value, between, present, noMark, meantFirst, stands, behind⟩ :=
      (back x (by simp)).of_spaced element comma (others ++ closing :: rest)
    refine ⟨value :: values, by simp, .cons meantFirst meant, ?_⟩
    rw [List.append_assoc, List.cons_append]
    cases encloses with
    | empty => exact absurd rfl some
    | elements presentNext notClosedNext standsNext follows =>
      exact .elements present (apart noMark) stands
        (.more behind presentNext notClosedNext standsNext follows)

section Brackets
variable {opening closing : Char} (bracketed : Bracketed written opening closing xs bytes)
include bracketed

theorem Bracketed.starts (notBlank : isBlank opening.toUInt8 = false)
    (noMark : opening.toUInt8 ∉ marks) : Starts bytes := by
  cases bracketed with
  | empty => exact ⟨_, _, rfl, notBlank, noMark⟩
  | elements => exact ⟨_, _, rfl, notBlank, noMark⟩

theorem Bracketed.encloses (closes : closing.toUInt8 ∈ marks)
    (back : ∀ x ∈ xs, ReadsBack reads (written x) (meaning x)) (rest : Bytes) :
    ∃ start values, bytes ++ rest = opening.toUInt8 :: start ∧ List.Forall₂ meaning xs values ∧
      Enclosed closing.toUInt8 reads start values rest := by
  cases bracketed with
  | @empty inner blank =>
    have closed : skipBlanks (inner ++ closing.toUInt8 :: rest) = closing.toUInt8 :: rest := by
      rw [skipBlanks_append blank, skipBlanks_mark closes]
    exact ⟨inner ++ closing.toUInt8 :: rest, [], by simp, .nil, .empty closed⟩
  | @elements _ inner separated =>
    obtain ⟨values, _, meant, encloses⟩ := separated.encloses closes back rest
    exact ⟨inner ++ closing.toUInt8 :: rest, values, by simp, meant, encloses⟩

end Brackets

/-- Blanks in front do not change what is read. -/
def SkipsBlanks (reads : Bytes → β → Bytes → Prop) : Prop :=
  ∀ before input value rest, Blank before → reads input value rest → reads (before ++ input) value rest

/-- A document is one value with blanks around it. -/
theorem ReadsBack.document (skips : SkipsBlanks reads) (back : ReadsBack reads text means)
    (spaced : Spaced text bytes) :
    ∃ value rest, means value ∧ reads bytes value rest ∧ checkEnd rest = .ok () := by
  obtain ⟨before, inner, after, blankBefore, written, blankAfter, rfl⟩ := spaced
  have ends : skipBlanks after = [] := by
    rw [← List.append_nil after, skipBlanks_append blankAfter]
    rfl
  have nothing : Stops [] := nofun
  have behind : Stops after := by simpa using Stops.of_blank blankAfter nothing
  obtain ⟨value, meant, stands⟩ := (back inner written).reads after behind
  refine ⟨value, after, meant, skips _ _ _ _ blankBefore stands, ?_⟩
  rw [checkEnd, ends]

end Readable

section Values
variable {depth : Nat} {bytes : Bytes} {written : α → Bytes → Prop} {means : α → Value → Prop}

theorem nodeAt_skipsBlanks (depth : Nat) : SkipsBlanks (NodeAt depth) := by
  intro before input value rest blank stands
  rw [NodeAt, readNode_append blank]
  exact stands

theorem cleanAt_skipsBlanks (depth : Nat) : SkipsBlanks (CleanAt depth) := by
  intro before input value rest blank stands
  rw [CleanAt, NodeAt, readNode_append blank]
  exact stands

theorem readsBack_decimal {n : Nat} (fits : n ≤ maxSignificand) (depth : Nat) :
    ReadsBack (CleanAt depth) (DecimalWritten n)
      (· = .scalar (.number (.natural (UInt64.ofNat n)))) := by
  intro bytes written
  obtain ⟨digits, decimal, rfl⟩ := written
  refine ⟨?_, fun rest stops => ⟨_, rfl, .of_scalarAt (scalarAt_decimal decimal fits stops) depth⟩⟩
  obtain ⟨first, others, rfl⟩ := List.exists_cons_of_ne_nil decimal.present
  have digit : isDigit first.toUInt8 = true := isDigit_toUInt8 (decimal.digit first (by simp))
  exact ⟨_, _, rfl, isBlank_of_isDigit digit, not_mem_marks_of_isDigit digit⟩

theorem StringWritten.starts {string : String} (written : StringWritten string bytes) (rest : Bytes) :
    Starts (bytes ++ rest) := by
  obtain ⟨pieces, _, rfl⟩ := written
  exact ⟨_, _, rfl, rfl, by decide⟩

theorem readsBack_string (string : String) (depth : Nat) :
    ReadsBack (CleanAt depth) (StringWritten string) (· = .scalar (.string string)) := by
  intro bytes written
  have starts : Starts bytes := by simpa using written.starts []
  exact ⟨starts, fun rest _ => ⟨_, rfl, .of_scalarAt (scalarAt_written written rest) depth⟩⟩

theorem readsBack_null (depth : Nat) :
    ReadsBack (CleanAt depth) (· = ascii ['n', 'u', 'l', 'l']) (· = .scalar .null) := by
  intro bytes written
  refine ⟨⟨_, _, written, rfl, by decide⟩, fun rest _ => ⟨_, rfl, ?_⟩⟩
  have token : ScalarAt (ascii ['n', 'u', 'l', 'l'] ++ rest) .null rest := rfl
  exact written ▸ .of_scalarAt token depth

theorem readsBack_list {xs : List α}
    (back : ∀ x ∈ xs, ReadsBack (CleanAt depth) (written x) (means x)) :
    ReadsBack (CleanAt (depth + 1)) (ListWritten written xs)
      (fun value => ∃ values, List.Forall₂ means xs values ∧ value = .array values) := by
  intro bytes list
  refine ⟨list.starts rfl (by decide), fun rest _ => ?_⟩
  obtain ⟨start, values, opens, meant, encloses⟩ := list.encloses (by decide) back rest
  refine ⟨.array values, ⟨values, meant, rfl⟩, CleanAt.array ?_ encloses⟩
  rw [opens]
  exact skipBlanks_of_not_blank rfl

section Objects
variable {reads : Bytes → Value → Bytes → Prop} (skips : SkipsBlanks reads)
include skips

theorem readsBack_member {member : String × α}
    (back : ReadsBack reads (written member.2) (means member.2)) :
    ReadsBack (MemberAt reads) (MemberWritten written member) (Alike means member) := by
  intro bytes memberWritten
  obtain ⟨name, before, after, inner, key, blankBefore, blankAfter, value, rfl⟩ := memberWritten
  refine ⟨key.starts _, fun rest stops => ?_⟩
  obtain ⟨found, meant, stands⟩ := (back inner value).reads rest stops
  obtain ⟨text, same, read⟩ := key.read (before ++ ':'.toUInt8 :: (after ++ inner) ++ rest)
  have colon : skipBlanks (before ++ ':'.toUInt8 :: (after ++ inner) ++ rest) =
      ':'.toUInt8 :: (after ++ (inner ++ rest)) := by
    rw [List.append_assoc, skipBlanks_append blankBefore, List.cons_append, List.append_assoc]
    exact skipBlanks_of_not_blank rfl
  refine ⟨(member.1, found), ⟨rfl, meant⟩, ?_⟩
  rw [List.append_assoc, same]
  exact .member read colon (skips _ _ _ _ blankAfter stands)

variable {members : List (String × α)}
  (back : ∀ member ∈ members, ReadsBack reads (written member.2) (means member.2))
include back

theorem ObjectWritten.encloses (object : ObjectWritten written members bytes) (rest : Bytes) :
    ∃ start entries, skipBlanks (bytes ++ rest) = '\x7b'.toUInt8 :: start ∧
      List.Forall₂ (Alike means) members entries ∧
        Enclosed '\x7d'.toUInt8 (MemberAt reads) start entries rest := by
  have each : ∀ member ∈ members,
      ReadsBack (MemberAt reads) (MemberWritten written member) (Alike means member) :=
    fun member inside => readsBack_member skips (back member inside)
  obtain ⟨start, entries, opens, meant, encloses⟩ := Bracketed.encloses object (by decide) each rest
  refine ⟨start, entries, ?_, meant, encloses⟩
  rw [opens]
  exact skipBlanks_of_not_blank rfl

end Objects

variable {members : List (String × α)}

/-- What is read of an object: its members under their names, sorted. -/
abbrev ReadsMembers (means : α → Value → Prop) (members : List (String × α)) (value : Value) : Prop :=
  ∃ entries, List.Forall₂ (Alike means) members entries ∧ value = .object (sortEntries entries)

theorem readsBack_object
    (back : ∀ member ∈ members, ReadsBack (NodeAt depth) (written member.2) (means member.2)) :
    ReadsBack (NodeAt (depth + 1)) (ObjectWritten written members) (ReadsMembers means members) := by
  intro bytes object
  refine ⟨object.starts rfl (by decide), fun rest _ => ?_⟩
  obtain ⟨start, entries, opens, meant, encloses⟩ :=
    ObjectWritten.encloses (nodeAt_skipsBlanks depth) back object rest
  exact ⟨_, ⟨entries, meant, rfl⟩, .object opens encloses⟩

theorem readsBack_object_clean
    (back : ∀ member ∈ members, ReadsBack (CleanAt depth) (written member.2) (means member.2))
    (distinct : (members.map Prod.fst).Nodup) :
    ReadsBack (CleanAt (depth + 1)) (ObjectWritten written members) (ReadsMembers means members) := by
  intro bytes object
  refine ⟨object.starts rfl (by decide), fun rest _ => ?_⟩
  obtain ⟨start, entries, opens, meant, encloses⟩ :=
    ObjectWritten.encloses (cleanAt_skipsBlanks depth) back object rest
  have names := names_eq_of_alike meant ▸ distinct
  exact ⟨_, ⟨entries, meant, rfl⟩, .object opens encloses names⟩

end Values

section Existence
variable {written : α → Bytes → Prop} {xs : List α}

theorem blank_nil : Blank [] := by
  intro byte inside
  cases inside

theorem Spaced.of_written {written : Bytes → Prop} {bytes : Bytes} (element : written bytes) :
    Spaced written bytes :=
  ⟨[], bytes, [], blank_nil, element, blank_nil, by simp⟩

theorem exists_separated {x : α} (each : ∀ other ∈ x :: xs, ∃ bytes, written other bytes) :
    ∃ bytes, Separated written (x :: xs) bytes := by
  induction xs generalizing x with
  | nil =>
    obtain ⟨bytes, element⟩ := each x (by simp)
    exact ⟨bytes, .one (.of_written element)⟩
  | cons next xs ih =>
    obtain ⟨bytes, element⟩ := each x (by simp)
    obtain ⟨others, separated⟩ := ih fun other member => each other (List.mem_cons_of_mem _ member)
    exact ⟨_, .more (.of_written element) separated⟩

theorem exists_bracketed (opening closing : Char) (each : ∀ x ∈ xs, ∃ bytes, written x bytes) :
    ∃ bytes, Bracketed written opening closing xs bytes := by
  cases xs with
  | nil => exact ⟨_, .empty blank_nil⟩
  | cons x xs =>
    obtain ⟨inner, separated⟩ := exists_separated each
    exact ⟨_, .elements separated⟩

theorem exists_objectWritten {members : List (String × α)}
    (each : ∀ member ∈ members, ∃ bytes, written member.2 bytes) :
    ∃ bytes, ObjectWritten written members bytes := by
  apply exists_bracketed
  intro member inside
  obtain ⟨inner, value⟩ := each member inside
  obtain ⟨name, key⟩ := exists_stringWritten member.1
  exact ⟨_, name, [], [], inner, key, blank_nil, blank_nil, value, rfl⟩

end Existence

end SlotLanes.Json
