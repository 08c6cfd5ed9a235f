import SlotLanes.Handler
import SlotLanes.Proofs.WrittenValues

/-! A table written as a document and asked again. However its names are escaped and whatever
blanks stand in it, each slot gets the lanes of the last entry with its name. -/
namespace SlotLanes
open SlotLanes.Json

namespace Table

def LaneWritten (lane : UInt8) : Bytes → Prop :=
  DecimalWritten lane.toNat

/-- A table as the text of a document, its entries in their order. -/
def Written (table : List (String × List UInt8)) : Bytes → Prop :=
  Spaced (ObjectWritten (ListWritten LaneWritten) table)

variable {bytes : Bytes} {table : List (String × List UInt8)}

theorem exists_written (table : List (String × List UInt8)) : ∃ bytes, Written table bytes := by
  have each : ∀ member ∈ table, ∃ bytes, ListWritten LaneWritten member.2 bytes :=
    fun member _ => exists_bracketed '[' ']' fun lane _ => exists_decimalWritten lane.toNat
  obtain ⟨bytes, object⟩ := exists_objectWritten each
  exact ⟨bytes, .of_written object⟩

theorem laneOfValue_ofNat (lane : UInt8) :
    laneOfValue (.scalar (.number (.natural (UInt64.ofNat lane.toNat)))) = .ok lane := by
  have small : lane.toNat < 256 := lane.toNat_lt
  have value : (UInt64.ofNat lane.toNat).toNat = lane.toNat := by
    rw [UInt64.toNat_ofNat', Nat.mod_eq_of_lt (by omega)]
  have byte : UInt64.ofNat lane.toNat < 256 := by
    rw [UInt64.lt_iff_toNat_lt, value]
    exact small
  have same : (UInt64.ofNat lane.toNat).toUInt8 = lane := by
    apply UInt8.toNat_inj.mp
    rw [UInt64.toNat_toUInt8, value, Nat.mod_eq_of_lt small]
  rw [laneOfValue, if_pos byte, same]

/-- A value from which the lanes of a slot are read. -/
abbrev Stores (lanes : List UInt8) (value : Value) : Prop :=
  lanesOfValue value = .ok lanes

theorem readsBack_lane (lane : UInt8) (depth : Nat) :
    ReadsBack (CleanAt depth) (LaneWritten lane) (fun value => laneOfValue value = .ok lane) := by
  have fits : lane.toNat ≤ maxSignificand := lane.toNat_lt.le.trans (by decide)
  apply (readsBack_decimal fits depth).imp
  intro value same
  rw [same]
  exact laneOfValue_ofNat lane

theorem readsBack_lanes (lanes : List UInt8) (depth : Nat) :
    ReadsBack (CleanAt (depth + 1)) (ListWritten LaneWritten lanes) (Stores lanes) := by
  apply (readsBack_list fun lane _ => readsBack_lane lane depth).imp
  intro value read
  obtain ⟨values, meant, rfl⟩ := read
  exact mapM_eq_ok_iff.mpr meant.flip

theorem ofBytes_written (written : Written table bytes) :
    ∃ value, Value.ofBytes bytes = .ok value ∧ ReadsMembers Stores table value := by
  have back : ReadsBack (NodeAt maxDepth) (ObjectWritten (ListWritten LaneWritten) table)
      (ReadsMembers Stores table) :=
    readsBack_object fun member _ => (readsBack_lanes member.2 125).weaken fun _ _ _ => And.left
  obtain ⟨value, rest, meant, stands, finished⟩ := back.document (nodeAt_skipsBlanks maxDepth) written
  exact ⟨value, Value.ofBytes_eq_ok_iff.mpr ⟨rest, stands, finished⟩, meant⟩

theorem lanesIn_of_readsMembers {value : Value} (read : ReadsMembers Stores table value)
    (name : String) : lanesIn value name = (table.reverse.lookup name).elim (.error .noEntry) .ok := by
  obtain ⟨entries, stored, rfl⟩ := read
  have last := lookup_alike (List.rel_reverse stored) name
  rw [lanesIn, Value.get?, lookup_sortEntries]
  generalize table.reverse.lookup name = lanes, entries.reverse.lookup name = found at last ⊢
  cases last with
  | none => rfl
  | some same =>
    dsimp only
    rw [same]
    rfl

theorem lookup_written (written : Written table bytes) {files : Files} {path : String}
    (stored : files.read path = .ok bytes) (name : String) :
    lookup files path name = (table.reverse.lookup name).elim (.error .noEntry) .ok := by
  obtain ⟨value, read, members⟩ := ofBytes_written written
  rw [lookup, stored]
  simp only [Except.mapError, bind, Except.bind, read]
  exact lanesIn_of_readsMembers members name

theorem lanesOf_written (written : Written table bytes) {files : Files} {path : String}
    (stored : files.read path = .ok bytes) (name : String) :
    (lanesOf files path name).value = table.reverse.lookup name := by
  rw [lanesOf, lookup_written written stored]
  cases table.reverse.lookup name <;> rfl

theorem isDecimal_slotName (index : UInt8) : IsDecimal (slotName index).toList index.toNat := by
  have digits : (slotName index).toList = Nat.toDigits 10 index.toNat := Nat.toList_repr
  rw [digits]
  exact isDecimal_toDigits index.toNat

theorem slotName_injective : Function.Injective slotName := by
  intro index other same
  have value := (isDecimal_slotName index).value
  rw [same, (isDecimal_slotName other).value] at value
  exact UInt8.toNat_inj.mp value.symm

end Table

/-- A table that is written as a document, with any escapes and blanks, is read back: a name has
the lanes of its last entry, and a slot those of its number in decimal. -/
theorem written_table_read (table : List (String × List UInt8)) :
    (∃ bytes, Table.Written table bytes) ∧
    (∀ index, IsDecimal (Table.slotName index).toList index.toNat) ∧
    Function.Injective Table.slotName ∧
    ∀ bytes, Table.Written table bytes → ∀ (files : Files) (path : String),
      files.read path = .ok bytes →
      (∀ name, Table.lookup files path name =
        (table.reverse.lookup name).elim (.error .noEntry) .ok) ∧
      ∀ index, ((Handler.table path).lanes? files index).value =
        table.reverse.lookup (Table.slotName index) := by
  refine ⟨Table.exists_written table, Table.isDecimal_slotName, Table.slotName_injective, ?_⟩
  intro bytes written files path stored
  have asked := Table.lanesOf_written written stored
  exact ⟨Table.lookup_written written stored, fun index => asked (Table.slotName index)⟩

/-- Two entries for the first slot, the second with its name escaped, and one for no slot. -/
def escapedTable : List (String × List UInt8) :=
  [("0", [16]), ("\"", []), ("0", [8, 8])]

def escapedTableText : Bytes :=
  "\x7b\"0\" :[16],\"\\\"\":\t[], \"\\u0030\":[8 ,8]\x7d\n".toUTF8.toList

theorem escapedTable_written : Table.Written escapedTable escapedTableText := by
  have lane (lane : UInt8) : Table.LaneWritten lane (ascii (Nat.toDigits 10 lane.toNat)) :=
    ⟨_, isDecimal_toDigits lane.toNat, rfl⟩
  have blank : Blank (ascii [' ']) := blank_of_all rfl
  have hex {n : Nat} (small : n < 0x10) : IsHexDigit n n.digitChar := ⟨small, .inl rfl⟩
  have zero : CharWritten '0' (String.utf8EncodeChar '0') :=
    .plain (by decide) (by decide) (by decide)
  have quote : CharWritten '"' (ascii ['\\', '"']) := .named (by decide)
  have number : HexWritten '0'.toNat ['0', '0', '3', '0'] :=
    .digits (hex (by decide)) (hex (by decide)) (hex (by decide)) (hex (by decide))
  have sixteen : ListWritten Table.LaneWritten [16] _ := .elements (.one (.of_written (lane 16)))
  have nothing : ListWritten Table.LaneWritten [] _ := .empty blank_nil
  have eight : Spaced (Table.LaneWritten 8) _ :=
    ⟨[], _, ascii [' '], blank_nil, lane 8, blank, rfl⟩
  have eights : ListWritten Table.LaneWritten [8, 8] _ :=
    .elements (.more eight (.one (.of_written (lane 8))))
  have first : Spaced (MemberWritten (ListWritten Table.LaneWritten) ("0", [16])) _ :=
    .of_written ⟨_, ascii [' '], [], _, ⟨_, .cons zero .nil, rfl⟩, blank, blank_nil, sixteen,
      rfl⟩
  have second : Spaced (MemberWritten (ListWritten Table.LaneWritten) ("\"", [])) _ :=
    .of_written ⟨_, [], ascii ['\t'], _, ⟨_, .cons quote .nil, rfl⟩, blank_nil, blank_of_all rfl,
      nothing, rfl⟩
  have third : Spaced (MemberWritten (ListWritten Table.LaneWritten) ("0", [8, 8])) _ :=
    ⟨ascii [' '], _, [], blank, ⟨_, [], [], _, ⟨_, .cons (.unit number) .nil, rfl⟩, blank_nil,
      blank_nil, eights, rfl⟩, blank_nil, rfl⟩
  refine ⟨[], _, ascii ['\n'], blank_nil, .elements (.more first (.more second (.one third))),
    blank_of_all rfl, ?_⟩
  decide +kernel

def escapedTableFiles : Files := ⟨fun _ => .ok escapedTableText, fun _ => true⟩

theorem escapedTable_read :
    Table.lookup escapedTableFiles "table.json" "0" = .ok [8, 8] ∧
      Table.lookup escapedTableFiles "table.json" "\"" = .ok [] ∧
      Table.lookup escapedTableFiles "table.json" "1" = .error .noEntry ∧
      ((Handler.table "table.json").lanes? escapedTableFiles 0).value = some [8, 8] := by
  obtain ⟨_, _, _, reads⟩ := written_table_read escapedTable
  obtain ⟨looked, asked⟩ := reads _ escapedTable_written escapedTableFiles "table.json" rfl
  exact ⟨looked "0", looked "\"", looked "1", asked 0⟩

end SlotLanes
