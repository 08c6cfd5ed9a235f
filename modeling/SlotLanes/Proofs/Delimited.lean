import Mathlib.Data.List.TakeWhile
import SlotLanes.Json.Fault

/-! Where a reader stops. What it takes off the front of its input does not depend on what
follows, or only on the first byte of it; so the same bytes are read in the same way before
any other input that begins alike. Readers one after the other keep this. -/
namespace SlotLanes.Json

/-- The bytes before `rest`, of which there are some, are read in the same way whatever
follows them. -/
def SelfDelimiting (reads : Bytes → Bytes → Prop) (input rest : Bytes) : Prop :=
  ∃ taken, taken ≠ [] ∧ input = taken ++ rest ∧ ∀ other, reads (taken ++ other) other

/-- The bytes before `rest` are read in the same way as long as what follows them begins
with the same byte. -/
def Delimited (reads : Bytes → Bytes → Prop) (input rest : Bytes) : Prop :=
  ∃ taken, input = taken ++ rest ∧ ∀ other, other.head? = rest.head? → reads (taken ++ other) other

variable {first second both : Bytes → Bytes → Prop} {input middle rest : Bytes}

theorem head?_append_congr {other rest : Bytes} (taken : Bytes) (same : other.head? = rest.head?) :
    (taken ++ other).head? = (taken ++ rest).head? := by
  rw [List.head?_append, List.head?_append, same]

theorem SelfDelimiting.delimited (whole : SelfDelimiting first input rest) :
    Delimited first input rest := by
  obtain ⟨taken, _, rfl, reads⟩ := whole
  exact ⟨taken, rfl, fun other _ => reads other⟩

theorem SelfDelimiting.of_byte (byte : UInt8) (rest : Bytes) :
    SelfDelimiting (fun input rest => input = byte :: rest) (byte :: rest) rest :=
  ⟨[byte], by simp, rfl, fun _ => rfl⟩

theorem Delimited.of_end {reads : Bytes → Bytes → Prop} (read : reads input []) :
    Delimited reads input [] := by
  refine ⟨input, by simp, fun other same => ?_⟩
  obtain rfl : other = [] := by simpa using same
  simpa using read

theorem Delimited.imp (whole : Delimited first input rest)
    (step : ∀ {other rest}, other.head? = input.head? → first other rest → second other rest) :
    Delimited second input rest := by
  obtain ⟨taken, rfl, reads⟩ := whole
  exact ⟨taken, rfl, fun other same => step (head?_append_congr taken same) (reads other same)⟩

theorem Delimited.append (front : Delimited first input middle)
    (back : Delimited second middle rest)
    (join : ∀ {input middle rest}, first input middle → second middle rest → both input rest) :
    Delimited both input rest := by
  obtain ⟨taken, rfl, reads⟩ := front
  obtain ⟨more, rfl, goesOn⟩ := back
  refine ⟨taken ++ more, by simp, fun other same => ?_⟩
  rw [List.append_assoc]
  exact join (reads (more ++ other) (head?_append_congr more same)) (goesOn other same)

theorem Delimited.closed (front : Delimited first input middle)
    (back : SelfDelimiting second middle rest)
    (join : ∀ {input middle rest}, first input middle → second middle rest → both input rest) :
    SelfDelimiting both input rest := by
  obtain ⟨taken, rfl, reads⟩ := front
  obtain ⟨closing, present, rfl, closes⟩ := back
  refine ⟨taken ++ closing, by simp [present], by simp, fun other => ?_⟩
  obtain ⟨byte, more, rfl⟩ := List.exists_cons_of_ne_nil present
  rw [List.append_assoc]
  exact join (reads _ rfl) (closes other)

/-- A longest run of bytes of one kind is the same before anything that begins alike. -/
theorem run_delimited (kind : UInt8 → Bool) (input : Bytes) :
    Delimited (fun other rest => other.takeWhile kind = input.takeWhile kind ∧
      other.dropWhile kind = rest) input (input.dropWhile kind) := by
  have inside : ∀ byte ∈ input.takeWhile kind, kind byte = true :=
    fun _ => List.mem_takeWhile_imp
  refine ⟨input.takeWhile kind, List.takeWhile_append_dropWhile.symm, fun other same => ?_⟩
  have stops : other.takeWhile kind = [] ∧ other.dropWhile kind = other := by
    cases other with
    | nil => simp
    | cons byte more =>
      have outside := List.head?_dropWhile_not kind input
      rw [← same, List.head?_cons] at outside
      simp [show kind byte = false by simpa using outside]
  constructor
  · rw [List.takeWhile_append_of_pos inside, stops.1, List.append_nil]
  · rw [List.dropWhile_append_of_pos inside, stops.2]

end SlotLanes.Json
