import SlotLanes.Proofs.Entries

/-! Entries that each settle one field. A reader that visits them one after the other, knows a
certain set of names and gives each field what the value of its name says, reads exactly the
entries with no other name; and a field whose name does not occur keeps what it had before. -/
namespace SlotLanes

variable {ν : Type u} {α ε : Type v} {entries fields : List (String × ν)} {entry : String × ν}

def OnlyNames (entries : List (String × ν)) (names : List String) : Prop :=
  ∀ entry ∈ entries, entry.1 ∈ names

/-- A field gets what its value says; without a value it keeps the default. -/
def Settles (reads : ν → α → Prop) (value? : Option ν) (default result : α) : Prop :=
  value? = none ∧ result = default ∨ ∃ value, value? = some value ∧ reads value result

section Fields
variable {reads : ν → α → Prop} {name : String} {value : ν} {before middle after : α}

theorem settles_none : Settles reads none before after ↔ after = before := by
  simp [Settles]

theorem settles_single :
    Settles reads ([(name, value)].lookup name) before after ↔ reads value after := by
  simp [Settles]

theorem settles_apart {other : String} (apart : name ≠ other) :
    Settles reads ([(other, value)].lookup name) before after ↔ after = before := by
  simp [Settles, lookup_cons_eq_ite, apart]

theorem settles_cons (fresh : entry.1 ∉ fields.map Prod.fst) :
    Settles reads ((entry :: fields).lookup name) before after ↔
      ∃ middle, Settles reads ([entry].lookup name) before middle ∧
        Settles reads (fields.lookup name) middle after := by
  rw [lookup_cons_eq_ite, lookup_cons_eq_ite]
  by_cases same : name = entry.1
  · have absent : fields.lookup name = none := lookup_eq_none_iff_absent.mpr (same ▸ fresh)
    simp [Settles, same, same ▸ absent]
  · simp [Settles, same]

end Fields

theorem onlyNames_iff_lookup {names : List String} :
    OnlyNames entries names ↔ ∀ name, (entries.lookup name).isSome → name ∈ names := by
  simp only [OnlyNames, Option.isSome_iff_ne_none, ne_eq, lookup_eq_none_iff_absent, not_not,
    List.mem_map, forall_exists_index, and_imp, forall_apply_eq_imp_iff₂]

/-- Leaving out one name is nothing to the others. -/
theorem lookup_filter_ne {name other : String} (apart : name ≠ other) :
    (entries.filter (·.1 ≠ other)).lookup name = entries.lookup name := by
  induction entries with
  | nil => rfl
  | cons entry rest ih =>
    rw [List.filter_cons, lookup_cons_eq_ite]
    split
    next => rw [lookup_cons_eq_ite, ih]
    next dropped =>
      have same : entry.1 = other := by simpa using dropped
      rw [if_neg (same ▸ apart), ih]

theorem onlyNames_filter {other : String} {names : List String} :
    OnlyNames (entries.filter (·.1 ≠ other)) names ↔ OnlyNames entries (other :: names) := by
  simp only [OnlyNames, List.mem_filter, List.mem_cons, decide_eq_true_eq, and_imp,
    or_iff_not_imp_left]

/-- Reading one entry after the other settles the fields, if reading one entry settles its own:
what the entries settle together is what the first settles and then the others. -/
theorem foldlM_eq_ok_iff_settled {step : α → String × ν → Except ε α} {names : List String}
    {settled : List (String × ν) → α → α → Prop}
    (step_iff : ∀ {before entry after},
      step before entry = .ok after ↔ entry.1 ∈ names ∧ settled [entry] before after)
    (settled_nil : ∀ {before after}, settled [] before after ↔ after = before)
    (settled_cons : ∀ {entry fields before after}, entry.1 ∈ names →
      entry.1 ∉ fields.map Prod.fst → (settled (entry :: fields) before after ↔
        ∃ middle, settled [entry] before middle ∧ settled fields middle after))
    (distinct : (fields.map Prod.fst).Nodup) {before after : α} :
    fields.foldlM step before = .ok after ↔
      OnlyNames fields names ∧ settled fields before after := by
  induction fields generalizing before with
  | nil => simp [OnlyNames, pure_eq_ok_iff, settled_nil]
  | cons field fields ih =>
    obtain ⟨fresh, distinct⟩ := List.nodup_cons.mp distinct
    rw [List.foldlM_cons, bind_eq_ok_iff, OnlyNames, List.forall_mem_cons]
    simp only [step_iff, ih distinct]
    constructor
    · intro read
      obtain ⟨middle, ⟨known, first⟩, only, rest⟩ := read
      exact ⟨⟨known, only⟩, (settled_cons known fresh).mpr ⟨middle, first, rest⟩⟩
    · intro settles
      obtain ⟨⟨known, only⟩, settles⟩ := settles
      obtain ⟨middle, first, rest⟩ := (settled_cons known fresh).mp settles
      exact ⟨middle, ⟨known, first⟩, only, rest⟩

end SlotLanes
