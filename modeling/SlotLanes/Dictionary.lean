/-! Values by name, kept in increasing order of the names, so that two dictionaries with
the same answers are equal. The order of strings is that of their code points. -/
namespace SlotLanes

/-- Puts an entry at its place and in place of an earlier one of that name. -/
def insertEntry (name : String) (value : α) : List (String × α) → List (String × α)
  | [] => [(name, value)]
  | entry :: rest =>
    if name < entry.1 then (name, value) :: entry :: rest
    else if name = entry.1 then (name, value) :: rest
    else entry :: insertEntry name value rest

def sortEntries (entries : List (String × α)) : List (String × α) :=
  entries.foldl (fun sorted entry => insertEntry entry.1 entry.2 sorted) []

def Sorted (entries : List (String × α)) : Prop :=
  entries.Pairwise fun a b => a.1 < b.1

theorem mem_insertEntry {name : String} {value : α} {entries : List (String × α)}
    {entry : String × α} (inside : entry ∈ insertEntry name value entries) :
    entry = (name, value) ∨ entry ∈ entries := by
  induction entries with
  | nil => simp_all [insertEntry]
  | cons head rest ih =>
    simp only [insertEntry] at inside
    grind

theorem lt_of_not_lt_of_ne {a b : String} (notLess : ¬a < b) (different : a ≠ b) : b < a := by
  apply Classical.byContradiction
  intro notGreater
  exact different (String.le_antisymm (String.not_lt.mp notGreater) (String.not_lt.mp notLess))

theorem Sorted.insertEntry {entries : List (String × α)} (sorted : Sorted entries) (name : String)
    (value : α) : Sorted (insertEntry name value entries) := by
  induction entries with
  | nil => simp [SlotLanes.insertEntry, Sorted]
  | cons head rest ih =>
    obtain ⟨below, sortedRest⟩ := List.pairwise_cons.mp sorted
    simp only [SlotLanes.insertEntry]
    split
    next less =>
      refine List.pairwise_cons.mpr ⟨fun entry inside => ?_, sorted⟩
      rcases List.mem_cons.mp inside with rfl | inside
      · exact less
      · exact String.lt_trans less (below entry inside)
    next notLess =>
      split
      next same => exact List.pairwise_cons.mpr ⟨fun entry inside => same ▸ below entry inside, sortedRest⟩
      next different =>
        refine List.pairwise_cons.mpr ⟨fun entry inside => ?_, ih sortedRest⟩
        rcases mem_insertEntry inside with rfl | inside
        · exact lt_of_not_lt_of_ne notLess different
        · exact below entry inside

theorem lookup_cons_eq_ite (entry : String × α) (rest : List (String × α)) (name : String) :
    (entry :: rest).lookup name = if name = entry.1 then some entry.2 else rest.lookup name := by
  obtain ⟨key, value⟩ := entry
  by_cases same : name = key
  · simp [same]
  · rw [List.lookup_cons, beq_false_of_ne same, if_neg same]

@[simp] theorem lookup_insertEntry (name other : String) (value : α)
    (entries : List (String × α)) :
    (insertEntry name value entries).lookup other =
      if other = name then some value else entries.lookup other := by
  induction entries with
  | nil => simp [insertEntry, lookup_cons_eq_ite]
  | cons head rest ih =>
    simp only [insertEntry]
    split
    · simp only [lookup_cons_eq_ite]
    · split
      next same => by_cases asked : other = name <;> simp [lookup_cons_eq_ite, asked, ← same]
      next different =>
        by_cases asked : other = head.1
        · simp [lookup_cons_eq_ite, asked, Ne.symm different]
        · simp [lookup_cons_eq_ite, asked, ih]

theorem lookup_eq_none_of_lt {entries : List (String × α)} {name : String}
    (below : ∀ entry ∈ entries, name < entry.1) : entries.lookup name = none := by
  induction entries with
  | nil => rfl
  | cons head rest ih =>
    have first := below head (by simp)
    have different : name ≠ head.1 := fun same => String.lt_irrefl head.1 (same ▸ first)
    rw [lookup_cons_eq_ite, if_neg different]
    exact ih fun entry inside => below entry (List.mem_cons_of_mem _ inside)

theorem Sorted.eq_of_lookup {a b : List (String × α)} (sortedA : Sorted a) (sortedB : Sorted b)
    (same : ∀ name, a.lookup name = b.lookup name) : a = b := by
  induction a generalizing b with
  | nil =>
    cases b with
    | nil => rfl
    | cons head rest => simpa [lookup_cons_eq_ite] using same head.1
  | cons head rest ih =>
    cases b with
    | nil => simpa [lookup_cons_eq_ite] using same head.1
    | cons other more =>
      obtain ⟨belowA, sortedRest⟩ := List.pairwise_cons.mp sortedA
      obtain ⟨belowB, sortedMore⟩ := List.pairwise_cons.mp sortedB
      have names : head.1 = other.1 := by
        apply Classical.byContradiction
        intro different
        have first := same head.1
        have second := same other.1
        rw [lookup_cons_eq_ite, lookup_cons_eq_ite, if_pos rfl, if_neg different] at first
        rw [lookup_cons_eq_ite, lookup_cons_eq_ite, if_pos rfl, if_neg (Ne.symm different)] at second
        by_cases less : head.1 < other.1
        · have none := lookup_eq_none_of_lt fun entry inside =>
            String.lt_trans less (belowB entry inside)
          simp [none] at first
        · have none := lookup_eq_none_of_lt fun entry inside =>
            String.lt_trans (lt_of_not_lt_of_ne less different) (belowA entry inside)
          simp [none] at second
      have values : head.2 = other.2 := by
        have found := same head.1
        rw [lookup_cons_eq_ite, lookup_cons_eq_ite, if_pos rfl, if_pos names] at found
        exact Option.some.inj found
      obtain rfl : head = other := Prod.ext names values
      have tails : rest = more := by
        refine ih sortedRest sortedMore fun name => ?_
        by_cases asked : name = head.1
        · subst asked
          rw [lookup_eq_none_of_lt belowA, lookup_eq_none_of_lt belowB]
        · have found := same name
          rwa [lookup_cons_eq_ite, lookup_cons_eq_ite, if_neg asked, if_neg asked] at found
      rw [tails]

structure Dictionary (α : Type) where
  entries : List (String × α)
  sorted : Sorted entries

namespace Dictionary

def empty : Dictionary α := ⟨[], .nil⟩

instance : Inhabited (Dictionary α) := ⟨empty⟩

def get? (dictionary : Dictionary α) (name : String) : Option α :=
  dictionary.entries.lookup name

def insert (dictionary : Dictionary α) (name : String) (value : α) : Dictionary α :=
  ⟨insertEntry name value dictionary.entries, dictionary.sorted.insertEntry name value⟩

@[simp] theorem get?_empty (name : String) : (empty : Dictionary α).get? name = none := rfl

@[simp] theorem get?_insert (dictionary : Dictionary α) (name other : String) (value : α) :
    (dictionary.insert name value).get? other =
      if other = name then some value else dictionary.get? other :=
  lookup_insertEntry name other value dictionary.entries

theorem eq_of_get? {a b : Dictionary α} (same : ∀ name, a.get? name = b.get? name) : a = b := by
  obtain ⟨entriesA, sortedA⟩ := a
  obtain ⟨entriesB, sortedB⟩ := b
  obtain rfl := Sorted.eq_of_lookup sortedA sortedB same
  rfl

/-- Of several entries with one name the last counts. -/
def ofList (entries : List (String × α)) : Dictionary α :=
  entries.foldl (fun dictionary entry => dictionary.insert entry.1 entry.2) empty

end Dictionary
end SlotLanes
