import Mathlib.Data.List.Forall2

/-! Success of computations that may fail, one step at a time. -/
namespace SlotLanes

universe u v
variable {α β : Type v} {ε ε' : Type u}

theorem bind_eq_ok_iff {first : Except ε α} {next : α → Except ε β} {result : β} :
    first >>= next = .ok result ↔ ∃ value, first = .ok value ∧ next value = .ok result := by
  cases first with
  | error fault => simp [bind, Except.bind]
  | ok value => simp [bind, Except.bind]

theorem pure_eq_ok_iff {value result : α} :
    (pure value : Except ε α) = .ok result ↔ result = value := by
  simp [pure, Except.pure, eq_comm]

theorem mapError_eq_ok_iff {outcome : Except ε α} {f : ε → ε'} {result : α} :
    outcome.mapError f = .ok result ↔ outcome = .ok result := by
  cases outcome <;> simp [Except.mapError]

theorem bind_eq_error_iff {first : Except ε α} {next : α → Except ε β} {fault : ε} :
    first >>= next = .error fault ↔
      first = .error fault ∨ ∃ value, first = .ok value ∧ next value = .error fault := by
  cases first with
  | error fault => simp [bind, Except.bind]
  | ok value => simp [bind, Except.bind]

theorem mapError_eq_error_iff {outcome : Except ε α} {f : ε → ε'} {fault : ε'} :
    outcome.mapError f = .error fault ↔ ∃ why, outcome = .error why ∧ fault = f why := by
  cases outcome <;> simp [Except.mapError, eq_comm]

theorem map_eq_ok_iff {outcome : Except ε α} {f : α → β} {result : β} :
    outcome.map f = .ok result ↔ ∃ value, outcome = .ok value ∧ result = f value := by
  cases outcome <;> simp [Except.map, eq_comm]

theorem mapM_eq_ok_iff {f : α → Except ε β} {list : List α} {results : List β} :
    list.mapM f = .ok results ↔ List.Forall₂ (fun item result => f item = .ok result) list results := by
  induction list generalizing results with
  | nil => simp [pure, Except.pure, eq_comm]
  | cons head rest ih =>
    rw [List.mapM_cons, bind_eq_ok_iff]
    simp only [bind_eq_ok_iff, ih, pure_eq_ok_iff]
    constructor
    · rintro ⟨first, found, others, all, rfl⟩
      exact .cons found all
    · rintro (_ | ⟨found, all⟩)
      exact ⟨_, found, _, all, rfl⟩

/-- The leftmost item that fails decides how a list of them does. -/
theorem mapM_eq_error_iff {f : α → Except ε β} {list : List α} {fault : ε} :
    list.mapM f = .error fault ↔ ∃ before item after, list = before ++ item :: after ∧
      (∀ earlier ∈ before, ∃ result, f earlier = .ok result) ∧ f item = .error fault := by
  induction list with
  | nil => simp [pure, Except.pure]
  | cons head rest ih =>
    rw [List.mapM_cons, bind_eq_error_iff]
    simp only [bind_eq_error_iff, ih, pure, Except.pure, reduceCtorEq, and_false, exists_false,
      or_false]
    constructor
    · intro stops
      rcases stops with failed | ⟨result, read, before, item, after, rfl, good, failed⟩
      · exact ⟨[], head, rest, rfl, by simp, failed⟩
      · refine ⟨head :: before, item, after, rfl, ?_, failed⟩
        exact List.forall_mem_cons.mpr ⟨⟨result, read⟩, good⟩
    · intro stops
      obtain ⟨before, item, after, split, good, failed⟩ := stops
      cases before with
      | nil =>
        obtain ⟨rfl, _⟩ := List.cons.inj split
        exact .inl failed
      | cons first before =>
        obtain ⟨rfl, rfl⟩ := List.cons.inj split
        obtain ⟨⟨result, read⟩, good⟩ := List.forall_mem_cons.mp good
        exact .inr ⟨result, read, before, item, after, rfl, good, failed⟩

/-- Where each result has one item that gives it, so has the list of them. -/
theorem mapM_eq_ok_iff_eq_map {f : α → Except ε β} {g : β → α}
    (exact : ∀ item result, f item = .ok result ↔ item = g result) {list : List α}
    {results : List β} : list.mapM f = .ok results ↔ list = results.map g := by
  simp only [mapM_eq_ok_iff, exact]
  rw [← List.forall₂_eq_eq_eq, List.forall₂_map_right_iff]

theorem exists_forall₂_iff {related : α → β → Prop} {list : List α} :
    (∃ others, List.Forall₂ related list others) ↔ ∀ item ∈ list, ∃ other, related item other := by
  induction list with
  | nil => simp
  | cons head rest ih =>
    rw [List.forall_mem_cons, ← ih]
    constructor
    · intro found
      obtain ⟨_, _ | ⟨first, others⟩⟩ := found
      exact ⟨⟨_, first⟩, _, others⟩
    · intro found
      obtain ⟨⟨other, first⟩, others, all⟩ := found
      exact ⟨other :: others, .cons first all⟩

/-- A run of steps succeeds if each step would, whatever came before it. -/
theorem exists_foldlM_ok_iff {step : α → β → Except ε α} {admits : β → Prop}
    (step_iff : ∀ before item, (∃ after, step before item = .ok after) ↔ admits item)
    {items : List β} {before : α} :
    (∃ after, items.foldlM step before = .ok after) ↔ ∀ item ∈ items, admits item := by
  induction items generalizing before with
  | nil => simp [pure, Except.pure]
  | cons item items ih =>
    rw [List.forall_mem_cons]
    simp only [List.foldlM_cons, bind_eq_ok_iff]
    constructor
    · intro read
      obtain ⟨after, middle, first, rest⟩ := read
      exact ⟨(step_iff _ _).mp ⟨middle, first⟩, ih.mp ⟨after, rest⟩⟩
    · intro admitted
      obtain ⟨own, others⟩ := admitted
      obtain ⟨middle, first⟩ := (step_iff before item).mpr own
      obtain ⟨after, rest⟩ := ih.mpr others
      exact ⟨after, middle, first, rest⟩

end SlotLanes
