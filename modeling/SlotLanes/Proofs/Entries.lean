import Mathlib.Data.List.Induction
import Mathlib.Data.List.Perm.Basic
import SlotLanes.Dictionary
import SlotLanes.Proofs.Outcome

/-! Members in the order of their names against the same members as they were written. If no
name comes twice, sorting only changes their order; in any case it looks at nothing but the
names, and members that are sorted already stay as they are. -/
namespace SlotLanes

variable {name : String} {value : α} {entries : List (String × α)}

theorem sortEntries_concat (entries : List (String × α)) (entry : String × α) :
    sortEntries (entries ++ [entry]) = insertEntry entry.1 entry.2 (sortEntries entries) := by
  simp [sortEntries]

theorem insertEntry_perm (fresh : name ∉ entries.map Prod.fst) :
    (insertEntry name value entries).Perm ((name, value) :: entries) := by
  induction entries with
  | nil => exact .refl _
  | cons head rest ih =>
    simp only [List.map_cons, List.mem_cons, not_or] at fresh
    unfold insertEntry
    split
    next => exact .refl _
    next =>
      rw [if_neg fresh.1]
      exact ((ih fresh.2).cons head).trans (.swap _ _ _)

theorem sortEntries_perm (distinct : (entries.map Prod.fst).Nodup) :
    (sortEntries entries).Perm entries := by
  induction entries using List.reverseRecOn with
  | nil => exact .refl _
  | append_singleton entries entry ih =>
    rw [List.map_append, List.nodup_append] at distinct
    obtain ⟨distinct, _, apart⟩ := distinct
    have sorted := ih distinct
    have fresh : entry.1 ∉ (sortEntries entries).map Prod.fst := by
      intro member
      exact apart entry.1 ((sorted.map Prod.fst).mem_iff.mp member) entry.1 (by simp) rfl
    rw [sortEntries_concat]
    have moved := (List.perm_append_singleton entry entries).symm
    exact (insertEntry_perm fresh).trans ((sorted.cons entry).trans moved)

theorem insertEntry_of_above (above : ∀ entry ∈ entries, entry.1 < name) :
    insertEntry name value entries = entries ++ [(name, value)] := by
  induction entries with
  | nil => rfl
  | cons head rest ih =>
    have below : head.1 < name := above head (by simp)
    have notLess : ¬name < head.1 := String.lt_asymm below
    have different : ¬name = head.1 := fun same => String.lt_irrefl name (same ▸ below)
    rw [insertEntry, if_neg notLess, if_neg different,
      ih fun entry member => above entry (List.mem_cons_of_mem _ member), List.cons_append]

theorem sortEntries_of_sorted (sorted : Sorted entries) : sortEntries entries = entries := by
  induction entries using List.reverseRecOn with
  | nil => rfl
  | append_singleton entries entry ih =>
    obtain ⟨sorted, _, above⟩ := List.pairwise_append.mp sorted
    rw [sortEntries_concat, ih sorted]
    exact insertEntry_of_above fun other member => above other member entry (by simp)

theorem sorted_sortEntries (entries : List (String × α)) : Sorted (sortEntries entries) := by
  induction entries using List.reverseRecOn with
  | nil => exact .nil
  | append_singleton entries entry ih =>
    rw [sortEntries_concat]
    exact ih.insertEntry _ _

theorem sorted_iff_names : Sorted entries ↔ (entries.map Prod.fst).Pairwise (· < ·) :=
  List.pairwise_map.symm

theorem Sorted.names_nodup (sorted : Sorted entries) : (entries.map Prod.fst).Nodup := by
  rw [List.Nodup, List.pairwise_map]
  exact sorted.imp fun less => String.ne_of_lt less

theorem mem_of_mem_sortEntries {entry : String × α} (inside : entry ∈ sortEntries entries) :
    entry ∈ entries := by
  induction entries using List.reverseRecOn with
  | nil => exact inside
  | append_singleton entries last ih =>
    rw [sortEntries_concat] at inside
    rcases mem_insertEntry inside with rfl | inside
    · simp
    · simp [ih inside]

theorem Dictionary.entries_ofList (entries : List (String × α)) :
    (Dictionary.ofList entries).entries = sortEntries entries := by
  induction entries using List.reverseRecOn with
  | nil => rfl
  | append_singleton entries entry ih =>
    rw [sortEntries_concat, ← ih]
    simp [Dictionary.ofList, Dictionary.insert]

theorem Dictionary.ofList_sortEntries (entries : List (String × α)) :
    Dictionary.ofList (sortEntries entries) = Dictionary.ofList entries := by
  apply Dictionary.eq_of_get?
  intro name
  rw [Dictionary.get?, Dictionary.get?, entries_ofList, entries_ofList,
    sortEntries_of_sorted (sorted_sortEntries entries)]

/-- Steps that do not mind the order of two entries do not mind that of any, as long as no
name comes twice. -/
theorem foldlM_ok_of_perm {step : σ → String × α → Except ε σ}
    (swaps : ∀ {first second : String × α}, first.1 ≠ second.1 → ∀ {start middle result},
      step start first = .ok middle → step middle second = .ok result →
        ∃ other, step start second = .ok other ∧ step other first = .ok result)
    {others : List (String × α)} (perm : entries.Perm others)
    (distinct : (entries.map Prod.fst).Nodup) {start result : σ}
    (read : entries.foldlM step start = .ok result) : others.foldlM step start = .ok result := by
  induction perm generalizing start with
  | nil => exact read
  | cons entry _ ih =>
    rw [List.foldlM_cons] at read ⊢
    obtain ⟨middle, first, rest⟩ := bind_eq_ok_iff.mp read
    exact bind_eq_ok_iff.mpr ⟨middle, first, ih (List.nodup_cons.mp distinct).2 rest⟩
  | swap second first rest =>
    simp only [List.foldlM_cons] at read ⊢
    obtain ⟨middle, reading, read⟩ := bind_eq_ok_iff.mp read
    obtain ⟨later, goesOn, read⟩ := bind_eq_ok_iff.mp read
    have apart : first.1 ≠ second.1 := by
      intro same
      exact (List.nodup_cons.mp distinct).1 (by simp [same])
    obtain ⟨other, reading, goesOn⟩ := swaps apart reading goesOn
    exact bind_eq_ok_iff.mpr ⟨other, reading, bind_eq_ok_iff.mpr ⟨later, goesOn, read⟩⟩
  | trans first _ ih ih' =>
    exact ih' ((first.map Prod.fst).nodup_iff.mp distinct) (ih distinct read)

/-- Entries with the same names and values that belong together. -/
def Alike (related : α → β → Prop) (entry : String × α) (other : String × β) : Prop :=
  entry.1 = other.1 ∧ related entry.2 other.2

variable {related : α → β → Prop} {others : List (String × β)}

theorem insertEntry_alike {other : β} (together : related value other)
    (alike : List.Forall₂ (Alike related) entries others) :
    List.Forall₂ (Alike related) (insertEntry name value entries) (insertEntry name other others) := by
  induction alike with
  | nil => exact .cons ⟨rfl, together⟩ .nil
  | cons head rest ih =>
    unfold insertEntry
    rw [head.1]
    split
    next => exact .cons ⟨rfl, together⟩ (.cons head rest)
    next =>
      split
      next => exact .cons ⟨rfl, together⟩ rest
      next => exact .cons head ih

theorem sortEntries_alike (alike : List.Forall₂ (Alike related) entries others) :
    List.Forall₂ (Alike related) (sortEntries entries) (sortEntries others) := by
  refine List.rel_foldl ?_ .nil alike
  rintro sorted sortedOthers before entry other ⟨same, together⟩
  dsimp only
  rw [same]
  exact insertEntry_alike together before

theorem names_eq_of_alike (alike : List.Forall₂ (Alike related) entries others) :
    entries.map Prod.fst = others.map Prod.fst := by
  induction alike with
  | nil => rfl
  | cons same _ ih => rw [List.map_cons, List.map_cons, same.1, ih]

theorem lookup_alike (alike : List.Forall₂ (Alike related) entries others) (name : String) :
    Option.Rel related (entries.lookup name) (others.lookup name) := by
  induction alike with
  | nil => exact .none
  | cons head _ ih =>
    rw [lookup_cons_eq_ite, lookup_cons_eq_ite, head.1]
    split
    next => exact .some head.2
    next => exact ih

/-- Of several entries with one name the last counts. -/
theorem lookup_sortEntries (entries : List (String × α)) (name : String) :
    (sortEntries entries).lookup name = entries.reverse.lookup name := by
  induction entries using List.reverseRecOn with
  | nil => rfl
  | append_singleton entries entry ih =>
    rw [sortEntries_concat, lookup_insertEntry, ih, List.reverse_concat, lookup_cons_eq_ite]

theorem lookup_eq_none_iff_absent : entries.lookup name = none ↔ name ∉ entries.map Prod.fst := by
  rw [List.lookup_eq_none_iff]
  constructor
  · intro apart named
    obtain ⟨entry, member, rfl⟩ := List.mem_map.mp named
    exact absurd (apart entry member) (by simp)
  · intro absent entry member
    rw [bne_iff_ne]
    intro same
    exact absent (List.mem_map.mpr ⟨entry, member, same.symm⟩)

theorem mem_of_lookup (found : entries.lookup name = some value) : (name, value) ∈ entries := by
  obtain ⟨before, after, rfl, _⟩ := List.lookup_eq_some_iff.mp found
  simp

theorem lookup_of_mem (distinct : (entries.map Prod.fst).Nodup)
    (member : (name, value) ∈ entries) : entries.lookup name = some value := by
  obtain ⟨before, after, rfl⟩ := List.append_of_mem member
  rw [List.map_append, List.nodup_append] at distinct
  refine List.lookup_eq_some_iff.mpr ⟨before, after, rfl, fun entry earlier => ?_⟩
  rw [bne_iff_ne]
  exact (distinct.2.2 entry.1 (List.mem_map_of_mem earlier) name (by simp)).symm

theorem lookup_reverse_eq_none_iff :
    entries.reverse.lookup name = none ↔ name ∉ entries.map Prod.fst := by
  rw [lookup_eq_none_iff_absent, List.map_reverse, List.mem_reverse]

theorem lookup_reverse_eq_some_iff :
    entries.reverse.lookup name = some value ↔
      ∃ before after, entries = before ++ (name, value) :: after ∧ name ∉ after.map Prod.fst := by
  rw [List.lookup_eq_some_iff]
  constructor
  · intro found
    obtain ⟨after, before, reversed, apart⟩ := found
    refine ⟨before.reverse, after.reverse, ?_, ?_⟩
    · rw [List.reverse_eq_iff.mp reversed]
      simp
    · rw [List.map_reverse, List.mem_reverse, List.mem_map]
      intro named
      obtain ⟨entry, member, rfl⟩ := named
      exact absurd (apart entry member) (by simp)
  · intro last
    obtain ⟨before, after, rfl, apart⟩ := last
    refine ⟨after.reverse, before.reverse, by simp, fun entry member => ?_⟩
    rw [bne_iff_ne]
    intro same
    exact apart (List.mem_map.mpr ⟨entry, List.mem_reverse.mp member, same.symm⟩)

end SlotLanes
