import SlotLanes.Proofs.Entries
import SlotLanes.Toml.Reader

/-! No table of a document gives a key twice. A table grows only by keys that are absent from it;
what replaces a value keeps its key. That the header of a table finds its key still absent when
the table is complete follows from where the header began: the same path leads to the same
parent, and there the key was free. -/
namespace SlotLanes.Toml

/-- What each step keeps is true after all of them. -/
theorem foldlM_keeps {σ : Type u} {kept : σ → Prop} {step : σ → α → Option σ} {items : List α}
    {before after : σ} (start : kept before) (done : items.foldlM step before = some after)
    (each : ∀ item ∈ items, ∀ before after, kept before → step before item = some after →
      kept after) : kept after := by
  induction items generalizing before with
  | nil => exact Option.some.inj done ▸ start
  | cons item items ih =>
    rw [List.foldlM_cons] at done
    obtain ⟨middle, first, more⟩ := Option.bind_eq_some_iff.mp done
    obtain ⟨own, others⟩ := List.forall_mem_cons.mp each
    exact ih (own before middle start first) more others

/-- No table inside gives a key twice. -/
inductive Value.Distinct : Value → Prop
  | string (text : String) : Distinct (.string text)
  | integer (n : Int) : Distinct (.integer n)
  | floating (x : Float) : Distinct (.floating x)
  | boolean (value : Bool) : Distinct (.boolean value)
  | dateTime : Distinct .dateTime
  | array (ofTables : Bool) {items : List Value} (each : ∀ item ∈ items, Distinct item) :
      Distinct (.array ofTables items)
  | table (origin : Origin) {entries : List (String × Value)} (keys : (entries.map Prod.fst).Nodup)
      (each : ∀ entry ∈ entries, Distinct entry.2) : Distinct (.table origin entries)

namespace Table

def Distinct (table : Table) : Prop :=
  (Value.ofTable table).Distinct

variable {table parent result : Table} {key : String} {value : Value} {path : List String}

theorem distinct_iff : table.Distinct ↔
    (table.entries.map Prod.fst).Nodup ∧ ∀ entry ∈ table.entries, entry.2.Distinct := by
  constructor
  · intro distinct
    cases distinct with
    | table _ keys each => exact ⟨keys, each⟩
  · intro distinct
    exact .table _ distinct.1 distinct.2

theorem distinct_nil (origin : Origin) : Distinct ⟨origin, []⟩ :=
  .table _ .nil (by simp)

theorem get?_append (key other : String) :
    (table.append key value).get? other =
      (table.get? other).or (if other = key then some value else none) := by
  rw [get?, append, List.lookup_append, lookup_cons_eq_ite]
  rfl

theorem get?_erase : (table.erase key).get? key = none := by
  apply lookup_eq_none_iff_absent.mpr
  intro named
  obtain ⟨entry, kept, rfl⟩ := List.mem_map.mp named
  simpa using (List.mem_filter.mp kept).2

theorem get?_replace (present : (table.get? key).isSome) (value : Value) :
    (table.replace key value).get? key = some value := by
  obtain ⟨origin, entries⟩ := table
  unfold get? replace at *
  dsimp only at *
  induction entries with
  | nil => simp at present
  | cons entry rest ih =>
    rw [List.map_cons, lookup_cons_eq_ite]
    rw [lookup_cons_eq_ite] at present
    by_cases same : entry.1 = key
    · simp [same]
    · rw [if_neg (Ne.symm same)] at present
      rw [if_neg same, if_neg (Ne.symm same)]
      exact ih present

namespace Distinct
variable (distinct : table.Distinct)
include distinct

theorem get? (found : table.get? key = some value) : value.Distinct :=
  (distinct_iff.mp distinct).2 (key, value) (mem_of_lookup found)

theorem nodup_of_get? {origin : Origin} {entries : List (String × Value)}
    (found : table.get? key = some (.table origin entries)) : (entries.map Prod.fst).Nodup := by
  have inner : Table.Distinct ⟨origin, entries⟩ := distinct.get? found
  exact (distinct_iff.mp inner).1

theorem append (absent : table.get? key = none) (inner : value.Distinct) :
    (table.append key value).Distinct := by
  obtain ⟨keys, each⟩ := distinct_iff.mp distinct
  refine distinct_iff.mpr ⟨?_, ?_⟩
  · rw [Table.append, List.map_append, List.nodup_append]
    refine ⟨keys, by simp, ?_⟩
    intro name member added single same
    obtain rfl := List.mem_singleton.mp single
    exact lookup_eq_none_iff_absent.mp absent (same ▸ member)
  · exact List.forall_mem_append.mpr ⟨each, List.forall_mem_singleton.mpr inner⟩

theorem replace (inner : value.Distinct) : (table.replace key value).Distinct := by
  obtain ⟨keys, each⟩ := distinct_iff.mp distinct
  have kept : (table.replace key value).entries.map Prod.fst = table.entries.map Prod.fst := by
    rw [Table.replace, List.map_map]
    apply List.map_congr_left
    intro entry _
    by_cases same : entry.1 = key
    · simp [same]
    · simp [same]
  refine distinct_iff.mpr ⟨kept ▸ keys, ?_⟩
  intro entry member
  obtain ⟨old, before, rfl⟩ := List.mem_map.mp member
  split
  next => exact inner
  next => exact each old before

theorem erase : (table.erase key).Distinct := by
  obtain ⟨keys, each⟩ := distinct_iff.mp distinct
  refine distinct_iff.mpr ⟨?_, fun entry member => each entry (List.mem_of_mem_filter member)⟩
  exact keys.sublist (List.filter_sublist.map Prod.fst)

end Distinct

/-- Where a path leads from a table; what is missing on the way counts as an empty table. -/
inductive Leads (dotted : Bool) : List String → Table → Table → Prop
  | here {table : Table} : Leads dotted [] table table
  | created {table parent : Table} {key : String} {path : List String}
      (absent : table.get? key = none)
      (more : Leads dotted path ⟨if dotted then .dotted else .implied, []⟩ parent) :
      Leads dotted (key :: path) table parent
  | table {table parent : Table} {key : String} {path : List String} {origin : Origin}
      {entries : List (String × Value)} (found : table.get? key = some (.table origin entries))
      (more : Leads dotted path ⟨origin, entries⟩ parent) : Leads dotted (key :: path) table parent
  | element {table parent : Table} {key : String} {path : List String} {items : List Value}
      {origin : Origin} {entries : List (String × Value)}
      (found : table.get? key = some (.array true items))
      (last : items.getLast? = some (.table origin entries))
      (more : Leads dotted path ⟨origin, entries⟩ parent) : Leads dotted (key :: path) table parent

namespace Leads

theorem unique {dotted : Bool} {other : Table} (leads : Leads dotted path table parent)
    (again : Leads dotted path table other) : parent = other := by
  induction leads with
  | here => cases again; rfl
  | created absent _ ih =>
    cases again with
    | created _ more => exact ih more
    | table found _ => simp [absent] at found
    | element found _ _ => simp [absent] at found
  | table found _ ih =>
    cases again with
    | created absent _ => simp [absent] at found
    | table foundAgain more =>
      obtain ⟨rfl, rfl⟩ := Value.table.inj (Option.some.inj (found.symm.trans foundAgain))
      exact ih more
    | element foundAgain _ _ => simp [found] at foundAgain
  | element found last _ ih =>
    cases again with
    | created absent _ => simp [absent] at found
    | table foundAgain _ => simp [found] at foundAgain
    | element foundAgain lastAgain more =>
      obtain ⟨_, rfl⟩ := Value.array.inj (Option.some.inj (found.symm.trans foundAgain))
      obtain ⟨rfl, rfl⟩ := Value.table.inj (Option.some.inj (last.symm.trans lastAgain))
      exact ih more

/-- A path leads from tables without a repeated key to no others. -/
theorem distinct {dotted : Bool} (leads : Leads dotted path table parent)
    (outer : table.Distinct) : parent.Distinct := by
  induction leads with
  | here => exact outer
  | created _ _ ih => exact ih (distinct_nil _)
  | table found _ ih => exact ih (outer.get? found)
  | element found last _ ih =>
    cases outer.get? found with
    | array _ each => exact ih (each _ (List.mem_of_getLast? last))

end Leads

section Descent
variable {β : Type} {dotted : Bool} {change : Table → Option (Table × β)} {extra : β}

/-- A change at a path is made at the table to which the path leads, and afterwards the path
leads to what that has become. -/
theorem descend_leads (done : descend dotted change path table = some (result, extra)) :
    ∃ parent changed, change parent = some (changed, extra) ∧
      Leads dotted path table parent ∧ Leads dotted path result changed ∧
        (table.Distinct → changed.Distinct → result.Distinct) := by
  induction path generalizing table result with
  | nil => exact ⟨table, result, done, .here, .here, fun _ kept => kept⟩
  | cons key path ih =>
    unfold descend at done
    split at done
    next absent =>
      obtain ⟨⟨inner, _⟩, below, rest⟩ := Option.bind_eq_some_iff.mp done
      obtain ⟨rfl, rfl⟩ := Prod.mk.inj (Option.some.inj rest)
      obtain ⟨parent, changed, made, before, after, keeps⟩ := ih below
      have found : (table.append key (.ofTable inner)).get? key = some (.ofTable inner) := by
        simp [get?_append, absent]
      refine ⟨parent, changed, made, .created absent before, .table found after, ?_⟩
      intro distinct kept
      exact distinct.append absent (keeps (distinct_nil _) kept)
    next origin entries present =>
      split at done
      next => cases done
      next =>
        obtain ⟨⟨inner, _⟩, below, rest⟩ := Option.bind_eq_some_iff.mp done
        obtain ⟨rfl, rfl⟩ := Prod.mk.inj (Option.some.inj rest)
        obtain ⟨parent, changed, made, before, after, keeps⟩ := ih below
        have found : (table.replace key (.ofTable inner)).get? key = some (.ofTable inner) :=
          get?_replace (by simp [present]) _
        refine ⟨parent, changed, made, .table present before, .table found after, ?_⟩
        intro distinct kept
        exact distinct.replace (keeps (distinct.get? present) kept)
    next items present =>
      split at done
      next origin entries last =>
        obtain ⟨⟨inner, _⟩, below, rest⟩ := Option.bind_eq_some_iff.mp done
        obtain ⟨rfl, rfl⟩ := Prod.mk.inj (Option.some.inj rest)
        obtain ⟨parent, changed, made, before, after, keeps⟩ := ih below
        have found := get?_replace (by simp [present] : (table.get? key).isSome)
          (.array true (items.dropLast ++ [.ofTable inner]))
        refine ⟨parent, changed, made, .element present last before,
          .element found (by simp [Value.ofTable]) after, ?_⟩
        intro distinct kept
        apply distinct.replace
        cases distinct.get? present with
        | array _ each =>
          have inside := each _ (List.mem_of_getLast? last)
          have others : ∀ item ∈ items.dropLast, item.Distinct := fun item old =>
            each item (List.dropLast_subset items old)
          exact .array true (List.forall_mem_append.mpr
            ⟨others, List.forall_mem_singleton.mpr (keeps inside kept)⟩)
      next => cases done
    next => cases done

end Descent

theorem update_leads {dotted : Bool} {change : Table → Option Table}
    (done : update dotted change path table = some result) :
    ∃ parent changed, change parent = some changed ∧ Leads dotted path table parent ∧
      (table.Distinct → changed.Distinct → result.Distinct) := by
  obtain ⟨⟨_, _⟩, below, rfl⟩ := Option.map_eq_some_iff.mp done
  obtain ⟨parent, changed, made, leads, _, keeps⟩ := descend_leads below
  obtain ⟨_, change, rest⟩ := Option.map_eq_some_iff.mp made
  obtain ⟨rfl, _⟩ := Prod.mk.inj rest
  exact ⟨parent, _, change, leads, keeps⟩

theorem Distinct.assign {entry : Assignment} (distinct : table.Distinct)
    (given : entry.value.Distinct) (done : table.assign entry = some result) : result.Distinct := by
  obtain ⟨parent, changed, made, leads, keeps⟩ := update_leads done
  apply keeps distinct
  split at made
  next => cases made
  next allowed =>
    obtain rfl := Option.some.inj made
    rw [not_or, Bool.not_eq_true, Option.isSome_eq_false_iff, Option.isNone_iff_eq_none] at allowed
    exact (leads.distinct distinct).append allowed.2 given

end Table

namespace Draft
variable {draft next : Draft} {root result : Table} {header : Header} {line : Line}

/-- No key is twice in the complete tables or in the one that is being filled, and the key of
its header is free where the path of the header leads. -/
structure Distinct (draft : Draft) : Prop where
  root : draft.root.Distinct
  current : draft.current.Distinct
  free : ∀ header, draft.header = some header → header.isElement = false →
    ∀ parent, draft.root.Leads false header.path parent → parent.get? header.key = none

theorem Distinct.close (distinct : draft.Distinct) (done : draft.close = some result) :
    result.Distinct := by
  unfold Draft.close at done
  split at done
  next => exact Option.some.inj done ▸ distinct.current
  next header headed =>
    obtain ⟨parent, changed, made, leads, keeps⟩ := Table.update_leads done
    apply keeps distinct.root
    have inside := leads.distinct distinct.root
    split at made
    next =>
      split at made
      next absent =>
        obtain rfl := Option.some.inj made
        exact inside.append absent (.array true (List.forall_mem_singleton.mpr distinct.current))
      next items present =>
        obtain rfl := Option.some.inj made
        apply inside.replace
        cases inside.get? present with
        | array _ each =>
          exact .array true (List.forall_mem_append.mpr
            ⟨each, List.forall_mem_singleton.mpr distinct.current⟩)
      next => cases made
    -- Nothing looks whether the key is there: that it is not was seen when the header began.
    next noElement =>
      obtain rfl := Option.some.inj made
      have free := distinct.free header headed (Bool.not_eq_true _ ▸ noElement) parent leads
      exact inside.append free distinct.current

theorem distinct_start (distinct : root.Distinct) (done : start root header = some next) :
    next.Distinct := by
  unfold start at done
  split at done
  next element =>
    obtain rfl := Option.some.inj done
    refine ⟨distinct, Table.distinct_nil _, ?_⟩
    intro header headed noElement
    obtain rfl := Option.some.inj headed
    simp [element] at noElement
  next =>
    obtain ⟨⟨changed, entries⟩, below, rest⟩ := Option.bind_eq_some_iff.mp done
    obtain rfl := Option.some.inj rest
    obtain ⟨parent, left, made, before, after, keeps⟩ := Table.descend_leads below
    have inside := before.distinct distinct
    -- The entries that an implied table has so far move into the new one.
    have moved : left.Distinct ∧ Table.Distinct ⟨.stated, entries⟩ ∧ left.get? header.key = none := by
      split at made
      next absent =>
        obtain ⟨rfl, rfl⟩ := Prod.mk.inj (Option.some.inj made)
        exact ⟨inside, Table.distinct_nil _, absent⟩
      next implied present =>
        obtain ⟨rfl, rfl⟩ := Prod.mk.inj (Option.some.inj made)
        have entries : Table.Distinct ⟨.implied, implied⟩ := inside.get? present
        obtain ⟨keys, each⟩ := Table.distinct_iff.mp entries
        exact ⟨inside.erase, Table.distinct_iff.mpr ⟨keys, each⟩, Table.get?_erase⟩
      next => cases made
    obtain ⟨kept, filled, free⟩ := moved
    refine ⟨keeps distinct kept, filled, ?_⟩
    intro header headed _ parent leads
    obtain rfl := Option.some.inj headed
    exact leads.unique after ▸ free

theorem Distinct.step (distinct : draft.Distinct)
    (given : ∀ entry, line = .assignment entry → entry.value.Distinct)
    (done : draft.step line = some next) : next.Distinct := by
  cases line with
  | assignment entry =>
    obtain ⟨current, assigned, rest⟩ := Option.bind_eq_some_iff.mp done
    obtain rfl := Option.some.inj rest
    exact ⟨distinct.root, distinct.current.assign (given entry rfl) assigned, distinct.free⟩
  | header header =>
    obtain ⟨root, closed, started⟩ := Option.bind_eq_some_iff.mp done
    exact distinct_start (distinct.close closed) started

end Draft

theorem Table.distinct_ofLines {lines : List Line} {table : Table}
    (given : ∀ entry, .assignment entry ∈ lines → entry.value.Distinct)
    (built : ofLines lines = some table) : table.Distinct := by
  obtain ⟨draft, filled, closed⟩ := Option.bind_eq_some_iff.mp built
  have start : Draft.Distinct ⟨⟨.stated, []⟩, none, ⟨.stated, []⟩⟩ :=
    ⟨distinct_nil _, distinct_nil _, nofun⟩
  refine Draft.Distinct.close (foldlM_keeps start filled ?_) closed
  intro line member before after distinct done
  exact distinct.step (fun entry same => given entry (same ▸ member)) done

/-! What the readers give. -/

def ValueReader.Distinct (read : ValueReader) : Prop :=
  ∀ ⦃chars value rest⦄, read chars = some (value, rest) → value.Distinct

section Readers
variable {chars rest : List Char} {value : Value} {read : ValueReader}

theorem distinct_inRange {n : Int} (made : inRange n = some value) : value.Distinct := by
  unfold inRange at made
  split at made
  next => exact Option.some.inj made ▸ .integer n
  next => cases made

theorem distinct_readInteger (made : readInteger chars = some value) : value.Distinct := by
  unfold readInteger at made
  split at made
  all_goals
    obtain ⟨_, _, made⟩ := Option.bind_eq_some_iff.mp made
    exact distinct_inRange made

theorem distinct_readFloat (made : readFloat chars = some value) : value.Distinct := by
  unfold readFloat at made
  dsimp only at made
  split at made
  all_goals
    obtain ⟨x, _, rest⟩ := Option.bind_eq_some_iff.mp made
    exact Option.some.inj rest ▸ .floating _

theorem distinct_readScalar (made : readScalar chars = some value) : value.Distinct := by
  unfold readScalar at made
  split at made
  next => exact Option.some.inj made ▸ .boolean true
  next =>
    split at made
    next => exact Option.some.inj made ▸ .boolean false
    next =>
      split at made
      next => exact Option.some.inj made ▸ .dateTime
      next =>
        rcases Option.or_eq_some_iff.mp made with integer | ⟨_, floating⟩
        · exact distinct_readInteger integer
        · exact distinct_readFloat floating

theorem distinct_readBareScalar : ValueReader.Distinct readBareScalar := by
  intro chars value rest made
  unfold readBareScalar at made
  dsimp only at made
  split at made
  next =>
    split at made
    all_goals
      obtain ⟨_, scalar, rest⟩ := Option.bind_eq_some_iff.mp made
      obtain ⟨rfl, _⟩ := Prod.mk.inj (Option.some.inj rest)
      exact distinct_readScalar scalar
  next =>
    obtain ⟨_, scalar, rest⟩ := Option.bind_eq_some_iff.mp made
    obtain ⟨rfl, _⟩ := Prod.mk.inj (Option.some.inj rest)
    exact distinct_readScalar scalar

theorem distinct_readAssignment {skip : List Char → Option (List Char)} {entry : Assignment}
    (distinct : read.Distinct) (made : readAssignment skip read chars = some (entry, rest)) :
    entry.value.Distinct := by
  simp only [readAssignment, Option.bind_eq_bind, Option.bind_eq_some_iff] at made
  obtain ⟨_, _, _, _, _, _, _, _, ⟨value, _⟩, given, rest⟩ := made
  obtain ⟨rfl, _⟩ := Prod.mk.inj (Option.some.inj rest)
  exact distinct given

theorem distinct_readItems {count : Nat} {items : List Value} (distinct : read.Distinct)
    (made : readItemsWithin read count chars = some (items, rest)) :
    ∀ item ∈ items, item.Distinct := by
  induction count generalizing chars items rest with
  | zero => cases made
  | succ count ih =>
    unfold readItemsWithin at made
    obtain ⟨_, _, made⟩ := Option.bind_eq_some_iff.mp made
    split at made
    next =>
      obtain ⟨rfl, _⟩ := Prod.mk.inj (Option.some.inj made)
      simp
    next =>
      obtain ⟨⟨first, _⟩, given, made⟩ := Option.bind_eq_some_iff.mp made
      obtain ⟨_, _, made⟩ := Option.bind_eq_some_iff.mp made
      split at made
      next =>
        obtain ⟨⟨more, _⟩, later, rest⟩ := Option.bind_eq_some_iff.mp made
        obtain ⟨rfl, _⟩ := Prod.mk.inj (Option.some.inj rest)
        exact List.forall_mem_cons.mpr ⟨distinct given, ih later⟩
      next =>
        obtain ⟨rfl, _⟩ := Prod.mk.inj (Option.some.inj made)
        simpa using distinct given
      next => cases made

theorem distinct_readEntries {count : Nat} {entries : List Assignment} (distinct : read.Distinct)
    (made : readEntriesWithin read count chars = some (entries, rest)) :
    ∀ entry ∈ entries, entry.value.Distinct := by
  induction count generalizing chars entries rest with
  | zero => cases made
  | succ count ih =>
    unfold readEntriesWithin at made
    obtain ⟨_, _, made⟩ := Option.bind_eq_some_iff.mp made
    split at made
    next =>
      obtain ⟨rfl, _⟩ := Prod.mk.inj (Option.some.inj made)
      simp
    next =>
      obtain ⟨⟨first, _⟩, given, made⟩ := Option.bind_eq_some_iff.mp made
      obtain ⟨_, _, made⟩ := Option.bind_eq_some_iff.mp made
      split at made
      next =>
        obtain ⟨⟨more, _⟩, later, rest⟩ := Option.bind_eq_some_iff.mp made
        obtain ⟨rfl, _⟩ := Prod.mk.inj (Option.some.inj rest)
        exact List.forall_mem_cons.mpr ⟨distinct_readAssignment distinct given, ih later⟩
      next =>
        obtain ⟨rfl, _⟩ := Prod.mk.inj (Option.some.inj made)
        simpa using distinct_readAssignment distinct given
      next => cases made

theorem distinct_readValue {nested? : Option ValueReader}
    (nested : ∀ read, nested? = some read → read.Distinct) :
    ValueReader.Distinct (readValue nested?) := by
  intro chars value rest made
  unfold readValue at made
  split at made
  case h_5 =>
    obtain ⟨read, within, made⟩ := Option.bind_eq_some_iff.mp made
    obtain ⟨⟨items, _⟩, given, rest⟩ := Option.bind_eq_some_iff.mp made
    obtain ⟨rfl, _⟩ := Prod.mk.inj (Option.some.inj rest)
    exact .array false (distinct_readItems (nested read within) given)
  case h_6 =>
    obtain ⟨read, within, made⟩ := Option.bind_eq_some_iff.mp made
    obtain ⟨⟨entries, _⟩, given, made⟩ := Option.bind_eq_some_iff.mp made
    obtain ⟨table, assigned, rest⟩ := Option.bind_eq_some_iff.mp made
    obtain ⟨rfl, _⟩ := Prod.mk.inj (Option.some.inj rest)
    have each := distinct_readEntries (nested read within) given
    apply foldlM_keeps (Table.distinct_nil .inline) assigned
    intro entry member before after distinct done
    exact distinct.assign (each entry member) done
  case h_7 => exact distinct_readBareScalar made
  all_goals
    obtain ⟨⟨text, _⟩, _, rest⟩ := Option.map_eq_some_iff.mp made
    obtain ⟨rfl, _⟩ := Prod.mk.inj rest
    exact .string text

theorem distinct_readValueWithin (depth : Nat) : ValueReader.Distinct (readValueWithin depth) := by
  induction depth with
  | zero => exact distinct_readValue nofun
  | succ depth ih =>
    apply distinct_readValue
    intro read within
    exact Option.some.inj within ▸ ih

theorem distinct_readLine {entry : Assignment}
    (made : readLine chars = some (.assignment entry, rest)) : entry.value.Distinct := by
  unfold readLine at made
  split at made
  case h_3 =>
    obtain ⟨⟨read, _⟩, given, same⟩ := Option.map_eq_some_iff.mp made
    obtain ⟨line, _⟩ := Prod.mk.inj same
    obtain rfl := Line.assignment.inj line
    exact distinct_readAssignment (distinct_readValueWithin maxDepth) given
  all_goals
    simp [readHeader, Option.bind_eq_some_iff] at made

theorem distinct_readLinesWithin {count : Nat} {lines : List Line}
    (made : readLinesWithin count chars = some lines) :
    ∀ entry, .assignment entry ∈ lines → entry.value.Distinct := by
  induction count generalizing chars lines with
  | zero => simp [← Option.some.inj made]
  | succ count ih =>
    unfold readLinesWithin at made
    split at made
    next => simp [← Option.some.inj made]
    next =>
      split at made
      next =>
        obtain ⟨_, _, made⟩ := Option.bind_eq_some_iff.mp made
        exact ih made
      next =>
        obtain ⟨⟨line, _⟩, read, made⟩ := Option.bind_eq_some_iff.mp made
        obtain ⟨_, _, made⟩ := Option.bind_eq_some_iff.mp made
        obtain ⟨more, later, rest⟩ := Option.bind_eq_some_iff.mp made
        obtain rfl := Option.some.inj rest
        intro entry member
        rcases List.mem_cons.mp member with rfl | member
        · exact distinct_readLine read
        · exact ih later entry member

/-- A document never gives a key of a table twice. -/
theorem distinct_readDocument {table : Table} (made : readDocument chars = some table) :
    table.Distinct := by
  obtain ⟨lines, read, built⟩ := Option.bind_eq_some_iff.mp made
  exact Table.distinct_ofLines (distinct_readLinesWithin read) built

end Readers
end SlotLanes.Toml
