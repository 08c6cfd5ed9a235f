import Mathlib.Data.List.Basic
import Mathlib.Data.List.TakeWhile
import SlotLanes.Log

/-! Lists of numbers as they are printed. The text of a list tells the list: digits have no
comma in them, so the commas show where a number ends. -/
namespace SlotLanes

section Marks
variable {mark : Char} {blank : List Char}

/-- Words, each of them behind a mark. -/
def marked (mark : Char) (blank : List Char) (words : List (List Char)) : List Char :=
  words.flatMap fun word => (mark :: blank) ++ word

theorem intercalate_cons_eq (word : List Char) (words : List (List Char)) :
    (mark :: blank).intercalate (word :: words) = word ++ marked mark blank words := by
  induction words generalizing word with
  | nil => simp [marked]
  | cons next words ih =>
    rw [List.intercalate_cons_cons, ih next]
    simp [marked]

theorem takeWhile_append_marked {word : List Char} (plain : mark ∉ word) (words : List (List Char)) :
    (word ++ marked mark blank words).takeWhile (· ≠ mark) = word := by
  have inside : ∀ char ∈ word, decide (char ≠ mark) = true := by
    intro char member
    exact decide_eq_true fun same => plain (same ▸ member)
  rw [List.takeWhile_append_of_pos inside]
  cases words <;> simp [marked]

/-- A word without the mark is told apart from what stands behind the next one. -/
theorem eq_and_eq_of_append_marked {word other : List Char} (plain : mark ∉ word)
    (otherPlain : mark ∉ other) {words others : List (List Char)}
    (same : word ++ marked mark blank words = other ++ marked mark blank others) :
    word = other ∧ marked mark blank words = marked mark blank others := by
  have first : (word ++ marked mark blank words).takeWhile (· ≠ mark) = word :=
    takeWhile_append_marked plain words
  rw [same, takeWhile_append_marked otherPlain] at first
  obtain rfl := first
  exact ⟨rfl, List.append_cancel_left same⟩

theorem eq_of_marked_eq {words others : List (List Char)} (plain : ∀ word ∈ words, mark ∉ word)
    (otherPlain : ∀ word ∈ others, mark ∉ word)
    (same : marked mark blank words = marked mark blank others) : words = others := by
  induction words generalizing others with
  | nil =>
    cases others with
    | nil => rfl
    | cons other others => cases same
  | cons word words ih =>
    cases others with
    | nil => cases same
    | cons other others =>
      simp only [marked, List.flatMap_cons, List.append_assoc] at same
      obtain ⟨rfl, rest⟩ := eq_and_eq_of_append_marked (plain word (by simp))
        (otherPlain other (by simp)) (List.append_cancel_left same)
      rw [ih (fun word member => plain word (List.mem_cons_of_mem _ member))
        (fun word member => otherPlain word (List.mem_cons_of_mem _ member)) rest]

theorem eq_of_intercalate_eq {words others : List (List Char)}
    (plain : ∀ word ∈ words, word ≠ [] ∧ mark ∉ word)
    (otherPlain : ∀ word ∈ others, word ≠ [] ∧ mark ∉ word)
    (same : (mark :: blank).intercalate words = (mark :: blank).intercalate others) :
    words = others := by
  cases words with
  | nil =>
    cases others with
    | nil => rfl
    | cons other others =>
      have present : other ≠ [] := (otherPlain other (by simp)).1
      rw [intercalate_cons_eq] at same
      exact absurd (List.append_eq_nil_iff.mp same.symm).1 present
  | cons word words =>
    cases others with
    | nil =>
      have present : word ≠ [] := (plain word (by simp)).1
      rw [intercalate_cons_eq] at same
      exact absurd (List.append_eq_nil_iff.mp same).1 present
    | cons other others =>
      rw [intercalate_cons_eq, intercalate_cons_eq] at same
      obtain ⟨rfl, rest⟩ := eq_and_eq_of_append_marked (plain word (by simp)).2
        (otherPlain other (by simp)).2 same
      rw [eq_of_marked_eq (fun word member => (plain word (List.mem_cons_of_mem _ member)).2)
        (fun word member => (otherPlain word (List.mem_cons_of_mem _ member)).2) rest]

/-- The last mark cuts a text in two in one way only. -/
theorem eq_and_eq_of_last_mark {before other after rest : List Char} (plain : mark ∉ after)
    (restPlain : mark ∉ rest) (same : before ++ mark :: after = other ++ mark :: rest) :
    before = other ∧ after = rest := by
  rcases List.append_eq_append_iff.mp same with ⟨more, longer, tail⟩ | ⟨more, longer, tail⟩
  · cases more with
    | nil => exact ⟨by simpa using longer.symm, (List.cons.inj tail).2⟩
    | cons first more =>
      have marked : mark ∈ after := by simp [(List.cons.inj tail).2]
      exact absurd marked plain
  · cases more with
    | nil => exact ⟨by simpa using longer, (List.cons.inj tail).2.symm⟩
    | cons first more =>
      have marked : mark ∈ rest := by simp [(List.cons.inj tail).2]
      exact absurd marked restPlain

theorem not_mem_toDigits (noDigit : mark.isDigit = false) (n : Nat) : mark ∉ Nat.toDigits 10 n := by
  intro member
  have digit := Nat.isDigit_of_mem_toDigits (Nat.zero_lt_succ 9) (Nat.le_refl 10) member
  simp [digit] at noDigit

end Marks

theorem digits_plain (n : Nat) : Nat.toDigits 10 n ≠ [] ∧ ',' ∉ Nat.toDigits 10 n :=
  ⟨Nat.toDigits_ne_nil, not_mem_toDigits rfl n⟩

theorem toDigits_injective {n m : Nat} (same : Nat.toDigits 10 n = Nat.toDigits 10 m) : n = m := by
  rw [← Nat.ofDigitChars_ten_toDigits (n := n), same, Nat.ofDigitChars_ten_toDigits]

/-- A printed list tells which numbers it was. -/
theorem listText_injective {numbers others : List Nat} (same : listText numbers = listText others) :
    numbers = others := by
  have letters := congrArg String.toList same
  simp only [listText, String.toList_append, String.toList_intercalate, List.map_map] at letters
  have inner := List.append_cancel_left (List.append_cancel_right letters)
  have plain (list : List Nat) :
      ∀ word ∈ list.map (String.toList ∘ toString), word ≠ [] ∧ ',' ∉ word := by
    intro word member
    obtain ⟨n, _, rfl⟩ := List.mem_map.mp member
    simpa using digits_plain n
  have words := eq_of_intercalate_eq (plain numbers) (plain others) inner
  apply List.map_injective_iff.mpr _ words
  intro n m same
  exact toDigits_injective (by simpa using same)

end SlotLanes
