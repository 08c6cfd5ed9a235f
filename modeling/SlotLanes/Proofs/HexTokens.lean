import Mathlib.Data.Nat.Digits.Defs
import SlotLanes.CommandLine.Program
import SlotLanes.Proofs.Outcome
import SlotLanes.Proofs.WrittenScalars

/-! Bytes as the words of a command line give them. A mark and one plus sign may stand in front;
the rest is read as a hexadecimal number, digit by digit. The first letter that is no digit, or
that brings the number above a byte, decides what is said of the word. -/
namespace SlotLanes

namespace Text.Numeral
open SlotLanes.Json (IsHexDigit)

variable {letters : List Char} {char : Char} {digit value n : Nat}

/-- Hexadecimal digits of either case, and the number that they stand for. -/
def Spells (letters : List Char) (n : Nat) : Prop :=
  ∃ digits, List.Forall₂ IsHexDigit digits letters ∧ Nat.ofDigits 16 digits.reverse = n

/-- A beginning of the letters spells a number that is no byte. -/
def Overflows (letters : List Char) : Prop :=
  ∃ start n, start <+: letters ∧ Spells start n ∧ 255 < n

/-- The letters without a beginning that they may have. -/
def behind (beginning letters : List Char) : List Char :=
  if beginning <+: letters then letters.drop beginning.length else letters

/-- The letters that are read as digits: a sign alone is no sign. -/
def unsigned (letters : List Char) : List Char :=
  if 1 < letters.length then behind ['+'] letters else letters

theorem digit?_eq_some_iff : digit? 16 char = some digit ↔ IsHexDigit digit char := by
  constructor
  · intro found
    have low : ∀ code : Fin 128, ∀ digit ∈ digit? 16 (Char.ofNat code),
        IsHexDigit digit (Char.ofNat code) := by
      unfold IsHexDigit
      decide
    have small : char.toNat < 128 := by
      obtain ⟨found, _⟩ := Option.filter_eq_some_iff.mp found
      unfold digitValue? at found
      simp only [Char.le_def, UInt32.le_iff_toNat_le] at found
      grind
    have own := low ⟨char.toNat, small⟩ digit
    rw [Char.ofNat_toNat] at own
    exact own found
  · intro spelled
    have lower : ∀ digit : Fin 16, digit? 16 digit.val.digitChar = some digit.val := by decide
    have upper : ∀ digit : Fin 16, digit? 16 digit.val.digitChar.toUpper = some digit.val := by decide
    obtain ⟨small, rfl | rfl⟩ := spelled
    · exact lower ⟨digit, small⟩
    · exact upper ⟨digit, small⟩

/-- What letters spell behind digits that have made up a value already. The value stands in for
all those digits, below which the further ones are put. -/
def GoesOn (value : Nat) (letters : List Char) (n : Nat) : Prop :=
  ∃ digits, List.Forall₂ IsHexDigit digits letters ∧ Nat.ofDigits 16 (digits.reverse ++ [value]) = n

theorem spells_iff_goesOn : Spells letters n ↔ GoesOn 0 letters n := by
  simp only [Spells, GoesOn, Nat.ofDigits_append_zero]

theorem goesOn_nil : GoesOn value [] n ↔ n = value := by
  simp [GoesOn, eq_comm]

theorem goesOn_cons : GoesOn value (char :: letters) n ↔
    ∃ digit, IsHexDigit digit char ∧ GoesOn (value * 16 + digit) letters n := by
  have moved (digit : Nat) (digits : List Nat) :
      Nat.ofDigits 16 ((digit :: digits).reverse ++ [value]) =
        Nat.ofDigits 16 (digits.reverse ++ [value * 16 + digit]) := by
    have last : Nat.ofDigits 16 [digit, value] = value * 16 + digit := by
      rw [Nat.ofDigits_cons, Nat.ofDigits_singleton]
      omega
    rw [List.reverse_cons, List.append_assoc, List.singleton_append, Nat.ofDigits_append,
      Nat.ofDigits_append, last, Nat.ofDigits_singleton]
  constructor
  · intro spelled
    obtain ⟨_, spelled, rfl⟩ := spelled
    cases spelled with
    | cons first rest => exact ⟨_, first, _, rest, (moved _ _).symm⟩
  · intro spelled
    obtain ⟨digit, first, digits, rest, rfl⟩ := spelled
    exact ⟨digit :: digits, .cons first rest, moved digit digits⟩

theorem GoesOn.le (spelled : GoesOn value letters n) : value ≤ n := by
  induction letters generalizing value with
  | nil => exact (goesOn_nil.mp spelled).ge
  | cons char letters ih =>
    obtain ⟨digit, _, rest⟩ := goesOn_cons.mp spelled
    have further := ih rest
    omega

/-- A beginning goes beyond a byte, behind digits that have made up a value already. -/
def GoesBeyond (value : Nat) (letters : List Char) : Prop :=
  ∃ start n, start <+: letters ∧ GoesOn value start n ∧ 255 < n

theorem overflows_iff_goesBeyond : Overflows letters ↔ GoesBeyond 0 letters := by
  simp only [Overflows, GoesBeyond, spells_iff_goesOn]

theorem goesBeyond_nil : GoesBeyond value [] ↔ 255 < value := by
  simp [GoesBeyond, goesOn_nil]

theorem goesBeyond_cons (small : value ≤ 255) : GoesBeyond value (char :: letters) ↔
    ∃ digit, IsHexDigit digit char ∧ GoesBeyond (value * 16 + digit) letters := by
  constructor
  · intro beyond
    obtain ⟨start, n, front, spelled, large⟩ := beyond
    rcases List.prefix_cons_iff.mp front with rfl | ⟨more, rfl, tail⟩
    · have same := goesOn_nil.mp spelled
      omega
    · obtain ⟨digit, first, rest⟩ := goesOn_cons.mp spelled
      exact ⟨digit, first, more, n, tail, rest, large⟩
  · intro beyond
    obtain ⟨digit, first, start, n, tail, rest, large⟩ := beyond
    have spelled : GoesOn value (char :: start) n := goesOn_cons.mpr ⟨digit, first, rest⟩
    exact ⟨char :: start, n, (List.prefix_cons_inj char).mpr tail, spelled, large⟩

theorem goesBeyond_of_lt (large : 255 < value) : GoesBeyond value letters :=
  ⟨[], value, List.nil_prefix, goesOn_nil.mpr rfl, large⟩

/-- A digit is the only one that its letter can be. -/
theorem exists_digit_iff {holds : Nat → Prop} (found : digit? 16 char = some digit) :
    (∃ other, IsHexDigit other char ∧ holds other) ↔ holds digit := by
  simp [← digit?_eq_some_iff, found]

theorem not_exists_digit {holds : Nat → Prop} (none : digit? 16 char = none) :
    ¬∃ other, IsHexDigit other char ∧ holds other := by
  simp [← digit?_eq_some_iff, none]

theorem accumulate_eq_ok_iff {byte : UInt8} (small : value ≤ 255) :
    accumulate 16 value letters = .ok byte ↔ GoesOn value letters byte.toNat := by
  induction letters generalizing value with
  | nil =>
    rw [accumulate, goesOn_nil, Except.ok.injEq, ← UInt8.toNat_inj, UInt8.toNat_ofNat']
    omega
  | cons char letters ih =>
    rw [accumulate, goesOn_cons]
    cases found : digit? 16 char with
    | none => simp only [not_exists_digit found, reduceCtorEq]
    | some digit =>
      rw [exists_digit_iff found]
      dsimp only
      split
      next fits => exact ih fits
      next large =>
        have spelled : ¬GoesOn (value * 16 + digit) letters byte.toNat := by
          intro rest
          have least := rest.le
          have most := byte.toNat_lt
          omega
        simp only [spelled, reduceCtorEq]

theorem accumulate_tooLarge_iff (small : value ≤ 255) :
    accumulate 16 value letters = .error .tooLarge ↔ GoesBeyond value letters := by
  induction letters generalizing value with
  | nil => simp [accumulate, goesBeyond_nil, small]
  | cons char letters ih =>
    rw [accumulate, goesBeyond_cons small]
    cases found : digit? 16 char with
    | none => simp [not_exists_digit found]
    | some digit =>
      rw [exists_digit_iff found]
      dsimp only
      split
      next fits => exact ih fits
      next large => simp [goesBeyond_of_lt (Nat.lt_of_not_le large)]

theorem accumulate_ne_empty (value : Nat) (letters : List Char) :
    accumulate 16 value letters ≠ .error .empty := by
  induction letters generalizing value with
  | nil => simp [accumulate]
  | cons char letters ih =>
    rw [accumulate]
    split
    next => simp
    next =>
      split
      next => exact ih _
      next => simp

theorem withoutMark_eq (letters : List Char) : withoutMark letters = behind ['0', 'x'] letters := by
  unfold withoutMark behind
  split
  next => simp
  next other =>
    have unmarked : ¬['0', 'x'] <+: letters := by
      intro marked
      obtain ⟨rest, rfl⟩ := marked
      exact other rest rfl
    rw [if_neg unmarked]

theorem readByte_eq_accumulate (present : letters ≠ []) :
    readByte 16 letters = accumulate 16 0 (unsigned letters) := by
  match letters with
  | char :: rest =>
    by_cases sign : char = '+'
    · subst sign
      cases rest with
      | nil => rfl
      | cons next rest => simp [readByte, unsigned, behind]
    · have plain : unsigned (char :: rest) = char :: rest := by
        simp [unsigned, behind, List.cons_prefix_cons, Ne.symm sign]
      rw [plain]
      unfold readByte
      split
      next => contradiction
      next same => exact absurd (List.cons.inj same).1 sign
      next same => exact absurd (List.cons.inj same).1 sign
      next => rfl

theorem unsigned_eq_nil_iff : unsigned letters = [] ↔ letters = [] := by
  unfold unsigned behind
  split
  next long =>
    have present : letters ≠ [] := List.ne_nil_of_length_pos (by omega)
    split
    next => simp only [List.drop_eq_nil_iff, List.length_singleton, present, Nat.not_le_of_gt long]
    next => rfl
  next => rfl

theorem overflows_of_spells (spelled : Spells letters n) (large : 255 < n) : Overflows letters :=
  ⟨letters, n, List.prefix_rfl, spelled, large⟩

variable {token : String}

/-- The letters of a token behind its mark. -/
def unmarked (token : String) : List Char :=
  behind ['0', 'x'] token.toList

/-- The letters of a token that stand for its number. -/
def numeral (token : String) : List Char :=
  unsigned (unmarked token)

theorem readHexByte_eq_readByte (token : String) :
    readHexByte token = readByte 16 (unmarked token) := by
  rw [readHexByte, withoutMark_eq, unmarked]

theorem readHexByte_eq_accumulate (present : numeral token ≠ []) :
    readHexByte token = accumulate 16 0 (numeral token) := by
  rw [readHexByte_eq_readByte]
  exact readByte_eq_accumulate (mt unsigned_eq_nil_iff.mpr present)

theorem readHexByte_of_absent (absent : numeral token = []) :
    readHexByte token = .error .empty := by
  rw [readHexByte_eq_readByte, unsigned_eq_nil_iff.mp absent]
  rfl

theorem readHexByte_eq_ok_iff {byte : UInt8} :
    readHexByte token = .ok byte ↔ numeral token ≠ [] ∧ Spells (numeral token) byte.toNat := by
  by_cases absent : numeral token = []
  · simp [readHexByte_of_absent absent, absent]
  · rw [readHexByte_eq_accumulate absent, accumulate_eq_ok_iff (Nat.zero_le 255), spells_iff_goesOn,
      and_iff_right absent]

theorem readHexByte_empty_iff : readHexByte token = .error .empty ↔ numeral token = [] := by
  by_cases absent : numeral token = []
  · simp [readHexByte_of_absent absent, absent]
  · simp [readHexByte_eq_accumulate absent, accumulate_ne_empty, absent]

theorem readHexByte_tooLarge_iff :
    readHexByte token = .error .tooLarge ↔ Overflows (numeral token) := by
  rw [overflows_iff_goesBeyond]
  by_cases absent : numeral token = []
  · simp [readHexByte_of_absent absent, absent, goesBeyond_nil]
  · rw [readHexByte_eq_accumulate absent, accumulate_tooLarge_iff (Nat.zero_le 255)]

theorem readHexByte_invalidDigit_iff : readHexByte token = .error .invalidDigit ↔
    numeral token ≠ [] ∧ ¬Overflows (numeral token) ∧ ¬∃ n, Spells (numeral token) n := by
  rw [← readHexByte_tooLarge_iff]
  constructor
  · intro invalid
    have present : numeral token ≠ [] := by simp [← readHexByte_empty_iff, invalid]
    refine ⟨present, by simp [invalid], ?_⟩
    intro spells
    obtain ⟨n, spelled⟩ := spells
    rcases Nat.lt_or_ge 255 n with large | small
    · have tooLarge := readHexByte_tooLarge_iff.mpr (overflows_of_spells spelled large)
      simp [invalid] at tooLarge
    · have same : (UInt8.ofNat n).toNat = n := by
        rw [UInt8.toNat_ofNat']
        omega
      have read := readHexByte_eq_ok_iff.mpr ⟨present, same.symm ▸ spelled⟩
      simp [invalid] at read
  · intro other
    obtain ⟨present, fits, unspelled⟩ := other
    cases read : readHexByte token with
    | ok byte => exact absurd ⟨_, (readHexByte_eq_ok_iff.mp read).2⟩ unspelled
    | error why =>
      cases why with
      | empty => exact absurd (readHexByte_empty_iff.mp read) present
      | tooLarge => exact absurd read fits
      | invalidDigit => rfl

theorem message_injective : Function.Injective Fault.message := by
  intro why other same
  cases why <;> cases other <;> simp [Fault.message] at same ⊢

end Text.Numeral

namespace CommandLine
open SlotLanes.Text.Numeral

variable {token : String}

theorem readToken_eq_ok_iff {byte : UInt8} :
    readToken token = .ok byte ↔ readHexByte token = .ok byte :=
  mapError_eq_ok_iff

/-- A token is refused, with this reason given. -/
def Refused (token reason : String) : Prop :=
  (readToken token).mapError TokenFault.failure =
    .error ⟨"'" ++ token ++ "' is not a hex byte", [reason]⟩

theorem refused_iff (why : Fault) :
    Refused token why.message ↔ readHexByte token = .error why := by
  simp only [Refused, readToken, mapError_eq_error_iff]
  constructor
  · intro refused
    obtain ⟨_, ⟨other, read, rfl⟩, same⟩ := refused
    have reasons := List.cons.inj (congrArg Failure.causes same)
    rw [read, message_injective reasons.1]
  · intro read
    exact ⟨_, ⟨why, read, rfl⟩, rfl⟩

/-- A token is a byte if digits, and nothing else, stand behind its mark and sign, however many
they are, and the number is one. Any other token is refused: as empty if there is nothing
behind the mark, as too large if the digits at the beginning go beyond a byte whatever comes
after them, and for a letter that is no digit otherwise. -/
theorem token_read_by_grammar (token : String) :
    (∀ byte, readToken token = .ok byte ↔
      numeral token ≠ [] ∧ Spells (numeral token) byte.toNat) ∧
    (Refused token "cannot parse integer from empty string" ↔ unmarked token = []) ∧
    (Refused token "number too large to fit in target type" ↔ Overflows (numeral token)) ∧
    (Refused token "invalid digit found in string" ↔
      unmarked token ≠ [] ∧ ¬Overflows (numeral token) ∧ ¬∃ n, Spells (numeral token) n) := by
  have present : numeral token = [] ↔ unmarked token = [] := unsigned_eq_nil_iff
  refine ⟨fun byte => ?_, ?_, ?_, ?_⟩
  · exact readToken_eq_ok_iff.trans readHexByte_eq_ok_iff
  · rw [← present]
    exact (refused_iff .empty).trans readHexByte_empty_iff
  · exact (refused_iff .tooLarge).trans readHexByte_tooLarge_iff
  · rw [ne_eq, ← present]
    exact (refused_iff .invalidDigit).trans readHexByte_invalidDigit_iff

end CommandLine
end SlotLanes
