import SlotLanes.Proofs.Boundaries
import SlotLanes.Proofs.Utf8Sequences

/-! Numbers and strings as they may be written in a document. A number stands by its decimal
digits, a character of a string by itself or by one of its escapes; each way of writing them
is read back as the same number or string. -/
namespace SlotLanes.Json
open SlotLanes.Text

variable {rest : Bytes}

def ascii (chars : List Char) : Bytes :=
  chars.map Char.toUInt8

def blanks : Bytes :=
  ascii [' ', '\t', '\n', '\r']

def Blank (bytes : Bytes) : Prop :=
  ∀ byte ∈ bytes, byte ∈ blanks

theorem isBlank_iff {byte : UInt8} : isBlank byte = true ↔ byte ∈ blanks := by
  simp [isBlank, blanks, ascii, or_assoc]

theorem blank_of_all {bytes : Bytes} (all : bytes.all isBlank = true) : Blank bytes := by
  intro byte inside
  exact isBlank_iff.mp (List.all_eq_true.mp all byte inside)

/-- The marks that may stand behind a value. -/
def marks : Bytes :=
  ascii [',', ']', '\x7d']

theorem isBlank_of_mem_marks {mark : UInt8} (stops : mark ∈ marks) : isBlank mark = false := by
  have all : (marks.all fun mark => !isBlank mark) = true := rfl
  simpa using List.all_eq_true.mp all mark stops

/-- The input ends here, or what comes next can stand behind a value. -/
def Stops (rest : Bytes) : Prop :=
  ∀ byte ∈ rest.head?, byte ∈ blanks ++ marks

section Numbers
variable {digits : List Char} {n : Nat}

/-- The digits of a number, without a sign and with no zero in front of others. -/
structure IsDecimal (digits : List Char) (n : Nat) : Prop where
  present : digits ≠ []
  digit : ∀ char ∈ digits, char.isDigit
  leading : digits.head? = some '0' → digits = ['0']
  value : Nat.ofDigitChars 10 digits 0 = n

def DecimalWritten (n : Nat) (bytes : Bytes) : Prop :=
  ∃ digits, IsDecimal digits n ∧ bytes = ascii digits

theorem head?_toDigits_ne_zero (positive : 0 < n) : (Nat.toDigits 10 n).head? ≠ some '0' := by
  induction n using Nat.strongRecOn with
  | ind n ih =>
    by_cases small : n < 10
    · rw [Nat.toDigits_of_lt_base small]
      have others : ∀ digit : Fin 10, 0 < digit.val → [digit.val.digitChar].head? ≠ some '0' := by
        decide
      exact others ⟨n, small⟩ positive
    · have front := ih (n / 10) (by omega) (by omega)
      rw [Nat.toDigits_of_base_le (by decide) (Nat.le_of_not_lt small), List.head?_append]
      have present : Nat.toDigits 10 (n / 10) ≠ [] := Nat.toDigits_ne_nil
      obtain ⟨first, more, digits⟩ := List.exists_cons_of_ne_nil present
      rw [digits] at front ⊢
      exact front

theorem isDecimal_toDigits (n : Nat) : IsDecimal (Nat.toDigits 10 n) n where
  present := Nat.toDigits_ne_nil
  digit _ member := Nat.isDigit_of_mem_toDigits (by decide) (by decide) member
  leading zero := by
    rcases Nat.eq_zero_or_pos n with none | positive
    · rw [none, Nat.toDigits_zero]
    · exact absurd zero (head?_toDigits_ne_zero positive)
  value := Nat.ofDigitChars_ten_toDigits

theorem exists_decimalWritten (n : Nat) : ∃ bytes, DecimalWritten n bytes :=
  ⟨_, _, isDecimal_toDigits n, rfl⟩

theorem isDigit_iff {byte : UInt8} : isDigit byte = true ↔ 48 ≤ byte.toNat ∧ byte.toNat ≤ 57 := by
  simp only [isDigit, Bool.and_eq_true, decide_eq_true_eq, UInt8.le_iff_toNat_le]
  exact Iff.rfl

theorem toNat_toUInt8 {char : Char} (small : char.toNat < 256) : char.toUInt8.toNat = char.toNat :=
  Utf8.toNat_ofNat_of_lt small

theorem toNat_of_isDigit {char : Char} (digit : char.isDigit) :
    48 ≤ char.toNat ∧ char.toNat ≤ 57 := by
  simp only [Char.isDigit, ge_iff_le, Bool.and_eq_true, decide_eq_true_eq, UInt32.le_iff_toNat_le]
    at digit
  exact digit

theorem isDigit_toUInt8 {char : Char} (digit : char.isDigit) : isDigit char.toUInt8 = true := by
  have range := toNat_of_isDigit digit
  rw [isDigit_iff, toNat_toUInt8 (by omega)]
  exact range

/-- No byte that stands behind a value goes on with a number. -/
theorem Stops.not_goesOn (stops : Stops rest) {byte : UInt8} (next : rest.head? = some byte) :
    isDigit byte = false ∧ byte ≠ '.'.toUInt8 ∧ byte ≠ 'e'.toUInt8 ∧ byte ≠ 'E'.toUInt8 := by
  have others : ((blanks ++ marks).all fun byte => !isDigit byte && byte != '.'.toUInt8 &&
      byte != 'e'.toUInt8 && byte != 'E'.toUInt8) = true := rfl
  simpa [and_assoc] using List.all_eq_true.mp others byte (stops byte next)

theorem not_mem_marks_of_isDigit {byte : UInt8} (digit : isDigit byte = true) : byte ∉ marks := by
  have others : (marks.all fun mark => !isDigit mark) = true := rfl
  intro mark
  simpa [digit] using List.all_eq_true.mp others byte mark

theorem Stops.no_digit (stops : Stops rest) : ¬rest.head?.any isDigit := by
  cases rest with
  | nil => nofun
  | cons byte more => simp [(stops.not_goesOn rfl).1]

theorem digitsOf_decimal (digit : ∀ char ∈ digits, char.isDigit) (stops : Stops rest) :
    digitsOf (ascii digits ++ rest) = digits.map (fun char => char.toNat - '0'.toNat) ∧
      afterDigits (ascii digits ++ rest) = rest := by
  have inside : ∀ byte ∈ ascii digits, isDigit byte = true := by
    intro byte inside
    obtain ⟨char, member, rfl⟩ := List.mem_map.mp inside
    exact isDigit_toUInt8 (digit char member)
  have outside : rest.takeWhile isDigit = [] ∧ rest.dropWhile isDigit = rest := by
    cases rest with
    | nil => exact ⟨rfl, rfl⟩
    | cons byte more =>
      have noDigit := (stops.not_goesOn rfl).1
      exact ⟨List.takeWhile_cons_of_neg (by simp [noDigit]), List.dropWhile_cons_of_neg (by simp [noDigit])⟩
  refine ⟨?_, ?_⟩
  · rw [digitsOf, List.takeWhile_append_of_pos inside, outside.1, List.append_nil, ascii, List.map_map]
    refine List.map_congr_left fun char member => ?_
    have range := toNat_of_isDigit (digit char member)
    rw [Function.comp_apply, toNat_toUInt8 (by omega)]
    rfl
  · rw [afterDigits, List.dropWhile_append_of_pos inside, outside.2]

theorem le_ofDigitChars (digits : List Char) (n : Nat) : n ≤ Nat.ofDigitChars 10 digits n := by
  rw [Nat.ofDigitChars_eq_ofDigitChars_zero]
  exact Nat.le_add_right_of_le (Nat.le_mul_of_pos_left n (Nat.pow_pos (by decide)))

theorem absorb_decimal {limit : Nat} (fits : Nat.ofDigitChars 10 digits n ≤ limit) :
    absorb limit n (digits.map fun char => char.toNat - '0'.toNat) =
      (Nat.ofDigitChars 10 digits n, []) := by
  induction digits generalizing n with
  | nil => rfl
  | cons char digits ih =>
    rw [Nat.ofDigitChars_cons, Nat.mul_comm 10 n] at fits ⊢
    have step : n * 10 + (char.toNat - '0'.toNat) ≤ limit := (le_ofDigitChars digits _).trans fits
    rw [List.map_cons, absorb, if_pos step]
    exact ih fits

theorem readAfterInteger_stops (stops : Stops rest) (n : Nat) :
    readAfterInteger false n 0 rest = .ok (.natural (UInt64.ofNat n), rest) := by
  cases rest with
  | nil => rfl
  | cons byte more =>
    obtain ⟨_, noPoint, noMark, noCapital⟩ := stops.not_goesOn rfl
    simp [readAfterInteger, noPoint, noMark, noCapital, Number.ofInteger]

theorem readNumber_decimal (decimal : IsDecimal digits n) (fits : n ≤ maxSignificand) (stops : Stops rest) :
    readNumber (ascii digits ++ rest) = .ok (.natural (UInt64.ofNat n), rest) := by
  obtain ⟨first, others, rfl⟩ := List.exists_cons_of_ne_nil decimal.present
  obtain ⟨digitsEq, afterEq⟩ := digitsOf_decimal decimal.digit stops
  have digit : isDigit first.toUInt8 = true := isDigit_toUInt8 (decimal.digit first (by simp))
  have noMinus : ¬first.toUInt8 = '-'.toUInt8 := by
    intro minus
    rw [minus] at digit
    cases digit
  have noLeading : ¬(first.toUInt8 = '0'.toUInt8 ∧ (ascii others ++ rest).head?.any isDigit) := by
    intro ⟨zero, follows⟩
    have same : first = '0' := by
      have value := congrArg UInt8.toNat zero
      have bounds := toNat_of_isDigit (decimal.digit first (by simp))
      rw [toNat_toUInt8 (by omega)] at value
      exact Char.ext (UInt32.toNat_inj.mp value)
    have alone : others = [] := by simpa [same] using decimal.leading (by simp [same])
    rw [alone] at follows
    exact stops.no_digit follows
  have absorbed : absorb maxSignificand 0 (digitsOf (ascii (first :: others) ++ rest)) = (n, []) := by
    have within : Nat.ofDigitChars 10 (first :: others) 0 ≤ maxSignificand :=
      decimal.value ▸ fits
    rw [digitsEq, absorb_decimal within, decimal.value]
  have head : ascii (first :: others) ++ rest = first.toUInt8 :: (ascii others ++ rest) := rfl
  rw [readNumber, head, List.head?_cons, if_neg (by simpa using noMinus), readUnsigned,
    if_neg (by simpa using digit), if_neg noLeading, ← head, absorbed, afterEq]
  exact readAfterInteger_stops stops n

theorem skipBlanks_of_not_blank {byte : UInt8} {more : Bytes} (present : isBlank byte = false) :
    skipBlanks (byte :: more) = byte :: more := by
  rw [skipBlanks, List.dropWhile_cons_of_neg (by simp [present])]

theorem isBlank_of_isDigit {byte : UInt8} (digit : isDigit byte = true) : isBlank byte = false := by
  have others : (blanks.all fun byte => !isDigit byte) = true := rfl
  refine eq_false_of_ne_true fun blank => ?_
  simpa [digit] using List.all_eq_true.mp others byte (isBlank_iff.mp blank)

theorem readValue_of_digit {byte : UInt8} {more : Bytes} (digit : isDigit byte = true) :
    readValue none (byte :: more) = .ofRead .number (readNumber (byte :: more)) := by
  unfold readValue
  rw [skipBlanks_of_not_blank (isBlank_of_isDigit digit)]
  dsimp only
  split
  case h_7 => rw [if_pos (by simp [digit])]
  all_goals
    rename_i letter
    rw [eq_toUInt8_of_ofUInt8 letter] at digit
    cases digit

theorem scalarAt_decimal (decimal : IsDecimal digits n) (fits : n ≤ maxSignificand) (stops : Stops rest) :
    ScalarAt (ascii digits ++ rest) (.number (.natural (UInt64.ofNat n))) rest := by
  have read := readNumber_decimal decimal fits stops
  obtain ⟨first, others, rfl⟩ := List.exists_cons_of_ne_nil decimal.present
  have digit : isDigit first.toUInt8 = true := isDigit_toUInt8 (decimal.digit first (by simp))
  rw [ScalarAt]
  change readValue none (first.toUInt8 :: (ascii others ++ rest)) = _
  rw [readValue_of_digit digit]
  exact congrArg (Node.ofRead Scalar.number) read

end Numbers

section Strings
variable {char : Char}

/-- The characters with an escape of their own, behind the letter of the escape. -/
def namedEscapes : List (Char × Char) :=
  [('"', '"'), ('\\', '\\'), ('/', '/'), ('b', '\x08'), ('f', '\x0c'), ('n', '\n'), ('r', '\r'),
    ('t', '\t')]

/-- A hexadecimal digit in either case. -/
def IsHexDigit (value : Nat) (char : Char) : Prop :=
  value < 0x10 ∧ (char = value.digitChar ∨ char = value.digitChar.toUpper)

/-- The four digits of an escape by number. -/
inductive HexWritten (n : Nat) : List Char → Prop
  | digits {a b c d : Char} (first : IsHexDigit (n / 0x1000) a)
      (second : IsHexDigit (n / 0x100 % 0x10) b) (third : IsHexDigit (n / 0x10 % 0x10) c)
      (fourth : IsHexDigit (n % 0x10) d) : HexWritten n [a, b, c, d]

/-- The ways to write a character of a string: as it is, by name, by number, or as a pair of
surrogates. -/
inductive CharWritten (char : Char) : Bytes → Prop
  | plain (printable : ' ' ≤ char) (noQuote : char ≠ '"') (noEscape : char ≠ '\\') :
      CharWritten char (String.utf8EncodeChar char)
  | named {letter : Char} (listed : (letter, char) ∈ namedEscapes) :
      CharWritten char (ascii ['\\', letter])
  | unit {digits : List Char} (hex : HexWritten char.toNat digits) :
      CharWritten char (ascii ('\\' :: 'u' :: digits))
  | pair {high low : List Char} (large : 0x10000 ≤ char.toNat)
      (first : HexWritten (0xd800 + (char.toNat - 0x10000) / 0x400) high)
      (second : HexWritten (0xdc00 + (char.toNat - 0x10000) % 0x400) low) :
      CharWritten char (ascii ('\\' :: 'u' :: high ++ '\\' :: 'u' :: low))

/-- A string between its marks, each character written in some way. -/
def StringWritten (text : String) (bytes : Bytes) : Prop :=
  ∃ pieces, List.Forall₂ CharWritten text.toList pieces ∧
    bytes = '"'.toUInt8 :: (pieces.flatten ++ ['"'.toUInt8])

theorem hexValue?_of_isHexDigit {value : Nat} (digit : IsHexDigit value char) :
    hexValue? char.toUInt8 = some value := by
  have lower : ∀ value : Fin 16, hexValue? value.val.digitChar.toUInt8 = some value.val := by decide
  have upper : ∀ value : Fin 16, hexValue? value.val.digitChar.toUpper.toUInt8 = some value.val := by
    decide
  obtain ⟨small, rfl | rfl⟩ := digit
  · exact lower ⟨value, small⟩
  · exact upper ⟨value, small⟩

theorem readHex_written {n : Nat} {digits : List Char} (written : HexWritten n digits)
    (rest : Bytes) : readHex (ascii digits ++ rest) = .ok (n, rest) := by
  cases written with
  | digits first second third fourth =>
    have a := hexValue?_of_isHexDigit first
    have b := hexValue?_of_isHexDigit second
    have c := hexValue?_of_isHexDigit third
    have d := hexValue?_of_isHexDigit fourth
    have value : ((n / 0x1000 * 16 + n / 0x100 % 0x10) * 16 + n / 0x10 % 0x10) * 16 + n % 0x10 = n := by
      omega
    simp only [ascii, List.map_cons, List.map_nil, List.cons_append, List.nil_append, readHex, a, b, c, d,
      value]

theorem readEscape_named {letter : Char} (listed : (letter, char) ∈ namedEscapes) (rest : Bytes) :
    readEscape (letter.toUInt8 :: rest) = .ok (char, rest) := by
  have all : ∀ pair ∈ namedEscapes, readEscape (pair.1.toUInt8 :: rest) = .ok (pair.2, rest) := by
    simp only [namedEscapes, List.forall_mem_cons]
    exact ⟨rfl, rfl, rfl, rfl, rfl, rfl, rfl, rfl, nofun⟩
  exact all _ listed

theorem not_surrogate (char : Char) : isLowSurrogate char.toNat = false ∧
    isHighSurrogate char.toNat = false := by
  have valid : char.toNat.isValidChar := char.valid
  unfold Nat.isValidChar at valid
  simp only [isLowSurrogate, isHighSurrogate, Bool.and_eq_false_iff, decide_eq_false_iff_not]
  omega

theorem readEscape_unit {digits : List Char} (hex : HexWritten char.toNat digits) (rest : Bytes) :
    readEscape (ascii ('u' :: digits) ++ rest) = .ok (char, rest) := by
  have read := readHex_written hex rest
  obtain ⟨notLow, notHigh⟩ := not_surrogate char
  change readUnicodeEscape (ascii digits ++ rest) = _
  simp only [readUnicodeEscape, read, bind, Except.bind, notLow, notHigh, Char.ofNat_toNat]
  rfl

theorem isHighSurrogate_add {n : Nat} (small : n < 0x400) :
    isHighSurrogate (0xd800 + n) = true ∧ isLowSurrogate (0xd800 + n) = false := by
  simp only [isHighSurrogate, isLowSurrogate, Bool.and_eq_true, Bool.and_eq_false_iff,
    decide_eq_true_eq, decide_eq_false_iff_not]
  omega

theorem isLowSurrogate_add {n : Nat} (small : n < 0x400) : isLowSurrogate (0xdc00 + n) = true := by
  simp only [isLowSurrogate, Bool.and_eq_true, decide_eq_true_eq]
  omega

theorem readEscape_pair {high low : List Char} (large : 0x10000 ≤ char.toNat)
    (first : HexWritten (0xd800 + (char.toNat - 0x10000) / 0x400) high)
    (second : HexWritten (0xdc00 + (char.toNat - 0x10000) % 0x400) low) (rest : Bytes) :
    readEscape (ascii ('u' :: high ++ '\\' :: 'u' :: low) ++ rest) = .ok (char, rest) := by
  have valid : char.toNat.isValidChar := char.valid
  unfold Nat.isValidChar at valid
  obtain ⟨n, same⟩ := Nat.exists_eq_add_of_le large
  rw [same, Nat.add_sub_cancel_left] at first second
  obtain ⟨isHigh, notLow⟩ := isHighSurrogate_add (show n / 0x400 < 0x400 by omega)
  have isLow := isLowSurrogate_add (show n % 0x400 < 0x400 by omega)
  have value : 0x10000 + (0xd800 + n / 0x400 - 0xd800) * 0x400 + (0xdc00 + n % 0x400 - 0xdc00) =
      char.toNat := by
    omega
  have readLow := readHex_written second rest
  have readHigh := readHex_written first
    ('\\'.toUInt8 :: 'u'.toUInt8 :: (ascii low ++ rest))
  have input : ascii ('u' :: high ++ '\\' :: 'u' :: low) ++ rest =
      'u'.toUInt8 :: (ascii high ++ '\\'.toUInt8 :: 'u'.toUInt8 :: (ascii low ++ rest)) := by
    simp [ascii]
  rw [input]
  change readUnicodeEscape _ = _
  simp only [readUnicodeEscape, readHigh, bind, Except.bind, notLow, isHigh, readLowSurrogate, readLow,
    isLow, value, Char.ofNat_toNat]
  rfl

theorem toNat_ne_of_ne {char other : Char} (different : char ≠ other) : char.toNat ≠ other.toNat := by
  intro same
  exact different (Char.ext (UInt32.toNat_inj.mp same))

theorem readPartsWithin_plain (printable : ' ' ≤ char) (noQuote : char ≠ '"') (noEscape : char ≠ '\\')
    (count : Nat) (rest : Bytes) :
    readPartsWithin (count + 1) (String.utf8EncodeChar char ++ rest) =
      prependPart (.char char) (readPartsWithin count rest) := by
  have found := Utf8.next?_utf8EncodeChar char rest
  obtain ⟨byte, more, sequence, value⟩ := Utf8.utf8EncodeChar_eq_cons char
  have least : 0x20 ≤ char.toNat := printable
  have apart {mark : Char} (small : mark.toNat < 0x80) (different : char ≠ mark) :
      byte ≠ mark.toUInt8 := by
    intro same
    have other := toNat_ne_of_ne different
    rw [same, toNat_toUInt8 (by omega)] at value
    omega
  have noControl : ¬byte < 0x20 := by
    intro control
    have below : byte.toNat < 0x20 := UInt8.lt_iff_toNat_lt.mp control
    omega
  rw [sequence] at found ⊢
  exact readPartsWithin_char count (apart (by decide) noQuote) (apart (by decide) noEscape) noControl found

/-- A written character is one part of a string, whatever goes before it and behind it. -/
theorem CharWritten.spells {front back : Bytes} {parts : List Part} (written : CharWritten char front)
    (spells : Spells back parts) : Spells (front ++ back) (.char char :: parts) := by
  cases written with
  | plain printable noQuote noEscape =>
    obtain ⟨byte, more, sequence, _⟩ := Utf8.utf8EncodeChar_eq_cons char
    exact spells.prepend (by simp [sequence]) (readPartsWithin_plain printable noQuote noEscape)
  | named listed =>
    refine spells.prepend (by simp [ascii]) fun count other => ?_
    exact readPartsWithin_escape count (readEscape_named listed other)
  | unit hex =>
    refine spells.prepend (by simp [ascii]) fun count other => ?_
    exact readPartsWithin_escape count (readEscape_unit hex other)
  | pair large first second =>
    refine spells.prepend (by simp [ascii]) fun count other => ?_
    exact readPartsWithin_escape count (readEscape_pair large first second other)

theorem spells_of_written {chars : List Char} {pieces : List Bytes}
    (written : List.Forall₂ CharWritten chars pieces) :
    Spells (pieces.flatten ++ ['"'.toUInt8]) (chars.map .char) := by
  induction written with
  | nil => exact spells_quote
  | cons char _ ih =>
    rw [List.flatten_cons, List.append_assoc]
    exact char.spells ih

theorem mapM_char? (chars : List Char) : (chars.map Part.char).mapM Part.char? = some chars := by
  induction chars with
  | nil => rfl
  | cons char chars ih => simp [ih, Part.char?]

theorem StringWritten.read {text : String} {bytes : Bytes} (written : StringWritten text bytes)
    (rest : Bytes) : ∃ inner, bytes ++ rest = '"'.toUInt8 :: inner ∧ readText inner = .ok (text, rest) := by
  obtain ⟨pieces, chars, rfl⟩ := written
  refine ⟨pieces.flatten ++ ['"'.toUInt8] ++ rest, rfl, ?_⟩
  have within := spells_of_written chars rest (pieces.flatten ++ ['"'.toUInt8] ++ rest).length (by simp)
  exact readText_eq_ok_iff.mpr ⟨_, text.toList, within, mapM_char? _, String.ofList_toList.symm⟩

theorem scalarAt_written {text : String} {bytes : Bytes} (written : StringWritten text bytes)
    (rest : Bytes) : ScalarAt (bytes ++ rest) (.string text) rest := by
  obtain ⟨inner, same, read⟩ := written.read rest
  rw [ScalarAt, same]
  exact congrArg (Node.ofRead Scalar.string) read

/-- A string with nothing in it that has to be escaped can stand as it is. -/
theorem stringWritten_plain {text : String}
    (plain : text.toList.all fun char => ' ' ≤ char && char != '"' && char != '\\') :
    StringWritten text
      ('"'.toUInt8 :: ((text.toList.map String.utf8EncodeChar).flatten ++ ['"'.toUInt8])) := by
  refine ⟨_, ?_, rfl⟩
  rw [List.forall₂_map_right_iff, List.forall₂_same]
  intro char member
  have each := List.all_eq_true.mp plain char member
  simp only [Bool.and_eq_true, decide_eq_true_eq, bne_iff_ne] at each
  exact .plain each.1.1 each.1.2 each.2

theorem exists_hexWritten {n : Nat} (small : n < 0x10000) : ∃ digits, HexWritten n digits := by
  have digit {value : Nat} (small : value < 0x10) : IsHexDigit value value.digitChar :=
    ⟨small, .inl rfl⟩
  exact ⟨_, .digits (digit (by omega)) (digit (by omega)) (digit (by omega)) (digit (by omega))⟩

/-- A character can be written by its number, or else it is far above the marks. -/
theorem exists_charWritten (char : Char) : ∃ bytes, CharWritten char bytes := by
  by_cases small : char.toNat < 0x10000
  · obtain ⟨digits, hex⟩ := exists_hexWritten small
    exact ⟨_, .unit hex⟩
  · have apart {mark : Char} (low : mark.toNat < 0x10000) : char ≠ mark := by
      intro same
      exact small (same ▸ low)
    have printable : 0x20 ≤ char.toNat := by omega
    exact ⟨_, .plain printable (apart (by decide)) (apart (by decide))⟩

theorem exists_stringWritten (text : String) : ∃ bytes, StringWritten text bytes := by
  choose piece written using exists_charWritten
  have all : List.Forall₂ CharWritten text.toList (text.toList.map piece) := by
    rw [List.forall₂_map_right_iff]
    exact List.forall₂_same.mpr fun char _ => written char
  exact ⟨_, _, all, rfl⟩

end Strings

end SlotLanes.Json
