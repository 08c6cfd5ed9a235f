import SlotLanes.Toml.Value

/-! Values that are written without quotes and brackets: booleans, numbers, dates and
times. -/
namespace SlotLanes.Toml

def isDigit (char : Char) : Bool :=
  '0' ≤ char && char ≤ '9'

/-- Digits of some kind; one underscore may stand between two of them. -/
def plainDigits (isDigit : Char → Bool) : List Char → Option (List Char)
  | [] => none
  | [char] => if isDigit char then some [char] else none
  | char :: '_' :: rest =>
    if isDigit char then (plainDigits isDigit rest).map (char :: ·) else none
  | char :: rest => if isDigit char then (plainDigits isDigit rest).map (char :: ·) else none

def valueOfDigits (radix : Nat) (digits : List Char) : Nat :=
  digits.foldl (fun n digit => n * radix + (Text.Numeral.digitValue? digit).getD 0) 0

def isDigitOf (radix : Nat) (char : Char) : Bool :=
  (Text.Numeral.digit? radix char).isSome

def wholeDigits (chars : List Char) : Option (List Char) := do
  let digits ← plainDigits isDigit chars
  if digits.length > 1 ∧ digits.head? = some '0' then none
  return digits

def splitSign : List Char → Bool × List Char
  | '-' :: rest => (true, rest)
  | '+' :: rest => (false, rest)
  | chars => (false, chars)

def inRange (n : Int) : Option Value :=
  if -0x8000000000000000 ≤ n ∧ n < 0x8000000000000000 then some (.integer n) else none

def readInteger (chars : List Char) : Option Value :=
  match chars with
  | '0' :: 'x' :: rest => do inRange (valueOfDigits 16 (← plainDigits (isDigitOf 16) rest))
  | '0' :: 'o' :: rest => do inRange (valueOfDigits 8 (← plainDigits (isDigitOf 8) rest))
  | '0' :: 'b' :: rest => do inRange (valueOfDigits 2 (← plainDigits (isDigitOf 2) rest))
  | _ => do
    let (minus, rest) := splitSign chars
    let n : Int := valueOfDigits 10 (← wholeDigits rest)
    inRange (if minus then -n else n)

def floatOf (n : Nat) (exponent : Int) : Float :=
  let magnitude := exponent + (toString n).length
  if n = 0 ∨ magnitude < -400 then 0.0
  else if 400 < magnitude then 1.0 / 0.0
  else Float.ofScientific n (exponent < 0) exponent.natAbs

/-- Splits at the first character of a kind, which is dropped. -/
def splitAt? (isMark : Char → Bool) (chars : List Char) : List Char × Option (List Char) :=
  match chars.dropWhile (!isMark ·) with
  | [] => (chars, none)
  | _ :: rest => (chars.takeWhile (!isMark ·), some rest)

def readExponent (chars : List Char) : Option Int := do
  let (minus, rest) := splitSign chars
  let n : Int := valueOfDigits 10 (← plainDigits isDigit rest)
  return if minus then -n else n

def readDecimal (chars : List Char) : Option Float := do
  let (mantissa, exponent?) := splitAt? (fun char => char = 'e' || char = 'E') chars
  let (whole, fraction?) := splitAt? (· = '.') mantissa
  if exponent?.isNone ∧ fraction?.isNone then none
  let whole ← wholeDigits whole
  let fraction ← (fraction?.map (plainDigits isDigit)).getD (some [])
  let exponent ← (exponent?.map readExponent).getD (some 0)
  let x := floatOf (valueOfDigits 10 (whole ++ fraction)) (exponent - fraction.length)
  if x.isInf then none
  return x

def readFloat (chars : List Char) : Option Value := do
  let (minus, rest) := splitSign chars
  let x ← match rest with
    | ['i', 'n', 'f'] => some (1.0 / 0.0)
    | ['n', 'a', 'n'] => some (0.0 / 0.0)
    | _ => readDecimal rest
  return .floating (if minus then -x else x)

def readPlaces (places : Nat) (chars : List Char) : Option (Nat × List Char) :=
  let digits := chars.take places
  if digits.length = places ∧ digits.all isDigit then
    some (valueOfDigits 10 digits, chars.drop places)
  else none

def expect (char : Char) : List Char → Option (List Char)
  | first :: rest => if first = char then some rest else none
  | [] => none

def isLeapYear (year : Nat) : Bool :=
  year % 4 = 0 && (year % 100 ≠ 0 || year % 400 = 0)

def daysIn (year month : Nat) : Nat :=
  match month with
  | 2 => if isLeapYear year then 29 else 28
  | 4 | 6 | 9 | 11 => 30
  | _ => 31

def readDate (chars : List Char) : Option (List Char) := do
  let (year, rest) ← readPlaces 4 chars
  let (month, rest) ← readPlaces 2 (← expect '-' rest)
  let (day, rest) ← readPlaces 2 (← expect '-' rest)
  if 1 ≤ month ∧ month ≤ 12 ∧ 1 ≤ day ∧ day ≤ daysIn year month then some rest else none

def readTime (chars : List Char) : Option (List Char) := do
  let (hour, rest) ← readPlaces 2 chars
  let (minute, rest) ← readPlaces 2 (← expect ':' rest)
  if 23 < hour ∨ 59 < minute then none
  match rest with
  | ':' :: rest =>
    let (second, rest) ← readPlaces 2 rest
    if 60 < second then none
    match rest with
    | '.' :: rest =>
      if (rest.takeWhile isDigit).isEmpty then none
      return rest.dropWhile isDigit
    | _ => return rest
  | _ => return rest

def isOffset (chars : List Char) : Bool :=
  match chars with
  | [] => true
  | ['Z'] => true
  | ['z'] => true
  | sign :: rest =>
    (sign = '+' || sign = '-') &&
      (do
        let (hour, rest) ← readPlaces 2 rest
        let (minute, rest) ← readPlaces 2 (← expect ':' rest)
        return decide (hour ≤ 23 ∧ minute ≤ 59) && rest.isEmpty).getD false

def isDate (chars : List Char) : Bool :=
  readDate chars = some []

def isDateTime (chars : List Char) : Bool :=
  match readDate chars with
  | some [] => true
  | some (mark :: rest) =>
    (mark = 'T' || mark = 't' || mark = ' ') && ((readTime rest).map isOffset).getD false
  | none => readTime chars = some []

def readScalar (chars : List Char) : Option Value :=
  if chars = ['t', 'r', 'u', 'e'] then some (.boolean true)
  else if chars = ['f', 'a', 'l', 's', 'e'] then some (.boolean false)
  else if isDateTime chars then some .dateTime
  else (readInteger chars).or (readFloat chars)

end SlotLanes.Toml
