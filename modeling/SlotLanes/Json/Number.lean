import SlotLanes.Decimal.Layout
import SlotLanes.Json.Fault

/-! Numbers in documents. Integers of sixty-four bits stay integers; anything else is
a floating-point number, scaled from the digits that fit sixty-four bits. Negative zero
is a floating-point number too. -/
namespace SlotLanes.Json

inductive Number where
  | natural (n : UInt64)
  | negative (n : Int64)
  | floating (x : Float)
  deriving Repr

def Number.found : Number → Found
  | natural n => .integer n.toNat
  | negative n => .integer n.toInt
  | floating x => .floating (Decimal.Layout.scientific.text x)

def isDigit (byte : UInt8) : Bool :=
  0x30 ≤ byte && byte ≤ 0x39

def digitsOf (bytes : Bytes) : List Nat :=
  (bytes.takeWhile isDigit).map fun byte => byte.toNat - 0x30

def afterDigits (bytes : Bytes) : Bytes :=
  bytes.dropWhile isDigit

/-- Appends digits to a number as long as it does not pass the limit; the digits that
are left over begin with the first that would not fit. -/
def absorb (limit : Nat) : Nat → List Nat → Nat × List Nat
  | n, [] => (n, [])
  | n, digit :: digits =>
    if n * 10 + digit ≤ limit then absorb limit (n * 10 + digit) digits else (n, digit :: digits)

def maxSignificand : Nat := 0xffffffffffffffff

def maxExponent : Nat := 0x7fffffff

def powerOfTen (n : Nat) : Float :=
  Float.ofScientific 1 false n

/-- Scales by a power of ten in steps of at most 308; nothing if the result is not
finite. -/
def scale (x : Float) (exponent : Int) : Option Float :=
  if exponent.natAbs ≤ 308 then
    if 0 ≤ exponent then
      let y := x * powerOfTen exponent.toNat
      if y.isInf then none else some y
    else some (x / powerOfTen exponent.natAbs)
  else if x == 0.0 then some x
  else if 0 ≤ exponent then none
  else scale (x / powerOfTen 308) (exponent + 308)
termination_by exponent.natAbs

def signed (minus : Bool) (x : Float) : Float :=
  if minus then -x else x

def Number.ofInteger (minus : Bool) (n : Nat) : Number :=
  if !minus then .natural (UInt64.ofNat n)
  else if n = 0 ∨ 0x8000000000000000 < n then .floating (-(UInt64.ofNat n).toFloat)
  else .negative (Int64.ofInt (-(n : Int)))

def Number.ofScientific (minus : Bool) (significand : Nat) (exponent : Int) (rest : Bytes) :
    Except Fault (Number × Bytes) :=
  match scale (UInt64.ofNat significand).toFloat exponent with
  | some x => .ok (.floating (signed minus x), rest)
  | none => .error (.before .numberOutOfRange rest)

/-- The digits of an exponent. One that is too large for thirty-two bits makes the number
infinite or zero. -/
def readExponentDigits (minus : Bool) (significand : Nat) (exponent : Int) (shrinks : Bool)
    (input : Bytes) : Except Fault (Number × Bytes) :=
  match input with
  | [] => .error (.before .unfinishedValue [])
  | byte :: rest =>
    if !isDigit byte then .error (.before .badNumber rest)
    else
      match absorb maxExponent 0 (digitsOf input) with
      | (n, []) =>
        Number.ofScientific minus significand (if shrinks then exponent - n else exponent + n)
          (afterDigits input)
      | (_, _ :: unread) =>
        if significand ≠ 0 ∧ !shrinks then
          .error ⟨.malformed .numberOutOfRange, unread.length + (afterDigits input).length⟩
        else .ok (.floating (signed minus 0.0), afterDigits input)

/-- What follows the mark of an exponent. -/
def readExponent (minus : Bool) (significand : Nat) (exponent : Int) (input : Bytes) :
    Except Fault (Number × Bytes) :=
  if input.head? = some '-'.toUInt8 then
    readExponentDigits minus significand exponent true (input.drop 1)
  else if input.head? = some '+'.toUInt8 then
    readExponentDigits minus significand exponent false (input.drop 1)
  else readExponentDigits minus significand exponent false input

def readAfterFraction (minus : Bool) (significand : Nat) (exponent : Int) (rest : Bytes) :
    Except Fault (Number × Bytes) :=
  match rest with
  | byte :: more =>
    if byte = 'e'.toUInt8 ∨ byte = 'E'.toUInt8 then readExponent minus significand exponent more
    else Number.ofScientific minus significand exponent rest
  | [] => Number.ofScientific minus significand exponent []

/-- What follows the point. Digits that no longer fit are passed over. -/
def readFraction (minus : Bool) (significand : Nat) (exponent : Int) (input : Bytes) :
    Except Fault (Number × Bytes) :=
  let digits := digitsOf input
  if digits.isEmpty then
    .error (.looking (if input.isEmpty then .unfinishedValue else .badNumber) input)
  else
    let (significand, unread) := absorb maxSignificand significand digits
    readAfterFraction minus significand (exponent - (digits.length - unread.length : Nat))
      (afterDigits input)

/-- What follows the digits before a point, of which the last `passed` did not fit. -/
def readAfterInteger (minus : Bool) (significand passed : Nat) (rest : Bytes) :
    Except Fault (Number × Bytes) :=
  let whole :=
    if passed = 0 then .ok (Number.ofInteger minus significand, rest)
    else Number.ofScientific minus significand passed rest
  match rest with
  | byte :: more =>
    if byte = '.'.toUInt8 then readFraction minus significand passed more
    else if byte = 'e'.toUInt8 ∨ byte = 'E'.toUInt8 then readExponent minus significand passed more
    else whole
  | [] => whole

def readUnsigned (minus : Bool) (input : Bytes) : Except Fault (Number × Bytes) :=
  match input with
  | [] => .error (.before .unfinishedValue [])
  | first :: second =>
    if !isDigit first then .error (.before .badNumber second)
    else if first = '0'.toUInt8 ∧ second.head?.any isDigit then
      .error (.looking .badNumber second)
    else
      let (significand, unread) := absorb maxSignificand 0 (digitsOf input)
      readAfterInteger minus significand unread.length (afterDigits input)

def readNumber (input : Bytes) : Except Fault (Number × Bytes) :=
  if input.head? = some '-'.toUInt8 then readUnsigned true (input.drop 1)
  else readUnsigned false input

end SlotLanes.Json
