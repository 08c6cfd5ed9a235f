/-! Bytes as digits: writing them in hexadecimal and reading them in a given radix.
Reading looks at one character after another, so the first that is no digit or
that brings the value above 255 decides what is wrong. -/
namespace SlotLanes.Text.Numeral

def hexDigit (n : Nat) : Char :=
  if n < 10 then Char.ofNat ('0'.toNat + n) else Char.ofNat ('a'.toNat + (n - 10))

def hexPair (byte : UInt8) : List Char :=
  [hexDigit (byte.toNat / 16), hexDigit (byte.toNat % 16)]

def hexWords (bytes : List UInt8) : String :=
  String.ofList ([' '].intercalate (bytes.map hexPair))

def hexByte (byte : UInt8) : String :=
  "0x" ++ String.ofList (hexPair byte)

def hex (n : Nat) : List Char :=
  Nat.toDigits 16 n

def digitValue? (char : Char) : Option Nat :=
  if '0' ≤ char ∧ char ≤ '9' then some (char.toNat - '0'.toNat)
  else if 'a' ≤ char ∧ char ≤ 'f' then some (char.toNat - 'a'.toNat + 10)
  else if 'A' ≤ char ∧ char ≤ 'F' then some (char.toNat - 'A'.toNat + 10)
  else none

def digit? (radix : Nat) (char : Char) : Option Nat :=
  (digitValue? char).filter (· < radix)

inductive Fault where
  | empty
  | invalidDigit
  | tooLarge
  deriving DecidableEq, Repr, Inhabited

def Fault.message : Fault → String
  | empty => "cannot parse integer from empty string"
  | invalidDigit => "invalid digit found in string"
  | tooLarge => "number too large to fit in target type"

def accumulate (radix : Nat) (value : Nat) : List Char → Except Fault UInt8
  | [] => .ok (UInt8.ofNat value)
  | char :: rest =>
    match digit? radix char with
    | none => .error .invalidDigit
    | some digit =>
      if value * radix + digit ≤ 255 then accumulate radix (value * radix + digit) rest
      else .error .tooLarge

/-- Reads a byte; one plus sign may stand before the digits. -/
def readByte (radix : Nat) : List Char → Except Fault UInt8
  | [] => .error .empty
  | ['+'] => .error .invalidDigit
  | '+' :: rest => accumulate radix 0 rest
  | chars => accumulate radix 0 chars

def withoutMark : List Char → List Char
  | '0' :: 'x' :: rest => rest
  | chars => chars

def readHexByte (text : String) : Except Fault UInt8 :=
  readByte 16 (withoutMark text.toList)

def readDecimalByte (text : String) : Except Fault UInt8 :=
  readByte 10 text.toList

end SlotLanes.Text.Numeral
