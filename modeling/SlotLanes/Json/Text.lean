import SlotLanes.Json.Fault
import SlotLanes.Text.Numeral
import SlotLanes.Text.Utf8

/-! Strings in documents, read after their opening quotation mark. Escapes and control
characters are judged where they stand; that the bytes are UTF-8 is only judged once the
closing mark is found. -/
namespace SlotLanes.Json
open SlotLanes.Text

def unfinishedString : Fault := .before .unfinishedString []

def hexValue? (byte : UInt8) : Option Nat :=
  Numeral.digitValue? (Char.ofUInt8 byte)

def readHex : Bytes → Except Fault (Nat × Bytes)
  | a :: b :: c :: d :: rest =>
    match hexValue? a, hexValue? b, hexValue? c, hexValue? d with
    | some a, some b, some c, some d => .ok (((a * 16 + b) * 16 + c) * 16 + d, rest)
    | _, _, _, _ => .error (.before .badEscape rest)
  | _ => .error unfinishedString

def isHighSurrogate (n : Nat) : Bool := 0xd800 ≤ n && n < 0xdc00

def isLowSurrogate (n : Nat) : Bool := 0xdc00 ≤ n && n < 0xe000

def readLowSurrogate (high : Nat) : Bytes → Except Fault (Char × Bytes)
  | [] => .error unfinishedString
  | a :: rest =>
    if a ≠ '\\'.toUInt8 then .error (.before .unpairedSurrogate rest)
    else
      match rest with
      | [] => .error unfinishedString
      | b :: rest =>
        if b ≠ 'u'.toUInt8 then .error (.before .unpairedSurrogate rest)
        else do
          let (low, rest) ← readHex rest
          if isLowSurrogate low then
            return (Char.ofNat (0x10000 + (high - 0xd800) * 0x400 + (low - 0xdc00)), rest)
          else throw (.before .loneSurrogate rest)

def readUnicodeEscape (input : Bytes) : Except Fault (Char × Bytes) := do
  let (n, rest) ← readHex input
  if isLowSurrogate n then throw (.before .loneSurrogate rest)
  else if isHighSurrogate n then readLowSurrogate n rest
  else return (Char.ofNat n, rest)

def readEscape : Bytes → Except Fault (Char × Bytes)
  | [] => .error unfinishedString
  | byte :: rest =>
    match Char.ofUInt8 byte with
    | '"' => .ok ('"', rest)
    | '\\' => .ok ('\\', rest)
    | '/' => .ok ('/', rest)
    | 'b' => .ok ('\x08', rest)
    | 'f' => .ok ('\x0c', rest)
    | 'n' => .ok ('\n', rest)
    | 'r' => .ok ('\r', rest)
    | 't' => .ok ('\t', rest)
    | 'u' => readUnicodeEscape rest
    | _ => .error (.before .badEscape rest)

inductive Part where
  | char (scalar : Char)
  | stray
  deriving DecidableEq, Repr

def Part.char? : Part → Option Char
  | char scalar => some scalar
  | stray => none

/-- The bytes that a part takes in the string itself, where escapes are already replaced
by their characters. -/
def Part.size : Part → Nat
  | char scalar => scalar.utf8Size
  | stray => 1

def illFormedSize (parts : List Part) : Nat :=
  (parts.dropWhile (·.char?.isSome)).foldl (fun total part => total + part.size) 0

def prependPart (part : Part) (read : Except Fault (List Part × Bytes)) :
    Except Fault (List Part × Bytes) :=
  read.map fun (parts, rest) => (part :: parts, rest)

/-- The parts up to the closing mark; each step takes at least one byte of the given
number. -/
def readPartsWithin : Nat → Bytes → Except Fault (List Part × Bytes)
  | 0, _ => .error unfinishedString
  | _, [] => .error unfinishedString
  | count + 1, byte :: rest =>
    if byte = '"'.toUInt8 then .ok ([], rest)
    else if byte = '\\'.toUInt8 then
      match readEscape rest with
      | .error fault => .error fault
      | .ok (char, rest) => prependPart (.char char) (readPartsWithin count rest)
    else if byte < 0x20 then .error (.before .controlCharacter rest)
    else
      match Utf8.next? (byte :: rest) with
      | some (char, rest) => prependPart (.char char) (readPartsWithin count rest)
      | none => prependPart .stray (readPartsWithin count rest)

/-- A string after its opening mark. Ill-formed bytes are found when all of it is at
hand, and the place is told by counting back from behind the closing mark, over the
string as it reads without escapes. -/
def readText (input : Bytes) : Except Fault (String × Bytes) := do
  let (parts, rest) ← readPartsWithin input.length input
  match parts.mapM Part.char? with
  | some chars => return (String.ofList chars, rest)
  | none => throw ⟨.malformed .badUtf8, rest.length + illFormedSize parts⟩

end SlotLanes.Json
