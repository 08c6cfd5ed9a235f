import SlotLanes.Toml.Scalar
import SlotLanes.Toml.Table
import SlotLanes.Toml.Text

/-! Reading the lines of a configuration document. Why a text is no document is not
told. Lists and tables in braces may nest eighty deep, and a key has eighty names at
most. -/
namespace SlotLanes.Toml

def maxDepth : Nat := 80

def isBare (char : Char) : Bool :=
  isDigit char || ('a' ≤ char && char ≤ 'z') || ('A' ≤ char && char ≤ 'Z') || char = '_' ||
    char = '-'

def readName (chars : List Char) : Option (String × List Char) :=
  match chars with
  | '"' :: '"' :: '"' :: _ => none
  | '\'' :: '\'' :: '\'' :: _ => none
  | '"' :: _ => readQuoted chars
  | '\'' :: _ => readQuoted chars
  | _ =>
    let name := chars.takeWhile isBare
    if name.isEmpty then none else some (String.ofList name, chars.dropWhile isBare)

/-- A key of so many names at most: the names before its last one, the last one, and the
rest. -/
def readKeyWithin : Nat → List Char → Option ((List String × String) × List Char)
  | 0, _ => none
  | count + 1, chars => do
    let (name, rest) ← readName (skipSpaces chars)
    match skipSpaces rest with
    | '.' :: rest =>
      let ((path, key), rest) ← readKeyWithin count rest
      return ((name :: path, key), rest)
    | rest => return (([], name), rest)

def readKey (chars : List Char) : Option ((List String × String) × List Char) :=
  readKeyWithin maxDepth chars

abbrev ValueReader := List Char → Option (Value × List Char)

/-- A key with its value. What may stand on both sides of the sign between them is the
caller's to say. -/
def readAssignment (skip : List Char → Option (List Char)) (value : ValueReader)
    (chars : List Char) : Option (Assignment × List Char) := do
  let ((path, key), rest) ← readKey chars
  let rest ← expect '=' (← skip rest)
  let (value, rest) ← value (← skip rest)
  return (⟨path, key, value⟩, rest)

def readItemsWithin (value : ValueReader) : Nat → List Char → Option (List Value × List Char)
  | 0, _ => none
  | count + 1, chars => do
    match ← skipTrivia false chars with
    | ']' :: rest => return ([], rest)
    | rest =>
      let (item, rest) ← value rest
      match ← skipTrivia false rest with
      | ',' :: rest =>
        let (items, rest) ← readItemsWithin value count rest
        return (item :: items, rest)
      | ']' :: rest => return ([item], rest)
      | _ => none

def readEntriesWithin (value : ValueReader) :
    Nat → List Char → Option (List Assignment × List Char)
  | 0, _ => none
  | count + 1, chars => do
    match ← skipTrivia false chars with
    | '\x7d' :: rest => return ([], rest)
    | rest =>
      let (entry, rest) ← readAssignment (skipTrivia false) value rest
      match ← skipTrivia false rest with
      | ',' :: rest =>
        let (entries, rest) ← readEntriesWithin value count rest
        return (entry :: entries, rest)
      | '\x7d' :: rest => return ([entry], rest)
      | _ => none

def isScalarChar (char : Char) : Bool :=
  !(isSpace char || isControl char || ['=', ',', '[', ']', '\x7b', '\x7d', '"', '\'', '#'].contains char)

/-- A value without quotes and brackets. A date and a time may have a blank between
them. -/
def readBareScalar (chars : List Char) : Option (Value × List Char) := do
  let lexeme := chars.takeWhile isScalarChar
  let rest := chars.dropWhile isScalarChar
  match isDate lexeme, rest with
  | true, ' ' :: more =>
    let time := more.takeWhile isScalarChar
    if (time.head?.map isDigit).getD false then
      return (← readScalar (lexeme ++ ' ' :: time), more.dropWhile isScalarChar)
    else return (← readScalar lexeme, rest)
  | _, _ => return (← readScalar lexeme, rest)

/-- A value; `nested?` reads what stands inside lists and braces, if they may nest
deeper. -/
def readValue (nested? : Option ValueReader) (chars : List Char) : Option (Value × List Char) :=
  match chars with
  | '"' :: '"' :: '"' :: rest => (readLines '"' rest).map fun (text, rest) => (.string text, rest)
  | '\'' :: '\'' :: '\'' :: rest =>
    (readLines '\'' rest).map fun (text, rest) => (.string text, rest)
  | '"' :: _ => (readQuoted chars).map fun (text, rest) => (.string text, rest)
  | '\'' :: _ => (readQuoted chars).map fun (text, rest) => (.string text, rest)
  | '[' :: rest => do
    let (items, rest) ← readItemsWithin (← nested?) (rest.length + 1) rest
    return (.array false items, rest)
  | '\x7b' :: rest => do
    let (entries, rest) ← readEntriesWithin (← nested?) (rest.length + 1) rest
    let table ← entries.foldlM Table.assign ⟨.inline, []⟩
    return (.ofTable table, rest)
  | _ => readBareScalar chars

def readValueWithin : Nat → ValueReader
  | 0 => readValue none
  | depth + 1 => readValue (some (readValueWithin depth))

def readHeader (isElement : Bool) (chars : List Char) : Option (Line × List Char) := do
  let ((path, key), rest) ← readKey chars
  let rest ← expect ']' rest
  let rest ← if isElement then expect ']' rest else some rest
  return (.header ⟨isElement, path, key⟩, rest)

def readLine (chars : List Char) : Option (Line × List Char) :=
  match chars with
  | '[' :: '[' :: rest => readHeader true rest
  | '[' :: rest => readHeader false rest
  | _ =>
    (readAssignment (fun rest => some (skipSpaces rest)) (readValueWithin maxDepth) chars).map
      fun (entry, rest) => (.assignment entry, rest)

def readLinesWithin : Nat → List Char → Option (List Line)
  | 0, _ => some []
  | count + 1, chars =>
    match skipSpaces chars with
    | [] => some []
    | char :: rest =>
      if char = '#' || char = '\n' || char = '\r' then do
        readLinesWithin count (← endLine (char :: rest))
      else do
        let (line, rest) ← readLine (char :: rest)
        let lines ← readLinesWithin count (← endLine rest)
        return line :: lines

/-- The table that a document is; a byte order mark may stand before it. -/
def readDocument (chars : List Char) : Option Table := do
  let chars := if chars.head? = some '\uFEFF' then chars.drop 1 else chars
  Table.ofLines (← readLinesWithin (chars.length + 1) chars)

end SlotLanes.Toml
