import SlotLanes.Text.Numeral
import SlotLanes.Text.Utf8

/-! Blanks, comments and quoted strings of a configuration document. A tab is the only
control character that may stand in a comment or a string; line feeds also in strings
of several lines. -/
namespace SlotLanes.Toml

def isControl (char : Char) : Bool :=
  (char.toNat < 0x20 && char ≠ '\t') || char.toNat = 0x7f

def isSpace (char : Char) : Bool :=
  char = ' ' || char = '\t'

def skipSpaces (chars : List Char) : List Char :=
  chars.dropWhile isSpace

def skipTrivia (inComment : Bool) : List Char → Option (List Char)
  | [] => some []
  | '\n' :: rest => skipTrivia false rest
  | '\r' :: '\n' :: rest => skipTrivia false rest
  | char :: rest =>
    if inComment then if isControl char then none else skipTrivia true rest
    else if isSpace char then skipTrivia false rest
    else if char = '#' then skipTrivia true rest
    else some (char :: rest)

def lineFeed : List Char → Option (List Char)
  | [] => some []
  | '\n' :: rest => some rest
  | '\r' :: '\n' :: rest => some rest
  | _ => none

def skipComment : List Char → Option (List Char)
  | [] => some []
  | '\n' :: rest => some rest
  | '\r' :: '\n' :: rest => some rest
  | char :: rest => if isControl char then none else skipComment rest

def endLine (chars : List Char) : Option (List Char) :=
  match skipSpaces chars with
  | '#' :: rest => skipComment rest
  | rest => lineFeed rest

def readCodePoint (places : Nat) (chars : List Char) : Option (Char × List Char) := do
  let digits := chars.take places
  if digits.length ≠ places then none
  let values ← digits.mapM (Text.Numeral.digit? 16)
  let char ← Text.Utf8.scalar? (values.foldl (fun n digit => n * 16 + digit) 0)
  return (char, chars.drop places)

def readEscape : List Char → Option (Char × List Char)
  | 'b' :: rest => some ('\x08', rest)
  | 't' :: rest => some ('\t', rest)
  | 'n' :: rest => some ('\n', rest)
  | 'f' :: rest => some ('\x0c', rest)
  | 'r' :: rest => some ('\r', rest)
  | 'e' :: rest => some ('\x1b', rest)
  | '"' :: rest => some ('"', rest)
  | '\\' :: rest => some ('\\', rest)
  | 'x' :: rest => readCodePoint 2 rest
  | 'u' :: rest => readCodePoint 4 rest
  | 'U' :: rest => readCodePoint 8 rest
  | _ => none

def readBasicWithin : Nat → List Char → Option (List Char × List Char)
  | 0, _ => none
  | _, [] => none
  | _ + 1, '"' :: rest => some ([], rest)
  | count + 1, '\\' :: rest => do
    let (char, rest) ← readEscape rest
    let (chars, rest) ← readBasicWithin count rest
    return (char :: chars, rest)
  | count + 1, char :: rest => do
    if isControl char then none
    let (chars, rest) ← readBasicWithin count rest
    return (char :: chars, rest)

def readLiteral : List Char → Option (List Char × List Char)
  | [] => none
  | '\'' :: rest => some ([], rest)
  | char :: rest => do
    if isControl char then none
    let (chars, rest) ← readLiteral rest
    return (char :: chars, rest)

/-- The closing quotes of a string of several lines, after the third of them: up to two
more come before the mark. -/
def closeQuotes (quote : Char) (rest : List Char) : List Char × List Char :=
  let more := (rest.takeWhile (· = quote)).take 2
  (more, rest.drop more.length)

/-- After a backslash at the end of a line, all blanks and line ends. -/
def skipLineEnds : List Char → List Char
  | '\r' :: '\n' :: rest => skipLineEnds rest
  | char :: rest =>
    if isSpace char || char = '\n' then skipLineEnds rest else char :: rest
  | [] => []

def atLineEnd (chars : List Char) : Bool :=
  match skipSpaces chars with
  | '\n' :: _ => true
  | '\r' :: '\n' :: _ => true
  | _ => false

def readBasicLinesWithin : Nat → List Char → Option (List Char × List Char)
  | 0, _ => none
  | _, [] => none
  | _ + 1, '"' :: '"' :: '"' :: rest => some (closeQuotes '"' rest)
  | count + 1, '\\' :: rest =>
    if atLineEnd rest then readBasicLinesWithin count (skipLineEnds rest)
    else do
      let (char, rest) ← readEscape rest
      let (chars, rest) ← readBasicLinesWithin count rest
      return (char :: chars, rest)
  | count + 1, '\r' :: '\n' :: rest => do
    let (chars, rest) ← readBasicLinesWithin count rest
    return ('\r' :: '\n' :: chars, rest)
  | count + 1, char :: rest => do
    if isControl char && char ≠ '\n' then none
    let (chars, rest) ← readBasicLinesWithin count rest
    return (char :: chars, rest)

def readLiteralLines : List Char → Option (List Char × List Char)
  | [] => none
  | '\'' :: '\'' :: '\'' :: rest => some (closeQuotes '\'' rest)
  | '\r' :: '\n' :: rest => do
    let (chars, rest) ← readLiteralLines rest
    return ('\r' :: '\n' :: chars, rest)
  | char :: rest => do
    if isControl char && char ≠ '\n' then none
    let (chars, rest) ← readLiteralLines rest
    return (char :: chars, rest)

def skipFirstLineFeed : List Char → List Char
  | '\n' :: rest => rest
  | '\r' :: '\n' :: rest => rest
  | chars => chars

def readQuoted : List Char → Option (String × List Char)
  | '"' :: rest => (readBasicWithin (rest.length + 1) rest).map fun (cs, rest) => (String.ofList cs, rest)
  | '\'' :: rest => (readLiteral rest).map fun (cs, rest) => (String.ofList cs, rest)
  | _ => none

def readLines (quote : Char) (rest : List Char) : Option (String × List Char) :=
  let rest := skipFirstLineFeed rest
  let read :=
    if quote = '"' then readBasicLinesWithin (rest.length + 1) rest else readLiteralLines rest
  read.map fun (cs, rest) => (String.ofList cs, rest)

end SlotLanes.Toml
