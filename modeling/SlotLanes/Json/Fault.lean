import SlotLanes.Mismatch

/-! What can be wrong with a document, and where. A fault remembers how many bytes
were not yet counted when it was found; against the whole document this gives a line
and a column. -/
namespace SlotLanes.Json

abbrev Bytes := List UInt8

inductive Malformation where
  | unfinishedValue
  | unfinishedList
  | unfinishedObject
  | unfinishedString
  | noValue
  | wrongWord
  | noListEnd
  | noObjectEnd
  | noColon
  | keyNotString
  | trailingComma
  | trailingCharacters
  | tooDeep
  | badNumber
  | numberOutOfRange
  | controlCharacter
  | badEscape
  | unpairedSurrogate
  | loneSurrogate
  | badUtf8
  deriving DecidableEq, Repr

def Malformation.message : Malformation → String
  | unfinishedValue => "EOF while parsing a value"
  | unfinishedList => "EOF while parsing a list"
  | unfinishedObject => "EOF while parsing an object"
  | unfinishedString => "EOF while parsing a string"
  | noValue => "expected value"
  | wrongWord => "expected ident"
  | noListEnd => "expected `,` or `]`"
  | noObjectEnd => "expected `,` or `\x7d`"
  | noColon => "expected `:`"
  | keyNotString => "key must be a string"
  | trailingComma => "trailing comma"
  | trailingCharacters => "trailing characters"
  | tooDeep => "recursion limit exceeded"
  | badNumber => "invalid number"
  | numberOutOfRange => "number out of range"
  | controlCharacter => "control character (\\u0000-\\u001F) found while parsing a string"
  | badEscape => "invalid escape"
  | unpairedSurrogate => "unexpected end of hex escape"
  | loneSurrogate => "lone leading surrogate in hex escape"
  | badUtf8 => "invalid unicode code point"

inductive Problem where
  | malformed (why : Malformation)
  | mismatch (why : Mismatch)
  deriving DecidableEq, Repr

def Problem.message : Problem → String
  | malformed why => why.message
  | mismatch why => why.message

/-- A problem met while bytes are read; `left` of them are not counted yet. -/
structure Fault where
  problem : Problem
  left : Nat
  deriving DecidableEq, Repr

def Fault.before (why : Malformation) (ahead : Bytes) : Fault :=
  ⟨.malformed why, ahead.length⟩

/-- A malformation found by looking at the first of these bytes, which counts; at the
end of the document there is none to count. -/
def Fault.looking (why : Malformation) (ahead : Bytes) : Fault :=
  ⟨.malformed why, ahead.length - 1⟩

/-- A place in a document: lines count from one, columns are the bytes since the last
line feed. -/
structure Position where
  line : Nat
  column : Nat
  deriving DecidableEq, Repr

def Position.after (bytes : Bytes) : Position where
  line := 1 + bytes.count 0x0a
  column := (bytes.reverse.takeWhile (· != 0x0a)).length

def Position.message (position : Position) : String :=
  "line " ++ toString position.line ++ " column " ++ toString position.column

/-- A problem for the reader's eyes; one found in a value already read has no place. -/
structure Error where
  problem : Problem
  position : Option Position
  deriving DecidableEq, Repr

def Error.message (error : Error) : String :=
  match error.position with
  | none => error.problem.message
  | some position => error.problem.message ++ " at " ++ position.message

def Fault.locate (document : Bytes) (fault : Fault) : Error :=
  ⟨fault.problem, some (.after (document.take (document.length - fault.left)))⟩

end SlotLanes.Json
