/-! Records of what the program did: a level and a text. -/
namespace SlotLanes

inductive Level where
  | error
  | warn
  | info
  | debug
  deriving DecidableEq, Repr

def Level.name : Level → String
  | error => "ERROR"
  | warn => "WARN"
  | info => "INFO"
  | debug => "DEBUG"

structure LogRecord where
  level : Level
  text : String
  deriving DecidableEq, Repr

def LogRecord.line (entry : LogRecord) : String :=
  entry.level.name ++ " " ++ entry.text

def listText (numbers : List Nat) : String :=
  "[" ++ ", ".intercalate (numbers.map toString) ++ "]"

end SlotLanes
