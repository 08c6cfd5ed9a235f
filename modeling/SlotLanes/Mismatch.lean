/-! What a document holds where something else was wanted. Both document formats of
the program word these mismatches alike; only how a floating-point number is
written differs, so that text is part of the finding. -/
namespace SlotLanes

/-- The outside of a value, as far as a message shows it. -/
inductive Found where
  | null
  | boolean (value : Bool)
  | integer (value : Int)
  | floating (digits : String)
  | text (quoted : String)
  | sequence
  | map
  deriving DecidableEq, Repr

def Found.message : Found → String
  | null => "null"
  | boolean value => "boolean `" ++ (if value then "true" else "false") ++ "`"
  | integer value => "integer `" ++ toString value ++ "`"
  | floating digits => "floating point `" ++ digits ++ "`"
  | text quoted => "string " ++ quoted
  | sequence => "sequence"
  | map => "map"

inductive Mismatch where
  | wrongKind (found : Found) (expected : String)
  | outOfRange (found : Found) (expected : String)
  | unknownField (name : String) (known : List String)
  | unknownVariant (name : String) (known : List String)
  | missingField (name : String)
  | duplicateField (name : String)
  | wrongLength (length : Nat) (expected : String)
  deriving DecidableEq, Repr

def choice : List String → String
  | [one] => "`" ++ one ++ "`"
  | [one, other] => "`" ++ one ++ "` or `" ++ other ++ "`"
  | names => "one of " ++ ", ".intercalate (names.map fun name => "`" ++ name ++ "`")

def Mismatch.message : Mismatch → String
  | wrongKind found expected => "invalid type: " ++ found.message ++ ", expected " ++ expected
  | outOfRange found expected => "invalid value: " ++ found.message ++ ", expected " ++ expected
  | unknownField name known => "unknown field `" ++ name ++ "`, expected " ++ choice known
  | unknownVariant name known => "unknown variant `" ++ name ++ "`, expected " ++ choice known
  | missingField name => "missing field `" ++ name ++ "`"
  | duplicateField name => "duplicate field `" ++ name ++ "`"
  | wrongLength length expected =>
    "invalid length " ++ toString length ++ ", expected " ++ expected

end SlotLanes
