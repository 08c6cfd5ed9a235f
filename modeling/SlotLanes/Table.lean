import SlotLanes.Files.Basic
import SlotLanes.Json.Value
import SlotLanes.Log

/-! The bifurcation table: one document that gives each slot a list of lane counts. It
is read anew for each question, and a bad entry harms no other. -/
namespace SlotLanes.Table
open SlotLanes.Json (Value)

def defaultPath : String := "/usr/share/oem-ipmi/bifurcation.json"

inductive Fault where
  | unreadable (why : Files.Fault)
  | malformed (why : Json.Error)
  | noEntry
  | badList (why : Mismatch)
  deriving DecidableEq, Repr

def Fault.message : Fault → String
  | unreadable why => "can't open table: " ++ why.message
  | malformed why =>
    let position := why.position.getD ⟨0, 0⟩
    "can't parse table at " ++ position.message ++ ": " ++ why.message
  | noEntry => "no entry for slot"
  | badList why => "bad lane list: " ++ why.message

def Fault.record (path name : String) (fault : Fault) : LogRecord :=
  match fault with
  | noEntry => ⟨.debug, path ++ ": " ++ name ++ ": " ++ fault.message⟩
  | badList _ => ⟨.warn, path ++ ": " ++ name ++ ": " ++ fault.message⟩
  | _ => ⟨.error, path ++ ": " ++ fault.message⟩

/-- A lane count: an integer that is a byte. -/
def laneOfValue : Value → Except Mismatch UInt8
  | .scalar (.number (.natural n)) =>
    if n < 256 then .ok n.toUInt8 else .error (.outOfRange (.integer n.toNat) "u8")
  | .scalar (.number (.negative n)) => .error (.outOfRange (.integer n.toInt) "u8")
  | value => .error (.wrongKind value.found "u8")

def lanesOfValue : Value → Except Mismatch (List UInt8)
  | .array items => items.mapM laneOfValue
  | value => .error (.wrongKind value.found "a sequence")

def lanesIn (table : Value) (name : String) : Except Fault (List UInt8) :=
  match table.get? name with
  | none => .error .noEntry
  | some entry => (lanesOfValue entry).mapError .badList

def lookup (files : Files) (path name : String) : Except Fault (List UInt8) := do
  let bytes ← (files.read path).mapError .unreadable
  let table ← (Value.ofBytes bytes).mapError .malformed
  lanesIn table name

def slotName (index : UInt8) : String :=
  toString index.toNat

end SlotLanes.Table
