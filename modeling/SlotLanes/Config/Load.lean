import SlotLanes.Config.OfToml
import SlotLanes.Event
import SlotLanes.Failure

/-! A configuration from a file. Only where nothing is seen to stand at the path do the
defaults apply; a file that cannot be read or understood is a fault. -/
namespace SlotLanes.Config

inductive Cause where
  | unreadable (why : Files.Fault)
  | notText
  | notToml
  | mismatch (why : Mismatch)
  deriving DecidableEq, Repr

structure Fault where
  path : String
  cause : Cause
  deriving DecidableEq, Repr

def Fault.failure (fault : Fault) : Failure :=
  match fault.cause with
  | .unreadable why => ⟨"can't read " ++ fault.path, [why.message]⟩
  | .notText => ⟨"can't read " ++ fault.path, ["stream did not contain valid UTF-8"]⟩
  | .notToml => ⟨"can't parse " ++ fault.path, []⟩
  | .mismatch why => ⟨"can't parse " ++ fault.path, [why.message]⟩

/-- The report on a fault. Where a document is at fault it ends with its head, since its causes
are told in the words of the format, with an extract of the document. -/
def Fault.report (fault : Fault) : String :=
  match fault.cause with
  | .notToml | .mismatch _ => reportHead fault.failure.summary
  | _ => fault.failure.report

def ofBytes (bytes : List UInt8) : Except Cause Config :=
  match Text.Utf8.decode? bytes with
  | none => .error .notText
  | some chars =>
    match Toml.readDocument chars with
    | none => .error .notToml
    | some table => (ofToml table).mapError .mismatch

def load (files : Files) (path : String) : Except Fault Config :=
  (do ofBytes (← (files.read path).mapError Cause.unreadable)).mapError (Fault.mk path)

def loadOrDefault (files : Files) (path : String) : Logged (Except Fault Config) :=
  if files.present path then ⟨load files path, []⟩
  else ⟨.ok {}, [.configAbsent path]⟩

end SlotLanes.Config
