import SlotLanes.CommandLine.Arguments
import SlotLanes.Handler
import SlotLanes.Request

/-! The whole program as a function of its arguments and the files. It loads the
configuration, then makes the handler, then reads the bytes of a request; the first of
these that fails is reported, and nothing is printed. -/
namespace SlotLanes.CommandLine

inductive Outcome where
  | printed (line : String)
  | failed (report : String)
  | refused (refusal : Refusal)
  deriving DecidableEq, Repr

def Outcome.code : Outcome → Nat
  | printed _ => 0
  | failed _ => 1
  | refused .helpWanted => 0
  | refused .usage => 2

def usage : String :=
  "USAGE:\n    slot-lanes [-c PATH] [-v] bifurcation INDEX\n" ++
    "    slot-lanes [-c PATH] [-v] request BYTES...\n"

def Outcome.stdout : Outcome → String
  | printed line => line ++ "\n"
  | refused .helpWanted => usage
  | _ => ""

def Outcome.stderr : Outcome → String
  | failed report => report ++ "\n"
  | refused .usage => usage
  | _ => ""

structure TokenFault where
  token : String
  why : Text.Numeral.Fault
  deriving DecidableEq, Repr

def TokenFault.failure (fault : TokenFault) : Failure :=
  ⟨"'" ++ fault.token ++ "' is not a hex byte", [fault.why.message]⟩

def readToken (token : String) : Except TokenFault UInt8 :=
  (Text.Numeral.readHexByte token).mapError (TokenFault.mk token)

def replyLine : Request.Reply → String
  | .ok reply => "cc=0x00 " ++ Text.Numeral.hexWords reply
  | .error completion => "cc=" ++ Text.Numeral.hexByte completion.byte

def requestBytes (tokens : List String) : Except Failure (UInt8 × List UInt8) := do
  match ← (tokens.mapM readToken).mapError TokenFault.failure with
  | command :: data => return (command, data)
  | [] => throw ⟨"request needs at least a command byte", []⟩

def act (files : Files) (handler : Handler) : Action → Logged Outcome
  | .bifurcation index =>
    (handler.lanes files index).map fun lanes => .printed (listText (lanes.map UInt8.toNat))
  | .request tokens =>
    match requestBytes tokens with
    | .error failure => ⟨.failed failure.report, []⟩
    | .ok (command, data) =>
      (Request.process (handler.lanes files) command data).map fun reply => .printed (replyLine reply)

def Arguments.run (files : Files) (arguments : Arguments) : Logged Outcome := do
  match ← Config.loadOrDefault files arguments.config with
  | .error fault => return .failed fault.report
  | .ok config =>
    match ← Handler.ofConfig files config with
    | .error fault => return .failed fault.failure.report
    | .ok handler => act files handler arguments.action

def run (files : Files) (tokens : List String) : Logged Outcome :=
  match Arguments.parse tokens with
  | .error refusal => ⟨.refused refusal, []⟩
  | .ok arguments => arguments.run files

end SlotLanes.CommandLine
