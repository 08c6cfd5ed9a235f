import SlotLanes.CommandLine.Files

/-! The command line itself: it reads files, runs the program on them and prints. -/
namespace SlotLanes

def shown (verbose : Bool) (events : List Event) : List LogRecord :=
  (events.map Event.record).filter fun entry =>
    verbose || entry.level = .warn || entry.level = .error

def present (verbose : Bool) (outcome : Logged CommandLine.Outcome) : IO UInt32 := do
  for entry in shown verbose outcome.events do IO.eprintln entry.line
  IO.eprint outcome.value.stderr
  IO.print outcome.value.stdout
  return outcome.value.code.toUInt32

end SlotLanes

def main (tokens : List String) : IO UInt32 := do
  match SlotLanes.CommandLine.Arguments.parse tokens with
  | .error refusal => SlotLanes.present false ⟨.refused refusal, []⟩
  | .ok arguments =>
    let files ← SlotLanes.CommandLine.filesFor arguments
    SlotLanes.present arguments.verbose (arguments.run files)
