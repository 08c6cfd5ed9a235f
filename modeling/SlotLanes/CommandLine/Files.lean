import SlotLanes.CommandLine.Program

/-! The files that one run of the program looks at, observed in the system beforehand. -/
namespace SlotLanes.CommandLine

/-- The number the system gives an error that a look at a file can end in. -/
def systemCode? : IO.Error → Option UInt32
  | .noFileOrDirectory _ code _ => some code
  | .permissionDenied _ code _ => some code
  | .inappropriateType _ code _ => some code
  | .invalidArgument _ code _ => some code
  | _ => none

/-- Some calls give the number negated. -/
def plainCode (code : UInt32) : UInt32 :=
  if code < 0x80000000 then code else -code

def faultOf (error : IO.Error) : Files.Fault :=
  match (systemCode? error).map plainCode with
  | some 2 => .missing
  | some 13 => .accessDenied
  | some 20 => .notDirectory
  | some 21 => .isDirectory
  | some 36 => .nameTooLong
  | some 40 => .linkLoop
  | _ => .other (toString error)

def readFile (path : String) : IO (Except Files.Fault (List UInt8)) := do
  if path.contains '\x00' then return .error .zeroInName
  try return .ok (← IO.FS.readBinFile path).toList
  catch error => return .error (faultOf error)

/-- A path that cannot be resolved, for whatever reason, is not seen to hold anything. -/
def isPresent (path : String) : IO Bool := do
  try
    discard <| IO.FS.realPath path
    return true
  catch _ => return false

/-- The files at these paths; nothing stands anywhere else. -/
def snapshot (paths : List String) : IO Files := do
  let seen ← paths.mapM fun path => return (path, ← readFile path, ← isPresent path)
  return {
    read := fun path => ((seen.lookup path).map (·.1)).getD (.error .missing)
    present := fun path => (seen.lookup path).any (·.2) }

def filesFor (arguments : Arguments) : IO Files := do
  let files ← snapshot [arguments.config]
  match (Config.loadOrDefault files arguments.config).value with
  | .ok config => snapshot [arguments.config, config.source.path]
  | .error _ => return files

end SlotLanes.CommandLine
