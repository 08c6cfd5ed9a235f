import SlotLanes.Config.Basic
import SlotLanes.Text.Numeral

/-! The command line: options, each at most once, then what to do. -/
namespace SlotLanes.CommandLine

inductive Action where
  | bifurcation (index : UInt8)
  | request (tokens : List String)
  deriving DecidableEq, Repr

structure Arguments where
  config : String
  verbose : Bool
  action : Action
  deriving DecidableEq, Repr

inductive Refusal where
  | usage
  | helpWanted
  deriving DecidableEq, Repr

structure Options where
  configs : List String := []
  verbose : Nat := 0
  deriving DecidableEq, Repr

def isOption (token : List Char) : Bool :=
  token.head? = some '-' && token ≠ ['-']

/-- One-letter options written together. A path ends them: the rest of the letters, or
the next token if there are none. -/
inductive Cluster where
  | flags (verbose : Nat)
  | path (verbose : Nat) (path : String)
  | pathFollows (verbose : Nat)
  deriving DecidableEq, Repr

def readCluster (verbose : Nat) : List Char → Except Refusal Cluster
  | [] => .ok (.flags verbose)
  | 'v' :: rest => readCluster (verbose + 1) rest
  | 'h' :: _ => .error .helpWanted
  | ['c'] => .ok (.pathFollows verbose)
  | 'c' :: '=' :: path => .ok (.path verbose (String.ofList path))
  | 'c' :: path => .ok (.path verbose (String.ofList path))
  | _ => .error .usage

def readOption (token : List Char) : Except Refusal Cluster :=
  match token with
  | '-' :: '-' :: 'c' :: 'o' :: 'n' :: 'f' :: 'i' :: 'g' :: rest =>
    match rest with
    | [] => .ok (.pathFollows 0)
    | '=' :: path => .ok (.path 0 (String.ofList path))
    | _ => .error .usage
  | ['-', '-', 'h', 'e', 'l', 'p'] => .error .helpWanted
  | '-' :: '-' :: _ => .error .usage
  | letters => readCluster 0 (letters.drop 1)

def readOptions (options : Options) :
    List String → Except Refusal (Options × String × List String)
  | [] => .error .usage
  | token :: rest =>
    if isOption token.toList then
      match readOption token.toList with
      | .error refusal => .error refusal
      | .ok (.flags verbose) =>
        readOptions { options with verbose := options.verbose + verbose } rest
      | .ok (.path verbose path) =>
        readOptions ⟨options.configs ++ [path], options.verbose + verbose⟩ rest
      | .ok (.pathFollows verbose) =>
        match rest with
        | [] => .error .usage
        | path :: rest =>
          if isOption path.toList then .error .usage
          else readOptions ⟨options.configs ++ [path], options.verbose + verbose⟩ rest
    else .ok (options, token, rest)

/-- Tokens without options, no more than there is room for if `room?` tells; after two
dashes anything goes. The first token that does not fit decides. -/
def readTokens (room? : Option Nat) : List String → Except Refusal (List String)
  | [] => .ok []
  | token :: rest =>
    if token = "--" then if room?.any (· < rest.length) then .error .usage else .ok rest
    else if token = "--help" ∨ token.startsWith "-h" then .error .helpWanted
    else if isOption token.toList ∨ room? = some 0 then .error .usage
    else (readTokens (room?.map (· - 1)) rest).map (token :: ·)

def readAction (name : String) (rest : List String) : Except Refusal Action :=
  if name = "bifurcation" then do
    match ← readTokens (some 1) rest with
    | [token] =>
      match Text.Numeral.readDecimalByte token with
      | .ok index => return .bifurcation index
      | .error _ => throw .usage
    | _ => throw .usage
  else if name = "request" then (readTokens none rest).map .request
  else if name = "help" then
    .error (if rest = [] ∨ ["bifurcation", "request", "help"].any (rest = [·]) then .helpWanted
      else .usage)
  else .error .usage

def Arguments.parse (tokens : List String) : Except Refusal Arguments := do
  let (options, name, rest) ← readOptions {} tokens
  let action ← readAction name rest
  if options.configs.length > 1 ∨ options.verbose > 1 then throw .usage
  return ⟨options.configs.head?.getD Config.defaultPath, options.verbose > 0, action⟩

end SlotLanes.CommandLine
