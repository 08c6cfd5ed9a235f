/-! A failure for the user: what could not be done, and the causes below it. -/
namespace SlotLanes

structure Failure where
  summary : String
  causes : List String
  deriving DecidableEq, Repr

def Failure.oneLine (failure : Failure) : String :=
  ": ".intercalate (failure.summary :: failure.causes)

/-- Several lines under one heading: the later ones are indented to the width of it. -/
def indented (heading blanks text : String) : String :=
  heading ++ ("\n" ++ blanks).intercalate (text.splitOn "\n")

def causeText : List String → String
  | [] => ""
  | [cause] => "\n" ++ indented "    " "    " cause
  | causes =>
    String.join (causes.zipIdx.map fun (cause, number) =>
      "\n" ++ indented ("    " ++ toString number ++ ": ") "       " cause)

def reportHead (summary : String) : String :=
  "Error: " ++ summary ++ "\n\nCaused by:"

def Failure.report (failure : Failure) : String :=
  if failure.causes.isEmpty then "Error: " ++ failure.summary
  else reportHead failure.summary ++ causeText failure.causes

end SlotLanes
