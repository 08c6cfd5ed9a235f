/-! The lines of a text. A line ends with a line feed, and a carriage return right
before that belongs to the end. What follows the last line feed is a line of its own
if there is anything. -/
namespace SlotLanes.Text

def dropReturn : List Char → List Char
  | '\r' :: line => line
  | line => line

/-- The lines of the text ahead; `line` is what was read of the first one, backwards. -/
def linesFrom (line : List Char) : List Char → List (List Char)
  | [] => if line.isEmpty then [] else [line.reverse]
  | '\n' :: rest => (dropReturn line).reverse :: linesFrom [] rest
  | char :: rest => linesFrom (char :: line) rest

def lines (text : String) : List String :=
  (linesFrom [] text.toList).map String.ofList

end SlotLanes.Text
