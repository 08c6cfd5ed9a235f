import SlotLanes.Decimal.Layout
import SlotLanes.Mismatch
import SlotLanes.Text.Quoted

/-! Values of a configuration document. Tables keep their entries in the order of the
document and remember what brought them about, since that decides how they may still be
extended. -/
namespace SlotLanes.Toml

inductive Origin where
  /-- Its own header; the document itself counts as such a table. -/
  | stated
  | implied
  | dotted
  | inline
  deriving DecidableEq, Repr

inductive Value where
  | string (text : String)
  | integer (n : Int)
  | floating (x : Float)
  | boolean (value : Bool)
  | dateTime
  /-- A list; `ofTables` if its elements have headers of their own. -/
  | array (ofTables : Bool) (items : List Value)
  | table (origin : Origin) (entries : List (String × Value))
  deriving Repr

structure Table where
  origin : Origin
  entries : List (String × Value)

def Value.ofTable (table : Table) : Value :=
  .table table.origin table.entries

def Value.found : Value → Found
  | string text => .text (Text.quoted text)
  | integer n => .integer n
  | floating x => .floating (Decimal.Layout.plain.text x)
  | boolean value => .boolean value
  | dateTime => .map
  | array _ _ => .sequence
  | table _ _ => .map

end SlotLanes.Toml
