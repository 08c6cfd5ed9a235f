import SlotLanes.Selection
import SlotLanes.Table

/-! The configuration: where the lanes of a slot are looked up. -/
namespace SlotLanes

inductive Source where
  | table (path : String)
  | inventory (path mainBoard : String)
  deriving DecidableEq, Repr

structure Config where
  source : Source := .table Table.defaultPath
  deriving DecidableEq, Repr, Inhabited

def Source.path : Source → String
  | table path => path
  | inventory path _ => path

def Config.defaultPath : String := "/etc/oem-ipmi/handler.toml"

end SlotLanes
