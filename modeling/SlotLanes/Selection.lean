import SlotLanes.Walk

/-! The bifurcation of the slot on a bus: of all children of the main board on that
bus, the one with the most entries answers, and of equally long answers the first. -/
namespace SlotLanes

def defaultMainBoard : String := "/xyz/openbmc_project/inventory/system/board"

/-- Holds the walk of one more child on the bus against the longest answer so far. -/
def Visit.orLonger (best : Visit) (bus : UInt8) (child : String) (visit : Visit) : Visit :=
  let longer := best.lanes.length < visit.lanes.length
  { lanes := if longer then visit.lanes else best.lanes
    notices := best.notices ++ visit.notices ++
      (if longer then [.gives bus child visit.lanes] else [])
    calls := best.calls ++ .bus child :: visit.calls }

def Visit.pass (best : Visit) (child : String) : Visit :=
  { best with calls := best.calls ++ [.bus child] }

def consider (client : Client) (mainBoard : String) (bus : UInt8) (best : Visit) (child : String) :
    Visit :=
  if client.bus child = some bus then best.orLonger bus child (walk client [mainBoard] child)
  else best.pass child

def select (client : Client) (mainBoard : String) (bus : UInt8) : Visit :=
  (client.children mainBoard).foldl (consider client mainBoard bus) ⟨[], [], [.children mainBoard]⟩

end SlotLanes
