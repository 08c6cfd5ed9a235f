import SlotLanes.Proofs.TwoReadings
import SlotLanes.Handler
import SlotLanes.Request

/-! A handler over its life, while others change the files. A handler over a table holds no
more than the table's path, so each answer is that of a handler made at that moment; a
handler over an inventory holds all of it, so each answer is that of the first moment. Being
asked changes neither the handler nor the files. -/
namespace SlotLanes

inductive Handler.Call where
  | bifurcation (index : UInt8)
  | request (command : UInt8) (data : List UInt8)
  deriving DecidableEq, Repr

/-- What a call gives, with everything that is reported on the way. -/
inductive Handler.Answer where
  | lanes (answer : Logged (List UInt8))
  | reply (answer : Logged Request.Reply)

def Handler.Call.answer (files : Files) (handler : Handler) : Handler.Call → Handler.Answer
  | bifurcation index => .lanes (handler.lanes files index)
  | request command data => .reply (Request.process (handler.lanes files) command data)

/-- A handler in a world that the files are part of. -/
structure Session (World : Type) where
  world : World
  handler : Handler

namespace Session

/-- Between calls the world may change: by a file that is written or removed, or in any
other way. -/
inductive Step (World : Type) where
  | change (edit : World → World)
  | call (call : Handler.Call)

/-- A call, what the world was when it was made, and what came back. -/
structure Exchange (World : Type) where
  world : World
  call : Handler.Call
  answer : Handler.Answer

variable {World : Type} (files : World → Files)

def ask (session : Session World) (call : Handler.Call) : Exchange World :=
  ⟨session.world, call, call.answer (files session.world) session.handler⟩

def after (session : Session World) : Step World → Session World
  | .change edit => { session with world := edit session.world }
  | .call _ => session

def run (session : Session World) (steps : List (Step World)) : Session World :=
  steps.foldl after session

def exchanges (session : Session World) : List (Step World) → List (Exchange World)
  | [] => []
  | .change edit :: steps => (session.after (.change edit)).exchanges steps
  | .call call :: steps => session.ask files call :: (session.after (.call call)).exchanges steps

theorem handler_after (session : Session World) (step : Step World) :
    (session.after step).handler = session.handler := by
  cases step <;> rfl

theorem handler_run (session : Session World) (steps : List (Step World)) :
    (session.run steps).handler = session.handler := by
  induction steps generalizing session with
  | nil => rfl
  | cons step steps ih => exact (ih (session.after step)).trans (session.handler_after step)

theorem exchanges_append (session : Session World) (steps later : List (Step World)) :
    session.exchanges files (steps ++ later) =
      session.exchanges files steps ++ (session.run steps).exchanges files later := by
  induction steps generalizing session with
  | nil => rfl
  | cons step steps ih =>
    cases step with
    | change edit => exact ih (session.after (.change edit))
    | call call => exact congrArg (session.ask files call :: ·) (ih session)

theorem exists_ask_of_mem {session : Session World} {steps : List (Step World)}
    {exchange : Exchange World} (member : exchange ∈ session.exchanges files steps) :
    ∃ before, exchange = (session.run before).ask files exchange.call := by
  induction steps generalizing session with
  | nil => cases member
  | cons step steps ih =>
    cases step with
    | change edit =>
      obtain ⟨before, same⟩ := ih member
      exact ⟨.change edit :: before, same⟩
    | call call =>
      rcases List.mem_cons.mp member with rfl | later
      · exact ⟨[], rfl⟩
      · exact ih later

end Session

namespace Handler

theorem ofConfig_table {config : Config} {path : String} (source : config.source = .table path)
    (files : Files) : (ofConfig files config).value = .ok (.table path) := by
  rw [ofConfig, source]

theorem graph_of_ofConfig {files : Files} {config : Config} {handler : Handler}
    {path mainBoard : String} (source : config.source = .inventory path mainBoard)
    (built : (ofConfig files config).value = .ok handler) :
    ∃ inventory, Inventory.load files path = .ok inventory ∧
      handler = .graph (Inventory.client inventory) mainBoard := by
  rw [ofConfig, source] at built
  obtain ⟨inventory, loaded, made⟩ := bind_eq_ok_iff.mp (mapError_eq_ok_iff.mp built)
  exact ⟨inventory, loaded, pure_eq_ok_iff.mp made⟩

theorem Call.answer_graph (call : Call) (files other : Files) (client : Client) (mainBoard : String) :
    call.answer files (.graph client mainBoard) = call.answer other (.graph client mainBoard) := by
  cases call <;> rfl

end Handler

/-- Whatever is asked and whatever happens to the files, a handler over a table answers as one
made at that moment would, and a handler over an inventory as it would have at first. A call
can be left out of a run, and the other answers stay as they are. -/
theorem answers_fresh_or_first {World : Type} (files : World → Files) {world : World}
    {config : Config} {handler : Handler}
    (built : (Handler.ofConfig (files world) config).value = .ok handler)
    (steps : List (Session.Step World)) :
    let session : Session World := ⟨world, handler⟩
    (∀ path, config.source = .table path → ∀ exchange ∈ session.exchanges files steps,
      ∃ anew, (Handler.ofConfig (files exchange.world) config).value = .ok anew ∧
        exchange.answer = exchange.call.answer (files exchange.world) anew) ∧
    (∀ path mainBoard, config.source = .inventory path mainBoard →
      ∀ exchange ∈ session.exchanges files steps,
        exchange.answer = exchange.call.answer (files world) handler) ∧
    (∀ before call later, steps = before ++ .call call :: later → ∃ exchange others,
      exchange.call = call ∧
      session.exchanges files steps = session.exchanges files before ++ exchange :: others ∧
      session.exchanges files (before ++ later) = session.exchanges files before ++ others) := by
  intro session
  refine ⟨?_, ?_, ?_⟩
  · intro path source exchange member
    obtain ⟨before, same⟩ := Session.exists_ask_of_mem files member
    have kept : handler = .table path :=
      Except.ok.inj (built.symm.trans (Handler.ofConfig_table source (files world)))
    refine ⟨.table path, Handler.ofConfig_table source _, ?_⟩
    rw [same, Session.ask, Session.handler_run, ← kept]
  · intro path mainBoard source exchange member
    obtain ⟨before, same⟩ := Session.exists_ask_of_mem files member
    obtain ⟨inventory, _, rfl⟩ := Handler.graph_of_ofConfig source built
    rw [same, Session.ask, Session.handler_run]
    exact exchange.call.answer_graph (files (session.run before).world) (files world) _ mainBoard
  · rintro before call later rfl
    let now := session.run before
    refine ⟨now.ask files call, now.exchanges files later, rfl, ?_, ?_⟩
    · exact session.exchanges_append files before _
    · exact session.exchanges_append files before later

/-- The files after one of them is removed. -/
def Files.without (path : String) (files : Files) : Files where
  read other := if other = path then .error .missing else files.read other
  present other := other ≠ path && files.present other

/-- A table for one slot at its usual place, and nothing else. -/
def tableOfSeven : Files where
  read path :=
    if path = Table.defaultPath then .ok "\x7b\"7\": [4, 4, 8]\x7d".toUTF8.toList else .error .missing
  present path := path = Table.defaultPath

theorem lanesOf_tableOfSeven :
    Table.lanesOf tableOfSeven Table.defaultPath (Table.slotName 7) = ⟨some [4, 4, 8], []⟩ := by
  rw [show Table.slotName 7 = "7" from rfl]
  cbv

theorem lanes_tableOfSeven :
    (Handler.table Table.defaultPath).lanes tableOfSeven 7 = ⟨[4, 4, 8], []⟩ := by
  simp only [Handler.lanes, Handler.lanes?, Logged.map, lanesOf_tableOfSeven, Option.getD_some]

theorem reply_tableOfSeven :
    (Request.process ((Handler.table Table.defaultPath).lanes tableOfSeven) 0x0e [7]).value =
      .ok [0x0e, 3, 4, 4, 8] := by
  change (Request.bifurcation _ [7]).value = _
  simp only [Request.bifurcation, Ipmi.decodeBifurcationRequest, lanes_tableOfSeven]
  rfl

/-- The lanes of a card are still known when its inventory is gone, to a request as well, while
those of a table are gone with it. -/
theorem removedFile_answered :
    let card : Handler := .graph (Inventory.client Inventory.pluggedCardInventory) "/slot"
    let table : Handler := .table Table.defaultPath
    let cardSession : Session Files := ⟨Inventory.pluggedCardFiles, card⟩
    let tableSession : Session Files := ⟨tableOfSeven, table⟩
    let ask (slot : UInt8) : Session.Step Files := .call (.bifurcation slot)
    let request (slot : UInt8) : Session.Step Files := .call (.request 0x0e [slot])
    let remove (path : String) : Session.Step Files := .change (Files.without path)
    ((Handler.ofConfig Inventory.pluggedCardFiles ⟨.inventory "inventory.json" "/slot"⟩).value =
        .ok card ∧
      (card.lanes Inventory.pluggedCardFiles 3).value = [8] ∧
      ∀ exchange ∈ cardSession.exchanges id [ask 3, remove "inventory.json", ask 3, request 3],
        exchange.answer = exchange.call.answer Inventory.pluggedCardFiles card) ∧
    (Request.process (table.lanes tableOfSeven) 0x0e [7]).value = .ok [0x0e, 3, 4, 4, 8] ∧
    (table.lanes (tableOfSeven.without Table.defaultPath) 7).value = [] ∧
    ∀ exchange ∈ tableSession.exchanges id [request 7, remove Table.defaultPath, ask 7, request 7],
      ∃ anew, (Handler.ofConfig exchange.world {}).value = .ok anew ∧
        exchange.answer = exchange.call.answer exchange.world anew := by
  intro card table cardSession tableSession ask request remove
  have built : (Handler.ofConfig (id Inventory.pluggedCardFiles)
      ⟨.inventory "inventory.json" "/slot"⟩).value = .ok card := by
    simp only [id, Handler.ofConfig, Handler.ofInventory, Inventory.load_pluggedCard]
    rfl
  have tableBuilt : (Handler.ofConfig (id tableOfSeven) {}).value = .ok table := rfl
  refine ⟨⟨built, by cbv, ?_⟩, reply_tableOfSeven, by cbv, ?_⟩
  · exact (answers_fresh_or_first id built _).2.1 "inventory.json" "/slot" rfl
  · exact (answers_fresh_or_first id tableBuilt _).1 Table.defaultPath rfl

end SlotLanes
