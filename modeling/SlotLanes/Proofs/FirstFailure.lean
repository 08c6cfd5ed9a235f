import SlotLanes.CommandLine.Program
import SlotLanes.Proofs.Routes

/-! Requests on the command line and what they fail for. The configuration comes first, then the
handler, then the tokens from left to right, and last that there is one at all; whatever fails
first is reported, and nothing is printed. Only then is a request answered, from the handler that
was made and the bytes that all the tokens gave. -/
namespace SlotLanes

namespace CommandLine

variable {files : Files} {path : String} {verbose : Bool} {line tokens : List String}
variable {chosen : Config} {handler : Handler} {failure : Failure} {command : UInt8}
variable {data : List UInt8}

section Tokens

/-- The tokens are these bytes, one by one. -/
def Spelled (tokens : List String) (bytes : List UInt8) : Prop :=
  List.Forall₂ (fun token byte => readToken token = .ok byte) tokens bytes

/-- The fault of the leftmost token that is no byte. -/
def FirstBad (tokens : List String) (fault : TokenFault) : Prop :=
  ∃ before token after, tokens = before ++ token :: after ∧
    (∀ earlier ∈ before, ∃ byte, readToken earlier = .ok byte) ∧ readToken token = .error fault

theorem requestBytes_eq_ok_iff :
    requestBytes tokens = .ok (command, data) ↔ Spelled tokens (command :: data) := by
  simp only [requestBytes, bind_eq_ok_iff, mapError_eq_ok_iff, Spelled, ← mapM_eq_ok_iff]
  constructor
  · intro read
    obtain ⟨bytes, spelled, split⟩ := read
    cases bytes with
    | nil => cases split
    | cons first rest =>
      cases split
      exact spelled
  · intro spelled
    exact ⟨_, spelled, rfl⟩

theorem requestBytes_eq_error_iff : requestBytes tokens = .error failure ↔
    (∃ fault, FirstBad tokens fault ∧ failure = fault.failure) ∨
      tokens = [] ∧ failure = ⟨"request needs at least a command byte", []⟩ := by
  simp only [requestBytes, bind_eq_error_iff, mapError_eq_error_iff, mapError_eq_ok_iff,
    mapM_eq_error_iff, FirstBad]
  apply or_congr_right
  constructor
  · intro read
    obtain ⟨bytes, spelled, split⟩ := read
    cases bytes with
    | nil =>
      cases split
      exact ⟨List.forall₂_nil_right_iff.mp (mapM_eq_ok_iff.mp spelled), rfl⟩
    | cons first rest => cases split
  · intro none
    obtain ⟨rfl, rfl⟩ := none
    exact ⟨[], rfl, rfl⟩

end Tokens

/-- The configuration at a path, or the default one where nothing stands. -/
def Loads (files : Files) (path : String) (chosen : Config) : Prop :=
  files.present path = true ∧ Config.load files path = .ok chosen ∨
    files.present path = false ∧ chosen = {}

/-- The handler for the configuration at a path. -/
def Makes (files : Files) (path : String) (handler : Handler) : Prop :=
  ∃ chosen, Loads files path chosen ∧ (Handler.ofConfig files chosen).value = .ok handler

/-- What a request on the command line fails for first, as it is reported. A configuration's
document that cannot be understood is reported by the head alone: that it is not understood and
where it stands, but not the causes. -/
inductive FailsFirst (files : Files) (path : String) (tokens : List String) : String → Prop
  | config {fault : Config.Fault} (present : files.present path = true)
      (refused : Config.load files path = .error fault) :
      FailsFirst files path tokens fault.report
  | inventory {chosen : Config} {source mainBoard : String} {why : Inventory.Fault}
      (loads : Loads files path chosen) (named : chosen.source = .inventory source mainBoard)
      (refused : Inventory.load files source = .error why) :
      FailsFirst files path tokens (Handler.Fault.mk source why).failure.report
  | token {handler : Handler} {fault : TokenFault} (makes : Makes files path handler)
      (bad : FirstBad tokens fault) : FailsFirst files path tokens fault.failure.report
  | noToken {handler : Handler} (makes : Makes files path handler) (none : tokens = []) :
      FailsFirst files path tokens "Error: request needs at least a command byte"

theorem loadOrDefault_eq_ok_iff :
    (Config.loadOrDefault files path).value = .ok chosen ↔ Loads files path chosen := by
  unfold Config.loadOrDefault Loads
  split
  next present => simp [present]
  next absent => simp [absent, eq_comm]

theorem loadOrDefault_eq_error_iff {fault : Config.Fault} :
    (Config.loadOrDefault files path).value = .error fault ↔
      files.present path = true ∧ Config.load files path = .error fault := by
  unfold Config.loadOrDefault
  split
  next present => simp [present]
  next absent => simp [absent]

theorem ofConfig_eq_error_iff {fault : Handler.Fault} :
    (Handler.ofConfig files chosen).value = .error fault ↔ ∃ mainBoard,
      chosen.source = .inventory fault.path mainBoard ∧
        Inventory.load files fault.path = .error fault.why := by
  unfold Handler.ofConfig
  split
  next path table => simp [table]
  next path mainBoard inventory =>
    simp only [inventory, Handler.ofInventory, mapError_eq_error_iff, bind_eq_error_iff, pure,
      Except.pure, reduceCtorEq, and_false, exists_false, or_false, Source.inventory.injEq]
    constructor
    · intro failed
      obtain ⟨why, refused, rfl⟩ := failed
      exact ⟨mainBoard, ⟨rfl, rfl⟩, refused⟩
    · intro failed
      obtain ⟨_, ⟨rfl, rfl⟩, refused⟩ := failed
      exact ⟨_, refused, rfl⟩

section Stages
variable {action : Action} {report : String} {fault : TokenFault}

theorem spelled_or_bad (tokens : List String) :
    (∃ command data, Spelled tokens (command :: data)) ∨ (∃ fault, FirstBad tokens fault) ∨
      tokens = [] := by
  cases read : requestBytes tokens with
  | ok bytes => exact .inl ⟨bytes.1, bytes.2, requestBytes_eq_ok_iff.mp read⟩
  | error failure =>
    rcases requestBytes_eq_error_iff.mp read with ⟨fault, bad, _⟩ | ⟨none, _⟩
    · exact .inr (.inl ⟨fault, bad⟩)
    · exact .inr (.inr none)

theorem exists_spelled_iff : (∃ command data, Spelled tokens (command :: data)) ↔
    (∀ token ∈ tokens, ∃ byte, readToken token = .ok byte) ∧ tokens ≠ [] := by
  rw [← exists_forall₂_iff]
  constructor
  · intro read
    obtain ⟨command, data, spelled⟩ := read
    refine ⟨⟨_, spelled⟩, ?_⟩
    intro none
    rw [none] at spelled
    cases spelled
  · intro read
    obtain ⟨⟨bytes, spelled⟩, present⟩ := read
    cases spelled with
    | nil => exact absurd rfl present
    | cons first rest => exact ⟨_, _, .cons first rest⟩

theorem exists_firstBad {token : String} (member : token ∈ tokens)
    (noByte : ¬∃ byte, readToken token = .ok byte) : ∃ fault, FirstBad tokens fault := by
  rcases spelled_or_bad tokens with spelled | bad | none
  · exact absurd ((exists_spelled_iff.mp spelled).1 token member) noByte
  · exact bad
  · rw [none] at member
    cases member

theorem makes_or_failsFirst (files : Files) (path : String) :
    (∃ handler, Makes files path handler) ∨
      ∃ report, ∀ tokens, FailsFirst files path tokens report := by
  cases loaded : (Config.loadOrDefault files path).value with
  | error fault =>
    obtain ⟨present, refused⟩ := loadOrDefault_eq_error_iff.mp loaded
    exact .inr ⟨_, fun tokens => .config present refused⟩
  | ok chosen =>
    have loads := loadOrDefault_eq_ok_iff.mp loaded
    cases made : (Handler.ofConfig files chosen).value with
    | ok handler => exact .inl ⟨handler, chosen, loads, made⟩
    | error fault =>
      obtain ⟨mainBoard, named, refused⟩ := ofConfig_eq_error_iff.mp made
      exact .inr ⟨_, fun tokens => .inventory loads named refused⟩

theorem run_of_makes (asks : Arguments.parse line = .ok ⟨path, verbose, action⟩)
    (makes : Makes files path handler) :
    (run files line).value = (act files handler action).value := by
  obtain ⟨chosen, loads, made⟩ := makes
  have loaded := loadOrDefault_eq_ok_iff.mpr loads
  simp only [run, asks, Arguments.run, bind, Logged.bind, loaded, made]

/-- Neither the handler nor a file is looked at if a token is no byte. -/
theorem act_of_firstBad (files : Files) (handler : Handler) (bad : FirstBad tokens fault) :
    act files handler (.request tokens) = ⟨.failed fault.failure.report, []⟩ := by
  rw [act, requestBytes_eq_error_iff.mpr (.inl ⟨fault, bad, rfl⟩)]

variable (asks : Arguments.parse line = .ok ⟨path, verbose, .request tokens⟩)
include asks

theorem run_of_spelled (makes : Makes files path handler)
    (spelled : Spelled tokens (command :: data)) :
    (run files line).value =
      .printed (replyLine (Request.process (handler.lanes files) command data).value) := by
  rw [run_of_makes asks makes, act, requestBytes_eq_ok_iff.mpr spelled]
  rfl

theorem run_of_failsFirst (fails : FailsFirst files path tokens report) :
    (run files line).value = .failed report := by
  cases fails with
  | config present refused =>
    have refused := loadOrDefault_eq_error_iff.mpr ⟨present, refused⟩
    simp only [run, asks, Arguments.run, bind, Logged.bind, refused, pure]
  | inventory loads named refused =>
    have loaded := loadOrDefault_eq_ok_iff.mpr loads
    have refused : (Handler.ofConfig files _).value = .error ⟨_, _⟩ :=
      ofConfig_eq_error_iff.mpr ⟨_, named, refused⟩
    simp only [run, asks, Arguments.run, bind, Logged.bind, loaded, refused, pure]
  | token makes bad => rw [run_of_makes asks makes, act_of_firstBad files _ bad]
  | noToken makes none =>
    rw [run_of_makes asks makes, none]
    rfl

/-- A request is answered from the bytes of its tokens, or something fails first. -/
theorem run_printed_or_failed (files : Files) :
    (∃ handler command data, Makes files path handler ∧ Spelled tokens (command :: data) ∧
      (run files line).value =
        .printed (replyLine (Request.process (handler.lanes files) command data).value)) ∨
      ∃ report, FailsFirst files path tokens report ∧ (run files line).value = .failed report := by
  rcases makes_or_failsFirst files path with ⟨handler, makes⟩ | ⟨report, fails⟩
  · rcases spelled_or_bad tokens with ⟨command, data, spelled⟩ | ⟨fault, bad⟩ | none
    · exact .inl ⟨handler, command, data, makes, spelled, run_of_spelled asks makes spelled⟩
    · exact .inr ⟨_, .token makes bad, run_of_failsFirst asks (.token makes bad)⟩
    · exact .inr ⟨_, .noToken makes none, run_of_failsFirst asks (.noToken makes none)⟩
  · exact .inr ⟨report, fails tokens, run_of_failsFirst asks (fails tokens)⟩

theorem code_eq_zero_iff : (run files line).value.code = 0 ↔
    (∃ handler, Makes files path handler) ∧ ∃ command data, Spelled tokens (command :: data) := by
  constructor
  · intro zero
    rcases run_printed_or_failed asks files with
      ⟨handler, command, data, makes, spelled, _⟩ | ⟨report, _, failed⟩
    · exact ⟨⟨handler, makes⟩, command, data, spelled⟩
    · rw [failed] at zero
      cases zero
  · intro ready
    obtain ⟨⟨handler, makes⟩, command, data, spelled⟩ := ready
    rw [run_of_spelled asks makes spelled]
    rfl

theorem answers_of_code_eq_zero (zero : (run files line).value.code = 0) :
    (run files line).value.stderr = "" ∧
      ∃ handler command data, Makes files path handler ∧ Spelled tokens (command :: data) ∧
        let reply := (Request.process (handler.lanes files) command data).value
        (∀ bytes, reply = .ok bytes →
          (run files line).value.stdout = "cc=0x00 " ++ Text.Numeral.hexWords bytes ++ "\n") ∧
        ∀ completion, reply = .error completion →
          (run files line).value.stdout = "cc=" ++ Text.Numeral.hexByte completion.byte ++ "\n" := by
  rcases run_printed_or_failed asks files with
    ⟨handler, command, data, makes, spelled, printed⟩ | ⟨report, _, failed⟩
  · rw [printed]
    refine ⟨rfl, handler, command, data, makes, spelled, fun bytes replied => ?_,
      fun completion refused => ?_⟩
    · rw [replied]
      rfl
    · rw [refused]
      rfl
  · rw [failed] at zero
    cases zero

theorem reports_of_code_ne_zero (nonzero : (run files line).value.code ≠ 0) :
    (run files line).value.code = 1 ∧ (run files line).value.stdout = "" ∧
      ∃ report, FailsFirst files path tokens report ∧
        (run files line).value.stderr = report ++ "\n" := by
  rcases run_printed_or_failed asks files with ⟨_, _, _, _, _, printed⟩ | ⟨report, fails, failed⟩
  · exact absurd (congrArg Outcome.code printed) nonzero
  · rw [failed]
    exact ⟨rfl, rfl, report, fails, rfl⟩

/-- Without a handler the tokens are not looked at. -/
theorem run_eq_of_not_makes (unmade : ¬∃ handler, Makes files path handler) {others : List String}
    {otherVerbose : Bool} {otherLine : List String}
    (otherAsks : Arguments.parse otherLine = .ok ⟨path, otherVerbose, .request others⟩) :
    (run files otherLine).value = (run files line).value := by
  rcases makes_or_failsFirst files path with made | ⟨report, fails⟩
  · exact absurd made unmade
  · rw [run_of_failsFirst asks (fails tokens), run_of_failsFirst otherAsks (fails others)]

end Stages

/-- A request is answered if and only if there is a configuration or no file for it, the handler
can be made, and there are tokens that are all bytes. What is printed then is the reply to the
first byte with the others as its data. In any other case nothing is printed and the first
failure is reported, up to the causes if it is a configuration's document, with the tokens looked
at last: if it comes before them they do not matter, and with a token that is no byte the handler
does not. -/
theorem request_fails_before_answer (files : Files) {line tokens : List String} {path : String}
    {verbose : Bool} (asks : Arguments.parse line = .ok ⟨path, verbose, .request tokens⟩) :
    let ended := (run files line).value
    (ended.code = 0 ↔ (∃ handler, Makes files path handler) ∧
      (∀ token ∈ tokens, ∃ byte, readToken token = .ok byte) ∧ tokens ≠ []) ∧
    (ended.code = 0 → ended.stderr = "" ∧ ∃ handler command data, Makes files path handler ∧
      Spelled tokens (command :: data) ∧
        let reply := (Request.process (handler.lanes files) command data).value
        (∀ bytes, reply = .ok bytes →
          ended.stdout = "cc=0x00 " ++ Text.Numeral.hexWords bytes ++ "\n") ∧
        ∀ completion, reply = .error completion →
          ended.stdout = "cc=" ++ Text.Numeral.hexByte completion.byte ++ "\n") ∧
    (ended.code ≠ 0 → ended.code = 1 ∧ ended.stdout = "" ∧
      ∃ report, FailsFirst files path tokens report ∧ ended.stderr = report ++ "\n") ∧
    (∀ report, FailsFirst files path tokens report → ended = .failed report) ∧
    ((¬∃ handler, Makes files path handler) → ∀ others otherVerbose otherLine,
      Arguments.parse otherLine = .ok ⟨path, otherVerbose, .request others⟩ →
        (run files otherLine).value = ended) ∧
    ∀ token ∈ tokens, (¬∃ byte, readToken token = .ok byte) → ∃ fault, FirstBad tokens fault ∧
      ∀ other handler, act other handler (.request tokens) = ⟨.failed fault.failure.report, []⟩ := by
  intro ended
  refine ⟨?_, answers_of_code_eq_zero asks, reports_of_code_ne_zero asks,
    fun report => run_of_failsFirst asks,
    fun unmade others otherVerbose otherLine => run_eq_of_not_makes asks unmade, ?_⟩
  · rw [← exists_spelled_iff]
    exact code_eq_zero_iff asks
  · intro token member noByte
    obtain ⟨fault, bad⟩ := exists_firstBad member noByte
    exact ⟨fault, bad, fun other handler => act_of_firstBad other handler bad⟩

/-- Of two tokens that are no bytes the first is reported, and neither where the configuration
cannot be read; with bytes for tokens, a file that is missing is no failure. -/
theorem badTokens_first_reported :
    let nothing : Files := ⟨fun _ => .error .missing, fun _ => false⟩
    let directories : Files := ⟨fun _ => .error .isDirectory, fun _ => true⟩
    (run nothing ["-v", "request", "0e", "0x1g", "100"]).value =
      .failed (TokenFault.mk "0x1g" .invalidDigit).failure.report ∧
    (run directories ["-v", "request", "0e", "0x1g", "100"]).value =
      .failed (Config.Fault.mk Config.defaultPath (.unreadable .isDirectory)).report ∧
    (run nothing ["request", "0x0f", "+1"]).value.code = 0 := by
  intro nothing directories
  have asks : Arguments.parse ["-v", "request", "0e", "0x1g", "100"] =
      .ok ⟨Config.defaultPath, true, .request ["0e", "0x1g", "100"]⟩ :=
    bind_eq_ok_iff.mpr ⟨_, rfl, bind_eq_ok_iff.mpr ⟨_, readAction_request (by decide), rfl⟩⟩
  have asksOther : Arguments.parse ["request", "0x0f", "+1"] =
      .ok ⟨Config.defaultPath, false, .request ["0x0f", "+1"]⟩ :=
    parse_request_alone (by decide)
  have makes : Makes nothing Config.defaultPath (.table Table.defaultPath) :=
    ⟨{}, .inr ⟨rfl, rfl⟩, rfl⟩
  have bad : FirstBad ["0e", "0x1g", "100"] ⟨"0x1g", .invalidDigit⟩ := by
    refine ⟨["0e"], "0x1g", ["100"], rfl, ?_, by cbv⟩
    exact List.forall_mem_singleton.mpr ⟨0x0e, by cbv⟩
  have bytes : ∀ token ∈ ["0x0f", "+1"], ∃ byte, readToken token = .ok byte := by
    rw [List.forall_mem_cons, List.forall_mem_singleton]
    exact ⟨⟨0x0f, by cbv⟩, ⟨1, by cbv⟩⟩
  obtain ⟨_, _, _, unspelled, _⟩ := request_fails_before_answer nothing asks
  obtain ⟨_, _, _, unread, _⟩ := request_fails_before_answer directories asks
  obtain ⟨answers, _⟩ := request_fails_before_answer nothing asksOther
  refine ⟨unspelled _ (.token makes bad), unread _ (.config rfl rfl), ?_⟩
  exact answers.mpr ⟨⟨_, makes⟩, bytes, by decide⟩

end CommandLine
end SlotLanes
