import SlotLanes.CommandLine.Program
import SlotLanes.Proofs.Exchange
import SlotLanes.Proofs.Freshness
import SlotLanes.Proofs.Outcome
import SlotLanes.Proofs.Printed

/-! Two ways to ask for the lanes of a slot on the command line: by its index, or by the
request that a host would send. Options are read before either, and the configuration and
the handler do not depend on what is asked, so both fail alike or answer from one list. -/
namespace SlotLanes.CommandLine

section Words

theorem eq_of_readTokens_zero {tokens words : List String}
    (read : readTokens (some 0) tokens = .ok words) : tokens = [] ∨ tokens = ["--"] := by
  match tokens with
  | [] => exact .inl rfl
  | token :: rest =>
    unfold readTokens at read
    split at read
    next dashes =>
      split at read
      next => cases read
      next few => simp_all
    next =>
      split at read
      next => cases read
      next => simp at read

theorem eq_of_readTokens_one {tokens : List String} {word : String}
    (read : readTokens (some 1) tokens = .ok [word]) :
    tokens = [word] ∨ tokens = [word, "--"] ∨ tokens = ["--", word] := by
  match tokens with
  | [] => cases read
  | token :: rest =>
    unfold readTokens at read
    split at read
    next dashes =>
      split at read
      next => cases read
      next =>
        obtain rfl := Except.ok.inj read
        exact .inr (.inr (by rw [dashes]))
    next =>
      split at read
      next => cases read
      next =>
        split at read
        next => cases read
        next =>
          obtain ⟨words, others, same⟩ := map_eq_ok_iff.mp read
          obtain ⟨rfl, rfl⟩ := List.cons.inj same
          rcases eq_of_readTokens_zero others with rfl | rfl
          · exact .inl rfl
          · exact .inr (.inl rfl)

/-- Only these words ask for the lanes of a slot by its index. -/
theorem words_of_readAction {name : String} {rest : List String} {index : UInt8}
    (read : readAction name rest = .ok (.bifurcation index)) :
    ∃ word, Text.Numeral.readDecimalByte word = .ok index ∧
      (rest = [word] ∨ rest = [word, "--"] ∨ rest = ["--", word]) := by
  unfold readAction at read
  split at read
  next =>
    obtain ⟨words, tokens, action⟩ := bind_eq_ok_iff.mp read
    split at action
    next word =>
      split at action
      next found spelled =>
        cases action
        exact ⟨word, spelled, eq_of_readTokens_one tokens⟩
      next => cases action
    next => cases action
  next =>
    split at read
    next =>
      obtain ⟨words, _, same⟩ := map_eq_ok_iff.mp read
      cases same
    next => split at read <;> cases read

theorem rest_of_readOptions_single {given chosen : Options} {word name : String} {rest : List String}
    (read : readOptions given [word] = .ok (chosen, name, rest)) : rest = [] := by
  unfold readOptions at read
  split at read
  next => split at read <;> cases read
  next =>
    cases read
    rfl

theorem not_readAction_of_early {name word : String} {more : List String} {index : UInt8} :
    readAction name (more ++ ["bifurcation", word]) ≠ .ok (.bifurcation index) := by
  intro read
  obtain ⟨first, spelled, words⟩ := words_of_readAction read
  have noNumber : Text.Numeral.readDecimalByte "bifurcation" ≠ .ok index := by
    intro number
    have refused : Text.Numeral.readDecimalByte "bifurcation" = .error .invalidDigit := rfl
    cases refused.symm.trans number
  match more with
  | [] =>
    have named : first = "bifurcation" := by simp_all
    exact noNumber (named ▸ spelled)
  | token :: more =>
    rcases words with words | words | words
    all_goals
      have count := congrArg List.length words
      simp at count

/-- Where a command line asks for a slot by its index, what stands before that are options,
and they are read in the same way before a request. -/
theorem readOptions_request (options : List String) (given : Options) {chosen : Options}
    {word name : String} {rest : List String} {index : UInt8}
    (read : readOptions given (options ++ ["bifurcation", word]) = .ok (chosen, name, rest))
    (asks : readAction name rest = .ok (.bifurcation index)) (words : List String) :
    readOptions given (options ++ "request" :: words) = .ok (chosen, "request", words) := by
  match options with
  | [] =>
    obtain ⟨rfl, rfl, rfl⟩ : given = chosen ∧ _ ∧ _ := by simpa [readOptions, isOption] using read
    simp [readOptions, isOption]
  | token :: more =>
    rw [List.cons_append, readOptions] at read ⊢
    split at read
    next isFlag =>
      rw [if_pos isFlag]
      split at read
      next => cases read
      next verbose letters =>
        exact readOptions_request more _ read asks words
      next verbose path letters =>
        exact readOptions_request more _ read asks words
      next verbose letters =>
        match more with
        | [] =>
          have plain : ¬isOption "bifurcation".toList = true := by decide
          simp only [List.nil_append, if_neg plain] at read
          obtain rfl := rest_of_readOptions_single read
          obtain ⟨_, _, none | none | none⟩ := words_of_readAction asks <;> cases none
        | path :: more =>
          simp only [List.cons_append] at read ⊢
          split at read
          next => cases read
          next plain =>
            rw [if_neg plain]
            exact readOptions_request more _ read asks words
    next plain =>
      cases read
      exact absurd asks not_readAction_of_early

/-- Words that no dash begins are taken as they are. -/
theorem readTokens_plain {tokens : List String}
    (plain : ∀ token ∈ tokens, token.toList.head? ≠ some '-') :
    readTokens none tokens = .ok tokens := by
  induction tokens with
  | nil => rfl
  | cons token rest ih =>
    have noDash : token.toList.head? ≠ some '-' := plain token (by simp)
    have notDashes : token ≠ "--" := by
      rintro rfl
      exact noDash rfl
    have noHelp : ¬(token = "--help" ∨ token.startsWith "-h" = true) := by
      rintro (rfl | help)
      · exact noDash rfl
      · obtain ⟨letters, spelled⟩ := String.startsWith_string_iff.mp help
        exact noDash (by rw [← spelled]; rfl)
    have noOption : ¬(isOption token.toList = true ∨ (none : Option Nat) = some 0) := by
      simp [isOption, noDash]
    rw [readTokens, if_neg notDashes, if_neg noHelp, if_neg noOption, Option.map_none,
      ih fun other member => plain other (List.mem_cons_of_mem _ member)]
    rfl

theorem readAction_request {tokens : List String}
    (plain : ∀ token ∈ tokens, token.toList.head? ≠ some '-') :
    readAction "request" tokens = .ok (.request tokens) := by
  rw [readAction, if_neg (by decide), if_pos rfl, readTokens_plain plain]
  rfl

theorem parse_request_alone {tokens : List String}
    (plain : ∀ token ∈ tokens, token.toList.head? ≠ some '-') :
    Arguments.parse ("request" :: tokens) = .ok ⟨Config.defaultPath, false, .request tokens⟩ :=
  bind_eq_ok_iff.mpr ⟨_, rfl, bind_eq_ok_iff.mpr ⟨_, readAction_request plain, rfl⟩⟩

theorem head?_of_readHexByte {token : String} {byte : UInt8}
    (spelled : Text.Numeral.readHexByte token = .ok byte) : token.toList.head? ≠ some '-' := by
  intro dash
  obtain ⟨letters, same⟩ := List.head?_eq_some_iff.mp dash
  rw [Text.Numeral.readHexByte, same] at spelled
  cases spelled

theorem parse_request {options : List String} {word token config : String} {verbose : Bool}
    {index : UInt8} (asks : Arguments.parse (options ++ ["bifurcation", word]) =
      .ok ⟨config, verbose, .bifurcation index⟩)
    (spelled : Text.Numeral.readHexByte token = .ok index) :
    Arguments.parse (options ++ ["request", "0e", token]) =
      .ok ⟨config, verbose, .request ["0e", token]⟩ := by
  obtain ⟨⟨chosen, name, rest⟩, read, goesOn⟩ := bind_eq_ok_iff.mp asks
  obtain ⟨action, reads, last⟩ := bind_eq_ok_iff.mp goesOn
  have request : readAction "request" ["0e", token] = .ok (.request ["0e", token]) := by
    apply readAction_request
    intro word member
    rcases List.mem_cons.mp member with rfl | member
    · decide
    · obtain rfl := List.mem_singleton.mp member
      exact head?_of_readHexByte spelled
  split at last
  next => cases last
  next once =>
    cases last
    have options := readOptions_request options {} read reads ["0e", token]
    refine bind_eq_ok_iff.mpr ⟨_, options, bind_eq_ok_iff.mpr ⟨_, request, ?_⟩⟩
    rw [if_neg once]
    rfl

end Words

/-- Until the handler is made, a run does not depend on what is asked. -/
theorem Arguments.run_cases (files : Files) (config : String) (verbose : Bool) :
    (∃ failed : Logged Outcome, failed.value.code = 1 ∧ failed.value.stdout = "" ∧
      ∀ action, (Arguments.mk config verbose action).run files = failed) ∨
    ∃ handler before, ∀ action, (Arguments.mk config verbose action).run files =
      ⟨(act files handler action).value, before ++ (act files handler action).events⟩ := by
  cases loaded : (Config.loadOrDefault files config).value with
  | error fault =>
    refine .inl ⟨⟨.failed fault.report, (Config.loadOrDefault files config).events⟩, rfl, rfl, ?_⟩
    intro action
    simp only [Arguments.run, bind, Logged.bind, loaded, pure, List.append_nil]
  | ok chosen =>
    let before := (Config.loadOrDefault files config).events ++ (Handler.ofConfig files chosen).events
    cases made : (Handler.ofConfig files chosen).value with
    | error fault =>
      refine .inl ⟨⟨.failed fault.failure.report, before⟩, rfl, rfl, ?_⟩
      intro action
      simp only [Arguments.run, bind, Logged.bind, loaded, made, pure, List.append_nil, before]
    | ok handler =>
      refine .inr ⟨handler, before, ?_⟩
      intro action
      simp only [Arguments.run, bind, Logged.bind, loaded, made, List.append_assoc, before]

theorem act_bifurcation (files : Files) (handler : Handler) (index : UInt8) :
    (act files handler (.bifurcation index)).value =
      .printed (listText ((handler.lanes files index).value.map UInt8.toNat)) := rfl

theorem act_request (files : Files) (handler : Handler) {token : String} {index : UInt8}
    (spelled : Text.Numeral.readHexByte token = .ok index) :
    (act files handler (.request ["0e", token])).value =
      .printed (replyLine (Request.process (handler.lanes files) 0x0e [index]).value) := by
  have bytes : requestBytes ["0e", token] = .ok (0x0e, [index]) := by
    have command : readToken "0e" = .ok 0x0e := by cbv
    have slot : readToken token = .ok index := by rw [readToken, spelled]; rfl
    rw [requestBytes, mapM_eq_ok_iff.mpr (.cons command (.cons slot .nil))]
    rfl
  rw [act, bytes]
  rfl

theorem replyLine_process (lanes : UInt8 → Logged (List UInt8)) (index : UInt8) :
    let line := replyLine (Request.process lanes 0x0e [index]).value
    ((lanes index).value.length ≤ 61 → ∃ count : UInt8, count.toNat = (lanes index).value.length ∧
      line = "cc=0x00 " ++ Text.Numeral.hexWords (0x0e :: count :: (lanes index).value)) ∧
    (61 < (lanes index).value.length → line = "cc=0xc8") := by
  have ends := Request.process_ends lanes 0x0e [index]
  constructor
  · intro fits
    obtain ⟨count, counted, _⟩ := Ipmi.encodeBifurcationReply_of_le fits
    have replied := (ends.ok_iff _).mpr ⟨index, [], count, rfl, rfl, fits, counted, rfl⟩
    exact ⟨count, counted, by rw [replied, replyLine]⟩
  · intro long
    have refused := (ends.error_iff .requestLengthExceeded).mpr
      (.inr (.inr ⟨index, [], rfl, rfl, long, rfl⟩))
    rw [refused]
    cbv

/-- On the same files and with the same options, asking for a slot by its index and by a
request either fails alike, or gives one list: plainly, or in the reply that carries it. Of a
configuration's document that cannot be understood the reports hold the head alone, so what is
alike there ends before the causes. -/
theorem routes_agree (files : Files) {options : List String} {word token config : String}
    {verbose : Bool} {index : UInt8} (asks : Arguments.parse (options ++ ["bifurcation", word]) =
      .ok ⟨config, verbose, .bifurcation index⟩)
    (spelled : Text.Numeral.readHexByte token = .ok index) :
    let listed := run files (options ++ ["bifurcation", word])
    let replied := run files (options ++ ["request", "0e", token])
    Arguments.parse (options ++ ["request", "0e", token]) =
      .ok ⟨config, verbose, .request ["0e", token]⟩ ∧
    ((listed.value.code = 1 ∧ listed.value.stdout = "" ∧ replied = listed) ∨
      (listed.value.code = 0 ∧ replied.value.code = 0 ∧
        (∃ lanes : List UInt8, listed.value = .printed (listText (lanes.map UInt8.toNat))) ∧
        ∀ lanes : List UInt8, listed.value = .printed (listText (lanes.map UInt8.toNat)) →
          (lanes.length ≤ 61 → ∃ count : UInt8, count.toNat = lanes.length ∧
            replied.value = .printed ("cc=0x00 " ++ Text.Numeral.hexWords (0x0e :: count :: lanes))) ∧
          (61 < lanes.length → replied.value = .printed "cc=0xc8"))) := by
  intro listed replied
  have request := parse_request asks spelled
  have listing : listed = Arguments.run files ⟨config, verbose, .bifurcation index⟩ := by
    simp only [listed, run, asks]
  have replying : replied = Arguments.run files ⟨config, verbose, .request ["0e", token]⟩ := by
    simp only [replied, run, request]
  refine ⟨request, ?_⟩
  rcases Arguments.run_cases files config verbose with
    ⟨failed, code, silent, runs⟩ | ⟨handler, before, runs⟩
  · left
    rw [listing, replying, runs, runs]
    exact ⟨code, silent, rfl⟩
  · right
    have shown := act_bifurcation files handler index
    have answered := act_request files handler spelled
    rw [listing, replying, runs, runs]
    simp only [shown, answered]
    refine ⟨rfl, rfl, ⟨_, rfl⟩, ?_⟩
    intro lanes same
    have numbers := listText_injective (Outcome.printed.inj same)
    obtain rfl : _ = lanes := List.map_injective_iff.mpr (fun _ _ => UInt8.toNat_inj.mp) numbers
    have line := replyLine_process (handler.lanes files) index
    constructor
    · intro fits
      obtain ⟨count, counted, text⟩ := line.1 fits
      exact ⟨count, counted, by rw [text]⟩
    · intro long
      rw [line.2 long]

theorem tableOfSeven_both_routes :
    (run tableOfSeven (["-c", "handler.toml"] ++ ["bifurcation", "7"])).value = .printed "[4, 4, 8]" ∧
      (run tableOfSeven (["-c", "handler.toml"] ++ ["request", "0e", "0x07"])).value =
        .printed "cc=0x00 0e 03 04 04 08" := by
  have asks : Arguments.parse (["-c", "handler.toml"] ++ ["bifurcation", "7"]) =
      .ok ⟨"handler.toml", false, .bifurcation 7⟩ := rfl
  have spelled : Text.Numeral.readHexByte "0x07" = .ok 7 := rfl
  have absent : Config.loadOrDefault tableOfSeven "handler.toml" =
      ⟨.ok {}, [.configAbsent "handler.toml"]⟩ := rfl
  have printed : (run tableOfSeven (["-c", "handler.toml"] ++ ["bifurcation", "7"])).value =
      .printed (listText ([4, 4, 8].map UInt8.toNat)) := by
    simp only [run, asks, Arguments.run, bind, Logged.bind, absent, Handler.ofConfig, act,
      lanes_tableOfSeven, Logged.map]
  obtain ⟨_, ⟨code, _⟩ | ⟨_, _, _, agree⟩⟩ := routes_agree tableOfSeven asks spelled
  · rw [printed] at code
    cases code
  · obtain ⟨count, counted, replied⟩ := (agree [4, 4, 8] printed).1 (by decide)
    obtain rfl : count = 3 := UInt8.toNat_inj.mp counted
    refine ⟨printed.trans (by cbv), replied.trans (by cbv)⟩

end SlotLanes.CommandLine
