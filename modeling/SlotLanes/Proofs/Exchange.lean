import Mathlib
import SlotLanes.Request

/-! One request and what comes back. A handler reports something or nothing each time that
it is asked, and the outcome of a request brings along what it reported: so the events of
an outcome show what the handler was asked, and how often. -/
namespace SlotLanes

namespace Ipmi

/-- The lane counts in a bifurcation reply, as the host reads them off its bytes. -/
def lanesOfReply : List UInt8 → Option (List UInt8)
  | command :: count :: lanes =>
    if command = 0x0e ∧ count.toNat = lanes.length then some lanes else none
  | _ => none

theorem encodeBifurcationReply_of_le {lanes : List UInt8} (fits : lanes.length ≤ 61) :
    ∃ count : UInt8, count.toNat = lanes.length ∧
      encodeBifurcationReply lanes = .ok (0x0e :: count :: lanes) := by
  refine ⟨UInt8.ofNat lanes.length, ?_, if_pos fits⟩
  rw [UInt8.toNat_ofNat']
  omega

theorem encodeBifurcationReply_of_lt {lanes : List UInt8} (long : 61 < lanes.length) :
    encodeBifurcationReply lanes = .error .requestLengthExceeded :=
  if_neg (Nat.not_le.mpr long)

end Ipmi

namespace Request
open SlotLanes.Ipmi

/-- The slots that a request makes the handler answer for. -/
def asked (command : UInt8) (data : List UInt8) : List UInt8 :=
  if command = 0x0e then data.take 1 else []

def refusal (command : UInt8) : Event :=
  match Command.ofByte? command with
  | none => .unknownCommand command
  | some known => .unhandledCommand known

/-- The ways that a request can end, with the slot that was asked about on the way. -/
inductive Ends (lanes : UInt8 → Logged (List UInt8)) :
    UInt8 → List UInt8 → Logged Reply → Prop
  | otherCommand {command : UInt8} (data : List UInt8) (other : command ≠ 0x0e) :
      Ends lanes command data ⟨.error .invalidCommand, [refusal command]⟩
  | noIndex : Ends lanes 0x0e [] ⟨.error .requestLengthInvalid, []⟩
  | answered (index : UInt8) (rest : List UInt8) {count : UInt8}
      (fits : (lanes index).value.length ≤ 61) (counted : count.toNat = (lanes index).value.length) :
      Ends lanes 0x0e (index :: rest)
        ⟨.ok (0x0e :: count :: (lanes index).value), (lanes index).events⟩
  | tooLong (index : UInt8) (rest : List UInt8) (long : 61 < (lanes index).value.length) :
      Ends lanes 0x0e (index :: rest) ⟨.error .requestLengthExceeded,
        (lanes index).events ++ [.replyTooLong index (lanes index).value.length]⟩

variable (lanes : UInt8 → Logged (List UInt8)) (command : UInt8) (data : List UInt8)

theorem process_of_ne {command : UInt8} (other : command ≠ 0x0e) :
    process lanes command data = ⟨.error .invalidCommand, [refusal command]⟩ := by
  unfold process refusal
  split
  next unknown => simp [unknown]
  next bifurcation => exact absurd (Command.byte_of_ofByte? bifurcation).symm other
  next known _ found => simp [found]

theorem bifurcation_ends (index : UInt8) (rest : List UInt8) :
    Ends lanes 0x0e (index :: rest) (bifurcation lanes (index :: rest)) := by
  rcases Nat.lt_or_ge 61 (lanes index).value.length with long | fits
  · simpa [bifurcation, decodeBifurcationRequest, encodeBifurcationReply_of_lt long]
      using Ends.tooLong index rest long
  · obtain ⟨count, counted, encoded⟩ := encodeBifurcationReply_of_le fits
    simpa [bifurcation, decodeBifurcationRequest, encoded]
      using Ends.answered index rest fits counted

theorem process_ends : Ends lanes command data (process lanes command data) := by
  by_cases bifurcated : command = 0x0e
  · subst bifurcated
    cases data with
    | nil => exact .noIndex
    | cons index rest => exact bifurcation_ends lanes index rest
  · rw [process_of_ne lanes data bifurcated]
    exact .otherCommand data bifurcated

variable {lanes : UInt8 → Logged (List UInt8)} {command : UInt8} {data : List UInt8}
variable {outcome : Logged Reply}

theorem Ends.ok_iff (ends : Ends lanes command data outcome) (reply : List UInt8) :
    outcome.value = .ok reply ↔ ∃ index rest count, command = 0x0e ∧ data = index :: rest ∧
      (lanes index).value.length ≤ 61 ∧ count.toNat = (lanes index).value.length ∧
      reply = 0x0e :: count :: (lanes index).value := by
  cases ends with
  | otherCommand _ other => simp [other]
  | noIndex => simp
  | answered index rest fits counted =>
    constructor
    · rintro ⟨⟩
      exact ⟨index, rest, _, rfl, rfl, fits, counted, rfl⟩
    · rintro ⟨_, _, count, _, ⟨⟩, _, same, rfl⟩
      rw [UInt8.toNat_inj.mp (same.trans counted.symm)]
  | tooLong index rest long =>
    constructor
    · intro ok
      contradiction
    · rintro ⟨_, _, _, _, ⟨⟩, fits, _⟩
      omega

theorem Ends.error_iff (ends : Ends lanes command data outcome) (completion : Completion) :
    outcome.value = .error completion ↔
      (command ≠ 0x0e ∧ completion = .invalidCommand) ∨
      (command = 0x0e ∧ data = [] ∧ completion = .requestLengthInvalid) ∨
      ∃ index rest, command = 0x0e ∧ data = index :: rest ∧
        61 < (lanes index).value.length ∧ completion = .requestLengthExceeded := by
  cases ends with
  | otherCommand _ other => simp [other, eq_comm]
  | noIndex => simp [eq_comm]
  | answered index rest fits =>
    have short : ¬ 61 < (lanes index).value.length := by omega
    simp [short]
  | tooLong index rest long => simp [long, eq_comm]

theorem Ends.reply_readable (ends : Ends lanes command data outcome) {reply : List UInt8}
    (ok : outcome.value = .ok reply) : reply.length ≤ 63 ∧
      ∃ index, asked command data = [index] ∧ lanesOfReply reply = some (lanes index).value := by
  obtain ⟨index, rest, count, rfl, rfl, fits, counted, rfl⟩ := (ends.ok_iff reply).mp ok
  refine ⟨?_, index, by simp [asked], by simp [lanesOfReply, counted]⟩
  simp only [List.length_cons]
  omega

/-- Beside what the handler reports there is at most one record. -/
theorem Ends.events_eq (ends : Ends lanes command data outcome) :
    ∃ own, outcome.events = (asked command data).flatMap (fun index => (lanes index).events) ++ own ∧
      own.length ≤ 1 ∧ ∀ index count, .replyTooLong index count ∈ own ↔
        outcome.value = .error .requestLengthExceeded ∧ data.head? = some index ∧
          count = (lanes index).value.length := by
  cases ends with
  | otherCommand _ other =>
    refine ⟨[refusal command], by simp [asked, other], le_rfl, fun index count => ?_⟩
    unfold refusal
    split <;> simp
  | noIndex => exact ⟨[], by simp [asked], Nat.zero_le 1, by simp⟩
  | answered index rest => exact ⟨[], by simp [asked], Nat.zero_le 1, by simp⟩
  | tooLong index rest long =>
    refine ⟨[.replyTooLong index (lanes index).value.length], by simp [asked], le_rfl,
      fun other count => ?_⟩
    simp only [List.mem_singleton, Event.replyTooLong.injEq, List.head?_cons, Option.some.injEq,
      true_and]
    constructor
    · rintro ⟨rfl, rfl⟩
      exact ⟨rfl, rfl⟩
    · rintro ⟨rfl, rfl⟩
      exact ⟨rfl, rfl⟩

/-- Of the handler, a request sees only the answers for the slots that it asks about. -/
theorem process_congr {other : UInt8 → Logged (List UInt8)}
    (same : ∀ index ∈ asked command data, other index = lanes index) :
    process other command data = process lanes command data := by
  by_cases bifurcated : command = 0x0e
  · subst bifurcated
    cases data with
    | nil => rfl
    | cons index rest =>
      have answer : other index = lanes index := same index (by simp [asked])
      change bifurcation other (index :: rest) = bifurcation lanes (index :: rest)
      simp only [bifurcation, decodeBifurcationRequest, answer]
  · rw [process_of_ne other data bifurcated, process_of_ne lanes data bifurcated]

theorem process_take_one : process lanes command (data.take 1) = process lanes command data := by
  by_cases bifurcated : command = 0x0e
  · subst bifurcated
    cases data <;> rfl
  · rw [process_of_ne lanes _ bifurcated, process_of_ne lanes _ bifurcated]

/-- A request gets a reply if and only if it is for the bifurcation command, names a slot
and the slot's list fits; the reply carries the list with its true length, and the host
reads the list back from it. Any other request is refused for the first of these that
fails. The handler is asked once about the slot named first, or not at all: what it
reports comes along once, and no other answer of it and no later byte matters. -/
theorem request_answered_or_refused (lanes : UInt8 → Logged (List UInt8)) (command : UInt8)
    (data : List UInt8) :
    (∀ reply, (process lanes command data).value = .ok reply ↔
      ∃ index rest count, command = 0x0e ∧ data = index :: rest ∧
        (lanes index).value.length ≤ 61 ∧ count.toNat = (lanes index).value.length ∧
        reply = 0x0e :: count :: (lanes index).value) ∧
    (∀ reply, (process lanes command data).value = .ok reply → reply.length ≤ 63 ∧
      ∃ index, asked command data = [index] ∧ lanesOfReply reply = some (lanes index).value) ∧
    (∀ other reply, (process lanes command data).value = .ok reply →
      (process other command data).value = .ok reply →
      ∀ index ∈ asked command data, (other index).value = (lanes index).value) ∧
    (∀ completion, (process lanes command data).value = .error completion ↔
      (command ≠ 0x0e ∧ completion = .invalidCommand) ∨
      (command = 0x0e ∧ data = [] ∧ completion = .requestLengthInvalid) ∨
      ∃ index rest, command = 0x0e ∧ data = index :: rest ∧
        61 < (lanes index).value.length ∧ completion = .requestLengthExceeded) ∧
    (∃ own, (process lanes command data).events =
        (asked command data).flatMap (fun index => (lanes index).events) ++ own ∧
      own.length ≤ 1 ∧ ∀ index count, .replyTooLong index count ∈ own ↔
        (process lanes command data).value = .error .requestLengthExceeded ∧
          data.head? = some index ∧ count = (lanes index).value.length) ∧
    (∀ other, (∀ index ∈ asked command data, other index = lanes index) →
      process other command data = process lanes command data) ∧
    process lanes command (data.take 1) = process lanes command data := by
  have ends := process_ends lanes command data
  refine ⟨ends.ok_iff, fun reply => ends.reply_readable, fun other reply ok okOther => ?_,
    ends.error_iff, ends.events_eq, fun other => process_congr, process_take_one⟩
  obtain ⟨_, index, one, read⟩ := ends.reply_readable ok
  obtain ⟨_, again, two, readOther⟩ := (process_ends other command data).reply_readable okOther
  obtain rfl : index = again := by simpa [one] using two
  intro member memberAsked
  obtain rfl : member = index := by simpa [one] using memberAsked
  exact Option.some.inj (readOther.symm.trans read)

end Request
end SlotLanes
