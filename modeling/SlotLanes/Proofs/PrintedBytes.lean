import SlotLanes.Proofs.FirstFailure
import SlotLanes.Proofs.HexTokens
import SlotLanes.Proofs.Printed

/-! Bytes as they are printed. Each byte stands by two digits and a blank keeps it from the next,
so a line is cut at its blanks and each word read as a byte again. The line that a request prints
tells how it ended, and a reply in it tells the lanes that the handler gave. -/
namespace SlotLanes

namespace Text.Numeral
open SlotLanes.Json (IsHexDigit)

variable {letters : List Char} {char : Char} {bytes : List UInt8} {n : Nat}

/-- The words of a line, cut at each blank. -/
def words (line : String) : List String :=
  (line.split ' ').toList.map String.Slice.copy

def hexWord (byte : UInt8) : String :=
  String.ofList (hexPair byte)

theorem not_mem_of_spells (spelled : Spells letters n) (noDigit : digit? 16 char = none) :
    char ∉ letters := by
  intro member
  obtain ⟨digits, alike, _⟩ := spelled
  have each : ∀ letter ∈ letters, ∃ digit, IsHexDigit digit letter :=
    exists_forall₂_iff.mp ⟨digits, alike.flip⟩
  obtain ⟨digit, found⟩ := each char member
  rw [← digit?_eq_some_iff, noDigit] at found
  cases found

theorem behind_of_not_mem {beginning : List Char} (inside : char ∈ beginning)
    (outside : char ∉ letters) : behind beginning letters = letters := by
  have apart : ¬beginning <+: letters := fun front => outside (front.subset inside)
  rw [behind, if_neg apart]

theorem unsigned_of_spells (spelled : Spells letters n) : unsigned letters = letters := by
  have noSign : '+' ∉ letters := not_mem_of_spells spelled rfl
  rw [unsigned, behind_of_not_mem (List.mem_singleton.mpr rfl) noSign, ite_self]

theorem numeral_of_spells (spelled : Spells letters n) :
    numeral (String.ofList letters) = letters := by
  have noMark : 'x' ∉ letters := not_mem_of_spells spelled rfl
  rw [numeral, unmarked, String.toList_ofList, behind_of_not_mem (by simp) noMark,
    unsigned_of_spells spelled]

theorem numeral_marked_of_spells (spelled : Spells letters n) :
    numeral ("0x" ++ String.ofList letters) = letters := by
  have marked : unmarked ("0x" ++ String.ofList letters) = letters := by
    simp [unmarked, behind]
  rw [numeral, marked, unsigned_of_spells spelled]

theorem isHexDigit_hexDigit (small : n < 16) : IsHexDigit n (hexDigit n) := by
  have all : ∀ digit : Fin 16, IsHexDigit digit (hexDigit digit) := by
    unfold IsHexDigit
    decide
  exact all ⟨n, small⟩

theorem spells_hexPair (byte : UInt8) : Spells (hexPair byte) byte.toNat := by
  have small := byte.toNat_lt
  have high : IsHexDigit (byte.toNat / 16) (hexDigit (byte.toNat / 16)) :=
    isHexDigit_hexDigit (by omega)
  have low : IsHexDigit (byte.toNat % 16) (hexDigit (byte.toNat % 16)) :=
    isHexDigit_hexDigit (by omega)
  refine ⟨[byte.toNat / 16, byte.toNat % 16], .cons high (.cons low .nil), ?_⟩
  simp only [List.reverse_cons, List.reverse_nil, List.nil_append, List.singleton_append,
    Nat.ofDigits_cons, Nat.ofDigits_nil]
  omega

theorem hexPairs_plain : ∀ word ∈ bytes.map hexPair, word ≠ [] ∧ ' ' ∉ word := by
  intro word member
  obtain ⟨byte, _, rfl⟩ := List.mem_map.mp member
  exact ⟨List.cons_ne_nil _ _, not_mem_of_spells (spells_hexPair byte) rfl⟩

theorem words_hexWords (present : bytes ≠ []) : words (hexWords bytes) = bytes.map hexWord := by
  have plain : ∀ word ∈ bytes.map hexPair, ' ' ∉ word :=
    fun word member => (hexPairs_plain word member).2
  have some : bytes.map hexPair ≠ [] := by simpa using present
  rw [words, String.toList_split_char, hexWords, String.toList_ofList,
    List.splitOn_intercalate ' ' plain some, List.map_map]
  rfl

end Text.Numeral

namespace CommandLine
open SlotLanes.Text.Numeral

variable {bytes : List UInt8}

theorem readToken_hexWord (byte : UInt8) :
    readToken (hexWord byte) = .ok byte ∧ readToken ("0x" ++ hexWord byte) = .ok byte := by
  have spelled := spells_hexPair byte
  have present : hexPair byte ≠ [] := by simp [hexPair]
  constructor
  · rw [readToken_eq_ok_iff, readHexByte_eq_ok_iff, hexWord, numeral_of_spells spelled]
    exact ⟨present, spelled⟩
  · rw [readToken_eq_ok_iff, readHexByte_eq_ok_iff, hexWord, numeral_marked_of_spells spelled]
    exact ⟨present, spelled⟩

theorem words_read_back (present : bytes ≠ []) :
    List.Forall₂ (fun word byte => readToken word = .ok byte ∧ readToken ("0x" ++ word) = .ok byte)
      (words (hexWords bytes)) bytes := by
  rw [words_hexWords present, List.forall₂_map_left_iff, List.forall₂_same]
  exact fun byte _ => readToken_hexWord byte

theorem hexPair_injective : Function.Injective hexPair := by
  intro byte other same
  have read := (readToken_hexWord byte).1
  rw [hexWord, same] at read
  exact Except.ok.inj (read.symm.trans (readToken_hexWord other).1)

theorem hexWords_injective : Function.Injective hexWords := by
  intro bytes others same
  have pairs := eq_of_intercalate_eq hexPairs_plain hexPairs_plain (String.ofList_injective same)
  exact List.map_injective_iff.mpr hexPair_injective pairs

theorem hexByte_injective : Function.Injective hexByte := by
  intro byte other same
  have letters := congrArg String.toList same
  simp only [hexByte, String.toList_append, String.toList_ofList] at letters
  exact hexPair_injective (List.append_cancel_left letters)

/-- A line with a reply is longer than one without. -/
theorem replyLine_ok_ne_error (reply : List UInt8) (completion : Ipmi.Completion) :
    replyLine (.ok reply) ≠ replyLine (.error completion) := by
  intro same
  have long : 8 ≤ (replyLine (.ok reply)).length := by
    rw [replyLine, String.length_append]
    exact Nat.le_add_right 8 _
  have short : (replyLine (.error completion)).length = 7 := by cases completion <;> rfl
  rw [same] at long
  omega

theorem byte_injective : Function.Injective Ipmi.Completion.byte := by
  intro completion other same
  have found := Ipmi.Completion.ofByte?_byte completion
  rw [same, Ipmi.Completion.ofByte?_byte] at found
  exact (Option.some.inj found).symm

theorem replyLine_injective : Function.Injective replyLine := by
  intro reply other same
  cases reply with
  | ok bytes =>
    cases other with
    | ok others => rw [hexWords_injective (String.append_right_inj _ |>.mp same)]
    | error completion => exact absurd same (replyLine_ok_ne_error bytes completion)
  | error completion =>
    cases other with
    | ok others => exact absurd same.symm (replyLine_ok_ne_error others completion)
    | error reason =>
      have bytes := hexByte_injective (String.append_right_inj _ |>.mp same)
      rw [byte_injective bytes]

/-- A line on which the program answers a request with this reply, and the lanes that the handler
gave for the slot in question. -/
inductive Replies (files : Files) (line : List String) : List UInt8 → List UInt8 → Prop
  | reply {path : String} {verbose : Bool} {tokens : List String} {handler : Handler}
      {command index : UInt8} {data reply : List UInt8}
      (asks : Arguments.parse line = .ok ⟨path, verbose, .request tokens⟩)
      (makes : Makes files path handler) (spelled : Spelled tokens (command :: data))
      (asked : Request.asked command data = [index])
      (replied : (Request.process (handler.lanes files) command data).value = .ok reply) :
      Replies files line reply (handler.lanes files index).value

variable {files other : Files} {line otherLine : List String} {reply lanes : List UInt8}

theorem Replies.readable (replies : Replies files line reply lanes) :
    Ipmi.lanesOfReply reply = some lanes := by
  cases replies with
  | reply asks makes spelled asked replied =>
    obtain ⟨_, index, same, read⟩ := (Request.process_ends _ _ _).reply_readable replied
    obtain rfl : _ = index := by simpa [asked] using same
    exact read

theorem Replies.printed (replies : Replies files line reply lanes) :
    (run files line).value = .printed (replyLine (.ok reply)) := by
  cases replies with
  | reply asks makes spelled asked replied => rw [run_of_spelled asks makes spelled, replied]

theorem not_replyMark_error (completion : Ipmi.Completion) :
    ¬"cc=0x00 ".toList <+: (replyLine (.error completion) ++ "\n").toList := by
  cases completion <;> decide

theorem exists_replies {path : String} {verbose : Bool} {tokens : List String}
    (asks : Arguments.parse line = .ok ⟨path, verbose, .request tokens⟩)
    (marked : "cc=0x00 ".toList <+: (run files line).value.stdout.toList) :
    ∃ reply lanes, Replies files line reply lanes ∧
      (run files line).value.stdout = "cc=0x00 " ++ hexWords reply ++ "\n" := by
  rcases run_printed_or_failed asks files with
    ⟨handler, command, data, makes, spelled, printed⟩ | ⟨report, _, failed⟩
  · cases replied : (Request.process (handler.lanes files) command data).value with
    | ok reply =>
      have ends := Request.process_ends (handler.lanes files) command data
      obtain ⟨_, index, asked, _⟩ := ends.reply_readable replied
      refine ⟨reply, _, .reply asks makes spelled asked replied, ?_⟩
      rw [printed, replied]
      rfl
    | error completion =>
      rw [printed, replied] at marked
      exact absurd marked (not_replyMark_error completion)
  · rw [failed] at marked
    cases List.prefix_nil.mp marked

/-- The bytes on a line are read back from its words, each with or without a mark in front, and
no two lists of bytes are printed alike. So where two requests print one reply, on whatever
files, the replies are the same bytes, and the handlers gave the same lanes. -/
theorem printed_reply_tells_lanes :
    (∀ bytes : List UInt8, bytes ≠ [] → (words (hexWords bytes)).length = bytes.length ∧
      List.Forall₂ (fun word byte => readToken word = .ok byte ∧ readToken ("0x" ++ word) = .ok byte)
        (words (hexWords bytes)) bytes) ∧
    Function.Injective hexWords ∧
    (∀ files line path verbose tokens,
      Arguments.parse line = .ok ⟨path, verbose, .request tokens⟩ →
      "cc=0x00 ".toList <+: (run files line).value.stdout.toList →
      ∃ reply lanes, Replies files line reply lanes ∧
        (run files line).value.stdout = "cc=0x00 " ++ hexWords reply ++ "\n") ∧
    ∀ files line reply lanes other otherLine otherReply otherLanes,
      Replies files line reply lanes → Replies other otherLine otherReply otherLanes →
      (run other otherLine).value.stdout = (run files line).value.stdout →
      otherReply = reply ∧ otherLanes = lanes := by
  refine ⟨?_, hexWords_injective, fun _ _ _ _ _ asks marked => exists_replies asks marked, ?_⟩
  · intro bytes present
    have back := words_read_back present
    exact ⟨back.length_eq, back⟩
  · intro files line reply lanes other otherLine otherReply otherLanes replies others same
    rw [replies.printed, others.printed] at same
    have lines := (String.append_left_inj "\n").mp same
    obtain rfl : otherReply = reply := Except.ok.inj (replyLine_injective lines)
    exact ⟨rfl, Option.some.inj (others.readable.symm.trans replies.readable)⟩

/-- Whoever prints what a table of three lanes for the slot makes a request print has replied
with these bytes and been given these lanes. -/
theorem printed_reply_of_seven :
    let line := "0e 03 04 04 08"
    let bytes : List UInt8 := [0x0e, 3, 4, 4, 8]
    List.Forall₂ (fun word byte => readToken word = .ok byte ∧ readToken ("0x" ++ word) = .ok byte)
      (words line) bytes ∧
    ∀ other otherLine reply lanes, Replies other otherLine reply lanes →
      (run other otherLine).value.stdout = "cc=0x00 " ++ line ++ "\n" →
      reply = bytes ∧ lanes = [4, 4, 8] := by
  intro line bytes
  have asks : Arguments.parse ["request", "0e", "7"] =
      .ok ⟨Config.defaultPath, false, .request ["0e", "7"]⟩ :=
    parse_request_alone (by decide)
  have makes : Makes tableOfSeven Config.defaultPath (.table Table.defaultPath) :=
    ⟨{}, .inr ⟨rfl, rfl⟩, rfl⟩
  have spelled : Spelled ["0e", "7"] [0x0e, 7] := .cons (by cbv) (.cons (by cbv) .nil)
  obtain ⟨back, _, _, tells⟩ := printed_reply_tells_lanes
  have text : Text.Numeral.hexWords bytes = line := by decide
  have replies : Replies tableOfSeven ["request", "0e", "7"] bytes [4, 4, 8] := by
    have replies := Replies.reply asks makes spelled rfl reply_tableOfSeven
    rwa [lanes_tableOfSeven] at replies
  refine ⟨text ▸ (back bytes (by decide)).2, fun other otherLine reply lanes others same => ?_⟩
  apply tells _ _ _ _ _ _ _ _ replies others
  rw [same, replies.printed]
  rfl

end CommandLine
end SlotLanes
