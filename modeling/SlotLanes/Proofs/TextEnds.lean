import SlotLanes.Json.Text
import SlotLanes.Proofs.Delimited
import SlotLanes.Proofs.Outcome

/-! Strings of a document end with their closing mark. A string that is read to the end is
well-formed throughout, so each character of it ends before the next begins. -/
namespace SlotLanes.Json
open SlotLanes.Text

variable {input rest : Bytes}

theorem next?_selfDelimiting {char : Char} (found : Utf8.next? input = some (char, rest)) :
    SelfDelimiting (fun input rest => Utf8.next? input = some (char, rest)) input rest := by
  unfold Utf8.next? at found
  split at found
  next => cases found
  next a rest =>
    split at found
    next small =>
      cases found
      exact ⟨[a], by simp, rfl, fun other => by simp [Utf8.next?, small]⟩
    next notSmall =>
      split at found
      next => cases found
      next notStray =>
        split at found
        next two =>
          split at found
          next b rest =>
            obtain ⟨_, sequence, same⟩ := Option.map_eq_some_iff.mp found
            cases same
            exact ⟨[a, b], by simp, rfl, fun other => by
              simp [Utf8.next?, notSmall, notStray, two, sequence]⟩
          next => cases found
        next notTwo =>
          split at found
          next three =>
            split at found
            next b c rest =>
              obtain ⟨_, sequence, same⟩ := Option.map_eq_some_iff.mp found
              cases same
              exact ⟨[a, b, c], by simp, rfl, fun other => by
                simp [Utf8.next?, notSmall, notStray, notTwo, three, sequence]⟩
            next => cases found
          next notThree =>
            split at found
            next four =>
              split at found
              next b c d rest =>
                obtain ⟨_, sequence, same⟩ := Option.map_eq_some_iff.mp found
                cases same
                exact ⟨[a, b, c, d], by simp, rfl, fun other => by
                  simp [Utf8.next?, notSmall, notStray, notTwo, notThree, four, sequence]⟩
              next => cases found
            next => cases found

theorem readHex_selfDelimiting {n : Nat} (read : readHex input = .ok (n, rest)) :
    SelfDelimiting (fun input rest => readHex input = .ok (n, rest)) input rest := by
  unfold readHex at read
  split at read
  next a b c d rest =>
    split at read
    next va vb vc vd ha hb hc hd =>
      cases read
      exact ⟨[a, b, c, d], by simp, rfl, fun other => by simp [readHex, *]⟩
    next => cases read
  next => cases read

theorem readLowSurrogate_selfDelimiting {high : Nat} {char : Char}
    (read : readLowSurrogate high input = .ok (char, rest)) :
    SelfDelimiting (fun input rest => readLowSurrogate high input = .ok (char, rest)) input rest := by
  unfold readLowSurrogate at read
  split at read
  next => cases read
  next a more =>
    split at read
    next => cases read
    next backslash =>
      split at read
      next => cases read
      next b more =>
        split at read
        next => cases read
        next letter =>
          obtain ⟨⟨low, after⟩, hex, read⟩ := bind_eq_ok_iff.mp read
          dsimp only at read
          split at read
          next isLow =>
            obtain ⟨rfl, rfl⟩ := Prod.mk.inj (Except.ok.inj read)
            obtain ⟨taken, _, rfl, reads⟩ := readHex_selfDelimiting hex
            refine ⟨a :: b :: taken, by simp, rfl, fun other => ?_⟩
            simp only [List.cons_append, readLowSurrogate, if_neg backslash, if_neg letter, reads other]
            exact if_pos isLow
          next => cases read

theorem readUnicodeEscape_selfDelimiting {char : Char}
    (read : readUnicodeEscape input = .ok (char, rest)) :
    SelfDelimiting (fun input rest => readUnicodeEscape input = .ok (char, rest)) input rest := by
  unfold readUnicodeEscape at read
  obtain ⟨⟨n, after⟩, hex, read⟩ := bind_eq_ok_iff.mp read
  have front := (readHex_selfDelimiting hex).delimited
  dsimp only at read
  split at read
  next => cases read
  next notLow =>
    split at read
    next high =>
      refine front.closed (readLowSurrogate_selfDelimiting read) fun {input middle rest} hex low => ?_
      simp only [readUnicodeEscape, hex, bind, Except.bind, notLow, high, low]
      rfl
    next notHigh =>
      cases read
      obtain ⟨taken, some, rfl, reads⟩ := readHex_selfDelimiting hex
      refine ⟨taken, some, rfl, fun other => ?_⟩
      simp only [readUnicodeEscape, reads other, bind, Except.bind, notLow, notHigh]
      rfl

theorem readEscape_selfDelimiting {char : Char} (read : readEscape input = .ok (char, rest)) :
    SelfDelimiting (fun input rest => readEscape input = .ok (char, rest)) input rest := by
  unfold readEscape at read
  split at read
  next => cases read
  next byte after =>
    split at read
    case h_9 letter =>
      obtain ⟨taken, _, rfl, reads⟩ := readUnicodeEscape_selfDelimiting read
      refine ⟨byte :: taken, by simp, rfl, fun other => ?_⟩
      simp only [List.cons_append, readEscape, letter, reads other]
    case h_10 => cases read
    all_goals
      rename_i letter
      cases read
      refine ⟨[byte], by simp, rfl, fun other => ?_⟩
      simp only [List.cons_append, readEscape, letter, List.nil_append]

theorem prependPart_eq_ok_iff {part : Part} {read : Except Fault (List Part × Bytes)}
    {parts : List Part} : prependPart part read = .ok (parts, rest) ↔
      ∃ others, read = .ok (others, rest) ∧ parts = part :: others := by
  cases read with
  | error fault => simp [prependPart, Except.map]
  | ok found =>
    obtain ⟨others, after⟩ := found
    simp only [prependPart, Except.map, Except.ok.injEq, Prod.mk.injEq]
    exact ⟨fun ⟨same, ends⟩ => ⟨others, ⟨rfl, ends⟩, same.symm⟩,
      fun ⟨_, ⟨same, ends⟩, first⟩ => ⟨by rw [first, same], ends⟩⟩

/-- The bytes up to and with a closing mark, and the parts that they stand for. -/
def Spells (taken : Bytes) (parts : List Part) : Prop :=
  ∀ other count, taken.length ≤ count → readPartsWithin count (taken ++ other) = .ok (parts, other)

theorem spells_quote : Spells ['"'.toUInt8] [] := by
  intro other count enough
  obtain ⟨count, rfl⟩ := Nat.exists_eq_succ_of_ne_zero (Nat.ne_zero_of_lt enough)
  rw [List.singleton_append, readPartsWithin, if_pos rfl]

theorem Spells.prepend {front back : Bytes} {part : Part} {parts : List Part} (present : front ≠ [])
    (step : ∀ count other, readPartsWithin (count + 1) (front ++ other) =
      prependPart part (readPartsWithin count other))
    (spells : Spells back parts) : Spells (front ++ back) (part :: parts) := by
  intro other count enough
  have taken : 0 < front.length := List.length_pos_iff.mpr present
  rw [List.length_append] at enough
  obtain ⟨count, rfl⟩ := Nat.exists_eq_succ_of_ne_zero (show count ≠ 0 by omega)
  rw [List.append_assoc, step, prependPart_eq_ok_iff]
  exact ⟨parts, spells other count (by omega), rfl⟩

theorem readPartsWithin_escape (count : Nat) {char : Char}
    (escape : readEscape input = .ok (char, rest)) :
    readPartsWithin (count + 1) ('\\'.toUInt8 :: input) =
      prependPart (.char char) (readPartsWithin count rest) := by
  have noQuote : ¬ '\\'.toUInt8 = '"'.toUInt8 := by decide
  rw [readPartsWithin, if_neg noQuote, if_pos rfl]
  simp only [escape]

theorem readPartsWithin_char (count : Nat) {byte : UInt8} {char : Char}
    (noQuote : byte ≠ '"'.toUInt8) (noEscape : byte ≠ '\\'.toUInt8) (noControl : ¬byte < 0x20)
    (found : Utf8.next? (byte :: input) = some (char, rest)) :
    readPartsWithin (count + 1) (byte :: input) =
      prependPart (.char char) (readPartsWithin count rest) := by
  rw [readPartsWithin, if_neg noQuote, if_neg noEscape, if_neg noControl]
  simp only [found]

theorem exists_spells_of_read {count : Nat} {parts : List Part}
    (read : readPartsWithin count input = .ok (parts, rest))
    (whole : ∀ part ∈ parts, part.char?.isSome) :
    ∃ taken, taken ≠ [] ∧ input = taken ++ rest ∧ Spells taken parts := by
  induction count generalizing input parts with
  | zero => simp [readPartsWithin] at read
  | succ count ih =>
    unfold readPartsWithin at read
    split at read
    next => contradiction
    next => cases read
    next _ byte more same =>
      cases same
      split at read
      next quote =>
        cases read
        exact ⟨[byte], by simp, rfl, quote ▸ spells_quote⟩
      next noQuote =>
        split at read
        next backslash =>
          split at read
          next => cases read
          next char after escape =>
            obtain ⟨others, next, rfl⟩ := prependPart_eq_ok_iff.mp read
            obtain ⟨front, _, rfl, escapes⟩ := readEscape_selfDelimiting escape
            obtain ⟨back, _, rfl, spells⟩ := ih next fun part member => whole part (by simp [member])
            refine ⟨(byte :: front) ++ back, by simp, by simp, spells.prepend (by simp) ?_⟩
            intro count other
            rw [backslash]
            exact readPartsWithin_escape count (escapes other)
        next noEscape =>
          split at read
          next => cases read
          next noControl =>
            split at read
            next char after found =>
              obtain ⟨others, next, rfl⟩ := prependPart_eq_ok_iff.mp read
              obtain ⟨front, present, same, sequences⟩ := next?_selfDelimiting found
              obtain ⟨back, _, rfl, spells⟩ := ih next fun part member => whole part (by simp [member])
              refine ⟨front ++ back, by simp [present], by rw [same, List.append_assoc],
                spells.prepend present ?_⟩
              intro count other
              obtain ⟨first, more, rfl⟩ := List.exists_cons_of_ne_nil present
              obtain ⟨rfl, _⟩ := List.cons.inj same
              exact readPartsWithin_char count noQuote noEscape noControl (sequences other)
            next =>
              obtain ⟨others, _, rfl⟩ := prependPart_eq_ok_iff.mp read
              simpa [Part.char?] using whole .stray (by simp)

theorem readText_eq_ok_iff {text : String} :
    readText input = .ok (text, rest) ↔ ∃ parts chars,
      readPartsWithin input.length input = .ok (parts, rest) ∧
        parts.mapM Part.char? = some chars ∧ text = String.ofList chars := by
  rw [readText, bind_eq_ok_iff]
  constructor
  · rintro ⟨⟨parts, after⟩, read, text⟩
    dsimp only at text
    split at text
    next chars known =>
      cases text
      exact ⟨parts, chars, read, known, rfl⟩
    next => cases text
  · rintro ⟨parts, chars, read, known, rfl⟩
    exact ⟨(parts, rest), read, by simp only [known]; rfl⟩

theorem isSome_of_mapM {f : α → Option β} {list : List α} {results : List β}
    (all : list.mapM f = some results) : ∀ item ∈ list, (f item).isSome := by
  induction list generalizing results with
  | nil => simp
  | cons head rest ih =>
    simp only [List.mapM_cons, Option.bind_eq_bind, Option.bind_eq_some_iff] at all
    obtain ⟨first, found, others, more, _⟩ := all
    rw [List.forall_mem_cons]
    exact ⟨by simp [found], ih more⟩

theorem readText_selfDelimiting {text : String} (read : readText input = .ok (text, rest)) :
    SelfDelimiting (fun input rest => readText input = .ok (text, rest)) input rest := by
  obtain ⟨parts, chars, within, known, rfl⟩ := readText_eq_ok_iff.mp read
  obtain ⟨taken, present, rfl, spells⟩ := exists_spells_of_read within (isSome_of_mapM known)
  refine ⟨taken, present, rfl, fun other => ?_⟩
  exact readText_eq_ok_iff.mpr ⟨parts, chars, spells other _ (by simp), known, rfl⟩

end SlotLanes.Json
