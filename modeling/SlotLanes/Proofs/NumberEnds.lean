import SlotLanes.Json.Number
import SlotLanes.Proofs.Delimited

/-! Numbers of a document end where the next byte does not go on with them: before a
different first byte, or at the end of the input, other digits would be read. -/
namespace SlotLanes.Json

variable {input rest : Bytes}

theorem digits_delimited (input : Bytes) :
    Delimited (fun other rest => digitsOf other = digitsOf input ∧ afterDigits other = rest) input
      (afterDigits input) := by
  refine (run_delimited isDigit input).imp ?_
  rintro other rest _ ⟨digits, after⟩
  exact ⟨by rw [digitsOf, digits, digitsOf], after⟩

variable {minus : Bool} {significand : Nat} {exponent : Int} {number : Number}

theorem ofScientific_rest
    (read : Number.ofScientific minus significand exponent input = .ok (number, rest)) :
    rest = input ∧ ∀ other,
      Number.ofScientific minus significand exponent other = .ok (number, other) := by
  unfold Number.ofScientific at read ⊢
  split at read
  next x finite =>
    obtain ⟨rfl, rfl⟩ := Prod.mk.inj (Except.ok.inj read)
    exact ⟨rfl, fun _ => rfl⟩
  next => cases read

theorem readExponentDigits_delimited {shrinks : Bool}
    (read : readExponentDigits minus significand exponent shrinks input = .ok (number, rest)) :
    Delimited (fun input rest =>
      readExponentDigits minus significand exponent shrinks input = .ok (number, rest)) input rest := by
  cases input with
  | nil => cases read
  | cons first more =>
    unfold readExponentDigits at read
    dsimp only at read
    split at read
    next => cases read
    next digit =>
      split at read
      next n fits =>
        obtain ⟨rfl, reads⟩ := ofScientific_rest read
        refine (digits_delimited (first :: more)).imp ?_
        rintro other rest same ⟨digits, rfl⟩
        obtain ⟨others, rfl⟩ := List.head?_eq_some_iff.mp same
        simp only [readExponentDigits, if_neg digit, digits, fits, reads]
      next n left unread passed =>
        split at read
        next => cases read
        next nothing =>
          obtain ⟨rfl, rfl⟩ := Prod.mk.inj (Except.ok.inj read)
          refine (digits_delimited (first :: more)).imp ?_
          rintro other rest same ⟨digits, rfl⟩
          obtain ⟨others, rfl⟩ := List.head?_eq_some_iff.mp same
          simp only [readExponentDigits, if_neg digit, digits, passed, if_neg nothing]

theorem readExponent_delimited
    (read : readExponent minus significand exponent input = .ok (number, rest)) :
    Delimited (fun input rest => readExponent minus significand exponent input = .ok (number, rest))
      input rest := by
  unfold readExponent at read
  split at read
  next shrinks =>
    obtain ⟨more, rfl⟩ := List.head?_eq_some_iff.mp shrinks
    refine (SelfDelimiting.of_byte _ more).delimited.append (readExponentDigits_delimited read) ?_
    rintro _ middle rest rfl digits
    exact digits
  next noMinus =>
    split at read
    next grows =>
      obtain ⟨more, rfl⟩ := List.head?_eq_some_iff.mp grows
      refine (SelfDelimiting.of_byte _ more).delimited.append (readExponentDigits_delimited read) ?_
      rintro _ middle rest rfl digits
      exact digits
    next noPlus =>
      refine (readExponentDigits_delimited read).imp fun {other rest} same digits => ?_
      rw [readExponent, same, if_neg noMinus, if_neg noPlus, digits]

theorem readAfterFraction_delimited
    (read : readAfterFraction minus significand exponent input = .ok (number, rest)) :
    Delimited (fun input rest =>
      readAfterFraction minus significand exponent input = .ok (number, rest)) input rest := by
  cases input with
  | nil =>
    obtain ⟨rfl, _⟩ := ofScientific_rest read
    exact .of_end read
  | cons byte more =>
    unfold readAfterFraction at read
    dsimp only at read
    split at read
    next mark =>
      refine (SelfDelimiting.of_byte byte more).delimited.append (readExponent_delimited read) ?_
      rintro _ middle rest rfl goesOn
      simpa only [readAfterFraction, if_pos mark] using goesOn
    next noMark =>
      obtain ⟨rfl, reads⟩ := ofScientific_rest read
      refine ⟨[], rfl, fun other same => ?_⟩
      obtain ⟨others, rfl⟩ := List.head?_eq_some_iff.mp same
      simp only [List.nil_append, readAfterFraction, if_neg noMark, reads]

theorem readFraction_delimited
    (read : readFraction minus significand exponent input = .ok (number, rest)) :
    Delimited (fun input rest => readFraction minus significand exponent input = .ok (number, rest))
      input rest := by
  unfold readFraction at read
  dsimp only at read
  split at read
  next => cases read
  next some =>
    refine (digits_delimited input).append (readAfterFraction_delimited read) ?_
    rintro other middle rest ⟨digits, rfl⟩ goesOn
    simp only [readFraction, digits, if_neg some]
    exact goesOn

theorem readAfterInteger_delimited {passed : Nat}
    (read : readAfterInteger minus significand passed input = .ok (number, rest)) :
    Delimited (fun input rest => readAfterInteger minus significand passed input = .ok (number, rest))
      input rest := by
  have ends {input : Bytes} (read : (if passed = 0 then .ok (Number.ofInteger minus significand, input)
      else Number.ofScientific minus significand passed input) = .ok (number, rest)) :
      rest = input ∧ ∀ other, (if passed = 0 then .ok (Number.ofInteger minus significand, other)
        else Number.ofScientific minus significand passed other) = .ok (number, other) := by
    split at read
    next none =>
      obtain ⟨rfl, rfl⟩ := Prod.mk.inj (Except.ok.inj read)
      exact ⟨rfl, fun _ => if_pos none⟩
    next some =>
      obtain ⟨rfl, reads⟩ := ofScientific_rest read
      exact ⟨rfl, fun other => by rw [if_neg some, reads]⟩
  cases input with
  | nil =>
    obtain ⟨rfl, _⟩ := ends read
    exact .of_end read
  | cons byte more =>
    unfold readAfterInteger at read
    dsimp only at read
    split at read
    next point =>
      refine (SelfDelimiting.of_byte byte more).delimited.append (readFraction_delimited read) ?_
      rintro _ middle rest rfl goesOn
      simpa only [readAfterInteger, if_pos point] using goesOn
    next noPoint =>
      split at read
      next mark =>
        refine (SelfDelimiting.of_byte byte more).delimited.append (readExponent_delimited read) ?_
        rintro _ middle rest rfl goesOn
        simpa only [readAfterInteger, if_neg noPoint, if_pos mark] using goesOn
      next noMark =>
        obtain ⟨rfl, reads⟩ := ends read
        refine ⟨[], rfl, fun other same => ?_⟩
        obtain ⟨others, rfl⟩ := List.head?_eq_some_iff.mp same
        simp only [List.nil_append, readAfterInteger, if_neg noPoint, if_neg noMark, reads]

theorem length_digitsOf_eq_one_iff {first : UInt8} {second : Bytes} (digit : isDigit first = true) :
    (digitsOf (first :: second)).length = 1 ↔ ¬second.head?.any isDigit := by
  rw [digitsOf, List.takeWhile_cons_of_pos digit]
  cases second with
  | nil => simp
  | cons next more => cases follows : isDigit next <;> simp [follows]

theorem readUnsigned_delimited (read : readUnsigned minus input = .ok (number, rest)) :
    Delimited (fun input rest => readUnsigned minus input = .ok (number, rest)) input rest := by
  cases input with
  | nil => cases read
  | cons first second =>
    unfold readUnsigned at read
    dsimp only at read
    split at read
    next => cases read
    next digit =>
      split at read
      next => cases read
      next noZero =>
        obtain ⟨⟨significand, unread⟩, fits⟩ :
            ∃ pair, absorb maxSignificand 0 (digitsOf (first :: second)) = pair := ⟨_, rfl⟩
        rw [fits] at read
        have whole : Delimited (fun other rest => digitsOf other = digitsOf (first :: second) ∧
            readAfterInteger minus significand unread.length (afterDigits other) = .ok (number, rest))
            (first :: second) rest := by
          refine (digits_delimited (first :: second)).append (readAfterInteger_delimited read) ?_
          rintro other middle rest ⟨digits, rfl⟩ goesOn
          exact ⟨digits, goesOn⟩
        refine whole.imp ?_
        rintro other rest same ⟨digits, goesOn⟩
        obtain ⟨others, rfl⟩ := List.head?_eq_some_iff.mp same
        have isFirst : isDigit first = true := by simpa using digit
        have alone : ¬(first = '0'.toUInt8 ∧ others.head?.any isDigit) := by
          rintro ⟨zero, follows⟩
          refine (length_digitsOf_eq_one_iff isFirst).mp ?_ follows
          rw [digits]
          exact (length_digitsOf_eq_one_iff isFirst).mpr fun more => noZero ⟨zero, more⟩
        simp only [readUnsigned, if_neg digit, if_neg alone, digits, fits, goesOn]

theorem readNumber_delimited (read : readNumber input = .ok (number, rest)) :
    Delimited (fun input rest => readNumber input = .ok (number, rest)) input rest := by
  unfold readNumber at read
  split at read
  next minus =>
    obtain ⟨more, rfl⟩ := List.head?_eq_some_iff.mp minus
    refine (SelfDelimiting.of_byte _ more).delimited.append (readUnsigned_delimited read) ?_
    rintro _ middle rest rfl goesOn
    exact goesOn
  next noMinus =>
    refine (readUnsigned_delimited read).imp fun {other rest} same goesOn => ?_
    rw [readNumber, same, if_neg noMinus, goesOn]

end SlotLanes.Json
