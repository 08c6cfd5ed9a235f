import SlotLanes.Proofs.Reading

/-! Where the values of a document end. A list or an object ends with its closing mark and
is read in the same way whatever follows, while a number at the end of the input could still
go on. So a value inside a list or an object is settled by what stands up to its end. -/
namespace SlotLanes.Json

variable {input rest : Bytes}

theorem blanks_delimited (input : Bytes) :
    Delimited (fun other rest => skipBlanks other = rest) input (skipBlanks input) := by
  refine (run_delimited isBlank input).imp ?_
  rintro other rest _ ⟨_, after⟩
  exact after

theorem skipBlanks_selfDelimiting {byte : UInt8} (stands : skipBlanks input = byte :: rest) :
    SelfDelimiting (fun input rest => skipBlanks input = byte :: rest) input rest := by
  have front := blanks_delimited input
  rw [stands] at front
  refine front.closed (.of_byte byte rest) fun blanks byteNext => ?_
  rw [blanks, byteNext]

section Scalars

/-- What is neither a list nor an object, as the reader takes it. -/
def ScalarAt (input : Bytes) (scalar : Scalar) (rest : Bytes) : Prop :=
  readValue none input = .scalar scalar rest

theorem readWord_delimited {value scalar : Scalar} {chars : List Char}
    (read : readWord value chars input = .scalar scalar rest) :
    Delimited (fun input rest => readWord value chars input = .scalar scalar rest) input rest := by
  induction chars generalizing input with
  | nil =>
    cases read
    exact ⟨[], rfl, fun other _ => rfl⟩
  | cons char chars ih =>
    cases input with
    | nil => cases read
    | cons byte more =>
      unfold readWord at read
      split at read
      next same =>
        refine (SelfDelimiting.of_byte byte more).delimited.append (ih read) ?_
        rintro _ middle rest rfl goesOn
        simpa only [readWord, if_pos same] using goesOn
      next => cases read

theorem Node.ofRead_eq_scalar_iff {kind : α → Scalar} {outcome : Except Fault (α × Bytes)}
    {scalar : Scalar} : Node.ofRead kind outcome = .scalar scalar rest ↔
      ∃ value, outcome = .ok (value, rest) ∧ kind value = scalar := by
  cases outcome with
  | error fault => simp [Node.ofRead]
  | ok read =>
    obtain ⟨value, after⟩ := read
    simp [Node.ofRead, and_comm]

theorem scalarAt_delimited {scalar : Scalar} (read : ScalarAt input scalar rest) :
    Delimited (fun input rest => ScalarAt input scalar rest) input rest := by
  unfold ScalarAt readValue at read
  split at read
  next => cases read
  next byte more stands =>
    have front := (skipBlanks_selfDelimiting stands).delimited
    split at read
    case h_1 letter =>
      refine front.append (readWord_delimited read) fun skip word => ?_
      simpa only [ScalarAt, readValue, skip, letter] using word
    case h_2 letter =>
      refine front.append (readWord_delimited read) fun skip word => ?_
      simpa only [ScalarAt, readValue, skip, letter] using word
    case h_3 letter =>
      refine front.append (readWord_delimited read) fun skip word => ?_
      simpa only [ScalarAt, readValue, skip, letter] using word
    case h_4 letter =>
      obtain ⟨text, ends, rfl⟩ := Node.ofRead_eq_scalar_iff.mp read
      refine front.append (readText_selfDelimiting ends).delimited fun skip text => ?_
      simp only [ScalarAt, readValue, skip, letter, text, Node.ofRead]
    case h_5 => cases read
    case h_6 => cases read
    case h_7 =>
      split at read
      next start =>
        obtain ⟨number, ends, rfl⟩ := Node.ofRead_eq_scalar_iff.mp read
        have blanks := blanks_delimited input
        rw [stands] at blanks
        refine blanks.append ((readNumber_delimited ends).imp fun {other rest} same number =>
          And.intro same number) ?_
        rintro other middle rest rfl ⟨same, number⟩
        obtain ⟨others, skip⟩ := List.head?_eq_some_iff.mp same
        rw [skip] at number
        simp only [ScalarAt, readValue, skip, number, Node.ofRead, if_pos start]
      next => cases read

end Scalars

section Lists
variable {close : UInt8} {element : Bytes → α → Bytes → Prop}

/-- How an element is read depends on no more than the byte that follows it. -/
def EndsBeforeNext (element : Bytes → α → Bytes → Prop) : Prop :=
  ∀ input value rest, element input value rest →
    Delimited (fun input rest => element input value rest) input rest

theorem EndsBeforeNext.length_le (ends : EndsBeforeNext element) {value : α}
    (stands : element input value rest) : rest.length ≤ input.length := by
  obtain ⟨taken, rfl, _⟩ := ends input value rest stands
  simp

theorem EndsBeforeNext.after_blanks (ends : EndsBeforeNext element) {first : UInt8}
    {start : Bytes} {value : α} (present : skipBlanks input = first :: start)
    (stands : element (first :: start) value rest) :
    Delimited (fun input rest => ∃ start, skipBlanks input = first :: start ∧
      element (first :: start) value rest) input rest := by
  have blanks := blanks_delimited input
  rw [present] at blanks
  refine blanks.append ((ends _ value rest stands).imp fun same stands => And.intro same stands) ?_
  rintro other middle rest rfl ⟨same, stands⟩
  obtain ⟨start, skip⟩ := List.head?_eq_some_iff.mp same
  exact ⟨start, skip, skip ▸ stands⟩

theorem Following.selfDelimiting (ends : EndsBeforeNext element) {values : List α}
    (follows : Following close element input values rest) :
    SelfDelimiting (fun input rest => Following close element input values rest) input rest := by
  induction follows with
  | close closed =>
    obtain ⟨taken, present, rfl, closes⟩ := skipBlanks_selfDelimiting closed
    exact ⟨taken, present, rfl, fun other => .close (closes other)⟩
  | @more input after start between rest first value values comma present notClosed stands _ ih =>
    have front : Delimited (fun input between => ∃ after start, skipBlanks input = ','.toUInt8 :: after ∧
        skipBlanks after = first :: start ∧ element (first :: start) value between) input between :=
      (skipBlanks_selfDelimiting comma).delimited.append (ends.after_blanks present stands)
        fun comma ⟨start, element⟩ => ⟨_, start, comma, element⟩
    refine front.closed ih ?_
    rintro input between rest ⟨after, start, comma, present, stands⟩ follows
    exact .more comma present notClosed stands follows

theorem Enclosed.selfDelimiting (ends : EndsBeforeNext element) {values : List α}
    (encloses : Enclosed close element input values rest) :
    SelfDelimiting (fun input rest => Enclosed close element input values rest) input rest := by
  cases encloses with
  | empty closed =>
    obtain ⟨taken, present, rfl, closes⟩ := skipBlanks_selfDelimiting closed
    exact ⟨taken, present, rfl, fun other => .empty (closes other)⟩
  | elements present notClosed stands follows =>
    refine (ends.after_blanks present stands).closed (follows.selfDelimiting ends) ?_
    rintro input between rest ⟨start, present, stands⟩ follows
    exact .elements present notClosed stands follows

theorem length_skipBlanks_le (input : Bytes) : (skipBlanks input).length ≤ input.length :=
  List.length_dropWhile_le isBlank input

/-- There are fewer elements than bytes, since each stands behind a comma. -/
theorem Following.length_lt (ends : EndsBeforeNext element) {values : List α}
    (follows : Following close element input values rest) : values.length < input.length := by
  induction follows with
  | @close input rest closed =>
    have blanks := length_skipBlanks_le input
    rw [closed] at blanks
    exact Nat.lt_of_lt_of_le (Nat.succ_pos _) blanks
  | @more input after start between rest first value values comma present notClosed stands follows ih =>
    have blanks := length_skipBlanks_le input
    have moreBlanks := length_skipBlanks_le after
    have taken := ends.length_le stands
    rw [comma] at blanks
    rw [present] at moreBlanks
    simp only [List.length_cons] at *
    omega

theorem Enclosed.length_le (ends : EndsBeforeNext element) {values : List α}
    (encloses : Enclosed close element input values rest) : values.length ≤ input.length := by
  cases encloses with
  | empty => exact Nat.zero_le _
  | elements present notClosed stands follows =>
    have blanks := length_skipBlanks_le input
    have taken := ends.length_le stands
    have few := follows.length_lt ends
    rw [present] at blanks
    simp only [List.length_cons] at *
    omega

end Lists

section Values
variable {reads : Bytes → Value → Bytes → Prop}

theorem memberAt_endsBeforeNext (ends : EndsBeforeNext reads) : EndsBeforeNext (MemberAt reads) := by
  rintro _ _ rest (⟨name, colon, stands⟩)
  rename_i input after start key value
  have back : Delimited (fun after rest => ∃ start, skipBlanks after = ':'.toUInt8 :: start ∧
      reads start value rest) after rest :=
    (skipBlanks_selfDelimiting colon).delimited.append (ends start value rest stands)
      fun colon stands => ⟨_, colon, stands⟩
  have named : Delimited (fun input rest => MemberAt reads ('"'.toUInt8 :: input) (key, value) rest)
      input rest :=
    (readText_selfDelimiting name).delimited.append back
      fun name ⟨start, colon, stands⟩ => .member name colon stands
  refine (SelfDelimiting.of_byte _ input).delimited.append named ?_
  rintro _ middle rest rfl member
  exact member

/-- The rules for a value, given those for what stands inside lists and objects. -/
inductive ValueAt (reads : Bytes → Value → Bytes → Prop) : Bytes → Value → Bytes → Prop
  | scalar {input rest : Bytes} {scalar : Scalar} (stands : ScalarAt input scalar rest) :
      ValueAt reads input (.scalar scalar) rest
  | array {input start rest : Bytes} {values : List Value}
      (opens : skipBlanks input = '['.toUInt8 :: start)
      (encloses : Enclosed ']'.toUInt8 reads start values rest) :
      ValueAt reads input (.array values) rest
  | object {input start rest : Bytes} {entries : List (String × Value)}
      (opens : skipBlanks input = '\x7b'.toUInt8 :: start)
      (encloses : Enclosed '\x7d'.toUInt8 (MemberAt reads) start entries rest) :
      ValueAt reads input (.object (sortEntries entries)) rest

def Value.IsScalar : Value → Prop
  | .scalar _ => True
  | _ => False

theorem ValueAt.selfDelimiting (ends : EndsBeforeNext reads) {value : Value}
    (stands : ValueAt reads input value rest) (bracketed : ¬value.IsScalar) :
    SelfDelimiting (fun input rest => ValueAt reads input value rest) input rest := by
  cases stands with
  | scalar => exact absurd trivial bracketed
  | array opens encloses =>
    exact (skipBlanks_selfDelimiting opens).delimited.closed (encloses.selfDelimiting ends)
      fun opens encloses => .array opens encloses
  | object opens encloses =>
    exact (skipBlanks_selfDelimiting opens).delimited.closed
      (encloses.selfDelimiting (memberAt_endsBeforeNext ends))
      fun opens encloses => .object opens encloses

theorem valueAt_endsBeforeNext (ends : EndsBeforeNext reads) : EndsBeforeNext (ValueAt reads) := by
  intro input value rest stands
  cases stands with
  | scalar token =>
    exact (scalarAt_delimited token).imp fun _ token => .scalar token
  | array opens encloses =>
    exact (ValueAt.array opens encloses).selfDelimiting ends id |>.delimited
  | object opens encloses =>
    exact (ValueAt.object opens encloses).selfDelimiting ends id |>.delimited

end Values

/-- A node of a document that may nest so deep. -/
def NodeAt (depth : Nat) (input : Bytes) (value : Value) (rest : Bytes) : Prop :=
  (readNode depth input).Gives value rest

theorem readWord_cases (value : Scalar) (chars : List Char) (input : Bytes) :
    (∃ rest, readWord value chars input = .scalar value rest) ∨
      ∃ fault, readWord value chars input = .broken fault := by
  induction chars generalizing input with
  | nil => exact .inl ⟨input, rfl⟩
  | cons char chars ih =>
    cases input with
    | nil => exact .inr ⟨_, rfl⟩
    | cons byte more =>
      unfold readWord
      split
      · exact ih more
      · exact .inr ⟨_, rfl⟩

theorem ofRead_cases (kind : α → Scalar) (outcome : Except Fault (α × Bytes)) :
    (∃ scalar rest, Node.ofRead kind outcome = .scalar scalar rest) ∨
      ∃ fault, Node.ofRead kind outcome = .broken fault := by
  cases outcome with
  | error fault => exact .inr ⟨fault, rfl⟩
  | ok read => exact .inl ⟨_, _, rfl⟩

theorem eq_toUInt8_of_ofUInt8 {byte : UInt8} {char : Char} (letter : Char.ofUInt8 byte = char) :
    byte = char.toUInt8 := by
  subst letter
  exact (UInt8.ofNat_toNat).symm

theorem readValue_none_cases (input : Bytes) :
    (∃ scalar rest, readValue none input = .scalar scalar rest) ∨
      ∃ fault, readValue none input = .broken fault := by
  unfold readValue
  split
  next => exact .inr ⟨_, rfl⟩
  next byte rest stands =>
    split
    case h_1 | h_2 | h_3 =>
      exact (readWord_cases _ _ _).imp_left fun ⟨after, word⟩ => ⟨_, after, word⟩
    case h_4 => exact ofRead_cases _ _
    case h_5 | h_6 => exact .inr ⟨_, rfl⟩
    case h_7 =>
      split
      · exact ofRead_cases _ _
      · exact .inr ⟨_, rfl⟩

section Brackets
variable {start : Bytes}

theorem readValue_array (node : Bytes → Node) (opens : skipBlanks input = '['.toUInt8 :: start) :
    readValue (some node) input = .array ('['.toUInt8 :: start) (readItems node start) := by
  rw [readValue, opens]
  rfl

theorem readValue_object (node : Bytes → Node) (opens : skipBlanks input = '\x7b'.toUInt8 :: start) :
    readValue (some node) input = .object ('\x7b'.toUInt8 :: start) (readMembers node start) := by
  rw [readValue, opens]
  rfl

theorem readValue_other (node : Bytes → Node)
    (noList : ∀ start, skipBlanks input ≠ '['.toUInt8 :: start)
    (noObject : ∀ start, skipBlanks input ≠ '\x7b'.toUInt8 :: start) :
    readValue (some node) input = readValue none input := by
  unfold readValue
  split
  next => rfl
  next byte rest stands =>
    split
    case h_5 letter => exact absurd (eq_toUInt8_of_ofUInt8 letter ▸ stands) (noList rest)
    case h_6 letter => exact absurd (eq_toUInt8_of_ofUInt8 letter ▸ stands) (noObject rest)
    all_goals rfl

theorem not_scalarAt_of_list {scalar : Scalar} (opens : skipBlanks input = '['.toUInt8 :: start) :
    ¬ScalarAt input scalar rest := by
  rw [ScalarAt, readValue, opens]
  intro token
  cases token

theorem not_scalarAt_of_object {scalar : Scalar}
    (opens : skipBlanks input = '\x7b'.toUInt8 :: start) : ¬ScalarAt input scalar rest := by
  rw [ScalarAt, readValue, opens]
  intro token
  cases token

end Brackets

theorem Node.gives_array_iff {start : Bytes} {items : Items} {value : Value} :
    (Node.array start items).Gives value rest ↔
      ∃ values, items.Gives values rest ∧ value = .array values := by
  constructor
  · rintro ⟨read, ends⟩
    obtain ⟨values, items, same⟩ := value_array_iff.mp read
    exact ⟨values, ⟨items, ends⟩, same⟩
  · rintro ⟨values, ⟨items, ends⟩, same⟩
    exact ⟨value_array_iff.mpr ⟨values, items, same⟩, ends⟩

theorem Node.gives_object_iff {start : Bytes} {members : Members} {value : Value} :
    (Node.object start members).Gives value rest ↔
      ∃ entries, members.Gives entries rest ∧ value = .object (sortEntries entries) := by
  constructor
  · rintro ⟨read, ends⟩
    obtain ⟨entries, members, same⟩ := value_object_iff.mp read
    exact ⟨entries, ⟨members, ends⟩, same⟩
  · rintro ⟨entries, ⟨members, ends⟩, same⟩
    exact ⟨value_object_iff.mpr ⟨entries, members, same⟩, ends⟩

theorem nodeAt_zero_iff {value : Value} :
    NodeAt 0 input value rest ↔ ∃ scalar, value = .scalar scalar ∧ ScalarAt input scalar rest := by
  constructor
  · intro gives
    rcases readValue_none_cases input with ⟨scalar, after, token⟩ | ⟨fault, broken⟩
    · have whole : (Node.scalar scalar after).Gives value rest := token ▸ gives
      obtain rfl := Except.ok.inj whole.rest_eq
      exact ⟨scalar, (Except.ok.inj whole.value_eq).symm, token⟩
    · have broken : (Node.broken fault).Gives value rest := broken ▸ gives
      exact absurd broken Node.not_gives_broken
  · rintro ⟨scalar, rfl, token⟩
    rw [NodeAt, readNode, token]
    exact ⟨rfl, rfl⟩

theorem nodeAt_succ_iff {depth : Nat} {value : Value} (ends : EndsBeforeNext (NodeAt depth)) :
    NodeAt (depth + 1) input value rest ↔ ValueAt (NodeAt depth) input value rest := by
  rw [NodeAt, readNode]
  by_cases list : ∃ start, skipBlanks input = '['.toUInt8 :: start
  · obtain ⟨start, opens⟩ := list
    rw [readValue_array _ opens, Node.gives_array_iff]
    constructor
    · rintro ⟨values, items, rfl⟩
      exact .array opens (readItems_gives_iff.mp items).2
    · intro stands
      cases stands with
      | scalar token => exact absurd token (not_scalarAt_of_list opens)
      | array other encloses =>
        obtain ⟨_, rfl⟩ := List.cons.inj (opens.symm.trans other)
        exact ⟨_, readItems_gives_iff.mpr ⟨encloses.length_le ends, encloses⟩, rfl⟩
      | object other => cases opens.symm.trans other
  · by_cases object : ∃ start, skipBlanks input = '\x7b'.toUInt8 :: start
    · obtain ⟨start, opens⟩ := object
      rw [readValue_object _ opens, Node.gives_object_iff]
      constructor
      · rintro ⟨entries, members, rfl⟩
        exact .object opens (readMembers_gives_iff.mp members).2
      · intro stands
        cases stands with
        | scalar token => exact absurd token (not_scalarAt_of_object opens)
        | array other => cases opens.symm.trans other
        | object other encloses =>
          obtain ⟨_, rfl⟩ := List.cons.inj (opens.symm.trans other)
          have few := encloses.length_le (memberAt_endsBeforeNext ends)
          exact ⟨_, readMembers_gives_iff.mpr ⟨few, encloses⟩, rfl⟩
    · rw [readValue_other _ (not_exists.mp list) (not_exists.mp object)]
      constructor
      · intro gives
        obtain ⟨scalar, rfl, token⟩ := nodeAt_zero_iff.mp gives
        exact .scalar token
      · intro stands
        cases stands with
        | scalar token => exact nodeAt_zero_iff.mpr ⟨_, rfl, token⟩
        | array opens => exact absurd ⟨_, opens⟩ list
        | object opens => exact absurd ⟨_, opens⟩ object

theorem nodeAt_endsBeforeNext (depth : Nat) : EndsBeforeNext (NodeAt depth) := by
  induction depth with
  | zero =>
    intro input value rest stands
    obtain ⟨scalar, rfl, token⟩ := nodeAt_zero_iff.mp stands
    exact (scalarAt_delimited token).imp fun _ token => nodeAt_zero_iff.mpr ⟨scalar, rfl, token⟩
  | succ depth ih =>
    intro input value rest stands
    exact (valueAt_endsBeforeNext ih input value rest ((nodeAt_succ_iff ih).mp stands)).imp
      fun _ stands => (nodeAt_succ_iff ih).mpr stands

/-- A list or an object is read in the same way whatever follows it. -/
theorem NodeAt.selfDelimiting {depth : Nat} {value : Value} (stands : NodeAt depth input value rest)
    (bracketed : ¬value.IsScalar) :
    SelfDelimiting (fun input rest => NodeAt depth input value rest) input rest := by
  cases depth with
  | zero =>
    obtain ⟨scalar, rfl, _⟩ := nodeAt_zero_iff.mp stands
    exact absurd trivial bracketed
  | succ depth =>
    have ends := nodeAt_endsBeforeNext depth
    obtain ⟨taken, present, rfl, reads⟩ :=
      ((nodeAt_succ_iff ends).mp stands).selfDelimiting ends bracketed
    exact ⟨taken, present, rfl, fun other => (nodeAt_succ_iff ends).mpr (reads other)⟩

end SlotLanes.Json
