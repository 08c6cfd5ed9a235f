/-! UTF-8 read from bytes. A sequence stands for a character only if it is the
shortest one for it and the character is a scalar value; anything else is ill-formed
at its first byte. -/
namespace SlotLanes.Text.Utf8

def scalar? (n : Nat) : Option Char :=
  if n.isValidChar then some (Char.ofNat n) else none

def isContinuation (byte : UInt8) : Bool :=
  0x80 ≤ byte && byte < 0xc0

def payload (byte : UInt8) : Nat :=
  byte.toNat % 0x40

def twoBytes? (a b : UInt8) : Option Char :=
  let n := a.toNat % 0x20 * 0x40 + payload b
  if isContinuation b && 0x80 ≤ n then scalar? n else none

def threeBytes? (a b c : UInt8) : Option Char :=
  let n := (a.toNat % 0x10 * 0x40 + payload b) * 0x40 + payload c
  if isContinuation b && isContinuation c && 0x800 ≤ n then scalar? n else none

def fourBytes? (a b c d : UInt8) : Option Char :=
  let n := ((a.toNat % 0x08 * 0x40 + payload b) * 0x40 + payload c) * 0x40 + payload d
  if isContinuation b && isContinuation c && isContinuation d && 0x10000 ≤ n then scalar? n
  else none

/-- The character whose sequence stands in front, with the bytes after it. -/
def next? : List UInt8 → Option (Char × List UInt8)
  | [] => none
  | a :: rest =>
    if a < 0x80 then some (Char.ofNat a.toNat, rest)
    else if a < 0xc0 then none
    else if a < 0xe0 then
      match rest with
      | b :: rest => (twoBytes? a b).map (·, rest)
      | _ => none
    else if a < 0xf0 then
      match rest with
      | b :: c :: rest => (threeBytes? a b c).map (·, rest)
      | _ => none
    else if a < 0xf8 then
      match rest with
      | b :: c :: d :: rest => (fourBytes? a b c d).map (·, rest)
      | _ => none
    else none

theorem length_lt_of_next? {bytes rest : List UInt8} {char : Char}
    (found : next? bytes = some (char, rest)) : rest.length < bytes.length := by
  unfold next? at found
  repeat' split at found
  all_goals simp_all only [Option.some.injEq, Option.map_eq_some_iff, Prod.mk.injEq, reduceCtorEq]
  all_goals first
    | (obtain ⟨_, rfl⟩ := found; simp)
    | (obtain ⟨_, _, _, rfl⟩ := found; simp only [List.length_cons]; omega)

def decode? (bytes : List UInt8) : Option (List Char) :=
  if bytes.isEmpty then some []
  else
    match found : next? bytes with
    | none => none
    | some (char, rest) =>
      have := length_lt_of_next? found
      (decode? rest).map (char :: ·)
termination_by bytes.length

end SlotLanes.Text.Utf8
