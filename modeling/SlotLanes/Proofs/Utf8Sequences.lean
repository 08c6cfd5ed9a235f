import Mathlib.Data.Nat.Basic
import SlotLanes.Text.Utf8

/-! UTF-8 written and read back. A character's sequence of one to four bytes is the one that
the reader takes for it: its first byte tells how long it is, and no shorter sequence
stands for the same character. -/
namespace SlotLanes.Text.Utf8

theorem scalar?_toNat (char : Char) : scalar? char.toNat = some char := by
  have valid : char.toNat.isValidChar := char.valid
  rw [scalar?, if_pos valid, Char.ofNat_toNat]

theorem toNat_ofNat_of_lt {n : Nat} (small : n < 256) : (UInt8.ofNat n).toNat = n := by
  rw [UInt8.toNat_ofNat', Nat.mod_eq_of_lt small]

theorem isContinuation_ofNat {n : Nat} (low : n < 64) :
    isContinuation (UInt8.ofNat (n + 128)) = true := by
  have value := toNat_ofNat_of_lt (show n + 128 < 256 by omega)
  have least : (0x80 : UInt8).toNat = 128 := rfl
  have above : (0xc0 : UInt8).toNat = 192 := rfl
  simp only [isContinuation, Bool.and_eq_true, decide_eq_true_eq, UInt8.le_iff_toNat_le,
    UInt8.lt_iff_toNat_lt, value, least, above]
  omega

theorem payload_ofNat {n : Nat} (low : n < 64) : payload (UInt8.ofNat (n + 128)) = n := by
  rw [payload, toNat_ofNat_of_lt (by omega)]
  omega

theorem ofNat_lt_iff {n : Nat} (small : n < 256) (limit : UInt8) :
    UInt8.ofNat n < limit ↔ n < limit.toNat := by
  rw [UInt8.lt_iff_toNat_lt, toNat_ofNat_of_lt small]

theorem twoBytes?_ofNat {n : Nat} {char : Char} (known : scalar? n = some char)
    (two : 0x7f < n) (small : n ≤ 0x7ff) :
    twoBytes? (UInt8.ofNat (n / 64 % 32 + 192)) (UInt8.ofNat (n % 64 + 128)) = some char := by
  have low : n % 64 < 64 := by omega
  rw [twoBytes?, toNat_ofNat_of_lt (by omega), payload_ofNat low, isContinuation_ofNat low]
  have value : (n / 64 % 32 + 192) % 0x20 * 0x40 + n % 64 = n := by omega
  have shortest : decide (0x80 ≤ n) = true := decide_eq_true (by omega)
  simp only [value, shortest, Bool.and_self, if_true, known]

theorem threeBytes?_ofNat {n : Nat} {char : Char} (known : scalar? n = some char)
    (three : 0x7ff < n) (small : n ≤ 0xffff) :
    threeBytes? (UInt8.ofNat (n / 4096 % 16 + 224)) (UInt8.ofNat (n / 64 % 64 + 128))
      (UInt8.ofNat (n % 64 + 128)) = some char := by
  have middle : n / 64 % 64 < 64 := by omega
  have low : n % 64 < 64 := by omega
  rw [threeBytes?, toNat_ofNat_of_lt (by omega), payload_ofNat middle, payload_ofNat low,
    isContinuation_ofNat middle, isContinuation_ofNat low]
  have value : ((n / 4096 % 16 + 224) % 0x10 * 0x40 + n / 64 % 64) * 0x40 + n % 64 = n := by omega
  have shortest : decide (0x800 ≤ n) = true := decide_eq_true (by omega)
  simp only [value, shortest, Bool.and_self, if_true, known]

theorem fourBytes?_ofNat {n : Nat} {char : Char} (known : scalar? n = some char)
    (four : 0xffff < n) (small : n < 0x110000) :
    fourBytes? (UInt8.ofNat (n / 262144 % 8 + 240)) (UInt8.ofNat (n / 4096 % 64 + 128))
      (UInt8.ofNat (n / 64 % 64 + 128)) (UInt8.ofNat (n % 64 + 128)) = some char := by
  have high : n / 4096 % 64 < 64 := by omega
  have middle : n / 64 % 64 < 64 := by omega
  have low : n % 64 < 64 := by omega
  rw [fourBytes?, toNat_ofNat_of_lt (by omega), payload_ofNat high, payload_ofNat middle,
    payload_ofNat low, isContinuation_ofNat high, isContinuation_ofNat middle,
    isContinuation_ofNat low]
  have value : (((n / 262144 % 8 + 240) % 0x08 * 0x40 + n / 4096 % 64) * 0x40 + n / 64 % 64) * 0x40 +
      n % 64 = n := by omega
  have shortest : decide (0x10000 ≤ n) = true := decide_eq_true (by omega)
  simp only [value, shortest, Bool.and_self, if_true, known]

theorem next?_one {n : Nat} (one : n ≤ 0x7f) (rest : List UInt8) :
    next? (UInt8.ofNat n :: rest) = some (Char.ofNat n, rest) := by
  have small : n < 256 := by omega
  have first := (ofNat_lt_iff small 0x80).mpr (show _ < 0x80 by omega)
  unfold next?
  dsimp only
  rw [if_pos first, toNat_ofNat_of_lt small]

section Sequences
variable {n : Nat} {char : Char} (known : scalar? n = some char) (rest : List UInt8)
include known

theorem next?_two (two : 0x7f < n) (small : n ≤ 0x7ff) :
    next? (UInt8.ofNat (n / 64 % 32 + 192) :: UInt8.ofNat (n % 64 + 128) :: rest) =
      some (char, rest) := by
  have first := ofNat_lt_iff (show n / 64 % 32 + 192 < 256 by omega)
  have notOne := (first 0x80).not.mpr (show ¬_ < 0x80 by omega)
  have notInner := (first 0xc0).not.mpr (show ¬_ < 0xc0 by omega)
  have isTwo := (first 0xe0).mpr (show _ < 0xe0 by omega)
  rw [next?, if_neg notOne, if_neg notInner, if_pos isTwo]
  simp only [twoBytes?_ofNat known two small, Option.map_some]

theorem next?_three (three : 0x7ff < n) (small : n ≤ 0xffff) :
    next? (UInt8.ofNat (n / 4096 % 16 + 224) :: UInt8.ofNat (n / 64 % 64 + 128) ::
      UInt8.ofNat (n % 64 + 128) :: rest) = some (char, rest) := by
  have first := ofNat_lt_iff (show n / 4096 % 16 + 224 < 256 by omega)
  have notOne := (first 0x80).not.mpr (show ¬_ < 0x80 by omega)
  have notInner := (first 0xc0).not.mpr (show ¬_ < 0xc0 by omega)
  have notTwo := (first 0xe0).not.mpr (show ¬_ < 0xe0 by omega)
  have isThree := (first 0xf0).mpr (show _ < 0xf0 by omega)
  rw [next?, if_neg notOne, if_neg notInner, if_neg notTwo, if_pos isThree]
  simp only [threeBytes?_ofNat known three small, Option.map_some]

theorem next?_four (four : 0xffff < n) (small : n < 0x110000) :
    next? (UInt8.ofNat (n / 262144 % 8 + 240) :: UInt8.ofNat (n / 4096 % 64 + 128) ::
      UInt8.ofNat (n / 64 % 64 + 128) :: UInt8.ofNat (n % 64 + 128) :: rest) =
      some (char, rest) := by
  have first := ofNat_lt_iff (show n / 262144 % 8 + 240 < 256 by omega)
  have notOne := (first 0x80).not.mpr (show ¬_ < 0x80 by omega)
  have notInner := (first 0xc0).not.mpr (show ¬_ < 0xc0 by omega)
  have notTwo := (first 0xe0).not.mpr (show ¬_ < 0xe0 by omega)
  have notThree := (first 0xf0).not.mpr (show ¬_ < 0xf0 by omega)
  have isFour := (first 0xf8).mpr (show _ < 0xf8 by omega)
  rw [next?, if_neg notOne, if_neg notInner, if_neg notTwo, if_neg notThree, if_pos isFour]
  simp only [fourBytes?_ofNat known four small, Option.map_some]

end Sequences

/-- The UTF-8 sequence of a character stands for it, whatever follows. -/
theorem next?_utf8EncodeChar (char : Char) (rest : List UInt8) :
    next? (String.utf8EncodeChar char ++ rest) = some (char, rest) := by
  have known : scalar? char.val.toNat = some char := scalar?_toNat char
  have same : Char.ofNat char.val.toNat = char := Char.ofNat_toNat char
  have bound : char.val.toNat < 0x110000 := by
    have valid : char.val.toNat.isValidChar := char.valid
    unfold Nat.isValidChar at valid
    omega
  unfold String.utf8EncodeChar
  generalize char.val.toNat = n at *
  dsimp only
  split
  next one => exact same ▸ next?_one one rest
  next notOne =>
    split
    next two => exact next?_two known rest (by omega) two
    next notTwo =>
      split
      next three => exact next?_three known rest (by omega) three
      next notThree => exact next?_four known rest (by omega) bound

/-- The first byte of a sequence is the character itself, or one that no shorter sequence has. -/
theorem utf8EncodeChar_eq_cons (char : Char) :
    ∃ byte more, String.utf8EncodeChar char = byte :: more ∧
      (byte.toNat = char.toNat ∨ 0x7f < char.toNat ∧ 0xc0 ≤ byte.toNat) := by
  unfold String.utf8EncodeChar Char.toNat
  generalize char.val.toNat = n
  dsimp only
  have value {m : Nat} (small : m < 256) := toNat_ofNat_of_lt small
  split
  next one => exact ⟨_, _, rfl, .inl (value (by omega))⟩
  next notOne =>
    split
    next => exact ⟨_, _, rfl, .inr ⟨by omega, by rw [value (by omega)]; omega⟩⟩
    next =>
      split
      next => exact ⟨_, _, rfl, .inr ⟨by omega, by rw [value (by omega)]; omega⟩⟩
      next => exact ⟨_, _, rfl, .inr ⟨by omega, by rw [value (by omega)]; omega⟩⟩

theorem decode?_utf8EncodeChars (chars : List Char) :
    decode? (chars.flatMap String.utf8EncodeChar) = some chars := by
  induction chars with
  | nil => rw [List.flatMap_nil, decode?]; rfl
  | cons char chars ih =>
    have found := next?_utf8EncodeChar char (chars.flatMap String.utf8EncodeChar)
    obtain ⟨byte, more, bytes, _⟩ := utf8EncodeChar_eq_cons char
    rw [List.flatMap_cons, decode?, if_neg (by simp [bytes])]
    split
    next missing => simp [found] at missing
    next first rest given =>
      obtain ⟨rfl, rfl⟩ := Prod.mk.inj (Option.some.inj (found.symm.trans given))
      rw [ih]
      rfl

end SlotLanes.Text.Utf8
