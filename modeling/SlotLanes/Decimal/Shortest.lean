/-! The fewest decimal digits that still name a given binary floating-point number,
found with exact arithmetic: a decimal names the number if it lies among the reals
that round to it, and of all such decimals with the fewest digits the nearest is
taken. -/
namespace SlotLanes.Decimal

/-- A positive number `significand * 2 ^ exponent`. -/
structure Binary where
  significand : Nat
  exponent : Int
  /-- The neighbour below is only half as far away as the one above. -/
  narrowBelow : Bool
  deriving DecidableEq, Repr

def Binary.ofBits (bits : UInt64) : Binary :=
  let stored : Nat := bits.toNat / 0x10000000000000 % 0x800
  let fraction : Nat := bits.toNat % 0x10000000000000
  if stored = 0 then ⟨fraction, -1074, false⟩
  else ⟨0x10000000000000 + fraction, (stored : Int) - 1075, fraction = 0 && 1 < stored⟩

structure Ratio where
  numerator : Nat
  denominator : Nat
  deriving DecidableEq, Repr

namespace Ratio

def scaled (n : Nat) (exponent : Int) : Ratio :=
  if 0 ≤ exponent then ⟨n * Nat.pow 2 exponent.toNat, 1⟩ else ⟨n, Nat.pow 2 (-exponent).toNat⟩

def ble (a b : Ratio) : Bool :=
  a.numerator * b.denominator ≤ b.numerator * a.denominator

def blt (a b : Ratio) : Bool :=
  a.numerator * b.denominator < b.numerator * a.denominator

def decimal (n : Nat) (place : Int) : Ratio :=
  if 0 ≤ place then ⟨n * Nat.pow 10 place.toNat, 1⟩ else ⟨n, Nat.pow 10 (-place).toNat⟩

def quotient (a : Ratio) (place : Int) : Nat :=
  if 0 ≤ place then a.numerator / (a.denominator * Nat.pow 10 place.toNat)
  else a.numerator * Nat.pow 10 (-place).toNat / a.denominator

/-- The `e` with `10 ^ e ≤ a < 10 ^ (e + 1)`. -/
def magnitude (a : Ratio) : Int :=
  if a.denominator ≤ a.numerator then
    ((Nat.toDigits 10 (a.numerator / a.denominator)).length : Int) - 1
  else
    -((Nat.toDigits 10 ((a.denominator - 1) / a.numerator)).length : Int)

end Ratio

/-- The reals that round to a binary number. The ends belong to it if the significand
is even. -/
structure Interval where
  lower : Ratio
  upper : Ratio
  closed : Bool

def Binary.interval (b : Binary) : Interval where
  lower :=
    if b.narrowBelow then .scaled (4 * b.significand - 1) (b.exponent - 2)
    else .scaled (2 * b.significand - 1) (b.exponent - 1)
  upper := .scaled (2 * b.significand + 1) (b.exponent - 1)
  closed := b.significand % 2 = 0

def Interval.contains (i : Interval) (a : Ratio) : Bool :=
  if i.closed then i.lower.ble a && a.ble i.upper else i.lower.blt a && a.blt i.upper

inductive Tie where
  | toEven
  | up
  deriving DecidableEq, Repr

structure Digits where
  digits : Nat
  place : Int
  deriving DecidableEq, Repr

/-- The multiple of `10 ^ place` that names the number, if one of its two neighbours
there does. -/
def onGrid? (b : Binary) (tie : Tie) (place : Int) : Option Nat :=
  let value := Ratio.scaled b.significand b.exponent
  let below := value.quotient place
  let hit := fun n => b.interval.contains (.decimal n place)
  match hit below, hit (below + 1) with
  | false, false => none
  | true, false => some below
  | false, true => some (below + 1)
  | true, true =>
    let middle := Ratio.decimal (10 * below + 5) (place - 1)
    if value.blt middle then some below
    else if middle.blt value then some (below + 1)
    else
      match tie with
      | .toEven => some (if below % 2 = 0 then below else below + 1)
      | .up => some (below + 1)

/-- Drops the zeros at the end; `count` bounds how many there can be. -/
def trimZeros : Nat → Digits → Digits
  | 0, d => d
  | count + 1, d =>
    if d.digits % 10 = 0 then trimZeros count ⟨d.digits / 10, d.place + 1⟩ else d

/-- The coarsest of the grids that give one to seventeen digits and name the number. -/
def shortest (tie : Tie) (b : Binary) : Digits :=
  let magnitude := (Ratio.scaled b.significand b.exponent).magnitude
  let places := (List.range 17).map fun n : Nat => magnitude - n
  let hits := places.filterMap fun place => (onGrid? b tie place).map (Digits.mk · place)
  trimZeros 18 (hits.head?.getD ⟨b.significand, 0⟩)

end SlotLanes.Decimal
