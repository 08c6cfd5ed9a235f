import SlotLanes.Decimal.Shortest

/-! How the digits of a floating-point number are laid out: where the point stands,
and from which magnitudes on an exponent is written instead. -/
namespace SlotLanes.Decimal

structure Layout where
  tie : Tie
  /-- Least and greatest magnitude of a number without an exponent; `none` if there is
  never one. -/
  positional : Option (Int × Int)
  notANumber : String
  infinite : String

/-- The shortest digits, without an exponent from `0.00001` up to sixteen digits before
the point. -/
def Layout.scientific : Layout := ⟨.toEven, some (-5, 15), "null", "null"⟩

/-- The shortest digits, never with an exponent. -/
def Layout.plain : Layout := ⟨.up, none, "NaN", "inf"⟩

def positionalText (digits : List Char) (place : Int) : List Char :=
  if 0 ≤ place then digits ++ List.replicate place.toNat '0' ++ ['.', '0']
  else
    let places := (-place).toNat
    let padded := List.replicate (places + 1 - digits.length) '0' ++ digits
    padded.take (padded.length - places) ++ '.' :: padded.drop (padded.length - places)

def exponentText (digits : List Char) (magnitude : Int) : List Char :=
  let fraction := digits.drop 1
  digits.take 1 ++ (if fraction.isEmpty then [] else '.' :: fraction) ++
    'e' :: (if magnitude < 0 then '-' else '+') :: (toString magnitude.natAbs).toList

def Layout.finite (layout : Layout) (bits : UInt64) : List Char :=
  let b := Binary.ofBits bits
  if b.significand = 0 then ['0', '.', '0']
  else
    let d := shortest layout.tie b
    let digits := (toString d.digits).toList
    let magnitude := d.place + digits.length - 1
    match layout.positional with
    | none => positionalText digits d.place
    | some (least, greatest) =>
      if least ≤ magnitude ∧ magnitude ≤ greatest then positionalText digits d.place
      else exponentText digits magnitude

def Layout.text (layout : Layout) (x : Float) : String :=
  let bits := x.toBits
  let sign := if bits < 0x8000000000000000 then [] else ['-']
  if x.isNaN then layout.notANumber
  else if x.isInf then String.ofList sign ++ layout.infinite
  else String.ofList (sign ++ layout.finite bits)

end SlotLanes.Decimal
