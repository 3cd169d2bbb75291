-- The decimal text of a binary64 number: the fewest digits that read back as the same
-- number, and of those the nearest to it.
import PipeScript.Number.Binary64

namespace PipeScript

namespace Binary64

/-! ## The fewest digits -/

/-- A positive number in scientific form: digits without trailing zeros, and the power of
ten at which the first of them stands. -/
structure Scientific where
  digits : List Char
  exponent : Int
  deriving DecidableEq, Repr

/-- The power of ten at the leading digit of a positive magnitude. The shift by 400 places
makes every magnitude at least one. -/
def leadingPower (units : Nat) : Int :=
  (Nat.toDigits 10 (units * Nat.pow 10 400 / one)).length - 401

/-- Whether `n` times ten to the `place` reads as the magnitude `units`: it lies between
the midpoints towards the neighbours, on one of them only if the magnitude is the even one.
Below a power of two the neighbour is only half as far. -/
def readsAs (units n : Nat) (place : Int) : Bool :=
  let step := spacing units
  let below := if 1 < step ∧ units = Nat.pow 2 52 * step then step else 2 * step
  let low := (4 * units - below) * Nat.pow 10 (-place).toNat
  let high := (4 * units + 2 * step) * Nat.pow 10 (-place).toNat
  let value := 4 * n * Nat.pow 10 place.toNat * one
  if units / step % 2 = 0 then low ≤ value && value ≤ high else low < value && value < high

/-- The multiple of ten to the `place` that reads as `units`, if one does. Of the two around
the magnitude the nearer one is tried first, and of two equally near ones the even one. -/
def onGrid (units : Nat) (place : Int) : Option Nat :=
  let num := units * Nat.pow 10 (-place).toNat
  let den := one * Nat.pow 10 place.toNat
  let near := nearest num den
  let far := 2 * (num / den) + 1 - near
  [near, far].find? (readsAs units · place)

/-- The digits of a multiple of ten to the `place`. -/
def Scientific.ofGrid (place : Int) (n : Nat) : Scientific :=
  let digits := Nat.toDigits 10 n
  { digits := (digits.reverse.dropWhile (· = '0')).reverse
    exponent := place + digits.length - 1 }

/-- The shortest form of a positive magnitude. Seventeen digits always suffice. -/
def shortest (units : Nat) : Scientific :=
  let top := leadingPower units
  let found := (List.range 17).findSome? fun (more : Nat) =>
    (onGrid units (top - more)).map (Scientific.ofGrid (top - more))
  found.getD ⟨['0'], 0⟩

/-! ## The text -/

/-- Which powers of ten of the leading digit are written without an exponent. -/
def positional (exponent : Int) : Bool := -5 ≤ exponent && exponent < 16

/-- Positional notation always has a point and a digit after it. -/
def positionalText (s : Scientific) : List Char :=
  if s.exponent < 0 then
    '0' :: '.' :: (List.replicate (-s.exponent - 1).toNat '0' ++ s.digits)
  else
    let count := s.exponent.toNat + 1
    let whole := s.digits.take count ++ List.replicate (count - s.digits.length) '0'
    let fraction := s.digits.drop count
    whole ++ '.' :: (if fraction.isEmpty then ['0'] else fraction)

/-- Exponent notation has one digit before the point and always signs the exponent. -/
def exponentText (s : Scientific) : List Char :=
  let fraction := s.digits.drop 1
  let sign := if s.exponent < 0 then '-' else '+'
  s.digits.take 1 ++ (if fraction.isEmpty then [] else '.' :: fraction)
    ++ 'e' :: sign :: Nat.toDigits 10 s.exponent.natAbs

/-- The text of a magnitude. -/
def magnitudeText (units : Nat) : List Char :=
  if units = 0 then ['0', '.', '0']
  else
    let s := shortest units
    if positional s.exponent then positionalText s else exponentText s

/-- The text of a number; the sign of zero is kept. -/
def text (x : Binary64) : String :=
  String.ofList (if x.negative then '-' :: magnitudeText x.units else magnitudeText x.units)

end Binary64

end PipeScript
