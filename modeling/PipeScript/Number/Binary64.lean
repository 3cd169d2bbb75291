-- Finite binary64 numbers, held exactly. Every one of them is a whole multiple of 2^-1074,
-- so a magnitude is a natural number of such units, and an operation rounds an exact
-- quotient once: to the nearest magnitude, a tie to the even one.

namespace PipeScript

/-- A finite binary64 number: `units` times 2^-1074. Zero has two signs. -/
structure Binary64 where
  negative : Bool
  units : Nat
  deriving DecidableEq, Repr, Inhabited

namespace Binary64

/-! ## Magnitudes -/

/-- The units in the number one. -/
def one : Nat := Nat.pow 2 1074

/-- The first number of units that is too large to be finite. -/
def limit : Nat := Nat.pow 2 2098

/-- The distance between neighbouring magnitudes around `units`: they keep 53 significant
bits, and none lies between two whole units. -/
def spacing (units : Nat) : Nat := Nat.pow 2 (units.log2 - 52)

/-- The whole number nearest to `num / den`, a tie to the even one. -/
def nearest (num den : Nat) : Nat :=
  let whole := num / den
  let rest := num % den
  if 2 * rest < den ∨ (2 * rest = den ∧ whole % 2 = 0) then whole else whole + 1

/-- The magnitude nearest to `num / den` units. -/
def round (num den : Nat) : Nat :=
  let step := spacing (num / den)
  nearest num (den * step) * step

/-- The magnitude nearest to a natural number. -/
def ofNat (n : Nat) : Nat := round (n * one) 1

def mul (a b : Nat) : Nat := round (a * b) one

def div (a b : Nat) : Nat := round (a * one) b

/-! ## Decimal scaling -/

/-- The magnitude nearest to a power of ten. -/
def tenTo (k : Nat) : Nat := ofNat (Nat.pow 10 k)

/-- A magnitude times ten to the `k`, or nothing when the product is not finite. -/
def scaleUp (units k : Nat) : Option Nat :=
  if units = 0 then some 0
  else if 308 < k then none
  else
    let product := mul units (tenTo k)
    if product < limit then some product else none

/-- A magnitude over ten to the `k`. Past 10^308 the division takes two steps, each one
rounded; past 10^616 nothing is left of any significand of 64 bits. -/
def scaleDown (units k : Nat) : Nat :=
  if k ≤ 308 then div units (tenTo k)
  else if k ≤ 616 then div (div units (tenTo 308)) (tenTo (k - 308))
  else 0

/-- The magnitude read from a significand and a power of ten: the significand is rounded
first and then scaled, so two roundings may add up. -/
def ofDecimal (significand : Nat) : Int → Option Nat
  | .ofNat k => scaleUp (ofNat significand) k
  | .negSucc k => some (scaleDown (ofNat significand) (k + 1))

end Binary64

end PipeScript
