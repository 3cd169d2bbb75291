-- Numbers as they stand in JSON text: the digits of a numeral, character by character,
-- and the number they mean.
import PipeScript.Json.Value

namespace PipeScript

/-- The digits of a number in a text, in each part the last one first. `exponent` holds whether
its sign is a minus, and its digits. -/
structure Numeral where
  negative : Bool
  whole : List Nat
  fraction : Option (List Nat)
  exponent : Option (Bool × List Nat)
  deriving DecidableEq, Repr, Inhabited

namespace Numeral

/-! ## Reading the digits -/

/-- How far a numeral has been read. -/
inductive Part where
  /-- A minus was read, a digit has to follow. -/
  | sign
  /-- The whole part is a zero; no digit may follow it. -/
  | zero
  | whole
  /-- A point was read, a digit has to follow. -/
  | point
  | fraction
  /-- An exponent mark was read, a sign or a digit has to follow. -/
  | mark
  /-- The sign of the exponent was read, a digit has to follow. -/
  | markSign
  | exponent
  deriving DecidableEq, Repr, Inhabited

/-- What the next character does to a numeral. -/
inductive Next where
  | more (part : Part) (numeral : Numeral)
  /-- The numeral is whole and the character is not part of it. -/
  | done
  | fault
  deriving DecidableEq, Repr, Inhabited

/-- The value of a decimal digit. -/
def digit? (c : Char) : Option Nat :=
  if '0' ≤ c ∧ c ≤ '9' then some (c.toNat - '0'.toNat) else none

def empty (negative : Bool) : Numeral := ⟨negative, [], none, none⟩

/-- The first digit of the whole part. -/
def start (n : Numeral) (d : Nat) : Next :=
  .more (if d = 0 then .zero else .whole) { n with whole := [d] }

/-- What may follow the whole part: a fraction, an exponent, or something else. -/
def afterWhole (n : Numeral) (c : Char) : Next :=
  if c = '.' then .more .point { n with fraction := some [] }
  else if c = 'e' ∨ c = 'E' then .more .mark { n with exponent := some (false, []) }
  else .done

def addWhole (n : Numeral) (d : Nat) : Numeral := { n with whole := d :: n.whole }

def addFraction (n : Numeral) (d : Nat) : Numeral :=
  { n with fraction := n.fraction.map (d :: ·) }

def addExponent (n : Numeral) (d : Nat) : Numeral :=
  { n with exponent := n.exponent.map fun e => (e.1, d :: e.2) }

/-- The numeral after one more character. -/
def next (part : Part) (n : Numeral) (c : Char) : Next :=
  match part, digit? c with
  | .sign, some d => n.start d
  | .sign, none => .fault
  | .zero, some _ => .fault
  | .zero, none => n.afterWhole c
  | .whole, some d => .more .whole (n.addWhole d)
  | .whole, none => n.afterWhole c
  | .point, some d => .more .fraction (n.addFraction d)
  | .point, none => .fault
  | .fraction, some d => .more .fraction (n.addFraction d)
  | .fraction, none =>
    if c = 'e' ∨ c = 'E' then .more .mark { n with exponent := some (false, []) } else .done
  | .mark, some d => .more .exponent (n.addExponent d)
  | .mark, none =>
    if c = '+' ∨ c = '-' then .more .markSign { n with exponent := some (c == '-', []) }
    else .fault
  | .markSign, some d => .more .exponent (n.addExponent d)
  | .markSign, none => .fault
  | .exponent, some d => .more .exponent (n.addExponent d)
  | .exponent, none => .done

/-- Whether a numeral may end where it is. -/
def Part.final : Part → Bool
  | .zero | .whole | .fraction | .exponent => true
  | _ => false

/-! ## The number -/

/-- The value of a list of digits, the last one first. -/
def valueOf (digits : List Nat) : Nat := digits.foldr (fun d acc => 10 * acc + d) 0

/-- The largest significand that is kept while digits are read. -/
def significandLimit : Nat := Nat.pow 2 64 - 1

/-- Takes digits into a significand as long as it stays within 64 bits, and gives back the
digits that were left over. -/
def takeDigits (significand : Nat) : List Nat → Nat × List Nat
  | [] => (significand, [])
  | d :: rest =>
    if 10 * significand + d ≤ significandLimit then takeDigits (10 * significand + d) rest
    else (significand, d :: rest)

/-- The signed value of the exponent. -/
def exponentValue (n : Numeral) : Int :=
  match n.exponent with
  | none => 0
  | some (true, digits) => -(valueOf digits : Int)
  | some (false, digits) => valueOf digits

/-- The significand and the power of ten of a numeral. Whole digits that no longer fit only
raise the power; fraction digits that no longer fit are dropped. -/
def decimal (n : Numeral) : Nat × Int :=
  let (significand, rest) := takeDigits 0 n.whole.reverse
  let fraction := (n.fraction.getD []).reverse
  let (significand, dropped) := takeDigits significand fraction
  (significand, n.exponentValue + rest.length - (fraction.length - dropped.length : Nat))

/-- The binary64 number of a numeral, if it is finite. -/
def float? (n : Numeral) : Option Number :=
  let (significand, power) := n.decimal
  (Binary64.ofDecimal significand power).map fun units => .float ⟨n.negative, units⟩

/-- The number of a numeral, if it is finite. A numeral without fraction and exponent is a
whole number as long as it fits 64 bits, signed below zero; minus zero does not. -/
def number? (n : Numeral) : Option Number :=
  if n.fraction.isSome ∨ n.exponent.isSome then n.float?
  else
    let value := valueOf n.whole
    if n.negative then
      if 0 < value ∧ value ≤ Nat.pow 2 63 then some (.int (-(value : Int))) else n.float?
    else if value ≤ significandLimit then some (.int value) else n.float?

end Numeral

end PipeScript
