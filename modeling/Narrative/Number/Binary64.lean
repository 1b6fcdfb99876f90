import Narrative.Text

namespace Narrative

/-- The number `± significand · 2 ^ exponent`, with the significand below `2 ^ 53`. -/
structure Binary64 where
  negative : Bool
  significand : Nat
  exponent : Int
  deriving DecidableEq, Repr

namespace Binary64

def leastExponent : Int := -1074

def greatestExponent : Int := 971

/-- A power with an exponent that is not negative; one for all others. -/
def power (base : Nat) (exponent : Int) : Nat := Nat.pow base exponent.toNat

/-- The quotient rounded to the nearest natural number, a tie to the even one. -/
def nearest (num den : Nat) : Nat :=
  let q := num / den
  let twice := 2 * (num % den)
  if twice < den then q else if den < twice then q + 1 else if q % 2 = 0 then q else q + 1

/-- The greatest `k` with `den · 2 ^ k ≤ num`, for positive arguments. -/
def floorLog (num den : Nat) : Int :=
  let k : Int := (Nat.log2 num : Int) - (Nat.log2 den : Int)
  if den * power 2 k ≤ num * power 2 (-k) then k else k - 1

/-- The nearest magnitude to `num / den`, as a significand and an exponent. -/
def round (num den : Nat) : Nat × Int :=
  if num = 0 then (0, leastExponent)
  else
    let e := max (floorLog num den - 52) leastExponent
    let q := nearest (num * power 2 (-e)) (den * power 2 e)
    if q = power 2 53 then (power 2 52, e + 1) else (q, e)

/-- A magnitude as a fraction. -/
def fraction (m : Nat × Int) : Nat × Nat := (m.1 * power 2 m.2, power 2 (-m.2))

def times (a b : Nat × Int) : Nat × Int :=
  round ((fraction a).1 * (fraction b).1) ((fraction a).2 * (fraction b).2)

def divided (a b : Nat × Int) : Nat × Int :=
  round ((fraction a).1 * (fraction b).2) ((fraction a).2 * (fraction b).1)

/-- The nearest magnitude to a power of ten. -/
def powerOfTen (n : Nat) : Nat × Int := round (power 10 n) 1

def overflows (m : Nat × Int) : Bool := greatestExponent < m.2

/-- Scales a magnitude by a power of ten, in steps of at most 308 decimal places; none when the
result is too large. -/
def scale : Nat → Nat × Int → Int → Option (Nat × Int)
  | steps, m, exponent =>
    if exponent.natAbs ≤ 308 then
      if 0 ≤ exponent then
        let r := times m (powerOfTen exponent.natAbs)
        if overflows r then none else some r
      else some (divided m (powerOfTen exponent.natAbs))
    else if m.1 = 0 then some m
    else if 0 ≤ exponent then none
    else match steps with
      | 0 => some (0, leastExponent)
      | steps + 1 => scale steps (divided m (powerOfTen 308)) (exponent + 308)

/-- The number `± significand · 10 ^ exponent`; none when it is too large. -/
def ofDecimal (negative : Bool) (significand : Nat) (exponent : Int) : Option Binary64 :=
  (scale 8 (round significand 1) exponent).map fun m => ⟨negative, m.1, m.2⟩

def ofNat (negative : Bool) (n : Nat) : Binary64 :=
  ⟨negative, (round n 1).1, (round n 1).2⟩

/-- The nearest magnitude to `digits · 10 ^ exponent`; none when it is too large. Past some hundred
places there is nothing to compute. -/
def ofScientific? (digits : Nat) (exponent : Int) : Option (Nat × Int) :=
  let places : Int := (Text.Decimal.digits digits).length + exponent
  if digits = 0 ∨ places < -400 then some (0, leastExponent)
  else if 400 < places then none
  else
    let m := round (digits * power 10 exponent) (power 10 (-exponent))
    if overflows m then none else some m

end Binary64

end Narrative
