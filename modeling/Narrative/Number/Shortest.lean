import Narrative.Number.Binary64
import Narrative.Text

namespace Narrative.Binary64

/-- Whether `n · 10 ^ p` rounds to the magnitude. -/
def readsBack (m : Nat × Int) (n : Nat) (p : Int) : Bool :=
  round (n * power 10 p) (power 10 (-p)) == m

/-- The distance of `n · 10 ^ p` from the magnitude, over a denominator shared by all `n`. -/
def distance (m : Nat × Int) (n : Nat) (p : Int) : Nat :=
  let (a, b) := fraction m
  let x := n * power 10 p * b
  let y := a * power 10 (-p)
  (x - y) + (y - x)

/-- The greatest `k` with `10 ^ k ≤ num / den`. -/
def floorLogTen (num den : Nat) : Int :=
  let guess : Int := floorLog num den * 30103 / 100000
  let fits (k : Int) : Bool := den * power 10 k ≤ num * power 10 (-k)
  if fits (guess + 1) then guess + 1 else if fits guess then guess else guess - 1

/-- The decimal on the grid `10 ^ p` that reads back, the nearer of the two neighbours. -/
def onGrid (m : Nat × Int) (p : Int) : Option Nat :=
  let (a, b) := fraction m
  let below := a * power 10 (-p) / (b * power 10 p)
  match readsBack m below p, readsBack m (below + 1) p with
  | true, true =>
    if distance m below p < distance m (below + 1) p then some below
    else if distance m (below + 1) p < distance m below p then some (below + 1)
    else if below % 2 = 0 then some below else some (below + 1)
  | true, false => some below
  | false, true => some (below + 1)
  | false, false => none

/-- Tries 1, 2, ... digits; `top` is the place of the first digit. -/
def search (m : Nat × Int) (top : Int) : Nat → Nat → Nat × Int
  | 0, _ => (0, 0)
  | fuel + 1, count =>
    let p := top - count
    match onGrid m p with
    | some n => (n, p)
    | none => search m top fuel (count + 1)

/-- Drops trailing zeros of a decimal. -/
def trim : Nat → Nat × Int → Nat × Int
  | 0, d => d
  | fuel + 1, (n, p) => if n ≠ 0 ∧ n % 10 = 0 then trim fuel (n / 10, p + 1) else (n, p)

/-- The shortest decimal `n · 10 ^ p` that reads back as the magnitude. -/
def shortest (m : Nat × Int) : Nat × Int :=
  if m.1 = 0 then (0, 0)
  else
    let (a, b) := fraction m
    trim 20 (search m (floorLogTen a b) 18 0)

open Text

/-- Digits with a point after the first `whole` of them, padded with zeros on either side. -/
def positional (ds : List Char) (whole : Int) : List Char :=
  if whole ≤ 0 then '0' :: '.' :: (List.replicate (-whole).toNat '0' ++ ds)
  else if ds.length ≤ whole.toNat then
    ds ++ List.replicate (whole.toNat - ds.length) '0' ++ ['.', '0']
  else ds.take whole.toNat ++ '.' :: ds.drop whole.toNat

/-- The digits of an exponent, always after a sign. -/
def exponentText (e : Int) : List Char :=
  (if e < 0 then '-' else '+') :: Decimal.digits e.natAbs

def sign (x : Binary64) : List Char := if x.negative then ['-'] else []

/-- Numbers from `1e-5` up to but not including `1e16` are written with a point, others with an
exponent. -/
def text (x : Binary64) : String :=
  let (n, p) := shortest (x.significand, x.exponent)
  let ds := Decimal.digits n
  let whole : Int := ds.length + p
  let body :=
    if n = 0 ∨ (-5 < whole ∧ whole ≤ 16) then positional ds whole
    else
      let lead := match ds with
        | [] => []
        | d :: [] => [d]
        | d :: more => d :: '.' :: more
      lead ++ 'e' :: exponentText (whole - 1)
  String.ofList (sign x ++ body)

/-- Never an exponent, however long the text. -/
def plainText (x : Binary64) : String :=
  let (n, p) := shortest (x.significand, x.exponent)
  let ds := Decimal.digits n
  String.ofList (sign x ++ positional ds (ds.length + p))

end Narrative.Binary64
