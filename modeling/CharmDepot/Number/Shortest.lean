/-
The fewest decimal digits that identify a floating-point value, and how they are laid out.

The reals that round to a value form an interval around it; a decimal identifies the value if it
lies inside. The search tries one digit, two digits, and so on up to seventeen: on the grid of each
length it tests the two neighbours of the value, the first grid with a hit wins, of two hits the
nearer, and an exact tie goes to the even digit.

Layout: positional where the leading digit's exponent is from -4 to 15, always with a point and at
least one digit on either side of it; otherwise one leading digit and a signed exponent of at least
two digits.
-/
import CharmDepot.Number.Binary64
import CharmDepot.Number.Decimal

namespace CharmDepot.Number

/-- A decimal, `digits * 10 ^ exponent`. -/
structure Scaled where
  digits : Nat
  exponent : Int

/-- Compares `a * 10 ^ i` with `n * 2 ^ j` exactly. -/
def compareScaled (a : Nat) (i : Int) (n : Nat) (j : Int) : Ordering :=
  compare (a * Nat.pow 10 i.toNat * Nat.pow 2 (-j).toNat)
    (n * Nat.pow 2 j.toNat * Nat.pow 10 (-i).toNat)

/-- Whether a decimal lies among the reals that round to the value. The ends of the interval belong
to it exactly when the mantissa is even. -/
def Binary64.identifiedBy (x : Binary64) (d : Scaled) : Bool :=
  let low := if x.narrowBelow then 4 * x.mantissa - 1 else 4 * x.mantissa - 2
  let high := 4 * x.mantissa + 2
  let closed := x.mantissa % 2 == 0
  let atLow := compareScaled d.digits d.exponent low (x.exponent - 2)
  let atHigh := compareScaled d.digits d.exponent high (x.exponent - 2)
  (atLow == .gt || (closed && atLow == .eq)) && (atHigh == .lt || (closed && atHigh == .eq))

/-- The number of digits in front of the point (negative for zeros after it): the least `k` with
the value below `10 ^ k`. -/
def Binary64.scale (x : Binary64) : Int :=
  let guess := (((x.mantissa.log2 : Int) + x.exponent) * 30103).fdiv 100000
  let near := [guess - 1, guess, guess + 1, guess + 2]
  (near.find? fun k => compareScaled 1 k x.mantissa x.exponent == .gt).getD (guess + 3)

/-- The decimal with `n` digits that identifies the value, if there is one; the nearer of two, and
the even one of two equally near. -/
def Binary64.candidate? (x : Binary64) (k : Int) (n : Nat) : Option Scaled :=
  let e := k - n
  let (num, den) := x.fraction
  let num := num * Nat.pow 10 (-e).toNat
  let den := den * Nat.pow 10 e.toNat
  let below := num / den
  let lower : Scaled := ⟨below, e⟩
  let upper : Scaled := ⟨below + 1, e⟩
  match x.identifiedBy lower, x.identifiedBy upper with
  | true, true =>
    match compare (2 * num) ((2 * below + 1) * den) with
    | .lt => some lower
    | .gt => some upper
    | .eq => some (if below % 2 = 0 then lower else upper)
  | true, false => some lower
  | false, true => some upper
  | false, false => none

/-- The shortest decimal that identifies a non-zero value. -/
def Binary64.shortest (x : Binary64) : Scaled :=
  let k := x.scale
  let found := (List.range 17).findSome? fun i => x.candidate? k (i + 1)
  found.getD
    ⟨x.mantissa * Nat.pow 2 x.exponent.toNat * Nat.pow 5 (-x.exponent).toNat,
      -(-x.exponent).toNat⟩

/-- A row of digits without the zeros at its end. -/
def dropTrailingZeros (cs : List Char) : List Char :=
  (cs.reverse.dropWhile (· == '0')).reverse

/-- Lays out digits whose point stands after the first `k` of them. -/
def layout (ds : List Char) (k : Int) : List Char :=
  if -4 < k && k ≤ 16 then
    if k ≤ 0 then '0' :: '.' :: List.replicate (-k).toNat '0' ++ ds
    else
      let whole := ds.take k.toNat ++ List.replicate (k.toNat - ds.length) '0'
      let rest := ds.drop k.toNat
      whole ++ '.' :: (if rest.isEmpty then ['0'] else rest)
  else
    let e := k - 1
    let rest := ds.drop 1
    let point := if rest.isEmpty then [] else '.' :: rest
    ds.take 1 ++ point ++ 'e' :: (if e < 0 then '-' else '+') :: padded 2 e.natAbs

/-- The text of a floating-point value. -/
def floatText (x : Float) : String :=
  let sign := if isNegative x then ['-'] else []
  match magnitude x with
  | .nan => "nan"
  | .infinite => String.ofList (sign ++ ['i', 'n', 'f'])
  | .finite m =>
    if m.mantissa = 0 then String.ofList (sign ++ ['0', '.', '0'])
    else
      let d := m.shortest
      let all := decimal d.digits
      let k := (all.length : Int) + d.exponent
      String.ofList (sign ++ layout (dropTrailingZeros all) k)

end CharmDepot.Number
