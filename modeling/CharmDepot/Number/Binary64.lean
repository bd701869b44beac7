/-
Floating-point values taken apart: a finite value is a natural number times a power of two, which
is where exact comparison and the choice of decimal digits start.
-/
namespace CharmDepot.Number

/-- A finite, non-negative double: `mantissa * 2 ^ exponent`. -/
structure Binary64 where
  mantissa : Nat
  exponent : Int
  /-- Whether the value below is half as far away as the value above. -/
  narrowBelow : Bool

/-- What the bits of a double stand for, its sign apart. -/
inductive Magnitude
  | nan
  | infinite
  | finite (x : Binary64)

/-- Whether the sign bit is set. -/
def isNegative (x : Float) : Bool :=
  x.toBits >>> 63 == 1

/-- The magnitude of a double. -/
def magnitude (x : Float) : Magnitude :=
  let bits := x.toBits
  let field := ((bits >>> 52) &&& 0x7FF).toNat
  let fraction := (bits &&& 0xFFFFFFFFFFFFF).toNat
  if field = 0x7FF then if fraction = 0 then .infinite else .nan
  else if field = 0 then .finite ⟨fraction, -1074, false⟩
  else .finite ⟨Nat.pow 2 52 + fraction, (field : Int) - 1075, fraction == 0 && 1 < field⟩

/-- The value as a fraction of naturals. -/
def Binary64.fraction (x : Binary64) : Nat × Nat :=
  (x.mantissa * Nat.pow 2 x.exponent.toNat, Nat.pow 2 (-x.exponent).toNat)

/-- The integer that is left when the digits after the point are dropped. -/
def Binary64.truncate (x : Binary64) : Nat :=
  let (num, den) := x.fraction
  num / den

/-- How an integer compares with a finite value of the given sign. -/
def compareInt (n : Int) (negative : Bool) (x : Binary64) : Ordering :=
  let (num, den) := x.fraction
  compare (n * den) (if negative then -(num : Int) else num)

/-- How a double compares with an integer; `none` for a NaN. -/
def compareFloatInt? (x : Float) (n : Int) : Option Ordering :=
  match magnitude x with
  | .nan => none
  | .infinite => some (if isNegative x then .lt else .gt)
  | .finite m => some (compareInt n (isNegative x) m).swap

end CharmDepot.Number
