import Rendezvous.Struct
import Mathlib.Data.Rat.Floor
import Mathlib.Data.Nat.Log

/-!
# Python floats

`json.loads` reads a number with a fraction or an exponent, and the words `NaN`, `Infinity`
and `-Infinity`, as a Python `float`: an IEEE-754 double. The daemon tests a `node_id` for
truth, compares it with `==`, hashes it into `known_peers` and formats it into a file name with
`str()`; `json.dump` writes a float back with `float.__repr__`.

This module gives those doubles (`PyFloat`), each finite one by its sign and its exact
magnitude, a dyadic rational; `float(s)`'s correctly rounded reading of a decimal (`ofDecimal`,
through `round`, to nearest with halves to even); and `repr` (`PyFloat.repr`): the shortest
decimal that reads back as the same double, laid out as `format_float_short` does in mode `'r'`.

## Honest scope

Among the shortest decimals that read back as a double, `repr` takes the one nearest it, and
of two equally near the one with the even last digit.
-/

namespace Rendezvous

/-- A Python `float`. -/
inductive PyFloat where
  /-- A finite double: its sign and its magnitude, a multiple of `2 ^ -1074` below `2 ^ 1024`. -/
  | finite (neg : Bool) (mag : ℚ)
  /-- `inf` or `-inf`. -/
  | inf (neg : Bool)
  /-- `nan`. -/
  | nan
  deriving DecidableEq, Repr

namespace PyFloat

/-! ### Rounding to a double -/

/-- `⌊log₂ a⌋` of a positive rational. -/
def log2Floor (a : ℚ) : ℤ :=
  if (2 : ℚ) ^ ((a.num.natAbs.log2 : ℤ) - a.den.log2) ≤ a then (a.num.natAbs.log2 : ℤ) - a.den.log2
  else (a.num.natAbs.log2 : ℤ) - a.den.log2 - 1

/-- `⌊log₁₀ a⌋` of a positive rational. -/
def log10Floor (a : ℚ) : ℤ :=
  if (10 : ℚ) ^ ((Nat.log 10 a.num.natAbs : ℤ) - Nat.log 10 a.den) ≤ a then
    (Nat.log 10 a.num.natAbs : ℤ) - Nat.log 10 a.den
  else (Nat.log 10 a.num.natAbs : ℤ) - Nat.log 10 a.den - 1

/-- `x` rounded to an integer, halves to even. -/
def roundEven (x : ℚ) : ℤ :=
  if x - ⌊x⌋ < 1 / 2 then ⌊x⌋
  else if 1 / 2 < x - ⌊x⌋ then ⌊x⌋ + 1
  else if ⌊x⌋ % 2 = 0 then ⌊x⌋ else ⌊x⌋ + 1

/-- The exponent of the last bit of the doubles near the positive `a`: they are spaced
`2 ^ ulpExp a` apart in `a`'s binade, and so are the subnormals below `2 ^ -1022`. -/
def ulpExp (a : ℚ) : ℤ := max (log2Floor a) (-1022) - 52

/-- The double nearest the magnitude `a ≥ 0`, halves to even, with the sign `neg`; past the
largest finite double, an infinity. -/
def round (neg : Bool) (a : ℚ) : PyFloat :=
  if a = 0 then .finite neg 0
  else if (2 : ℚ) ^ 1024 ≤ roundEven (a / 2 ^ ulpExp a) * 2 ^ ulpExp a then .inf neg
  else .finite neg (roundEven (a / 2 ^ ulpExp a) * 2 ^ ulpExp a)

/-- `float(s)` of a JSON number whose digits, fraction included, read `mant` and whose exponent,
less the fraction's length, is `exp`: the decimal `mant * 10 ^ exp`, rounded once. -/
def ofDecimal (neg : Bool) (mant : ℕ) (exp : ℤ) : PyFloat :=
  round neg (mant * (10 : ℚ) ^ exp)

/-! ### Truth and equality -/

/-- `bool(x)`: the zeros are false. -/
def truthy : PyFloat → Bool
  | .finite _ m => m != 0
  | _ => true

/-- The integer a float equals under `==`, if it is a finite whole number. -/
def toInt? : PyFloat → Option ℤ
  | .finite neg m => if m.den = 1 then some (if neg then -m.num else m.num) else none
  | _ => none

/-! ### `repr` -/

/-- The lowest multiple of `step` in the rounding interval `[lo, hi]` of a double, as a
multiple, with the ends when `closed`; and the highest. -/
def multiplesIn (lo hi step : ℚ) (closed : Bool) : ℤ × ℤ :=
  if closed then (⌈lo / step⌉, ⌊hi / step⌋) else (⌊lo / step⌋ + 1, ⌈hi / step⌉ - 1)

/-- The decimal of `k` significant digits that `repr` may print for the positive double `v`:
the multiple of `10 ^ (p - k)` nearest `v` in `v`'s rounding interval `[lo, hi]`, if there is
one, with `10 ^ (p - 1) ≤ v < 10 ^ p`. The answer is that multiple and the exponent `p - k`. -/
def candidate (v lo hi : ℚ) (closed : Bool) (p : ℤ) (k : ℕ) : Option (ℤ × ℤ) :=
  if (multiplesIn lo hi (10 ^ (p - k)) closed).1 ≤ (multiplesIn lo hi (10 ^ (p - k)) closed).2 then
    some (max (multiplesIn lo hi (10 ^ (p - k)) closed).1
      (min (multiplesIn lo hi (10 ^ (p - k)) closed).2 (roundEven (v / 10 ^ (p - k)))), p - k)
  else none

/-- The shortest decimal `c * 10 ^ x` that reads back as the positive double `v`: the first
number of significant digits from 1 to 17 with a candidate. The rounding interval reaches half
way to each neighbouring double, and includes its ends when `v`'s last bit is 0; below a power
of two the neighbour is half as far. -/
def shortest (v : ℚ) : ℤ × ℤ :=
  let m := (v / 2 ^ ulpExp v).num
  let below : ℚ := if m = 2 ^ 52 ∧ -1074 < ulpExp v then 2 ^ (ulpExp v - 2) else 2 ^ (ulpExp v - 1)
  ((List.range' 1 17).findSome? (candidate v (v - below) (v + 2 ^ (ulpExp v - 1)) (m % 2 = 0)
    (log10Floor v + 1))).getD (roundEven (v / 10 ^ (log10Floor v - 16)), log10Floor v - 16)

/-- Python's exponent: a sign and at least two digits (`+16`, `-05`). -/
def expText (x : ℤ) : String :=
  (if x < 0 then "-" else "+") ++ (if x.natAbs < 10 then "0" else "") ++ toString x.natAbs

/-- The text of the decimal `0.ds × 10 ^ decpt`, its digits `ds` without trailing zeros:
positional when `-4 < decpt ≤ 16`, with `.0` after a whole number, else scientific. -/
def formatShort (ds : List Char) (decpt : ℤ) : String :=
  if -4 < decpt ∧ decpt ≤ 16 then
    if decpt ≤ 0 then ⟨'0' :: '.' :: List.replicate (-decpt).toNat '0' ++ ds⟩
    else if decpt.toNat < ds.length then ⟨ds.take decpt.toNat ++ '.' :: ds.drop decpt.toNat⟩
    else ⟨ds ++ List.replicate (decpt.toNat - ds.length) '0' ++ ['.', '0']⟩
  else
    ⟨ds.take 1 ++ (if 1 < ds.length then '.' :: ds.drop 1 else []) ++ 'e' :: (expText (decpt - 1)).data⟩

/-- The digits of a positive integer without its trailing zeros. -/
def significantDigits (c : ℤ) : List Char :=
  ((toString c).data.reverse.dropWhile (· = '0')).reverse

/-- `repr(x)`, which is also `str(x)`. -/
def repr : PyFloat → String
  | .nan => "nan"
  | .inf neg => if neg then "-inf" else "inf"
  | .finite neg m =>
    (if neg then "-" else "") ++
      if m = 0 then "0.0"
      else formatShort (significantDigits (shortest m).1)
        ((toString (shortest m).1).length + (shortest m).2)

/-- How `json.dumps` writes a float (`allow_nan=True`). -/
def jsonText : PyFloat → String
  | .nan => "NaN"
  | .inf neg => if neg then "-Infinity" else "Infinity"
  | x => x.repr

end PyFloat

end Rendezvous
