import BoardFlash.Time

/-!
# Seconds in single precision

Elapsed times are shown with one decimal of a number of seconds that was
rounded to a significand of twenty-four bits at every step. The rounding is
done here in exact arithmetic: `single` takes a fraction to the nearest such
number, a tie to the even significand, and `oneDecimal` writes a fraction
with one decimal, a tie to the even digit.
-/

namespace BoardFlash

structure Fraction where
  num : Nat
  den : Nat

namespace Fraction

def ofNat (n : Nat) : Fraction := ⟨n, 1⟩

def add (x y : Fraction) : Fraction := ⟨x.num * y.den + y.num * x.den, x.den * y.den⟩

def div (x y : Fraction) : Fraction := ⟨x.num * y.den, x.den * y.num⟩

/-- The nearest whole number; of two, the even one. -/
def nearest (x : Fraction) : Nat :=
  let q := x.num / x.den
  let r := x.num % x.den
  if x.den < 2 * r ∨ (2 * r = x.den ∧ q % 2 = 1) then q + 1 else q

/-- The fraction times `2 ^ e`. -/
def scale (x : Fraction) (e : Int) : Fraction :=
  match e with
  | .ofNat n => ⟨x.num <<< n, x.den⟩
  | .negSucc n => ⟨x.num, x.den <<< (n + 1)⟩

/-- The number of bits in a significand. -/
def precision : Nat := 24

/-- The exponent `e` for which the fraction lies between `2 ^ (precision - 1)`
and `2 ^ precision` times `2 ^ e`. -/
def exponent (x : Fraction) : Int :=
  let e : Int := Int.ofNat x.num.log2 - Int.ofNat x.den.log2 - Int.ofNat precision
  let y := x.scale (-e)
  if y.den <<< precision ≤ y.num then e + 1 else e

/-- The nearest number with a significand of `precision` bits. -/
def single (x : Fraction) : Fraction :=
  if x.num = 0 then ofNat 0
  else
    let e := x.exponent
    (ofNat (x.scale (-e)).nearest).scale e

/-- The fraction with one decimal. -/
def oneDecimal (x : Fraction) : String :=
  let tenths := nearest ⟨10 * x.num, x.den⟩
  s!"{tenths / 10}.{tenths % 10}"

end Fraction

/-- The duration in seconds, in single precision: the whole seconds and the
fraction of one are rounded, then their sum. -/
def Duration.toSingle (d : Duration) : Fraction :=
  let whole := (Fraction.ofNat d.seconds.toNat).single
  let part := ((Fraction.ofNat d.nanos).single.div (.ofNat 1000000000)).single
  (whole.add part).single

end BoardFlash
