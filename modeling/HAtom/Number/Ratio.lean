/-!
# Measured numbers

Measures such as a rate or a number of seconds are computed in numbers of 53 binary digits: after
every step the exact result gives way to the nearest such number. They are shown with a fixed number
of decimal places, rounded from their exact value. Both roundings send a tie to the even neighbour.

* `Ratio` is an exact number, not negative, and `Ratio.nearest` the nearest one of 53 binary digits.
* `Ratio.fixed` writes a number with a fixed number of places.
* `Measure` is a number with a sign.
-/

namespace HAtom

/-- The quotient of two numbers rounded to a whole one; a tie goes to the even neighbour. -/
def roundDiv (n d : Nat) : Nat :=
  let q := n / d
  let r := n % d
  if 2 * r < d then q
  else if d < 2 * r then q + 1
  else if q % 2 == 0 then q
  else q + 1

/-- The number `num / den`. -/
structure Ratio where
  num : Nat
  den : Nat
  den_pos : 0 < den := by decide
  deriving DecidableEq, Repr

namespace Ratio

/-- A whole number. -/
def ofNat (n : Nat) : Ratio := ⟨n, 1, by decide⟩

/-- The number `m * 2 ^ e`. -/
def scaled (m : Nat) (e : Int) : Ratio :=
  match e with
  | .ofNat k => ofNat (m * Nat.pow 2 k)
  | .negSucc k => ⟨m, Nat.pow 2 (k + 1), Nat.two_pow_pos _⟩

/-- The sum of two numbers. -/
def add (a b : Ratio) : Ratio :=
  ⟨a.num * b.den + b.num * a.den, a.den * b.den, Nat.mul_pos a.den_pos b.den_pos⟩

/-- The product of two numbers. -/
def mul (a b : Ratio) : Ratio :=
  ⟨a.num * b.num, a.den * b.den, Nat.mul_pos a.den_pos b.den_pos⟩

/-- A number divided by a positive whole number, or zero when that is zero. -/
def divNat (a : Ratio) (n : Nat) : Ratio :=
  if h : 0 < n then ⟨a.num, a.den * n, Nat.mul_pos a.den_pos h⟩ else ofNat 0

/-- The quotient of two numbers, or zero when the second one is zero. -/
def div (a b : Ratio) : Ratio :=
  if h : 0 < b.num then ⟨a.num * b.den, a.den * b.num, Nat.mul_pos a.den_pos h⟩ else ofNat 0

/-- Whether one number is less than another. -/
def less (a b : Ratio) : Bool := a.num * b.den < b.num * a.den

/-- The whole part. -/
def floor (a : Ratio) : Nat := a.num / a.den

/-- What is left over a multiple of a whole number. -/
def rem (a : Ratio) (n : Nat) : Ratio := ⟨a.num % (n * a.den), a.den, a.den_pos⟩

/-- The number times `2 ^ -e`, rounded to a whole one. -/
def mantissa (a : Ratio) (e : Int) : Nat :=
  match e with
  | .ofNat k => roundDiv a.num (a.den * Nat.pow 2 k)
  | .negSucc k => roundDiv (a.num * Nat.pow 2 (k + 1)) a.den

/-- Whether the number is less than `m * 2 ^ e`. -/
def below (a : Ratio) (m : Nat) (e : Int) : Bool := a.less (scaled m e)

/-- The exponent at which the number has 53 binary digits before the point. -/
def exponent (a : Ratio) : Int :=
  let e : Int := (Nat.log2 a.num : Int) - (Nat.log2 a.den : Int) - 52
  if a.below (Nat.pow 2 52) e then e - 1 else e

/-- The nearest number of 53 binary digits. -/
def nearest (a : Ratio) : Ratio :=
  if a.num == 0 then ofNat 0 else scaled (a.mantissa a.exponent) a.exponent

/-- The digits of a number, at least `width` of them. -/
def padded (width n : Nat) : List Char :=
  let digits := Nat.toDigits 10 n
  List.replicate (width - digits.length) '0' ++ digits

/-- The number with a fixed number of decimal places, of which there is one at least. -/
def fixed (places : Nat) (a : Ratio) : String :=
  let unit := Nat.pow 10 places
  let n := roundDiv (a.num * unit) a.den
  String.ofList (Nat.toDigits 10 (n / unit) ++ '.' :: padded places (n % unit))

end Ratio

/-- A number with a sign; zero may have one, too. -/
structure Measure where
  negative : Bool
  magnitude : Ratio
  deriving DecidableEq, Repr

namespace Measure

/-- A number that is not negative. -/
def ofRatio (r : Ratio) : Measure := ⟨false, r⟩

/-- The number with a fixed number of decimal places. -/
def fixed (places : Nat) (m : Measure) : String :=
  (if m.negative then "-" else "") ++ m.magnitude.fixed places

end Measure

/-! ## Durations -/

/-- The seconds of a time in nanoseconds, as a measured number: the whole seconds and the rest of
the nanoseconds are measured apart and then added. -/
def secondsOf (ns : Nat) : Ratio :=
  let whole := (Ratio.ofNat (ns / 1000000000)).nearest
  let rest := ((Ratio.ofNat (ns % 1000000000)).divNat 1000000000).nearest
  (whole.add rest).nearest

/-- The form in which a time in nanoseconds is shown: whole milliseconds below a second, seconds
with two places below a minute, and minutes with the seconds left over to one place. -/
def durationText (ns : Nat) : String :=
  let seconds := secondsOf ns
  if seconds.less (.ofNat 1) then toString (ns / 1000000) ++ "ms"
  else if seconds.less (.ofNat 60) then seconds.fixed 2 ++ "s"
  else
    let minutes := ((seconds.divNat 60).nearest).floor
    toString minutes ++ "m" ++ (seconds.rem 60).fixed 1 ++ "s"

end HAtom
