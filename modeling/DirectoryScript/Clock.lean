import DirectoryScript.Text

namespace DirectoryScript

/-- The nearest whole number to a quotient; a half goes to the even neighbour. -/
def roundedQuotient (numerator denominator : Nat) : Nat :=
  let whole := numerator / denominator
  let twice := 2 * (numerator % denominator)
  if twice < denominator then whole
  else if denominator < twice then whole + 1
  else whole + whole % 2

/-- A quotient with three digits after the point. -/
def thousandths (numerator denominator : Nat) : Text :=
  let n := roundedQuotient (1000 * numerator) denominator
  decimal (n / 1000) ++ '.' :: (decimal (n % 1000)).leftpad 3 '0'

/-- When a run begins and how long it takes, in seconds, and how its log writes the time. -/
structure Clock where
  now : Float := 0
  elapsed : Float := 0
  stamp : Text := []

/-- The first bit of a mantissa, which is not among the 52 bits that hold the others. -/
def leadingBit : Nat := 1 <<< 52

/-- A finite floating point number without its sign, as a numerator and a denominator. -/
def magnitude (x : Float) : Nat × Nat :=
  let bits := x.toBits.toNat
  let exponent := bits / leadingBit % 1 <<< 11
  let fraction := bits % leadingBit
  let mantissa := if exponent = 0 then fraction else fraction + leadingBit
  let scale := max exponent 1
  if 1075 ≤ scale then (mantissa <<< (scale - 1075), 1) else (mantissa, 1 <<< (1075 - scale))

def isNegative (x : Float) : Bool := 1 <<< 63 ≤ x.toBits.toNat

namespace Clock

/-- The whole milliseconds of the time at which a run begins, counted toward zero. -/
def jobId (c : Clock) : Int :=
  let milliseconds := c.now * 1000
  let (numerator, denominator) := magnitude milliseconds
  let n : Int := numerator / denominator
  if isNegative milliseconds then -n else n

def elapsedText (c : Clock) : Text :=
  let (numerator, denominator) := magnitude c.elapsed
  let digits := thousandths numerator denominator
  if isNegative c.elapsed then '-' :: digits else digits

end Clock

end DirectoryScript
