/-!
# Binary64 numbers in exact arithmetic

A finite number is a multiple of the smallest positive one, `2 ^ (-1074)`; `Double.finite` holds the
multiple. A decimal is read by rounding to the nearest such number with at most 53 significant bits,
ties to even, and written with the fewest digits that read back as the same number, the nearest
such digits if there are several, and of two equally near ones the upper.
-/

namespace CdmaCall

/-- A binary64 number: not a number, infinite, or a signed multiple of `2 ^ (-1074)`. -/
inductive Double where
  | nan
  | infinite (negative : Bool)
  | finite (negative : Bool) (units : Nat)
  deriving DecidableEq, Repr, Inhabited

namespace Double

/-- The exponent of the smallest positive number. -/
def unitBits : Nat := 1074

/-- Significant bits of a number. -/
def precision : Nat := 53

/-- `2 ^ n`. -/
def twoPow (n : Nat) : Nat := Nat.pow 2 n

/-- `10 ^ n`. -/
def tenPow (n : Nat) : Nat := Nat.pow 10 n

/-- The number of units at which numbers become infinite. -/
def overflow : Nat := twoPow (1024 + unitBits)

/-- Length in bits. -/
def bitLength (n : Nat) : Nat := if n = 0 then 0 else n.log2 + 1

/-- How many low bits of `n` units lie beyond the precision. -/
def spareBits (n : Nat) : Nat := bitLength n - precision

/-- `num / den` to the nearest integer, ties to even. -/
def divNearest (num den : Nat) : Nat :=
  let q := num / den
  let r := num % den
  if 2 * r < den then q
  else if den < 2 * r then q + 1
  else q + q % 2

/-- The number of units nearest to `num / den`, with at most `precision` significant bits. -/
def roundUnits (num den : Nat) : Nat :=
  let step := twoPow (spareBits (num / den))
  divNearest num (den * step) * step

/-- A magnitude in units with a sign; from `overflow` on it is infinite. -/
def ofUnits (negative : Bool) (units : Nat) : Double :=
  if overflow ≤ units then infinite negative else finite negative units

/-- Number of decimal digits. -/
def digitCount (n : Nat) : Nat := if n = 0 then 0 else (Nat.toDigits 10 n).length

/-- The number nearest to `digits * 10 ^ exponent`. Exponents that lead far beyond the range are
decided without computing the power. -/
def ofDecimal (negative : Bool) (digits : Nat) (exponent : Int) : Double :=
  let top : Int := digitCount digits + exponent
  if digits = 0 ∨ top < -400 then finite negative 0
  else if 400 < top then infinite negative
  else if 0 ≤ exponent then
    ofUnits negative (roundUnits (digits * tenPow exponent.toNat * twoPow unitBits) 1)
  else ofUnits negative (roundUnits (digits * twoPow unitBits) (tenPow (-exponent).toNat))

/-! ### Reading -/

/-- Leading decimal digits, and the rest. -/
def spanDigits (s : List Char) : List Char × List Char :=
  (s.takeWhile Char.isDigit, s.dropWhile Char.isDigit)

/-- The value of decimal digits. -/
def digitsValue (ds : List Char) : Nat := ds.foldl (fun n c => 10 * n + (c.toNat - 48)) 0

/-- An optional sign; `true` is minus. -/
def splitSign : List Char → Bool × List Char
  | '-' :: r => (true, r)
  | '+' :: r => (false, r)
  | r => (false, r)

/-- An exponent part up to the end of the text: nothing, or `e` with a signed number. -/
def exponentPart : List Char → Option Int
  | [] => some 0
  | c :: r =>
    if c == 'e' || c == 'E' then
      let (negative, r) := splitSign r
      if !r.isEmpty && r.all Char.isDigit then
        let n : Int := digitsValue r
        some (if negative then -n else n)
      else none
    else none

/-- Read digits with an optional point and exponent, or the words for infinity and not a number in
any case. -/
def parse (s : String) : Option Double :=
  let (negative, body) := splitSign s.toList
  let word := String.ofList (body.map Char.toLower)
  if word == "inf" || word == "infinity" then some (infinite negative)
  else if word == "nan" then some nan
  else
    let (whole, rest) := spanDigits body
    let (part, rest) := match rest with
      | '.' :: rest => spanDigits rest
      | _ => ([], rest)
    if whole.isEmpty && part.isEmpty then none
    else (exponentPart rest).map fun e =>
      ofDecimal negative (digitsValue (whole ++ part)) (e - part.length)

/-! ### Writing -/

/-- Four times the distances, in units, from a number to the ends of the interval of reals that
round to it. Below a power of two numbers lie twice as close. -/
def quarterGaps (units : Nat) : Nat × Nat :=
  let s := spareBits units
  let up := 2 * twoPow s
  if s ≠ 0 ∧ units = twoPow (s + precision - 1) then (up / 2, up) else (up, up)

/-- Whether a decimal `d * 10 ^ e`, given as `num / den` units, reads back as `units`. -/
def readsBack (units num den : Nat) : Bool :=
  let (down, up) := quarterGaps units
  let even := (units / twoPow (spareBits units)) % 2 == 0
  let low := (4 * units - down) * den
  let high := (4 * units + up) * den
  if even then low ≤ 4 * num && 4 * num ≤ high else low < 4 * num && 4 * num < high

/-- `10 ^ e` units as a fraction. -/
def powerOfTen (e : Int) : Nat × Nat :=
  if 0 ≤ e then (tenPow e.toNat * twoPow unitBits, 1) else (twoPow unitBits, tenPow (-e).toNat)

/-- The position of the decimal point: `10 ^ (p - 1) ≤ x < 10 ^ p`. -/
def pointPosition (units : Nat) : Int :=
  let whole := units / twoPow unitBits
  if whole ≠ 0 then digitCount whole
  else
    -- Scaled by `10 ^ 400` every positive number has a whole part.
    (digitCount (units * tenPow 400 / twoPow unitBits) : Int) - 400

/-- Of the two neighbours of a number on the grid of multiples of `10 ^ e`, the nearer one that
reads back. In a tie it is the upper one. -/
def gridHit (units : Nat) (e : Int) : Option Nat :=
  let (num, den) := powerOfTen e
  let low := units * den / num
  let lowOk := readsBack units (low * num) den
  let highOk := readsBack units ((low + 1) * num) den
  let nearLow := 2 * (units * den) < (2 * low + 1) * num
  if lowOk && (nearLow || !highOk) then some low
  else if highOk then some (low + 1)
  else none

/-- The first grid, from one digit to seventeen, with a number that reads back. -/
def shortestFrom (units : Nat) (p : Int) : Nat → Nat → Nat × Int
  | _, 0 => (0, 0)
  | k, fuel + 1 =>
    match gridHit units (p - k) with
    | some d => (d, p - k)
    | none => shortestFrom units p (k + 1) fuel

/-- The shortest decimal `d * 10 ^ e` that reads back. -/
def shortest (units : Nat) : Nat × Int := shortestFrom units (pointPosition units) 1 17

/-- A decimal `d * 10 ^ e` with a point where it is needed and never an exponent. -/
def positional (d : Nat) (e : Int) : String :=
  let ds := Nat.toDigits 10 d
  if 0 ≤ e then String.ofList (ds ++ List.replicate e.toNat '0')
  else
    let places := (-e).toNat
    let ds := List.replicate (places + 1 - ds.length) '0' ++ ds
    let whole := ds.take (ds.length - places)
    -- The last digits of a shortest decimal can be zeros only where it has one digit too many.
    let part := ((ds.drop (ds.length - places)).reverse.dropWhile (· == '0')).reverse
    String.ofList (if part.isEmpty then whole else whole ++ '.' :: part)

/-- The text of a number. -/
def toText : Double → String
  | nan => "NaN"
  | infinite negative => if negative then "-inf" else "inf"
  | finite negative units =>
    let body := if units = 0 then "0" else let (d, e) := shortest units; positional d e
    if negative then "-" ++ body else body

/-! ### Integers -/

/-- Whether a number counts as true: all but the two zeros do. -/
def isNonzero : Double → Bool
  | finite _ units => units != 0
  | _ => true

/-- The nearest natural number up to `limit`, halves away from zero; what lies beyond an end of the
range becomes that end, and what is no number becomes zero. -/
def toNatClamped (limit : Nat) : Double → Nat
  | nan => 0
  | infinite negative => if negative then 0 else limit
  | finite negative units =>
    if negative then 0 else min limit ((units + twoPow (unitBits - 1)) / twoPow unitBits)

end Double

end CdmaCall
