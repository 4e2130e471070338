/-!
# Decimal numbers

Reading and writing numbers with a fraction. A number is kept with 53 significant binary digits:
reading takes the nearest such number, and writing gives the fewest decimal digits that read back,
of those the nearest.
-/

namespace ConsoleSweep

/-- The number `mantissa * 2 ^ exponent`, or its opposite. The mantissa has at most 53 digits. -/
structure Binary where
  negative : Bool
  mantissa : Nat
  exponent : Int
  deriving DecidableEq, Repr, Inhabited

namespace Binary

/-- The smallest exponent. -/
def minExponent : Int := -1074

/-- The largest exponent. -/
def maxExponent : Int := 971

/-- The smallest number that is too large for a mantissa. -/
def mantissaEnd : Nat := 0x20000000000000

/-- The smallest mantissa of a number that is not close to zero. -/
def mantissaStart : Nat := 0x10000000000000

/-- A fraction divided by a power of a base, as a fraction. -/
def divideByPower (base : Nat) (exponent : Int) (numerator denominator : Nat) : Nat × Nat :=
  if 0 ≤ exponent then (numerator, denominator * base.pow exponent.toNat)
  else (numerator * base.pow (-exponent).toNat, denominator)

/-- A fraction rounded to the nearest number, a half to the even neighbour. -/
def roundEven (numerator denominator : Nat) : Nat :=
  let quotient := numerator / denominator
  let twice := 2 * (numerator % denominator)
  if twice < denominator || (twice == denominator && quotient % 2 == 0) then quotient
  else quotient + 1

/-- The mantissa and exponent nearest to a positive fraction, if it is not too large. -/
def nearest? (numerator denominator : Nat) : Option (Nat × Int) :=
  let least : Int := (Nat.log2 numerator : Int) - (Nat.log2 denominator : Int) - 53
  let (n, d) := divideByPower 2 least numerator denominator
  let exponent := max minExponent (if n / d < mantissaEnd then least else least + 1)
  let (n, d) := divideByPower 2 exponent numerator denominator
  let mantissa := roundEven n d
  let (mantissa, exponent) :=
    if mantissa = mantissaEnd then (mantissaStart, exponent + 1) else (mantissa, exponent)
  if maxExponent < exponent then none else some (mantissa, exponent)

/-- How many decimal places to the left or right of the point a number can have that is neither too
large nor nearest to zero. -/
def places : Int := 400

/-- The number nearest to `digits * 10 ^ exponent`, if it is not too large. -/
def ofDecimal? (negative : Bool) (digits : Nat) (exponent : Int) : Option Binary :=
  let top : Int := ((Nat.toDigits 10 digits).length : Int) + exponent
  if digits = 0 || top < -places then some ⟨negative, 0, minExponent⟩
  else if places < top then none
  else
    let (n, d) := divideByPower 10 (-exponent) digits 1
    (nearest? n d).map fun (mantissa, exponent) => ⟨negative, mantissa, exponent⟩

/-- Whether a fraction is nearer to `mantissa * 2 ^ exponent` than to every other number. The ends
of the range belong to it if the mantissa is even. -/
def isNearest (mantissa : Nat) (exponent : Int) (numerator denominator : Nat) : Bool :=
  let (n, d) := divideByPower 2 (exponent - 2) numerator denominator
  let low := 4 * mantissa - if mantissa = mantissaStart && minExponent < exponent then 1 else 2
  let high := 4 * mantissa + 2
  if mantissa % 2 = 0 then low * d ≤ n && n ≤ high * d else low * d < n && n < high * d

/-- The multiple of `10 ^ power` that reads back as a positive number and is nearest to it, if there
is one. Of two at the same distance it is the larger. -/
def onGrid? (mantissa : Nat) (exponent : Int) (power : Int) : Option Nat :=
  let (n, d) := divideByPower 2 (-exponent) mantissa 1
  let (n, d) := divideByPower 10 power n d
  let below := n / d
  let readsBack (digits : Nat) : Bool :=
    let (n, d) := divideByPower 10 (-power) digits 1
    isNearest mantissa exponent n d
  match readsBack below, readsBack (below + 1) with
  | true, true => some (if 2 * (n % d) < d then below else below + 1)
  | true, false => some below
  | false, true => some (below + 1)
  | false, false => none

/-- The first power of ten, from `power` down, on whose grid a number reads back. -/
def shortestFrom (mantissa : Nat) (exponent : Int) : Nat → Int → Nat × Int
  | 0, power => (0, power)
  | fuel + 1, power =>
    match onGrid? mantissa exponent power with
    | some digits => (digits, power)
    | none => shortestFrom mantissa exponent fuel (power - 1)

/-- The fewest decimal digits that read back as a positive number, and their power of ten. -/
def shortest (mantissa : Nat) (exponent : Int) : Nat × Int :=
  shortestFrom mantissa exponent (2 * places.toNat) places

/-- Digits with a decimal point before the last `n` of them, and a digit on either side of it. -/
def withPoint (digits : List Char) (n : Nat) : List Char :=
  let digits := List.replicate (n + 1 - digits.length) '0' ++ digits
  digits.take (digits.length - n) ++ '.' :: digits.drop (digits.length - n)

/-- A number in decimal digits, without an exponent. -/
def display (b : Binary) : String :=
  let (digits, power) := if b.mantissa = 0 then (0, 0) else shortest b.mantissa b.exponent
  let text := Nat.toDigits 10 digits
  let text :=
    if 0 ≤ power then text ++ List.replicate power.toNat '0' ++ ['.', '0']
    else withPoint text (-power).toNat
  String.ofList ((if b.negative then ['-'] else []) ++ text)

end Binary

/-- The digits at the start of a text, and what follows them. -/
def takeDigits (cs : List Char) : List Char × List Char :=
  (cs.takeWhile Char.isDigit, cs.dropWhile Char.isDigit)

/-- The value of decimal digits. -/
def digitsValue (cs : List Char) : Nat := cs.foldl (fun n c => n * 10 + (c.toNat - '0'.toNat)) 0

/-- Reads a sign that may be missing. -/
def takeSign : List Char → Bool × List Char
  | '-' :: rest => (true, rest)
  | '+' :: rest => (false, rest)
  | rest => (false, rest)

/-- Reads an exponent that may be missing and ends the text. -/
def readExponent? : List Char → Option Int
  | [] => some 0
  | c :: rest =>
    if c == 'e' || c == 'E' then
      let (negative, rest) := takeSign rest
      match takeDigits rest with
      | ([], _) => none
      | (digits, []) => some (if negative then -(digitsValue digits : Int) else digitsValue digits)
      | _ => none
    else none

/-- Reads a number: digits that may have a point among them or at either end, and an exponent. A
number that is too large is none. -/
def Binary.ofChars? (cs : List Char) : Option Binary :=
  let (negative, cs) := takeSign cs
  let (whole, cs) := takeDigits cs
  let (fraction, cs) :=
    match cs with
    | '.' :: rest => takeDigits rest
    | cs => ([], cs)
  if whole = [] ∧ fraction = [] then none
  else
    match readExponent? cs with
    | some exponent =>
      Binary.ofDecimal? negative (digitsValue (whole ++ fraction)) (exponent - fraction.length)
    | none => none

end ConsoleSweep
