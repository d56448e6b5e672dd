import FileBroker.Text.Decimal

namespace FileBroker

-- Floating-point numbers of 64 bits, held exactly: a finite one is mantissa times two to its exponent.
inductive Binary64
  | finite (negative : Bool) (mantissa : Nat) (exponent : Int)
  | infinite (negative : Bool)
  | nan
  deriving DecidableEq, Repr

namespace Binary64

def minExponent : Int := -1074
def maxExponent : Int := 971
def mantissaEnd : Nat := 1 <<< 53

-- `n / d` as a whole number of units of `2 ^ e`, with what is left over and in what units.
def scaled (n d : Nat) (e : Int) : Nat × Nat :=
  (n <<< (-e).toNat, d <<< e.toNat)

def roundEven (n d : Nat) : Nat :=
  let q := n / d
  let twice := 2 * (n % d)
  if twice < d then q else if d < twice then q + 1 else q + q % 2

-- The largest exponent at which the mantissa of `n / d` still has all its bits.
def exponentOf (n d : Nat) : Int :=
  let e : Int := max minExponent ((n.log2 : Int) - d.log2 - 53)
  let (n, d) := scaled n d e
  if mantissaEnd ≤ n / d then e + 1 else e

def ofRatio (negative : Bool) (n d : Nat) : Binary64 :=
  if n = 0 then finite negative 0 0 else
  let e := exponentOf n d
  let (n, d) := scaled n d e
  let m := roundEven n d
  let (m, e) := if m = mantissaEnd then (m / 2, e + 1) else (m, e)
  if maxExponent < e then infinite negative else finite negative m e

-- The number `digits * 10 ^ exponent`. Exponents far out of range need no arithmetic.
def ofDecimal (negative : Bool) (digits : Nat) (exponent : Int) : Binary64 :=
  let size : Int := (Nat.toDigits 10 digits).length
  if digits = 0 ∨ size + exponent < -400 then finite negative 0 0
  else if 400 < size + exponent then infinite negative
  else ofRatio negative (digits * Nat.pow 10 exponent.toNat) (Nat.pow 10 (-exponent).toNat)

def isZero : Binary64 → Bool
  | finite _ m _ => m = 0
  | _            => false

def magnitude (m : Nat) (e : Int) : Nat × Nat :=
  (m <<< e.toNat, 1 <<< (-e).toNat)

-- Halves go away from zero. What does not fit is the nearest end, and what is no number is zero.
def roundToNat (limit : Nat) : Binary64 → Nat
  | finite false m e =>
    let (n, d) := magnitude m e
    min limit ((2 * n + d) / (2 * d))
  | infinite false   => limit
  | _                => 0

-- The decimals `c * 10 ^ p` that are read back as the number with mantissa `m` and exponent `e`.
def readsBack (m : Nat) (e : Int) (c : Nat) (p : Int) : Bool :=
  ofDecimal false c p == finite false m e

def distance (n d c : Nat) (p : Int) : Nat :=
  let left := c * Nat.pow 10 p.toNat * d
  let right := n * Nat.pow 10 (-p).toNat
  (left - right) + (right - left)

-- How many digits `n / d` has before the point, or minus the zeros after it.
def pointOf (n d : Nat) : Int :=
  if d ≤ n then (Nat.toDigits 10 (n / d)).length
  else -(leadingZeros 400 (n * 10))
where
  leadingZeros : Nat → Nat → Nat
    | 0,         _ => 0
    | bound + 1, n => if d ≤ n then 0 else leadingZeros bound (n * 10) + 1

-- Tries one digit, then two, and so on. Of two candidates the nearer one wins.
def shortest (m : Nat) (e : Int) : Nat × Int :=
  let (n, d) := magnitude m e
  go n d (pointOf n d) 17 1
where
  go (n d : Nat) (point : Int) : Nat → Nat → Nat × Int
    | 0,        _     => (0, 0)
    | left + 1, count =>
      let p := point - count
      let c := n * Nat.pow 10 (-p).toNat / (d * Nat.pow 10 p.toNat)
      match readsBack m e c p, readsBack m e (c + 1) p with
      | true,  true  => (if distance n d c p ≤ distance n d (c + 1) p then c else c + 1, p)
      | true,  false => (c, p)
      | false, true  => (c + 1, p)
      | false, false => go n d point left (count + 1)

-- A decimal without an exponent.
def positional (c : Nat) (p : Int) : List Char :=
  let digits := Nat.toDigits 10 c
  if 0 ≤ p then digits ++ List.replicate p.toNat '0' else
  let places := (-p).toNat
  let padded := List.replicate (places + 1 - digits.length) '0' ++ digits
  let whole := padded.take (padded.length - places)
  match ((padded.drop (padded.length - places)).reverse.dropWhile (· = '0')).reverse with
  | []       => whole
  | fraction => whole ++ '.' :: fraction

def render : Binary64 → List Char
  | nan                 => "NaN".toList
  | infinite negative   => sign negative ++ "inf".toList
  | finite negative m e =>
    if m = 0 then sign negative ++ ['0'] else
    let (c, p) := shortest m e
    sign negative ++ positional c p
where
  sign (negative : Bool) : List Char := if negative then ['-'] else []

-- A decimal literal: digits, perhaps with a point among them, and an exponent after an `e`.
def parse? (text : List Char) : Option Binary64 :=
  match text with
  | '-' :: rest => unsigned true rest
  | '+' :: rest => unsigned false rest
  | rest        => unsigned false rest
where
  unsigned (negative : Bool) (text : List Char) : Option Binary64 :=
    let word := (String.ofList text).toLower
    if word = "inf" ∨ word = "infinity" then some (infinite negative)
    else if word = "nan" then some nan
    else
      let whole := text.takeWhile Char.isDigit
      let (fraction, rest) := match text.dropWhile Char.isDigit with
        | '.' :: rest => (rest.takeWhile Char.isDigit, rest.dropWhile Char.isDigit)
        | rest        => ([], rest)
      if whole.isEmpty && fraction.isEmpty then none else
      let digits := Nat.ofDigitChars 10 (whole ++ fraction) 0
      (exponent rest).map fun e => ofDecimal negative digits (e - fraction.length)
  exponent : List Char → Option Int
    | []        => some 0
    | c :: rest => if c = 'e' ∨ c = 'E' then Decimal.parse? rest else none

end Binary64

end FileBroker
