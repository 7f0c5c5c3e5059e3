/-! Numbers of a document: as they are written, and the values that readers see. Binary
floating-point numbers of 64 bits are nonnegative here and have exact arithmetic: rounding to the
nearest, product and quotient, and the shortest decimal text. -/
namespace TokenLedger
namespace Json

def twos (k : Nat) : Nat := Nat.pow 2 k
def tens (k : Nat) : Nat := Nat.pow 10 k

/-- The mantissa times two to the power of the exponent. -/
structure Double where
  mantissa : Nat
  exponent : Int
  deriving DecidableEq

/-- A quotient rounded to the nearest whole number, a half to the even one. -/
def roundDiv (n d : Nat) : Nat :=
  if d < 2 * (n % d) ∨ 2 * (n % d) = d ∧ n / d % 2 = 1 then n / d + 1 else n / d

namespace Double

def zero : Double := ⟨0, 0⟩

def ratio (x : Double) : Nat × Nat :=
  (x.mantissa * twos x.exponent.toNat, twos (-x.exponent).toNat)

/-- The double nearest to a fraction; none where it is too large for any. -/
def nearest? (num den : Nat) : Option Double :=
  if num = 0 then some zero
  else
    let e : Int := (num.log2 : Int) - den.log2
    let reached := den * twos e.toNat ≤ num * twos (-e).toNat
    let q := max (-1074) (if reached then e - 52 else e - 53)
    let m := roundDiv (num * twos (-q).toNat) (den * twos q.toNat)
    let x : Double := if m = twos 53 then ⟨twos 52, q + 1⟩ else ⟨m, q⟩
    if x.exponent ≤ 971 then some x else none

def mul? (x y : Double) : Option Double :=
  nearest? (x.ratio.1 * y.ratio.1) (x.ratio.2 * y.ratio.2)

def div? (x y : Double) : Option Double :=
  nearest? (x.ratio.1 * y.ratio.2) (x.ratio.2 * y.ratio.1)

def tenPow? (k : Nat) : Option Double := nearest? (tens k) 1

def maxTen : Nat := 308

/-- A number times a power of ten, rounded after each step: exponents out of range are approached in
steps of `maxTen` downwards, and have no double upwards. -/
def scale? : Nat → Double → Int → Option Double
  | 0, x, _ => some x
  | steps + 1, x, e =>
    if e.natAbs ≤ maxTen then
      (tenPow? e.natAbs).bind fun p => if 0 ≤ e then x.mul? p else x.div? p
    else if x.mantissa = 0 then some x
    else if 0 ≤ e then none
    else (tenPow? maxTen).bind fun p => (x.div? p).bind fun y => scale? steps y (e + maxTen)

/-- Three steps take the least significand to zero. -/
def ofScaled? (significand : Nat) (e : Int) : Option Double :=
  (nearest? significand 1).bind fun x => scale? 4 x e

/-- Half the distance to the next smaller double, in quarters of a unit of the mantissa. The
neighbour below the start of a binade is half as far. -/
def gapBelow (x : Double) : Nat := if x.mantissa = twos 52 ∧ -1074 < x.exponent then 1 else 2

/-- Whether the fraction `n / d` rounds to the double. -/
def Reads (x : Double) (n d : Nat) : Prop :=
  let v := x.ratio
  let unit := twos x.exponent.toNat
  let low := (4 * v.1 - x.gapBelow * unit) * d
  let high := (4 * v.1 + 2 * unit) * d
  let mid := 4 * n * v.2
  if x.mantissa % 2 = 0 then low ≤ mid ∧ mid ≤ high else low < mid ∧ mid < high

instance (x : Double) (n d : Nat) : Decidable (x.Reads n d) := by
  unfold Reads; dsimp only; infer_instance

/-- The exponent of the first decimal digit of a positive double. -/
def leadingTen (x : Double) : Int :=
  let v := x.ratio
  if v.2 ≤ v.1 then (Nat.toDigits 10 (v.1 / v.2)).length - 1
  else -(((List.range 400).find? fun j => v.2 ≤ v.1 * tens j).getD 0 : Nat)

/-- The multiple of the `k`-th power of ten nearest to the double among those that round to it. -/
def onGrid? (x : Double) (k : Int) : Option Nat :=
  let v := x.ratio
  let n := v.1 * tens (-k).toNat
  let d := v.2 * tens k.toNat
  let reads := fun g : Nat => decide (x.Reads (g * tens k.toNat) (tens (-k).toNat))
  let near := roundDiv n d
  if reads near then some near
  else if reads (n / d) then some (n / d)
  else if reads (n / d + 1) then some (n / d + 1)
  else none

/-- The fewest decimal digits that round to a positive double, and the exponent of the last. A
coarsest grid may give ten, which is one digit a place higher. -/
def shortest (x : Double) : Nat × Int :=
  let e := x.leadingTen
  let onGrid := fun i : Nat => (x.onGrid? (e - i)).map fun g =>
    if g = 10 then (1, e - i + 1) else (g, e - i)
  ((List.range 17).findSome? onGrid).getD (0, 0)

def zeros (n : Nat) : List Char := List.replicate n '0'

def exponentChars (e : Int) : List Char :=
  'e' :: (if e < 0 then '-' else '+') :: Nat.toDigits 10 e.natAbs

/-- Positional between `1e-5` and `1e+16`, with a point in any case; otherwise with an exponent. -/
def textOfDigits (ds : List Char) (last : Int) : List Char :=
  let point : Int := ds.length + last
  if 0 ≤ last ∧ point ≤ 16 then ds ++ zeros last.toNat ++ ['.', '0']
  else if 0 < point ∧ point ≤ 16 then ds.take point.toNat ++ '.' :: ds.drop point.toNat
  else if -5 < point ∧ point ≤ 0 then '0' :: '.' :: zeros (-point).toNat ++ ds
  else ds.take 1 ++ (if ds.length = 1 then [] else '.' :: ds.drop 1) ++
    exponentChars (point - 1)

def text (x : Double) : List Char :=
  if x.mantissa = 0 then ['0', '.', '0']
  else textOfDigits (Nat.toDigits 10 x.shortest.1) x.shortest.2

end Double

structure Numeral where
  negative : Bool
  whole : List Char
  /-- The digits after the point; empty without a point. -/
  fraction : List Char
  exponent : Option Int
  deriving DecidableEq

/-- A whole number of 64 bits with or without sign, or else a double. -/
inductive Number
  | natural (n : Nat)
  | negative (n : Nat)
  | double (negative : Bool) (magnitude : Double)
  deriving DecidableEq

namespace Numeral

def sign : List Char → Bool × List Char
  | '-' :: rest => (true, rest)
  | '+' :: rest => (false, rest)
  | rest => (false, rest)

def exponent? : List Char → Option (Option Int)
  | [] => some none
  | c :: rest =>
    let s := sign rest
    if (c = 'e' ∨ c = 'E') ∧ s.2 ≠ [] ∧ s.2.all Char.isDigit = true then
      let n : Int := Nat.ofDigitChars 10 s.2 0
      some (some (if s.1 then -n else n))
    else none

/-- Digits without a leading zero, then a point with digits, then an exponent. -/
def unsigned? (negative : Bool) (cs : List Char) : Option Numeral :=
  let whole := cs.takeWhile Char.isDigit
  if whole = [] ∨ whole.head? = some '0' ∧ whole.length ≠ 1 then none
  else match cs.dropWhile Char.isDigit with
    | '.' :: rest =>
      let fraction := rest.takeWhile Char.isDigit
      if fraction = [] then none
      else (exponent? (rest.dropWhile Char.isDigit)).map (⟨negative, whole, fraction, ·⟩)
    | rest => (exponent? rest).map (⟨negative, whole, [], ·⟩)

def read? : List Char → Option Numeral
  | '-' :: rest => unsigned? true rest
  | cs => unsigned? false cs

def isWhole (n : Numeral) : Bool := n.fraction.isEmpty && n.exponent.isNone

def wholePart (n : Numeral) : Nat := Nat.ofDigitChars 10 n.whole 0

def nat? (n : Numeral) : Option Nat :=
  if n.isWhole ∧ n.negative = false then some n.wholePart else none

def fitting : Nat → List Char → Nat × List Char
  | acc, [] => (acc, [])
  | acc, c :: cs =>
    let next := 10 * acc + (c.toNat - '0'.toNat)
    if next < UInt64.size then fitting next cs else (acc, c :: cs)

/-- The nearest double, up to rounding in steps: as many digits as fit a word, scaled by a power of
ten. Whole digits that do not fit raise the exponent, fraction digits that do lower it. -/
def magnitude? (n : Numeral) : Option Double :=
  let w := fitting 0 n.whole
  let f := fitting w.1 n.fraction
  Double.ofScaled? f.1
    ((w.2.length : Int) - (n.fraction.length - f.2.length) + n.exponent.getD 0)

/-- The value of a numeral; none where it exceeds every double. -/
def value? (n : Numeral) : Option Number :=
  if n.isWhole ∧ n.negative = false ∧ n.wholePart < UInt64.size then some (.natural n.wholePart)
  else if n.isWhole ∧ n.negative = true ∧ 0 < n.wholePart ∧ 2 * n.wholePart ≤ UInt64.size then
    some (.negative n.wholePart)
  else n.magnitude?.map (.double n.negative)

end Numeral

namespace Number

def text : Number → List Char
  | natural n => Nat.toDigits 10 n
  | negative n => '-' :: Nat.toDigits 10 n
  | double neg x => (if neg then ['-'] else []) ++ x.text

end Number
end Json
end TokenLedger
