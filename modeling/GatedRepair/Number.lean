
/-!
# Numbers in text
-/

/-!
## Natural numbers in text

Written in decimal or with a fixed number of hexadecimal digits, and read back up to a largest value.
-/

namespace GatedRepair.Number

/-- The digits of a number, with zeros in front up to a width. -/
def padded (base width n : Nat) : List Char :=
  let digits := Nat.toDigits base n
  List.replicate (width - digits.length) '0' ++ digits

/-- The value of a basic Latin decimal digit. -/
def digit? (c : Char) : Option Nat := if 48 ≤ c.toNat ∧ c.toNat ≤ 57 then some (c.toNat - 48) else none

/-- The value of a hexadecimal digit of either case. -/
def hexDigit? (c : Char) : Option Nat :=
  let n := c.toNat
  if 48 ≤ n ∧ n ≤ 57 then some (n - 48)
  else if 65 ≤ n ∧ n ≤ 70 then some (n - 55)
  else if 97 ≤ n ∧ n ≤ 102 then some (n - 87)
  else none

/-- The number below `bound` that starts with the digits of `value` and goes on with one more. -/
def extend? (base bound : Nat) (digit : Char → Option Nat) (value : Option Nat) (c : Char) : Option Nat :=
  match value, digit c with
  | some v, some d => if v * base + d < bound then some (v * base + d) else none
  | _, _ => none

/-- The number that a row of decimal digits stands for. Nothing is read from an empty row, nor from one whose
number is not below `bound`. -/
def ofDigits? (bound : Nat) (text : List Char) : Option Nat :=
  if text.isEmpty then none else text.foldl (extend? 10 bound digit?) (some 0)

/-- The number that a row of hexadecimal digits stands for. -/
def ofHexDigits? (bound : Nat) (text : List Char) : Option Nat :=
  if text.isEmpty then none else text.foldl (extend? 16 bound hexDigit?) (some 0)

/-- A number written in decimal, perhaps after a plus sign. -/
def ofSigned? (bound : Nat) (text : List Char) : Option Nat :=
  match text with
  | '+' :: digits => ofDigits? bound digits
  | digits => ofDigits? bound digits

/-- The bound of numbers of 32 bits. -/
def bound32 : Nat := Nat.pow 2 32

/-- The bound of numbers of 64 bits. -/
def bound64 : Nat := Nat.pow 2 64

/-- The sum of two numbers, or the largest number below the bound. -/
def saturatingAdd (bound a b : Nat) : Nat := min (a + b) (bound - 1)

theorem saturatingAdd_lt {bound : Nat} (h : 0 < bound) (a b : Nat) : saturatingAdd bound a b < bound := by
  unfold saturatingAdd; omega

/-!
### Rounding to whole numbers

A quotient of two natural numbers, rounded to the nearest whole number; a half goes to the even neighbour.
-/

/-- The whole number nearest to `num / den`; a half goes to the even neighbour. -/
def roundHalfEven (num den : Nat) : Nat :=
  let whole := num / den
  let twice := 2 * (num % den)
  if twice < den then whole
  else if den < twice then whole + 1
  else if whole % 2 = 0 then whole else whole + 1

/-- The result is never further than half a unit from the quotient. -/
theorem roundHalfEven_near (num : Nat) {den : Nat} (h : 0 < den) :
    2 * num ≤ (2 * roundHalfEven num den + 1) * den ∧ 2 * roundHalfEven num den * den ≤ 2 * num + den := by
  have whole := Nat.div_add_mod num den
  have small := Nat.mod_lt num h
  have comm : num / den * den = den * (num / den) := Nat.mul_comm _ _
  unfold roundHalfEven
  simp only
  split
  · simp only [Nat.add_mul, Nat.mul_assoc, comm]; omega
  · split
    · simp only [Nat.add_mul, Nat.mul_add, Nat.mul_assoc, comm]; omega
    · split
      · simp only [Nat.add_mul, Nat.mul_assoc, comm]; omega
      · simp only [Nat.add_mul, Nat.mul_add, Nat.mul_assoc, comm]; omega

/-- A non-negative or negative number with a fixed number of places after the point; a half goes to the even
neighbour. The sign of a negative number is kept when all its digits are zero. -/
def fixedPlaces (places : Nat) (q : Rat) : String :=
  let scaled := roundHalfEven (q.num.natAbs * Nat.pow 10 places) q.den
  let digits := Nat.toDigits 10 scaled
  let digits := List.replicate (places + 1 - digits.length) '0' ++ digits
  let whole := digits.take (digits.length - places)
  let rest := digits.drop (digits.length - places)
  String.ofList ((if q < 0 then ['-'] else []) ++ whole ++ (if places = 0 then [] else '.' :: rest))

/-!
## Binary numbers of 53 significant bits

Numbers `± mantissa · 2 ^ exponent` as the usual binary arithmetic of 64 bits keeps them, with their exact
value, the rounding of an exact value to the nearest of them, and reading decimals.
-/

/-- A number with at most 53 significant bits. Zero has a sign. -/
structure Binary64 where
  negative : Bool
  mantissa : Nat
  exponent : Int
  deriving DecidableEq, Repr, Inhabited

namespace Binary64

/-- The exact value. -/
def toRat (x : Binary64) : Rat :=
  let size : Rat := (x.mantissa : Rat) * (2 : Rat) ^ x.exponent
  if x.negative then -size else size

def zero : Binary64 := ⟨false, 0, -1074⟩

/-- The same number with the other sign. -/
def negate (x : Binary64) : Binary64 := { x with negative := !x.negative }

/-- The quotient `num / den` in units of `2 ^ exponent`, as a quotient. -/
def inUnits (num den : Nat) (exponent : Int) : Nat × Nat :=
  match exponent with
  | .ofNat e => (num, den * Nat.pow 2 e)
  | .negSucc e => (num * Nat.pow 2 (e + 1), den)

/-- The exponent of the finest grid on which `num / den` has at most 53 bits, but no finer than `2 ^ -1074`. -/
def gridExponent (num den : Nat) : Int :=
  let guess : Int := (num.log2 : Int) - (den.log2 : Int) - 53
  let units := inUnits num den guess
  let fitted := if units.1 / units.2 < Nat.pow 2 53 then guess else guess + 1
  max fitted (-1074)

/-- The nearest number of 53 bits to an exact value; a half goes to the even mantissa. There is no largest
number here: a reader that must refuse large numbers asks `inRange`. -/
def nearest (q : Rat) : Binary64 :=
  if q.num = 0 then zero else
    let exponent := gridExponent q.num.natAbs q.den
    let units := inUnits q.num.natAbs q.den exponent
    let mantissa := roundHalfEven units.1 units.2
    if mantissa < Nat.pow 2 53 then ⟨decide (q < 0), mantissa, exponent⟩ else ⟨decide (q < 0), mantissa / 2, exponent + 1⟩

/-- The number is small enough for 64 bits. -/
def inRange (x : Binary64) : Bool := x.exponent ≤ 971

/-- The least value that is nearer to `2 ^ 1024` than to any smaller number of 53 bits. -/
def overflowBound : Nat := (Nat.pow 2 54 - 1) * Nat.pow 2 970

/-- The decimal `0.d₁d₂… · 10 ^ point` is too large. It has at most 309 digits before the point unless it is, and since
the bound is whole, those decide. -/
def overflows (digits : List Char) (point : Int) : Bool :=
  let spoken := digits.dropWhile (· == '0')
  let size := point - (digits.length - spoken.length : Nat)
  if spoken.isEmpty || size < 309 then false
  else if 309 < size then true
  else
    let front := spoken.take 309
    let n := front.foldl (fun n c => n * 10 + (digit? c).getD 0) 0
    overflowBound ≤ n * Nat.pow 10 (309 - front.length)

/-- An exact value rounded to the nearest number of 53 bits. -/
def rounded (q : Rat) : Rat := (nearest q).toRat

/-- The power `10 ^ n` to 53 bits. -/
def powerOfTen (n : Nat) : Rat := rounded ((Nat.pow 10 n : Nat) : Rat)

/-- A number divided by `10 ^ n`, in steps of at most `10 ^ 308`, with every step rounded. -/
def divideByPower (x : Rat) (n : Nat) : Rat :=
  if _h : n ≤ 308 then rounded (x / powerOfTen n)
  else if x = 0 then 0 else divideByPower (rounded (x / powerOfTen 308)) (n - 308)
termination_by n

/-- The number `significand · 10 ^ exponent`, scaled by rounded powers of ten: the significand is rounded first
and the product or quotient after it. Nothing when the number is too large. -/
def ofDecimal? (significand : Nat) (exponent : Int) : Option Binary64 :=
  let start := rounded (significand : Rat)
  match exponent with
  | .ofNat e =>
    if e ≤ 308 then
      let x := nearest (start * powerOfTen e)
      if x.inRange then some x else none
    else if significand = 0 then some zero else none
  | .negSucc e => some (nearest (divideByPower start (e + 1)))

end Binary64

/-!
## The shortest decimal of a binary number

The decimal with the fewest digits that reads back as the number, and of those the nearest to it, written
positionally while the number is neither very large nor very small.
-/

/-- The decimal `digits · 10 ^ exponent`. -/
structure Decimal where
  digits : Nat
  exponent : Int
  deriving DecidableEq, Repr

namespace Decimal

/-- The exact value. -/
def toRat (d : Decimal) : Rat := (d.digits : Rat) * (10 : Rat) ^ d.exponent

/-- The same decimal without zeros at the end of its digits. At most `fuel` of them are cut off. -/
def strip (d : Decimal) : Nat → Decimal
  | 0 => d
  | fuel + 1 => if d.digits ≠ 0 ∧ d.digits % 10 = 0 then strip ⟨d.digits / 10, d.exponent + 1⟩ fuel else d

end Decimal

namespace Binary64

/-- The reals that round to a positive number: the two ends, which belong to it when the mantissa is even. -/
def reach (x : Binary64) : Rat × Rat :=
  let half : Rat := (2 : Rat) ^ (x.exponent - 1)
  let size := (x.mantissa : Rat) * (2 : Rat) ^ x.exponent
  let below := if x.mantissa = Nat.pow 2 52 ∧ -1074 < x.exponent then half / 2 else half
  (size - below, size + half)

/-- A decimal rounds to the positive number `x`. -/
def readsBack (x : Binary64) (d : Decimal) : Bool :=
  let ends := x.reach
  let q := d.toRat
  if x.mantissa % 2 = 0 then ends.1 ≤ q && q ≤ ends.2 else ends.1 < q && q < ends.2

/-- The two neighbours of a positive value among the multiples of `10 ^ exponent`, nearer one first. -/
def neighbours (size : Rat) (exponent : Int) : List Decimal :=
  let scaled := size / (10 : Rat) ^ exponent
  let low := scaled.floor.toNat
  let below : Decimal := ⟨low, exponent⟩
  let above : Decimal := ⟨low + 1, exponent⟩
  let excess := scaled - (low : Rat)
  if excess < 1 / 2 ∨ (excess = 1 / 2 ∧ low % 2 = 0) then [below, above] else [above, below]

/-- The exponent of the leading digit of a positive value. At most `fuel` steps are taken from the guess. -/
def leading (size : Rat) (guess : Int) : Nat → Int
  | 0 => guess
  | fuel + 1 => if (10 : Rat) ^ (guess + 1) ≤ size then leading size (guess + 1) fuel else guess

/-- The decimal with the fewest digits that reads back as a positive number, and of those the nearest. -/
def shortest (x : Binary64) : Decimal :=
  let size := (x.mantissa : Rat) * (2 : Rat) ^ x.exponent
  let bits : Int := x.exponent + x.mantissa.log2
  let guess : Int := Int.fdiv (bits * 30103) 100000 - 1
  let top := leading size guess 4
  let found := (List.range 17).findSome? fun (more : Nat) =>
    (neighbours size (top - (more : Int))).find? fun d => d.digits ≠ 0 && readsBack x d
  (found.getD ⟨x.mantissa, x.exponent⟩).strip 20

/-- An exponent with its sign. -/
def exponentChars (e : Int) : List Char := (if e < 0 then '-' else '+') :: Nat.toDigits 10 e.natAbs

/-- The text of a number: the shortest decimal that reads back, written positionally from `0.00001` up to
seventeen places before the point and else with an exponent; a whole number ends in `.0`. -/
def text (x : Binary64) : String :=
  let sign := if x.negative then "-" else ""
  if x.mantissa = 0 then sign ++ "0.0" else
    let d := shortest x
    let digits := Nat.toDigits 10 d.digits
    let count : Int := digits.length
    let point := count + d.exponent
    let body : List Char :=
      if 0 ≤ d.exponent ∧ point ≤ 16 then digits ++ List.replicate d.exponent.toNat '0' ++ ['.', '0']
      else if 0 < point ∧ point ≤ 16 then digits.take point.toNat ++ '.' :: digits.drop point.toNat
      else if -5 < point ∧ point ≤ 0 then '0' :: '.' :: (List.replicate (-point).toNat '0' ++ digits)
      else
        let lead := digits.take 1
        let more := digits.drop 1
        lead ++ (if more.isEmpty then [] else '.' :: more) ++ 'e' :: exponentChars (point - 1)
    sign ++ String.ofList body

end Binary64

end GatedRepair.Number
