import GatedRepair.Number
import Mathlib.Algebra.Group.Nat.Defs
import Mathlib.Algebra.Order.AbsoluteValue.Basic
import Mathlib.Algebra.Order.Field.Basic
import Mathlib.Data.Rat.Cast.Order
import Mathlib.Tactic.FieldSimp
import Mathlib.Tactic.Linarith
import Mathlib.Tactic.NormNum

/-!
# Digits and rounding

Digits are read back as the number that they were written for, and an exact value is rounded to the binary number next to
it.
-/

/-!
## Digits are read back

A number is read back from its digits, with or without zeros in front, in whatever base its digits are read
(`foldl_padded`): from decimal ones (`ofDigits?_toDigits`, `ofDigits?_padded`) and from hexadecimal ones
(`ofHexDigits?_padded`).
-/

namespace GatedRepair.Number

/-! ### Any base -/

section
variable {base bound : Nat} {digit : Char → Option Nat} (reads : ∀ d < base, digit d.digitChar = some d)
include reads

theorem extend?_digitChar {v d : Nat} (small : d < base) (short : v * base + d < bound) :
    extend? base bound digit (some v) d.digitChar = some (v * base + d) := by
  simp only [extend?, reads d small, if_pos short]

theorem foldl_toDigits (many : 1 < base) {n : Nat} (short : n < bound) :
    (Nat.toDigits base n).foldl (extend? base bound digit) (some 0) = some n := by
  induction n using Nat.strongRecOn with
  | ind n ih =>
    rw [Nat.toDigits_eq_if many]
    split
    · next small =>
      have first : extend? base bound digit (some 0) n.digitChar = some (0 * base + n) :=
        extend?_digitChar reads small (by omega)
      rw [List.foldl_cons, List.foldl_nil, first, Nat.zero_mul, Nat.zero_add]
    · next large =>
      have parts := Nat.div_add_mod' n base
      have fewer : n / base < n := Nat.div_lt_self (by omega) many
      have last : extend? base bound digit (some (n / base)) (n % base).digitChar = some (n / base * base + n % base) :=
        extend?_digitChar reads (Nat.mod_lt n (by omega)) (by omega)
      rw [List.foldl_append, ih (n / base) fewer (by omega), List.foldl_cons, List.foldl_nil, last, parts]

/-- Zeros in front make no difference. -/
theorem foldl_zeros (many : 1 < base) (positive : 0 < bound) (zeros : Nat) (digits : List Char) :
    (List.replicate zeros '0' ++ digits).foldl (extend? base bound digit) (some 0) =
      digits.foldl (extend? base bound digit) (some 0) := by
  induction zeros with
  | zero => rfl
  | succ zeros ih =>
    have first : extend? base bound digit (some 0) (Nat.digitChar 0) = some (0 * base + 0) :=
      extend?_digitChar reads (by omega) (by omega)
    have zero : Nat.digitChar 0 = '0' := rfl
    rw [zero, Nat.zero_mul] at first
    rw [List.replicate_succ, List.cons_append, List.foldl_cons, first, ih]

/-- A number is read back from its digits with zeros in front. -/
theorem foldl_padded (many : 1 < base) {n : Nat} (short : n < bound) (width : Nat) :
    (padded base width n).foldl (extend? base bound digit) (some 0) = some n := by
  rw [padded, foldl_zeros reads many (by omega), foldl_toDigits reads many short]

end

theorem padded_ne_nil (base width n : Nat) : padded base width n ≠ [] := by
  simp [padded]

theorem length_padded {base width n : Nat} (many : 1 < base) (wide : 0 < width) (fits : n < base ^ width) :
    (padded base width n).length = width := by
  have short := (Nat.length_toDigits_le_iff many wide).mpr fits
  simp only [padded, List.length_append, List.length_replicate]
  omega

/-! ### Decimal digits -/

theorem digit?_digitChar {d : Nat} (small : d < 10) : digit? d.digitChar = some d := by
  have value := Nat.toNat_digitChar_of_lt_ten small
  unfold digit?
  rw [if_pos (by omega), value]
  simp

theorem digit?_isSome {c : Char} (digit : c.isDigit = true) : (digit? c).isSome = true := by
  have range : 48 ≤ c.toNat ∧ c.toNat ≤ 57 := Char.isDigit_iff_toNat.mp digit
  unfold digit?
  rw [if_pos range]
  rfl

theorem digit?_toDigits {n : Nat} {c : Char} (member : c ∈ Nat.toDigits 10 n) : (digit? c).isSome = true :=
  digit?_isSome (Nat.isDigit_of_mem_toDigits (by decide) (by decide) member)

theorem digit?_padded {width n : Nat} {c : Char} (member : c ∈ padded 10 width n) : (digit? c).isSome = true := by
  rcases List.mem_append.mp member with zero | digit
  · rw [List.eq_of_mem_replicate zero]
    rfl
  · exact digit?_toDigits digit

section
variable {bound n : Nat} (short : n < bound)
include short

theorem foldl_decimal : (Nat.toDigits 10 n).foldl (extend? 10 bound digit?) (some 0) = some n :=
  foldl_toDigits (fun _ => digit?_digitChar) (by decide) short

theorem ofDigits?_toDigits : ofDigits? bound (Nat.toDigits 10 n) = some n := by
  unfold ofDigits?
  rw [if_neg (by simp), foldl_decimal short]

theorem ofDigits?_padded {width : Nat} : ofDigits? bound (padded 10 width n) = some n := by
  unfold ofDigits?
  rw [if_neg (by simp [padded_ne_nil]), foldl_padded (fun _ => digit?_digitChar) (by decide) short]

end

/-! ### Hexadecimal digits -/

theorem hexDigit?_digitChar : ∀ d < 16, hexDigit? d.digitChar = some d := by decide

theorem ofHexDigits?_padded {bound n : Nat} (short : n < bound) (width : Nat) :
    ofHexDigits? bound (padded 16 width n) = some n := by
  unfold ofHexDigits?
  rw [if_neg (by simp [padded_ne_nil]), foldl_padded hexDigit?_digitChar (by decide) short]

/-!
## Rounding between a half and one

Between a half and one the binary numbers are the multiples of `2 ^ -53`. An exact value that lies within half a step of one
of them is rounded to it (`nearest_within`), and a whole number of 53 bits is kept (`rounded_nat`).
-/

/-- What rounds to a whole number lies within a half of it, and does not lie on the edge of an odd one. -/
theorem roundHalfEven_eq {num den m : Nat} (some : 0 < den) (lower : 2 * (m * den) ≤ 2 * num + den)
    (upper : 2 * num ≤ 2 * (m * den) + den)
    (inner : m % 2 = 1 → 2 * (m * den) < 2 * num + den ∧ 2 * num < 2 * (m * den) + den) : roundHalfEven num den = m := by
  have whole := Nat.div_add_mod num den
  have small := Nat.mod_lt num some
  have comm : den * (num / den) = num / den * den := Nat.mul_comm _ _
  -- The quotient is the number itself or the one before it.
  have near : num / den = m ∨ num / den + 1 = m := by
    have above : m < num / den + 2 := by
      by_contra far
      have step := Nat.mul_le_mul_right den (Nat.not_lt.mp far)
      rw [Nat.add_mul] at step
      omega
    have below : num / den < m + 1 := by
      by_contra far
      have step := Nat.mul_le_mul_right den (Nat.not_lt.mp far)
      rw [Nat.add_mul, Nat.one_mul] at step
      omega
    omega
  unfold roundHalfEven
  simp only
  rcases near with same | before
  · rw [same] at whole comm ⊢
    split
    · rfl
    · split
      · omega
      · split
        · rfl
        · next odd =>
          have := inner (by omega)
          omega
  · have step : m * den = num / den * den + den := by rw [← before, Nat.add_mul, Nat.one_mul]
    split
    · omega
    · split
      · exact before
      · split
        · next even =>
          have := inner (by omega)
          omega
        · exact before

namespace Binary64

theorem log2_bounds {n : Nat} (some : n ≠ 0) : 2 ^ n.log2 ≤ n ∧ n < 2 ^ (n.log2 + 1) :=
  ⟨Nat.log2_self_le some, Nat.lt_log2_self⟩

theorem inUnits_neg (num den e : Nat) : inUnits num den (-(e : Int)) = (num * 2 ^ e, den) := by
  cases e with
  | zero =>
    show (num, den * Nat.pow 2 0) = _
    simp
  | succ e => rfl

/-- Below `2 ^ k` the grid has at most the step `2 ^ (k - 53)`. -/
theorem gridExponent_le {num den k : Nat} (some : num ≠ 0) (short : k ≤ 53) (small : num < 2 ^ k * den) :
    gridExponent num den ≤ -((53 - k : Nat) : Int) := by
  have denSome : den ≠ 0 := by
    rintro rfl
    omega
  obtain ⟨numLow, -⟩ := log2_bounds some
  obtain ⟨-, denHigh⟩ := log2_bounds denSome
  have above : num.log2 < k + (den.log2 + 1) := by
    refine (Nat.pow_lt_pow_iff_right (a := 2) (by decide)).mp ?_
    rw [Nat.pow_add]
    exact Nat.lt_of_le_of_lt numLow (Nat.lt_trans small (Nat.mul_lt_mul_of_pos_left denHigh (Nat.two_pow_pos k)))
  unfold gridExponent
  by_cases same : num.log2 = k + den.log2
  · have guess : (num.log2 : Int) - (den.log2 : Int) - 53 = -((53 - k : Nat) : Int) := by omega
    have fits : num * 2 ^ (53 - k) / den < Nat.pow 2 53 := by
      refine (Nat.div_lt_iff_lt_mul (Nat.pos_of_ne_zero denSome)).mpr ?_
      calc num * 2 ^ (53 - k) < 2 ^ k * den * 2 ^ (53 - k) := Nat.mul_lt_mul_of_pos_right small (Nat.two_pow_pos _)
        _ = 2 ^ (k + (53 - k)) * den := by rw [Nat.pow_add, Nat.mul_right_comm]
        _ = Nat.pow 2 53 * den := by rw [Nat.add_sub_cancel' short]; rfl
    simp only [guess, inUnits_neg, if_pos fits]
    omega
  · simp only
    split <;> omega

/-- From a half on the grid has at least the step `2 ^ -53`. -/
theorem le_gridExponent {num den : Nat} (some : den ≠ 0) (half : den ≤ 2 * num) : -53 ≤ gridExponent num den := by
  obtain ⟨-, numHigh⟩ := log2_bounds (show num ≠ 0 by omega)
  obtain ⟨denLow, -⟩ := log2_bounds some
  have below : den.log2 < num.log2 + 2 := by
    refine (Nat.pow_lt_pow_iff_right (a := 2) (by decide)).mp ?_
    rw [show num.log2 + 2 = num.log2 + 1 + 1 by omega, Nat.pow_succ]
    omega
  unfold gridExponent
  by_cases more : den.log2 = num.log2 + 1
  · have guess : (num.log2 : Int) - (den.log2 : Int) - 53 = -54 := by omega
    have large : ¬ (inUnits num den (-54)).1 / (inUnits num den (-54)).2 < Nat.pow 2 53 := by
      rw [Nat.not_lt]
      refine (Nat.le_div_iff_mul_le (by show 0 < den; omega)).mpr ?_
      show Nat.pow 2 53 * den ≤ num * Nat.pow 2 54
      have power : Nat.pow 2 54 = 2 * Nat.pow 2 53 := rfl
      rw [power, ← Nat.mul_assoc, Nat.mul_comm num 2, Nat.mul_comm]
      exact Nat.mul_le_mul_right _ half
    simp only [guess, if_neg large]
    decide
  · simp only
    split <;> omega

theorem gridExponent_half {num den : Nat} (half : den ≤ 2 * num) (one : num < den) : gridExponent num den = -53 :=
  Int.le_antisymm (@gridExponent_le num den 0 (by omega) (by decide) (by omega)) (le_gridExponent (by omega) half)

/-- An exact value rounds to the multiple of `2 ^ -53` with a mantissa. -/
structure Within (m : Nat) (q : Rat) : Prop where
  lower : (m : Rat) - 1 / 2 ≤ q * 2 ^ 53
  upper : q * 2 ^ 53 ≤ (m : Rat) + 1 / 2
  inner : m % 2 = 1 → (m : Rat) - 1 / 2 < q * 2 ^ 53 ∧ q * 2 ^ 53 < (m : Rat) + 1 / 2

/-- Between a half and one, what is within half a step of a binary number rounds to it. -/
theorem nearest_within {m : Nat} {q : Rat} (half : 2 ^ 52 < m) (one : m < 2 ^ 53) (within : Within m q) :
    nearest q = ⟨false, m, -53⟩ := by
  obtain ⟨lower, upper, inner⟩ := within
  have large : ((2 ^ 52 : Nat) : Rat) + 1 ≤ m := by exact_mod_cast half
  have small : (m : Rat) + 1 ≤ ((2 ^ 53 : Nat) : Rat) := by exact_mod_cast one
  push_cast at large small
  have positive : 0 < q := by
    by_contra negative
    have := mul_nonpos_of_nonpos_of_nonneg (not_lt.mp negative) (show (0 : Rat) ≤ 2 ^ 53 by positivity)
    linarith
  have numPositive : 0 < q.num := Rat.num_pos.mpr positive
  have denPositive : (0 : Rat) < q.den := by exact_mod_cast q.den_pos
  have numCast : (q.num.natAbs : Rat) = q * q.den := by
    rw [Rat.mul_den_eq_num, ← Int.cast_natCast, Int.natAbs_of_nonneg numPositive.le]
  -- The bounds, cleared of the denominator.
  have scaledLower : 2 * (m * q.den) ≤ 2 * (q.num.natAbs * 2 ^ 53) + q.den := by
    have scaled := mul_le_mul_of_nonneg_right lower denPositive.le
    have cleared : (2 : Rat) * (m * q.den) ≤ 2 * (q.num.natAbs * 2 ^ 53) + q.den := by
      rw [numCast]
      linarith
    exact_mod_cast cleared
  have scaledUpper : 2 * (q.num.natAbs * 2 ^ 53) ≤ 2 * (m * q.den) + q.den := by
    have scaled := mul_le_mul_of_nonneg_right upper denPositive.le
    have cleared : (2 : Rat) * (q.num.natAbs * 2 ^ 53) ≤ 2 * (m * q.den) + q.den := by
      rw [numCast]
      linarith
    exact_mod_cast cleared
  have scaledInner : m % 2 = 1 → 2 * (m * q.den) < 2 * (q.num.natAbs * 2 ^ 53) + q.den ∧
      2 * (q.num.natAbs * 2 ^ 53) < 2 * (m * q.den) + q.den := by
    intro odd
    obtain ⟨above, below⟩ := inner odd
    have scaledAbove := mul_lt_mul_of_pos_right above denPositive
    have scaledBelow := mul_lt_mul_of_pos_right below denPositive
    have clearedAbove : (2 : Rat) * (m * q.den) < 2 * (q.num.natAbs * 2 ^ 53) + q.den := by
      rw [numCast]
      linarith
    have clearedBelow : (2 : Rat) * (q.num.natAbs * 2 ^ 53) < 2 * (m * q.den) + q.den := by
      rw [numCast]
      linarith
    exact ⟨by exact_mod_cast clearedAbove, by exact_mod_cast clearedBelow⟩
  have denSome := q.den_pos
  have atLeast := Nat.mul_le_mul_right q.den (show 2 ^ 52 + 1 ≤ m by omega)
  have atMost := Nat.mul_le_mul_right q.den (show m + 1 ≤ 2 ^ 53 by omega)
  rw [Nat.add_mul, Nat.one_mul] at atLeast atMost
  have grid : gridExponent q.num.natAbs q.den = -53 := gridExponent_half (by omega) (by omega)
  have mantissa : roundHalfEven (q.num.natAbs * Nat.pow 2 53) q.den = m :=
    roundHalfEven_eq denSome scaledLower scaledUpper scaledInner
  unfold nearest
  rw [if_neg numPositive.ne']
  have units : inUnits q.num.natAbs q.den (-53) = (q.num.natAbs * Nat.pow 2 53, q.den) := rfl
  simp only [grid, units, mantissa]
  rw [if_pos (show m < Nat.pow 2 53 from one), decide_eq_false (not_lt.mpr positive.le)]

theorem toRat_neg (m e : Nat) : (⟨false, m, -(e : Int)⟩ : Binary64).toRat = (m : Rat) / 2 ^ e := by
  simp only [toRat, Bool.false_eq_true, if_false]
  rw [zpow_neg, zpow_natCast, div_eq_mul_inv]

theorem toRat_half (m : Nat) : (⟨false, m, -53⟩ : Binary64).toRat = m / 2 ^ 53 := toRat_neg m 53

theorem within_self (m : Nat) : Within m (m / 2 ^ 53 : Rat) := by
  have same : (m / 2 ^ 53 : Rat) * 2 ^ 53 = m := by norm_num
  refine ⟨?_, ?_, fun _ => ⟨?_, ?_⟩⟩ <;> rw [same] <;> linarith

/-- The grid of a whole number gives it all of its 53 bits. -/
theorem gridExponent_nat {n : Nat} (some : n ≠ 0) (short : n.log2 ≤ 52) :
    gridExponent n 1 = -((52 - n.log2 : Nat) : Int) := by
  obtain ⟨low, -⟩ := log2_bounds some
  have guess : (n.log2 : Int) - ((1 : Nat).log2 : Int) - 53 = -((53 - n.log2 : Nat) : Int) := by
    have one : (1 : Nat).log2 = 0 := by decide
    omega
  have large : ¬ n * 2 ^ (53 - n.log2) / 1 < Nat.pow 2 53 := by
    have scaled := Nat.mul_le_mul_right (2 ^ (53 - n.log2)) low
    rw [← Nat.pow_add, show n.log2 + (53 - n.log2) = 53 by omega] at scaled
    rw [Nat.div_one, Nat.not_lt]
    exact scaled
  unfold gridExponent
  simp only [guess, inUnits_neg, if_neg large]
  omega

/-- A whole number of 53 bits is rounded to itself. -/
theorem rounded_nat {n : Nat} (small : n < 2 ^ 53) : rounded (n : Rat) = n := by
  by_cases zero : n = 0
  · subst zero
    decide +kernel
  obtain ⟨low, high⟩ := log2_bounds zero
  have short : n.log2 < 53 := (Nat.pow_lt_pow_iff_right (by decide)).mp (Nat.lt_of_le_of_lt low small)
  have fits : n * 2 ^ (52 - n.log2) < Nat.pow 2 53 := by
    have scaled := Nat.mul_lt_mul_of_pos_right high (Nat.two_pow_pos (52 - n.log2))
    rw [← Nat.pow_add, show n.log2 + 1 + (52 - n.log2) = 53 by omega] at scaled
    exact scaled
  have mantissa : roundHalfEven (n * 2 ^ (52 - n.log2)) 1 = n * 2 ^ (52 - n.log2) :=
    roundHalfEven_eq Nat.one_pos (by omega) (by omega) (by omega)
  have some : ¬ (n : Int) = 0 := by omega
  unfold rounded nearest
  simp only [if_neg some, Rat.num_natCast, Rat.den_natCast, Int.natAbs_natCast,
    gridExponent_nat zero (show n.log2 ≤ 52 by omega), inUnits_neg, mantissa, if_pos fits]
  have sign : decide ((n : Rat) < 0) = false := decide_eq_false (not_lt.mpr n.cast_nonneg)
  have power : (2 : Rat) ^ (52 - n.log2) ≠ 0 := by positivity
  rw [sign, toRat_neg]
  push_cast
  rw [mul_div_cancel_right₀ _ power]

/-! ### How far rounding goes -/

theorem rounded_zero : rounded 0 = 0 := by decide +kernel

/-- Rounding a number below `2 ^ k` goes at most two steps of the grid far, and no number falls below zero. -/
theorem rounded_near {q : Rat} {k : Nat} (nonneg : 0 ≤ q) (short : k ≤ 52) (small : q < 2 ^ k) :
    0 ≤ rounded q ∧ |rounded q - q| ≤ 1 / 2 ^ (52 - k) := by
  rcases nonneg.eq_or_lt with rfl | positive
  · rw [rounded_zero, sub_zero, abs_zero]
    exact ⟨le_rfl, by positivity⟩
  have numPositive : 0 < q.num := Rat.num_pos.mpr positive
  have denPositive : (0 : Rat) < q.den := by exact_mod_cast q.den_pos
  have numCast : (q.num.natAbs : Rat) = q * q.den := by
    rw [Rat.mul_den_eq_num, ← Int.cast_natCast, Int.natAbs_of_nonneg numPositive.le]
  have less : q.num.natAbs < 2 ^ k * q.den := by
    have cleared : (q.num.natAbs : Rat) < 2 ^ k * q.den := by
      rw [numCast]
      exact mul_lt_mul_of_pos_right small denPositive
    exact_mod_cast cleared
  obtain ⟨e, grid, fine⟩ : ∃ e : Nat, gridExponent q.num.natAbs q.den = -((e + 1 : Nat) : Int) ∧ 52 - k ≤ e := by
    have bound := gridExponent_le (show q.num.natAbs ≠ 0 by omega) (show k ≤ 53 by omega) less
    exact ⟨(-gridExponent q.num.natAbs q.den - 1).toNat, by omega, by omega⟩
  generalize mantissa : roundHalfEven (q.num.natAbs * 2 ^ (e + 1)) q.den = m
  obtain ⟨lower, upper⟩ := roundHalfEven_near (q.num.natAbs * 2 ^ (e + 1)) q.den_pos
  rw [mantissa] at lower upper
  have power : (0 : Rat) < 2 ^ e := by positivity
  have halves : (2 : Rat) ^ (e + 1) = 2 * 2 ^ e := pow_succ' 2 e
  -- The mantissa is at most half a unit off, and halving it loses at most another half.
  have above : q * 2 ^ (e + 1) ≤ m + 1 := by
    have cleared : (2 : Rat) * (q * q.den * 2 ^ (e + 1)) ≤ (2 * m + 1) * q.den := by
      rw [← numCast]
      exact_mod_cast lower
    exact le_of_mul_le_mul_right (by nlinarith : q * 2 ^ (e + 1) * q.den ≤ (m + 1) * q.den) denPositive
  have below : (m : Rat) ≤ q * 2 ^ (e + 1) + 1 := by
    have cleared : (2 : Rat) * m * q.den ≤ 2 * (q * q.den * 2 ^ (e + 1)) + q.den := by
      rw [← numCast]
      exact_mod_cast upper
    exact le_of_mul_le_mul_right (by nlinarith : m * (q.den : Rat) ≤ (q * 2 ^ (e + 1) + 1) * q.den) denPositive
  have close : ∀ v : Rat, 0 ≤ v → |v * 2 ^ (e + 1) - m| ≤ 1 → 0 ≤ v ∧ |v - q| ≤ 1 / 2 ^ (52 - k) := by
    intro v positive off
    obtain ⟨offBelow, offAbove⟩ := abs_le.mp off
    rw [halves] at offBelow offAbove above below
    have step : (1 : Rat) / 2 ^ e ≤ 1 / 2 ^ (52 - k) :=
      one_div_le_one_div_of_le (by positivity) (pow_le_pow_right₀ (by norm_num) fine)
    refine ⟨positive, le_trans (abs_le.mpr ⟨?_, ?_⟩) step⟩
    · rw [neg_le, le_div_iff₀ power]
      linarith
    · rw [le_div_iff₀ power]
      linarith
  have sign : decide (q < 0) = false := decide_eq_false (not_lt.mpr positive.le)
  have some : ¬ q.num = 0 := numPositive.ne'
  unfold rounded nearest
  simp only [if_neg some, grid, inUnits_neg, mantissa, sign]
  split
  · rw [toRat_neg]
    refine close _ (by positivity) ?_
    rw [div_mul_cancel₀ _ (by positivity), sub_self, abs_zero]
    exact zero_le_one
  · have low : ((m / 2 : Nat) : Rat) * 2 ≤ m := by exact_mod_cast Nat.div_mul_le_self m 2
    have high : (m : Rat) ≤ ((m / 2 : Nat) : Rat) * 2 + 1 := by exact_mod_cast (by omega : m ≤ m / 2 * 2 + 1)
    rw [show -((e + 1 : Nat) : Int) + 1 = -(e : Int) by omega, toRat_neg]
    refine close _ (by positivity) ?_
    rw [halves, mul_comm 2, ← mul_assoc, div_mul_cancel₀ _ power.ne', abs_le]
    constructor <;> linarith

theorem rounded_le {q : Rat} (nonneg : 0 ≤ q) (one : q < 1) : 0 ≤ rounded q ∧ rounded q ≤ q + 1 / 1000 := by
  obtain ⟨positive, close⟩ := rounded_near nonneg (show 0 ≤ 52 by decide) (by simpa using one)
  have step : (1 : Rat) / 2 ^ (52 - 0) ≤ 1 / 1000 := by norm_num
  exact ⟨positive, by linarith [(abs_le.mp close).2]⟩

/-- Rounding does not look at the sign. -/
theorem rounded_neg (q : Rat) : rounded (-q) = -rounded q := by
  by_cases zero : q.num = 0
  · obtain rfl : q = 0 := Rat.num_eq_zero.mp zero
    rw [neg_zero, rounded_zero, neg_zero]
  have other : decide (-q < 0) = !decide (q < 0) := by
    have some : q ≠ 0 := fun same => zero (Rat.num_eq_zero.mpr same)
    rw [← decide_not, decide_eq_decide, Left.neg_neg_iff, not_lt]
    exact ⟨le_of_lt, fun le => lt_of_le_of_ne le (Ne.symm some)⟩
  have flip : ∀ (negative : Bool) (m : Nat) (e : Int),
      (⟨!negative, m, e⟩ : Binary64).toRat = -(⟨negative, m, e⟩ : Binary64).toRat := by
    intro negative m e
    cases negative <;> simp [toRat]
  unfold rounded nearest
  rw [if_neg zero, if_neg (by simpa using zero)]
  simp only [Rat.num_neg_eq_neg_num, Rat.neg_den, Int.natAbs_neg, other]
  split <;> exact flip _ _ _

theorem rounded_within_one {q : Rat} (small : |q| < 2 ^ 52) : |rounded q - q| ≤ 1 := by
  have near : ∀ p : Rat, 0 ≤ p → p < 2 ^ 52 → |rounded p - p| ≤ 1 := by
    intro p nonneg below
    simpa using (rounded_near nonneg le_rfl below).2
  rcases le_total 0 q with nonneg | negative
  · exact near q nonneg (lt_of_le_of_lt (le_abs_self q) small)
  · have mirrored := near (-q) (neg_nonneg.mpr negative) (lt_of_le_of_lt (neg_le_abs q) small)
    rwa [rounded_neg, neg_sub_neg, abs_sub_comm] at mirrored

end Binary64

end GatedRepair.Number
