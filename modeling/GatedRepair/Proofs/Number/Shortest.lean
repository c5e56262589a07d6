import GatedRepair.Number
import GatedRepair.Proofs.Number.Nearest
import Mathlib.Data.Rat.Floor
import Mathlib.Tactic.Ring

/-!
# The shortest decimal of a number between a half and one

Sixteen places tell such numbers apart. So the shortest decimal of one is a row of at most sixteen places after the point
that rounds to it (`shortest_middle`).
-/

namespace GatedRepair.Number

namespace Decimal

theorem toRat_neg (digits k : Nat) : (⟨digits, -(k : Int)⟩ : Decimal).toRat = digits / 10 ^ k := by
  simp only [toRat]
  rw [zpow_neg, zpow_natCast, div_eq_mul_inv]

/-- Cutting zeros off changes neither the value, nor makes it longer. -/
theorem strip_spec (d : Decimal) (some : d.digits ≠ 0) (fuel : Nat) :
    (d.strip fuel).toRat = d.toRat ∧ (d.strip fuel).digits ≠ 0 ∧ d.exponent ≤ (d.strip fuel).exponent := by
  induction fuel generalizing d with
  | zero => exact ⟨rfl, some, Int.le_refl _⟩
  | succ fuel ih =>
    unfold strip
    split
    · next zero =>
      obtain ⟨value, filled, longer⟩ := ih ⟨d.digits / 10, d.exponent + 1⟩ (by show d.digits / 10 ≠ 0; omega)
      refine ⟨value.trans ?_, filled, Int.le_trans (Int.le_add_one (Int.le_refl _)) longer⟩
      have whole : d.digits = d.digits / 10 * 10 := by omega
      have cast : (d.digits : Rat) = (d.digits / 10 : Nat) * 10 := by exact_mod_cast whole
      simp only [toRat, cast]
      rw [zpow_add_one₀ (by norm_num)]
      ring
    · exact ⟨rfl, some, Int.le_refl _⟩

end Decimal

namespace Binary64

/-- A number above a half, up to nine tenths. -/
def Middle (x : Binary64) : Prop := ∃ m, x = ⟨false, m, -53⟩ ∧ 2 ^ 52 < m ∧ 10 * m ≤ 9 * 2 ^ 53

/-- What lies between 0.55 and 0.88 rounds to such a number. -/
theorem middle_nearest {q : Rat} (lower : 11 / 20 ≤ q) (upper : q ≤ 22 / 25) : (nearest q).Middle := by
  have below := Int.floor_le (q * 2 ^ 53)
  have above := Int.lt_floor_add_one (q * 2 ^ 53)
  obtain ⟨f, floor⟩ : ∃ f : Nat, ⌊q * 2 ^ 53⌋ = f := by
    refine Int.eq_ofNat_of_zero_le (Int.floor_nonneg.mpr ?_)
    linarith
  rw [floor, Int.cast_natCast] at below above
  -- The nearer of the two whole numbers, or the even one.
  have choice : ∃ m : Nat, Within m q ∧ f ≤ m ∧ m ≤ f + 1 := by
    by_cases near : q * 2 ^ 53 < f + 1 / 2
    · exact ⟨f, ⟨by linarith, near.le, fun _ => ⟨by linarith, near⟩⟩, le_rfl, by omega⟩
    · rw [not_lt] at near
      by_cases tie : q * 2 ^ 53 = f + 1 / 2 ∧ f % 2 = 0
      · refine ⟨f, ⟨by linarith, tie.1.le, fun odd => ?_⟩, le_rfl, by omega⟩
        omega
      · refine ⟨f + 1, ⟨?_, ?_, fun odd => ⟨?_, ?_⟩⟩, by omega, le_rfl⟩
        · push_cast
          linarith
        · push_cast
          linarith
        · push_cast
          have other : q * 2 ^ 53 ≠ f + 1 / 2 := fun same => tie ⟨same, by omega⟩
          have more := lt_of_le_of_ne near other.symm
          linarith
        · push_cast
          linarith
  obtain ⟨m, within, atLeast, atMost⟩ := choice
  have low : 4953000000000000 < f := by
    have cleared : ((4953000000000000 : Nat) : Rat) < f := by
      push_cast
      linarith
    exact_mod_cast cleared
  have high : f < 7927000000000000 := by
    have cleared : (f : Rat) < ((7927000000000000 : Nat) : Rat) := by
      push_cast
      linarith
    exact_mod_cast cleared
  exact ⟨m, nearest_within (by omega) (by omega) within, by omega, by omega⟩

section
variable {m : Nat}

/-- The reals that round to a number between a half and one. -/
theorem reach_half (half : 2 ^ 52 < m) :
    reach ⟨false, m, -53⟩ = (((m : Rat) - 1 / 2) / 2 ^ 53, ((m : Rat) + 1 / 2) / 2 ^ 53) := by
  have inner : ¬ (m = Nat.pow 2 52 ∧ (-1074 : Int) < -53) := fun both => by
    have : m = 2 ^ 52 := both.1
    omega
  have step : (2 : Rat) ^ (-53 : Int) = 1 / 2 ^ 53 := by rw [zpow_neg]; norm_num
  have small : (2 : Rat) ^ ((-53 : Int) - 1) = 1 / 2 / 2 ^ 53 := by
    rw [show ((-53 : Int) - 1) = -(54 : Int) by decide, zpow_neg]
    norm_num
  unfold reach
  simp only [if_neg inner, step, small]
  refine Prod.ext ?_ ?_
  · simp only
    ring
  · simp only
    ring

theorem within_of_readsBack {d : Decimal} (half : 2 ^ 52 < m) (reads : readsBack ⟨false, m, -53⟩ d = true) :
    Within m d.toRat := by
  have power : (0 : Rat) < 2 ^ 53 := by positivity
  unfold readsBack at reads
  simp only [reach_half half] at reads
  split at reads
  · next even =>
    obtain ⟨lower, upper⟩ := Bool.and_eq_true_iff.mp reads
    refine ⟨(div_le_iff₀ power).mp (of_decide_eq_true lower), (le_div_iff₀ power).mp (of_decide_eq_true upper), ?_⟩
    intro odd
    omega
  · obtain ⟨lower, upper⟩ := Bool.and_eq_true_iff.mp reads
    have lower := (div_lt_iff₀ power).mp (of_decide_eq_true lower)
    have upper := (lt_div_iff₀ power).mp (of_decide_eq_true upper)
    exact ⟨lower.le, upper.le, fun _ => ⟨lower, upper⟩⟩

theorem readsBack_of_near {d : Decimal} (half : 2 ^ 52 < m) (lower : (m : Rat) - 1 / 2 < d.toRat * 2 ^ 53)
    (upper : d.toRat * 2 ^ 53 < (m : Rat) + 1 / 2) : readsBack ⟨false, m, -53⟩ d = true := by
  have power : (0 : Rat) < 2 ^ 53 := by positivity
  have low := (div_lt_iff₀ power).mpr lower
  have high := (lt_div_iff₀ power).mpr upper
  unfold readsBack
  simp only [reach_half half]
  split
  · exact Bool.and_eq_true_iff.mpr ⟨decide_eq_true low.le, decide_eq_true high.le⟩
  · exact Bool.and_eq_true_iff.mpr ⟨decide_eq_true low, decide_eq_true high⟩

/-- The nearer neighbour is at most half a step away. -/
theorem head_neighbours {size : Rat} (positive : 0 < size) (exponent : Int) :
    ∃ n : Nat, ⟨n, exponent⟩ ∈ neighbours size exponent ∧ size / (10 : Rat) ^ exponent - 1 / 2 ≤ n ∧
      n ≤ size / (10 : Rat) ^ exponent + 1 / 2 := by
  have scaled : 0 < size / (10 : Rat) ^ exponent := div_pos positive (zpow_pos (by norm_num) _)
  have floorNonneg : 0 ≤ (size / (10 : Rat) ^ exponent).floor := Int.floor_nonneg.mpr scaled.le
  have cast : (((size / (10 : Rat) ^ exponent).floor.toNat : Nat) : Rat) = ((size / (10 : Rat) ^ exponent).floor : Int) := by
    rw [← Int.cast_natCast, Int.toNat_of_nonneg floorNonneg]
  have below : ((size / (10 : Rat) ^ exponent).floor : Rat) ≤ size / (10 : Rat) ^ exponent := Int.floor_le _
  have above : size / (10 : Rat) ^ exponent < ((size / (10 : Rat) ^ exponent).floor : Rat) + 1 := Int.lt_floor_add_one _
  unfold neighbours
  simp only
  split
  · next near =>
    refine ⟨_, List.mem_cons_self, ?_, ?_⟩
    · rw [cast] at near ⊢
      rcases near with less | ⟨same, -⟩ <;> linarith
    · rw [cast]
      linarith
  · next far =>
    have more : 1 / 2 ≤ size / (10 : Rat) ^ exponent - ((size / (10 : Rat) ^ exponent).floor.toNat : Nat) :=
      not_lt.mp fun less => far (.inl less)
    refine ⟨_, List.mem_cons_self, ?_, ?_⟩
    · push_cast
      rw [cast]
      linarith
    · push_cast
      rw [cast] at more ⊢
      linarith

theorem exponent_neighbours {size : Rat} {exponent : Int} {d : Decimal} (member : d ∈ neighbours size exponent) :
    d.exponent = exponent := by
  unfold neighbours at member
  simp only at member
  split at member
  · rcases List.mem_cons.mp member with rfl | member
    · rfl
    · rw [List.mem_singleton.mp member]
  · rcases List.mem_cons.mp member with rfl | member
    · rfl
    · rw [List.mem_singleton.mp member]

/-- Sixteen places are enough. -/
theorem readsBack_sixteen (half : 2 ^ 52 < m) :
    ∃ d ∈ neighbours ((m : Rat) / 2 ^ 53) (-16), d.digits ≠ 0 ∧ readsBack ⟨false, m, -53⟩ d = true := by
  have large : ((2 ^ 52 : Nat) : Rat) < m := by exact_mod_cast half
  push_cast at large
  have positive : 0 < (m : Rat) / 2 ^ 53 := div_pos (by linarith) (by positivity)
  obtain ⟨n, member, lower, upper⟩ := head_neighbours positive (-16)
  have power : (10 : Rat) ^ (-16 : Int) = 1 / 10 ^ 16 := by rw [zpow_neg]; norm_num
  have value : (⟨n, -16⟩ : Decimal).toRat = n / 10 ^ 16 := Decimal.toRat_neg n 16
  rw [power] at lower upper
  have scaled : (m : Rat) / 2 ^ 53 / (1 / 10 ^ 16) = m * (10 ^ 16 / 2 ^ 53) := by ring
  rw [scaled] at lower upper
  refine ⟨_, member, ?_, ?_⟩
  · rintro (rfl : n = 0)
    norm_num at lower upper
    linarith
  · refine readsBack_of_near half ?_ ?_
    · rw [value]
      norm_num at lower upper ⊢
      linarith
    · rw [value]
      norm_num at lower upper ⊢
      linarith

theorem log2_half (half : 2 ^ 52 < m) (one : m < 2 ^ 53) : m.log2 = 52 := by
  obtain ⟨low, high⟩ := log2_bounds (show m ≠ 0 by omega)
  have above : m.log2 < 53 := (Nat.pow_lt_pow_iff_right (by decide)).mp (Nat.lt_of_le_of_lt low one)
  have below : 52 < m.log2 + 1 := (Nat.pow_lt_pow_iff_right (a := 2) (by decide)).mp (Nat.lt_trans half high)
  omega

/-- The first place after the point leads. -/
theorem leading_half (half : 2 ^ 52 < m) (one : m < 2 ^ 53) : leading ((m : Rat) / 2 ^ 53) (-2) 4 = -1 := by
  have large : ((2 ^ 52 : Nat) : Rat) < m := by exact_mod_cast half
  have small : (m : Rat) < ((2 ^ 53 : Nat) : Rat) := by exact_mod_cast one
  push_cast at large small
  have first : (10 : Rat) ^ ((-2 : Int) + 1) ≤ (m : Rat) / 2 ^ 53 := by
    rw [show ((-2 : Int) + 1) = -1 by decide, zpow_neg, le_div_iff₀ (by positivity)]
    norm_num
    linarith
  have second : ¬ (10 : Rat) ^ ((-2 : Int) + 1 + 1) ≤ (m : Rat) / 2 ^ 53 := by
    rw [show ((-2 : Int) + 1 + 1) = 0 by decide, not_le, div_lt_iff₀ (by positivity)]
    norm_num
    linarith
  unfold leading
  rw [if_pos first]
  unfold leading
  rw [if_neg second]
  decide

/-- The shortest decimal has at most sixteen places, and reads back. -/
theorem shortest_reads (half : 2 ^ 52 < m) (one : m < 2 ^ 53) :
    (shortest ⟨false, m, -53⟩).digits ≠ 0 ∧ Within m (shortest ⟨false, m, -53⟩).toRat ∧
      -16 ≤ (shortest ⟨false, m, -53⟩).exponent := by
  have size : (m : Rat) * (2 : Rat) ^ (-53 : Int) = m / 2 ^ 53 := by
    rw [zpow_neg]
    norm_num
    ring
  have guess : Int.fdiv ((-53 + (m.log2 : Int)) * 30103) 100000 - 1 = -2 := by
    rw [log2_half half one]
    decide
  unfold shortest
  simp only [size, guess, leading_half half one]
  obtain ⟨e, member, filled, reads⟩ := readsBack_sixteen half
  have enough : ((List.range 16).findSome? fun (more : Nat) => (neighbours ((m : Rat) / 2 ^ 53) (-1 - (more : Int))).find?
      fun d => d.digits ≠ 0 && readsBack ⟨false, m, -53⟩ d).isSome = true := by
    refine List.findSome?_isSome_iff.mpr ⟨15, by decide, ?_⟩
    exact List.find?_isSome.mpr ⟨e, member, by simp [filled, reads]⟩
  obtain ⟨d, found⟩ := Option.isSome_iff_exists.mp enough
  obtain ⟨more, inside, first⟩ := List.exists_of_findSome?_eq_some found
  have short : more < 16 := List.mem_range.mp inside
  have good := List.find?_some first
  simp only [ne_eq, Bool.and_eq_true, decide_not, Bool.not_eq_true'] at good
  have exponent := exponent_neighbours (List.mem_of_find?_eq_some first)
  rw [show List.range 17 = List.range 16 ++ [16] from rfl, List.findSome?_append, found]
  simp only [Option.some_or, Option.getD_some]
  obtain ⟨value, some, longer⟩ := d.strip_spec (by simpa using good.1) 20
  refine ⟨some, ?_, by omega⟩
  rw [value]
  exact within_of_readsBack half good.2

/-- The shortest decimal is a row of places after the point, of which the first is not zero. -/
theorem shortest_middle (half : 2 ^ 52 < m) (most : 10 * m ≤ 9 * 2 ^ 53) :
    ∃ digits k, shortest ⟨false, m, -53⟩ = ⟨digits, -((k + 1 : Nat) : Int)⟩ ∧ k < 16 ∧ 10 ^ k ≤ digits ∧
      digits < 10 ^ (k + 1) ∧ digits < 2 ^ 53 ∧ Within m ((digits : Rat) / 10 ^ (k + 1)) := by
  obtain ⟨some, within, long⟩ := shortest_reads half (show m < 2 ^ 53 by omega)
  generalize shortest ⟨false, m, -53⟩ = d at some within long ⊢
  obtain ⟨digits, exponent⟩ := d
  have large : ((2 ^ 52 : Nat) : Rat) + 1 ≤ m := by exact_mod_cast half
  have small : (10 : Rat) * m ≤ ((9 * 2 ^ 53 : Nat) : Rat) := by exact_mod_cast most
  push_cast at large small
  have lower := within.lower
  have upper := within.upper
  -- A decimal without places after the point is at least one.
  have negative : exponent < 0 := by
    by_contra whole
    obtain ⟨e, rfl⟩ := Int.eq_ofNat_of_zero_le (not_lt.mp whole)
    have product : 1 ≤ digits * 10 ^ e := Nat.mul_pos (Nat.pos_of_ne_zero some) (Nat.pow_pos (by decide))
    have least : (1 : Rat) ≤ (digits * 10 ^ e : Nat) := by exact_mod_cast product
    have value : (⟨digits, (e : Int)⟩ : Decimal).toRat = (digits * 10 ^ e : Nat) := by
      simp only [Decimal.toRat]
      rw [zpow_natCast]
      push_cast
      rfl
    rw [value] at upper
    linarith
  obtain ⟨k, rfl⟩ : ∃ k : Nat, exponent = -((k + 1 : Nat) : Int) := ⟨(-exponent - 1).toNat, by omega⟩
  have few : k < 16 := by
    have : -16 ≤ -((k + 1 : Nat) : Int) := long
    omega
  have value := Decimal.toRat_neg digits (k + 1)
  rw [value] at lower upper within
  have power : (0 : Rat) < 10 ^ (k + 1) := by positivity
  have longest : (10 : Rat) ^ (k + 1) ≤ 10 ^ 16 := pow_le_pow_right₀ (by norm_num) (by omega)
  have lowerDigits : ((m : Rat) - 1 / 2) * 10 ^ (k + 1) ≤ digits * 2 ^ 53 := by
    have scaled := mul_le_mul_of_nonneg_right lower power.le
    rwa [div_mul_eq_mul_div, div_mul_cancel₀ _ power.ne'] at scaled
  have upperDigits : digits * 2 ^ 53 ≤ ((m : Rat) + 1 / 2) * 10 ^ (k + 1) := by
    have scaled := mul_le_mul_of_nonneg_right upper power.le
    rwa [div_mul_eq_mul_div, div_mul_cancel₀ _ power.ne'] at scaled
  refine ⟨digits, k, rfl, few, ?_, ?_, ?_, within⟩
  · have cleared : (10 : Rat) ^ k ≤ digits := by
      rw [pow_succ] at lowerDigits power
      nlinarith
    exact_mod_cast cleared
  · have cleared : (digits : Rat) < 10 ^ (k + 1) := by nlinarith
    exact_mod_cast cleared
  · have cleared : (digits : Rat) < 2 ^ 53 := by nlinarith
    exact_mod_cast cleared

end

end Binary64

end GatedRepair.Number
