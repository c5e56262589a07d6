import GatedRepair.Proofs.Number.Nearest
import GatedRepair.Time

/-!
# Points in time are read back

A point in time is read back from its text (`ofText?_text`).
-/

namespace GatedRepair.Timestamp

open Number Text Time

/-! ## Fields -/

/-- Digits are read up to the width, or up to what is no digit. -/
theorem number?_digits {width n : Nat} {digits rest : List Char} (each : ∀ c ∈ digits, (digit? c).isSome = true)
    (fits : digits.length ≤ width)
    (stop : ∀ c more, rest.take (width - digits.length) = c :: more → (digit? c).isSome = false)
    (value : ofDigits? bound64 digits = some n) : number? width (digits ++ rest) = some (n, rest) := by
  have ends : (rest.take (width - digits.length)).takeWhile (fun c => (digit? c).isSome) = [] := by
    cases after : rest.take (width - digits.length) with
    | nil => rfl
    | cons c more =>
      rw [List.takeWhile_cons_of_neg]
      simpa using stop c more after
  have front : ((digits ++ rest).take width).takeWhile (fun c => (digit? c).isSome) = digits := by
    rw [List.take_append, List.take_of_length_le fits, List.takeWhile_append_of_pos each, ends, List.append_nil]
  unfold number?
  simp only [front, value, Option.map_some, List.drop_left]

theorem trimStart_digit {c : Char} (digit : (digit? c).isSome = true) (rest : List Char) :
    trimStart (c :: rest) = c :: rest := by
  have range : 48 ≤ c.toNat ∧ c.toNat ≤ 57 := by
    by_cases range : 48 ≤ c.toNat ∧ c.toNat ≤ 57
    · exact range
    · simp [digit?, range] at digit
  have full : isBlank c = false := by
    unfold isBlank
    simp only [Bool.or_eq_false_iff, Bool.and_eq_false_iff, decide_eq_false_iff_not, beq_eq_false_iff_ne]
    omega
  simp [trimStart, full]

theorem padded_eq_cons (width n : Nat) : ∃ c more, padded 10 width n = c :: more ∧ (digit? c).isSome = true := by
  cases same : padded 10 width n with
  | nil => exact absurd same (padded_ne_nil 10 width n)
  | cons c more => exact ⟨c, more, rfl, digit?_padded (same ▸ List.mem_cons_self)⟩

theorem trimStart_padded (width n : Nat) (rest : List Char) :
    trimStart (padded 10 width n ++ rest) = padded 10 width n ++ rest := by
  obtain ⟨c, more, same, digit⟩ := padded_eq_cons width n
  rw [same]
  exact trimStart_digit digit _

theorem number?_padded {width n : Nat} (wide : 0 < width) (fits : n < 10 ^ width) (small : n < bound64)
    (rest : List Char) : number? width (padded 10 width n ++ rest) = some (n, rest) := by
  have length := length_padded (by decide) wide fits
  refine number?_digits (fun c => digit?_padded) (Nat.le_of_eq length) ?_ (ofDigits?_padded small)
  rw [length, Nat.sub_self]
  intro c more impossible
  cases impossible

theorem field?_padded {n : Nat} (fits : n < 100) (rest : List Char) :
    field? 2 (padded 10 2 n ++ rest) = some (n, rest) := by
  unfold field?
  rw [trimStart_padded]
  exact number?_padded (by decide) (by omega) (Nat.lt_trans fits (by decide)) rest

theorem separator?_cons {c : Char} (full : isBlank c = false) (rest : List Char) :
    separator? c (c :: rest) = some rest := by
  have start : trimStart (c :: rest) = c :: rest := by simp [trimStart, full]
  unfold separator?
  rw [start]
  exact after?_eq_some_iff.mpr rfl

theorem number?_year {n : Nat} (small : n < bound64) (rest : List Char) :
    number? (padded 10 4 n ++ '-' :: rest).length (padded 10 4 n ++ '-' :: rest) = some (n, '-' :: rest) := by
  refine number?_digits (fun c => digit?_padded) (by simp) ?_ (ofDigits?_padded small)
  intro c more after
  rw [List.length_append, Nat.add_sub_cancel_left, List.take_length] at after
  obtain ⟨rfl, -⟩ := List.cons.inj after
  rfl

theorem year?_yearChars {year : Int} (lower : -262143 ≤ year) (upper : year ≤ 262142) (rest : List Char) :
    year? (yearChars year ++ '-' :: rest) = some (year, '-' :: rest) := by
  unfold yearChars
  split
  · next short =>
    obtain ⟨c, more, same, digit⟩ := padded_eq_cons 4 year.toNat
    have read := @number?_padded 4 year.toNat (by decide) (by omega) (Nat.lt_trans (show _ < 10000 by omega) (by decide))
      ('-' :: rest)
    have start := trimStart_padded 4 year.toNat ('-' :: rest)
    unfold year?
    rw [start]
    rw [same, List.cons_append] at read ⊢
    split
    · next sign =>
      obtain ⟨rfl, -⟩ := List.cons.inj sign
      exact absurd digit (by decide)
    · next sign =>
      obtain ⟨rfl, -⟩ := List.cons.inj sign
      exact absurd digit (by decide)
    · simp only [read, Option.map_some]
      rw [Int.toNat_of_nonneg short.1]
  · next long =>
    have read := @number?_year year.natAbs (Nat.lt_trans (show _ < 1000000 by omega) (by decide)) rest
    split
    · next negative =>
      have start : trimStart ('-' :: (padded 10 4 year.natAbs ++ '-' :: rest)) =
        '-' :: (padded 10 4 year.natAbs ++ '-' :: rest) := rfl
      unfold year?
      rw [List.cons_append, start]
      simp only [read, Option.map_some]
      rw [show -(year.natAbs : Int) = year by omega]
    · next positive =>
      have start : trimStart ('+' :: (padded 10 4 year.natAbs ++ '-' :: rest)) =
        '+' :: (padded 10 4 year.natAbs ++ '-' :: rest) := rfl
      unfold year?
      rw [List.cons_append, start]
      simp only [read, Option.map_some]
      rw [show (year.natAbs : Int) = year by omega]

/-! ## Fractions -/

theorem fraction?_padded {width n : Nat} (wide : 0 < width) (short : width ≤ 9) (fits : n < 10 ^ width) :
    fraction? ('.' :: (padded 10 width n ++ ['Z'])) = some (n * 10 ^ (9 - width), ['Z']) := by
  have length := length_padded (by decide) wide fits
  have small : n < bound64 := by
    have power : 10 ^ width ≤ 10 ^ 9 := Nat.pow_le_pow_right (by decide) short
    exact Nat.lt_of_lt_of_le fits (Nat.le_trans power (by decide))
  have read : number? 9 (padded 10 width n ++ ['Z']) = some (n, ['Z']) := by
    refine number?_digits (fun c => digit?_padded) (by omega) ?_ (ofDigits?_padded small)
    intro c more after
    have last : c ∈ ['Z'] := List.mem_of_mem_take (after ▸ List.mem_cons_self)
    obtain rfl := List.mem_singleton.mp last
    rfl
  unfold fraction?
  simp only [read, Option.bind_eq_bind, Option.bind_some, Option.pure_def, List.length_append, List.length_singleton,
    length, Nat.add_sub_cancel]
  rfl

theorem fraction?_fractionChars {nano : Nat} (short : nano < 1000000000) :
    fraction? (fractionChars nano ++ ['Z']) = some (nano, ['Z']) := by
  unfold fractionChars
  split
  · next zero =>
    rw [zero]
    rfl
  · split
    · next milli =>
      rw [List.cons_append, fraction?_padded (by decide) (by decide) (by omega)]
      rw [show nano / 1000000 * 10 ^ (9 - 3) = nano by omega]
    · split
      · next micro =>
        rw [List.cons_append, fraction?_padded (by decide) (by decide) (by omega)]
        rw [show nano / 1000 * 10 ^ (9 - 6) = nano by omega]
      · rw [List.cons_append, fraction?_padded (by decide) (by decide) (by omega)]
        rw [show nano * 10 ^ (9 - 9) = nano by omega]

/-! ## Points in time -/

theorem daysIn_le (year : Int) (month : Nat) : daysIn year month ≤ 31 := by
  unfold daysIn
  split
  · split <;> decide
  · split <;> decide

theorem ofFields?_self (t : Timestamp) : ofFields? t.year t.month t.day t.hour t.minute t.second t.nano = some t :=
  dif_pos t.isTime

/-- Without an offset the fields are those in UTC. -/
theorem ofLocal?_self (t : Timestamp) :
    ofLocal? t.year t.month t.day t.hour t.minute t.second t.nano 0 = some t := by
  have whole := ofFields?_self t
  obtain ⟨year, month, day, hour, minute, second, nano, isTime⟩ := t
  simp only [Time.isTime, Bool.and_eq_true, decide_eq_true_eq] at isTime
  have early : ¬ ((hour * 60 + minute : Nat) : Int) - 0 < 0 := by omega
  have late : ¬ (1440 : Int) ≤ ((hour * 60 + minute : Nat) : Int) - 0 := by omega
  have total : (((hour * 60 + minute : Nat) : Int) - 0).toNat = hour * 60 + minute := by omega
  have hours : (hour * 60 + minute) / 60 = hour := by omega
  have minutes : (hour * 60 + minute) % 60 = minute := by omega
  unfold ofLocal?
  simp only [whole, Option.bind_eq_bind, Option.bind_some, if_neg early, if_neg late, total, hours, minutes]

/-- A point in time is read back from its text. -/
theorem ofText?_text (t : Timestamp) : ofText? t.text = some t := by
  have fields := t.isTime
  simp only [Time.isTime, Bool.and_eq_true, decide_eq_true_eq] at fields
  have days := daysIn_le t.year t.month
  obtain ⟨⟨⟨⟨⟨⟨⟨⟨⟨lower, upper⟩, -⟩, month⟩, -⟩, day⟩, hour⟩, minute⟩, second⟩, nano⟩ := fields
  have dash : isBlank '-' = false := by decide
  have colon : isBlank ':' = false := by decide
  unfold ofText? text
  rw [String.toList_ofList]
  simp only [List.append_assoc, List.cons_append, Option.bind_eq_bind, year?_yearChars lower upper, Option.bind_some,
    separator?_cons dash, separator?_cons colon, field?_padded (show t.month < 100 by omega),
    field?_padded (show t.day < 100 by omega), field?_padded (show t.hour < 100 by omega),
    field?_padded (show t.minute < 100 by omega), field?_padded (show t.second < 100 by omega),
    fraction?_fractionChars nano]
  exact ofLocal?_self t

end GatedRepair.Timestamp
