import GatedRepair.Json.Document
import GatedRepair.Proofs.Json.Scanning
import GatedRepair.Proofs.Number.Nearest
import GatedRepair.Proofs.Number.Shortest

/-!
# Taking written values apart

What is written of numbers, optional values, lists and records is proper, and is found again when the value is taken apart.
-/

namespace GatedRepair.Json

open Number

/-! ## Natural numbers -/

/-- Zero alone is written with a zero in front. -/
theorem head_toDigits {n : Nat} (positive : 0 < n) : (Nat.toDigits 10 n).head? ≠ some '0' := by
  induction n using Nat.strongRecOn with
  | ind n ih =>
    rw [Nat.toDigits_eq_if (by decide)]
    split
    · next small =>
      have value := digit?_digitChar small
      intro zero
      rw [List.head?_cons, Option.some.injEq] at zero
      rw [zero, show digit? '0' = some 0 from rfl] at value
      have := Option.some.inj value
      omega
    · have head := List.head?_eq_some_head (@Nat.toDigits_ne_nil (n / 10) 10)
      rw [List.head?_append, head, Option.some_or, ← head]
      exact ih (n / 10) (by omega) (by omega)

theorem takeWhile_digits {digits : List Char} (each : ∀ c ∈ digits, (digit? c).isSome = true) :
    digits.takeWhile (fun c => (digit? c).isSome) = digits ∧ digits.dropWhile (fun c => (digit? c).isSome) = [] := by
  refine ⟨List.takeWhile_eq_self_iff.mpr each, List.dropWhile_eq_nil_iff.mpr each⟩

theorem numberParts?_toDigits (n : Nat) :
    numberParts? (Nat.toDigits 10 n) = some ⟨false, Nat.toDigits 10 n, none, none⟩ := by
  have each : ∀ c ∈ Nat.toDigits 10 n, (digit? c).isSome = true := fun c member => digit?_toDigits member
  obtain ⟨whole, rest⟩ := takeWhile_digits each
  have spare : ¬ ((Nat.toDigits 10 n).head? = some '0' ∧ 1 < (Nat.toDigits 10 n).length) := by
    rintro ⟨zero, long⟩
    by_cases positive : 0 < n
    · exact head_toDigits positive zero
    · obtain rfl : n = 0 := by omega
      simp at long
  have unsigned : ∀ more, Nat.toDigits 10 n ≠ '-' :: more := by
    intro more same
    have digit := each '-' (same ▸ List.mem_cons_self)
    exact absurd digit (by decide)
  rw [numberParts?_unsigned unsigned]
  unfold unsignedParts?
  simp only [whole, rest]
  rw [if_neg (by simpa using spare)]
  rfl

theorem numberParts?_nat (n : Nat) : numberParts? n.repr.toList = some ⟨false, Nat.toDigits 10 n, none, none⟩ := by
  rw [Nat.toList_repr, numberParts?_toDigits]

theorem proper_nat (n : Nat) : Proper (.nat n) := by
  rw [Json.nat, Proper, numberParts?_nat]
  rfl

theorem natural?_nat {bound n : Nat} (short : n < bound) (small : n < bound64) : natural? bound (.nat n) = some n := by
  simp only [natural?, Json.nat, numberParts?_nat, Option.bind_eq_bind, Option.bind_some, NumberParts.integer?,
    ofDigits?_toDigits small]
  simp [short]

/-! ## Optional values and lists -/

section
variable {α : Type} {write : α → Json} {read : Json → Option α}

theorem proper_ofOption (each : ∀ x, Proper (write x)) (value : Option α) : Proper (ofOption write value) := by
  cases value with
  | none => trivial
  | some x => exact each x

theorem option?_ofOption {value : Option α} (filled : ∀ x, write x ≠ .null)
    (each : ∀ x, value = some x → read (write x) = some x) : option? read (ofOption write value) = some value := by
  cases value with
  | none => rfl
  | some x =>
    have same : option? read (write x) = (read (write x)).map some := by
      unfold option?
      split
      · next null => exact absurd null (filled x)
      · rfl
    rw [ofOption, same, each x rfl]
    rfl

theorem properItems_map {values : List α} (each : ∀ x ∈ values, Proper (write x)) : ProperItems (values.map write) := by
  induction values with
  | nil => trivial
  | cons x more ih =>
    obtain ⟨first, others⟩ := List.forall_mem_cons.mp each
    exact ⟨first, ih others⟩

theorem proper_ofList {values : List α} (each : ∀ x ∈ values, Proper (write x)) : Proper (ofList write values) :=
  properItems_map each

theorem mapM_map {values : List α} (each : ∀ x ∈ values, read (write x) = some x) :
    (values.map write).mapM read = some values := by
  induction values with
  | nil => rfl
  | cons x more ih =>
    obtain ⟨first, others⟩ := List.forall_mem_cons.mp each
    rw [List.map_cons, List.mapM_cons, first, ih others]
    rfl

theorem list?_ofList {values : List α} (each : ∀ x ∈ values, read (write x) = some x) :
    list? read (ofList write values) = some values := mapM_map each

end

/-! ## Records -/

theorem proper_record {members : List (String × Json)} (each : ∀ member ∈ members, Proper member.2) :
    Proper (record members) := by
  unfold record Proper
  induction members with
  | nil => trivial
  | cons member more ih =>
    obtain ⟨first, others⟩ := List.forall_mem_cons.mp each
    exact ⟨rfl, first, ih others⟩

theorem mapM_named (members : List (String × Json)) :
    (members.map fun (name, value) => (some name, value)).mapM
        (fun (entry : Option String × Json) => entry.1.map fun text => (text, entry.2)) = some members := by
  induction members with
  | nil => rfl
  | cons member more ih =>
    rw [List.map_cons, List.mapM_cons, ih]
    rfl

theorem then_eq {α β : Type} {first : Option α} {next : α → Option β} {x : α} {y : β} (given : first = some x)
    (rest : next x = some y) : (first >>= next) = some y := given ▸ rest

section
variable {α : Type} {m : Members} {name : String} {read : Json → Option α} {value : Json} {x : α}
  (there : m.get? name = some value) (good : read value = some x)
include there good

theorem required_eq : m.required name read = some x := by
  rw [Members.required, there, Option.bind_some, good]

theorem defaulted_eq (standard : α) : m.defaulted name standard read = some x := by
  simp only [Members.defaulted, there, good]

end

theorem members?_record {names : List String} {members : List (String × Json)} (named : members.map Prod.fst = names)
    (distinct : names.Nodup) : members? names (record members) = some ⟨false, members⟩ := by
  subst named
  have all : members.filter (fun entry => (members.map Prod.fst).contains entry.1) = members :=
    List.filter_eq_self.mpr fun member inside => by simpa using ⟨member.2, inside⟩
  unfold members? membersIn? record
  simp only [mapM_named, Option.bind_eq_bind, Option.bind_some, all]
  rw [if_pos distinct]

/-- A dictionary is read, if each of its values is. -/
theorem dictionary?_record {α : Type} {read : Json → Option α} {members : List (String × Json)}
    (each : ∀ member ∈ members, (read member.2).isSome = true) : (dictionary? read (record members)).isSome = true := by
  have folded : ∀ found : List (String × α),
      ((members.map fun (member : String × Json) => (some member.1, member.2)).foldlM
        (fun found (entry : Option String × Json) => do return putSorted (← entry.1) (← read entry.2) found)
        found).isSome = true := by
    induction members with
    | nil => intro found; rfl
    | cons member more ih =>
      intro found
      obtain ⟨first, others⟩ := List.forall_mem_cons.mp each
      obtain ⟨value, there⟩ := Option.isSome_iff_exists.mp first
      rw [List.map_cons, List.foldlM_cons]
      simp only [there, Option.bind_eq_bind, Option.bind_some, Option.pure_def]
      exact ih others _
  exact folded []

end GatedRepair.Json

/-!
## Binary numbers as JSON

A number between a half and nine tenths is read back from a document as it was (`float?_float`). Not every number is: what
has more than 53 significant bits in its digits may be read as a neighbour.
-/

namespace GatedRepair

namespace Number

/-- All digits are taken, if their number is small enough. -/
theorem takeDigits_of_foldl {significand n : Nat} {digits : List Char}
    (value : digits.foldl (extend? 10 bound64 digit?) (some significand) = some n) :
    Json.takeDigits significand digits = (n, 0) := by
  induction digits generalizing significand with
  | nil =>
    obtain rfl := Option.some.inj value
    rfl
  | cons c more ih =>
    have stuck : ∀ rest : List Char, rest.foldl (extend? 10 bound64 digit?) none = none := by
      intro rest
      induction rest with
      | nil => rfl
      | cons _ _ ih => exact ih
    rw [List.foldl_cons] at value
    unfold Json.takeDigits
    cases step : extend? 10 bound64 digit? (some significand) c with
    | none =>
      rw [step, stuck] at value
      cases value
    | some next =>
      rw [step] at value
      exact ih value

namespace Binary64

/-- Powers of ten with up to sixteen zeros are kept. -/
theorem powerOfTen_small {k : Nat} (few : k < 16) : powerOfTen (k + 1) = 10 ^ (k + 1) := by
  by_cases last : k = 15
  · subst last
    decide +kernel
  · have short : Nat.pow 10 (k + 1) < 2 ^ 53 :=
      Nat.lt_of_le_of_lt (Nat.pow_le_pow_right (by decide) (show k + 1 ≤ 15 by omega)) (by decide)
    have cast : ((Nat.pow 10 (k + 1) : Nat) : Rat) = 10 ^ (k + 1) := by
      rw [show Nat.pow 10 (k + 1) = 10 ^ (k + 1) from rfl]
      push_cast
      rfl
    rw [powerOfTen, rounded_nat short, cast]

theorem ofDecimal?_places {m digits k : Nat} (half : 2 ^ 52 < m) (one : m < 2 ^ 53) (few : k < 16) (short : digits < 2 ^ 53)
    (within : Within m ((digits : Rat) / 10 ^ (k + 1))) :
    ofDecimal? digits (-((k + 1 : Nat) : Int)) = some ⟨false, m, -53⟩ := by
  have quotient : divideByPower digits (k + 1) = m / 2 ^ 53 := by
    unfold divideByPower
    rw [dif_pos (show k + 1 ≤ 308 by omega), powerOfTen_small few, rounded, nearest_within half one within, toRat_half]
  have negative : ofDecimal? digits (-((k + 1 : Nat) : Int)) = some (nearest (divideByPower (rounded digits) (k + 1))) := rfl
  rw [negative, rounded_nat short, quotient, nearest_within half one (within_self m)]

/-- The text of a number between a half and nine tenths is a row of places after the point. -/
theorem text_middle {m digits k : Nat} (half : 2 ^ 52 < m)
    (decimal : shortest ⟨false, m, -53⟩ = ⟨digits, -((k + 1 : Nat) : Int)⟩) (least : 10 ^ k ≤ digits)
    (most : digits < 10 ^ (k + 1)) :
    (Nat.toDigits 10 digits).length = k + 1 ∧
      text ⟨false, m, -53⟩ = String.ofList ('0' :: '.' :: Nat.toDigits 10 digits) := by
  have length : (Nat.toDigits 10 digits).length = k + 1 := by
    have atMost := (Nat.length_toDigits_le_iff (b := 10) (by decide) (Nat.succ_pos k)).mpr most
    by_cases single : k = 0
    · have some := @Nat.length_toDigits_pos 10 digits
      omega
    · have atLeast : ¬ (Nat.toDigits 10 digits).length ≤ k := by
        rw [Nat.length_toDigits_le_iff (by decide) (by omega)]
        omega
      omega
  refine ⟨length, ?_⟩
  have some : ¬ m = 0 := by omega
  have before : ¬ (0 ≤ -((k + 1 : Nat) : Int) ∧ ((k + 1 : Nat) : Int) + -((k + 1 : Nat) : Int) ≤ 16) := by omega
  have inside : ¬ (0 < ((k + 1 : Nat) : Int) + -((k + 1 : Nat) : Int) ∧
      ((k + 1 : Nat) : Int) + -((k + 1 : Nat) : Int) ≤ 16) := by omega
  have after : -5 < ((k + 1 : Nat) : Int) + -((k + 1 : Nat) : Int) ∧
      ((k + 1 : Nat) : Int) + -((k + 1 : Nat) : Int) ≤ 0 := by omega
  have zeros : (-(((k + 1 : Nat) : Int) + -((k + 1 : Nat) : Int))).toNat = 0 := by omega
  unfold text
  simp only [if_neg some, decimal, length, if_neg before, if_neg inside, if_pos after, zeros]
  simp

end Binary64

end Number

namespace Json

open Number Binary64

/-- The parts of a row of places after the point. -/
theorem numberParts?_places (digits : Nat) :
    numberParts? ('0' :: '.' :: Nat.toDigits 10 digits) = some ⟨false, ['0'], some (Nat.toDigits 10 digits), none⟩ := by
  obtain ⟨fraction, rest⟩ := takeWhile_digits fun c (member : c ∈ Nat.toDigits 10 digits) => digit?_toDigits member
  have whole : ('0' :: '.' :: Nat.toDigits 10 digits).takeWhile (fun c => (digit? c).isSome) = ['0'] := rfl
  have tail : ('0' :: '.' :: Nat.toDigits 10 digits).dropWhile (fun c => (digit? c).isSome) = '.' :: Nat.toDigits 10 digits :=
    rfl
  have filled : (Nat.toDigits 10 digits).isEmpty = false := by simp
  rw [numberParts?_unsigned fun more same => absurd (List.cons.inj same).1 (by decide)]
  unfold unsignedParts?
  simp only [whole, tail, fraction, rest, filled]
  rfl

/-- A number between a half and nine tenths is read back. -/
theorem float?_float {x : Binary64} (middle : x.Middle) : float? (.float x) = some x ∧ Proper (.float x) := by
  obtain ⟨m, rfl, half, most⟩ := middle
  have one : m < 2 ^ 53 := by omega
  obtain ⟨digits, k, decimal, few, atLeast, atMost, short, within⟩ := shortest_middle half most
  obtain ⟨length, spelled⟩ := text_middle half decimal atLeast atMost
  have parts : numberParts? (Binary64.text ⟨false, m, -53⟩).toList =
      some ⟨false, ['0'], some (Nat.toDigits 10 digits), none⟩ := by
    rw [spelled, String.toList_ofList, numberParts?_places]
  have zero : takeDigits 0 ['0'] = (0, 0) := rfl
  have taken : takeDigits 0 (Nat.toDigits 10 digits) = (digits, 0) :=
    takeDigits_of_foldl (foldl_decimal (Nat.lt_trans short (by decide)))
  have scale : ((0 : Nat) : Int) - ((k + 1 - 0 : Nat) : Int) = -((k + 1 : Nat) : Int) := by omega
  have read := ofDecimal?_places half one few short within
  refine ⟨?_, ?_⟩
  · simp only [float?, Json.float, parts, Option.bind_some, NumberParts.float?, zero, Option.getD_some, taken, length, scale,
      read]
    rfl
  · simp only [Json.float, Proper, parts]
    rfl

end Json

end GatedRepair
