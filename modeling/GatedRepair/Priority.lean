import GatedRepair.Defect

/-!
# The order of repair

Open defects are taken in the order of their scores, the smallest first. A score weighs severity above kind,
kind above the attempts made so far, and lets past success decide the rest.
-/

namespace GatedRepair.Priority

open GatedRepair.Number

/-- The share of past attempts that succeeded, for a type and a category of defects. -/
abbrev Rates := String → String → Rat

/-- The share that is assumed while nothing is known. -/
def neutralRate : Rat := 1 / 2

def defaultBatchSize : Nat := 10

/-- The size of a batch; no batch is empty by request. -/
def batchSize (requested : Nat) : Nat := max requested 1

/-- A share, moved into the range from zero to one. -/
def clamped (rate : Rat) : Rat := if rate < 0 then 0 else if 1 < rate then 1 else rate

/-- The part of a score that history has no say in. -/
def baseScore (d : Defect) : Nat := d.severity.rank * 1000 + d.kind.rank * 100 + d.attempts * 10

/-- The score of a defect, where `round` is what becomes of an exact number in the arithmetic at hand. The base
is a whole number that every such arithmetic keeps. -/
def score (round : Rat → Rat) (d : Defect) (rate : Rat) : Rat := round ((baseScore d : Rat) - round (clamped rate * 5))

/-- A defect's identifier with its score. -/
structure Ranked where
  id : String
  score : Rat
  deriving DecidableEq, Repr

/-- The open defects in the order of their scores. Equal scores keep the order given. -/
def rankWith (round : Rat → Rat) (defects : List Defect) (rates : Rates) : List Ranked :=
  ((defects.filter Defect.isOpen).map fun d => ⟨d.id, score round d (rates d.typeName d.category)⟩).mergeSort
    fun left right => decide (left.score ≤ right.score)

/-- The open defects in order, with scores of 53 bits. -/
def rank (defects : List Defect) (rates : Rates) : List Ranked := rankWith Binary64.rounded defects rates

/-- The next batch of defects. -/
def select (batch : Nat) (defects : List Defect) (rates : Rates) : List Ranked :=
  (rank defects rates).take (batchSize batch)

end GatedRepair.Priority
