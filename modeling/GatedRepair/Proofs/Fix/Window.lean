import GatedRepair.Fix.Proposal
import GatedRepair.Proofs.Edit.Splicing
import GatedRepair.Proofs.Files.Walk

/-!
# What a window shows and what its fix replaces

The search for a window comes to its end with a region that the file has (`windowOf_suits`): around a line it is the widest
one that the halving of the radius meets and that fits, or the line alone, and at the head of a file it is the longest one that
fits, or the first line alone. So the region that a request shows is one that an edit can replace.
-/

namespace GatedRepair

open Text

namespace Region

/-- Only a region that begins with the first line and stops with the last one holds all lines. -/
theorem isWhole_iff {r : Region} {total : Nat} (inside : r.fits total = true ∨ (r = ⟨1, 0⟩ ∧ total = 0)) :
    r.isWhole total = true ↔ ∀ k, 1 ≤ k → k ≤ total → r.start ≤ k ∧ k ≤ r.stop := by
  rcases inside with lies | ⟨rfl, rfl⟩
  · obtain ⟨first, order, last⟩ := fits_iff.mp lies
    simp only [isWhole, Bool.and_eq_true, decide_eq_true_eq]
    constructor
    · rintro ⟨start, stop⟩ k low high
      omega
    · intro all
      have atFirst := all 1 (by omega) (by omega)
      have atLast := all total (by omega) (by omega)
      omega
  · constructor
    · intro _ k low high
      omega
    · intro _
      rfl

theorem mem_around (line radius : Nat) {total : Nat} (some : 0 < total) :
    (around line radius total).start ≤ max 1 (min line total) ∧ max 1 (min line total) ≤ (around line radius total).stop := by
  have nonempty : total ≠ 0 := by omega
  simp only [around, nonempty, if_false]
  omega

theorem around_zero (line : Nat) {total : Nat} (some : 0 < total) :
    (around line 0 total).start = (around line 0 total).stop := by
  have nonempty : total ≠ 0 := by omega
  simp only [around, nonempty, if_false]
  omega

end Region

namespace Window

variable {lines : List (List Char)} {region : Region}

/-- The characters of some lines, and one more for each line. -/
def cost (lines : List (List Char)) : Nat := (lines.map fun line => line.length + 1).sum

@[simp] theorem cost_nil : cost [] = 0 := rfl

@[simp] theorem cost_cons (line : List Char) (more : List (List Char)) :
    cost (line :: more) = line.length + 1 + cost more := by
  simp [cost]

/-- Joined lines have one character for each line but the last. -/
theorem length_join_le (lines : List (List Char)) : (join ['\n'] lines).length ≤ cost lines := by
  induction lines with
  | nil => simp [join]
  | cons line more ih =>
    cases more with
    | nil => simp [join]
    | cons next rest =>
      simp only [join, List.intercalate_cons_cons, List.length_append, List.length_singleton, cost_cons] at ih ⊢
      omega

/-! ## Windows around a line -/

/-- The search around a line comes to its end: the radius is halved while the region is too long and more than a line. -/
theorem around_ends (lines : List (List Char)) (line radius : Nat) :
    ∃ halvings, (radius / 2 ^ halvings = 0 ∨
        shownLength lines (Region.around line (radius / 2 ^ halvings) lines.length) ≤ limit) ∧
      around lines line radius = ofRegion lines (Region.around line (radius / 2 ^ halvings) lines.length) ∧
      ∀ earlier < halvings, radius / 2 ^ earlier ≠ 0 ∧
        limit < shownLength lines (Region.around line (radius / 2 ^ earlier) lines.length) := by
  fun_induction around lines line radius with
  | case1 radius region done =>
    refine ⟨0, ?_, ?_, ?_⟩
    · simpa [region] using done
    · simp [region]
    · intro earlier before
      omega
  | case2 radius region more ih =>
    obtain ⟨halvings, done, window, longer⟩ := ih
    have half : ∀ k, radius / 2 / 2 ^ k = radius / 2 ^ (k + 1) := by
      intro k
      rw [Nat.div_div_eq_div_mul, Nat.pow_succ']
    simp only [half] at done window longer
    refine ⟨halvings + 1, done, window, ?_⟩
    intro earlier before
    cases earlier with
    | zero => simpa [region, not_or] using more
    | succ k => exact longer k (by omega)

/-- Of the regions around a line the search has met this one as the first that fits or is a single line. -/
structure Widest (lines : List (List Char)) (line radius : Nat) (w : Window) (halvings : Nat) : Prop where
  shown : w = ofRegion lines (Region.around line (radius / 2 ^ halvings) lines.length)
  soon : halvings ≤ radius.log2 + 1
  wider : ∀ earlier < halvings, radius / 2 ^ earlier ≠ 0 ∧
    limit < shownLength lines (Region.around line (radius / 2 ^ earlier) lines.length)

theorem around_widest (lines : List (List Char)) (line radius : Nat) :
    ∃ halvings, Widest lines line radius (around lines line radius) halvings ∧
      (radius / 2 ^ halvings = 0 ∨
        shownLength lines (Region.around line (radius / 2 ^ halvings) lines.length) ≤ limit) := by
  obtain ⟨halvings, done, window, wider⟩ := around_ends lines line radius
  refine ⟨halvings, ⟨window, ?_, wider⟩, done⟩
  cases halvings with
  | zero => omega
  | succ last =>
    -- the last radius that was halved was not zero
    have positive := (wider last (by omega)).1
    have power : 2 ^ last ≤ radius := by
      by_contra less
      exact positive (Nat.div_eq_of_lt (by omega))
    have some : radius ≠ 0 := by
      have := Nat.two_pow_pos last
      omega
    have := (Nat.le_log2 some).mpr power
    omega

/-! ## Windows at the head of a file -/

/-- The lines that are counted: as many as fit, and the first one in any case. -/
theorem headCount_spec (lines : List (List Char)) (used taken : Nat) :
    ∃ more ≤ lines.length, headCount lines used taken = taken + more ∧
      (used + cost (lines.take more) ≤ limit ∨ more = 0 ∨ (taken = 0 ∧ more = 1)) ∧
      (∀ k ≤ lines.length, used + cost (lines.take k) ≤ limit → k ≤ more) ∧
      (taken = 0 → lines ≠ [] → more ≠ 0) := by
  induction lines generalizing used taken with
  | nil => exact ⟨0, by simp, rfl, by simp, by simp, by simp⟩
  | cons line rest ih =>
    unfold headCount
    simp only
    by_cases full : limit < used + line.length + 1 ∧ 0 < taken
    · rw [if_pos full]
      refine ⟨0, by simp, rfl, by simp, ?_, by omega⟩
      intro k _ fits
      cases k with
      | zero => omega
      | succ k =>
        rw [List.take_succ_cons, cost_cons] at fits
        omega
    · rw [if_neg full]
      obtain ⟨more, within, count, fits, longest, -⟩ := ih (used + line.length + 1) (taken + 1)
      refine ⟨more + 1, by simpa using within, by omega, ?_, ?_, by omega⟩
      · rw [List.take_succ_cons, cost_cons]
        rcases fits with fits | none | ⟨impossible, -⟩
        · left
          omega
        · rw [none, List.take_zero, cost_nil]
          omega
        · omega
      · intro k short fits
        cases k with
        | zero => omega
        | succ k =>
          rw [List.take_succ_cons, cost_cons] at fits
          have := longest k (by simpa using short) (by omega)
          omega

/-- The window shows the longest head of the file that fits, or the first line alone. -/
structure Longest (lines : List (List Char)) (w : Window) : Prop where
  first : w.region.start = 1
  inside : w.region.stop ≤ lines.length
  some : lines ≠ [] → 1 ≤ w.region.stop
  fits : cost (lines.take w.region.stop) ≤ limit ∨ w.region.stop = 1
  longest : ∀ k ≤ lines.length, cost (lines.take k) ≤ limit → k ≤ w.region.stop

theorem head_longest (lines : List (List Char)) : Longest lines (head lines) := by
  obtain ⟨count, within, taken, fits, longest, some⟩ := headCount_spec lines 0 0
  rw [Nat.zero_add] at taken
  simp only [Nat.zero_add] at fits longest
  have stop : (head lines).region.stop = count := taken
  refine ⟨rfl, ?_, ?_, ?_, ?_⟩
  · rw [stop]
    exact within
  · intro nonempty
    rw [stop]
    exact Nat.one_le_iff_ne_zero.mpr (some rfl nonempty)
  · rw [stop]
    rcases fits with fits | none | ⟨-, one⟩
    · exact .inl fits
    · left
      simp [none]
    · exact .inr one
  · intro k short fit
    rw [stop]
    exact longest k short fit

/-! ## All windows -/

/-- A region that a window may have: one that lies in the file, or nothing if the file has no lines, and small unless it is a
single line. -/
structure Showable (lines : List (List Char)) (region : Region) : Prop where
  inside : region.fits lines.length = true ∨ (region = ⟨1, 0⟩ ∧ lines.length = 0)
  small : shownLength lines region ≤ limit ∨ region.start = region.stop

theorem around_showable (lines : List (List Char)) (line radius : Nat) :
    ∃ region, Showable lines region ∧ around lines line radius = ofRegion lines region := by
  obtain ⟨halvings, ⟨shown, -, -⟩, done⟩ := around_widest lines line radius
  refine ⟨_, ?_, shown⟩
  by_cases none : lines.length = 0
  · constructor
    · right
      exact ⟨by simp [Region.around, none], none⟩
    · left
      have empty := List.length_eq_zero_iff.mp none
      simp [shownLength, empty, Region.select, join]
  · have some : 0 < lines.length := by omega
    constructor
    · left
      exact Region.fits_around line _ some
    · rcases done with single | small
      · right
        rw [single]
        exact Region.around_zero line some
      · exact .inl small

theorem head_showable (lines : List (List Char)) :
    ∃ region, Showable lines region ∧ head lines = ofRegion lines region := by
  obtain ⟨-, inside, some, fits, -⟩ := head_longest lines
  simp only [head, ofRegion] at inside some fits
  refine ⟨_, ?_, rfl⟩
  constructor
  · by_cases none : lines = []
    · right
      simp [none, headCount]
    · left
      exact Region.fits_iff.mpr ⟨Nat.le_refl 1, some none, inside⟩
  · rcases fits with fits | one
    · left
      refine Nat.le_trans (length_join_le _) ?_
      simpa [Region.select, Region.size] using fits
    · exact .inr one.symm

/-- What a window of a file is good for: it shows the lines of its region, it knows whether these are all, it can be replaced,
and it is small unless it is a single line. -/
structure Suits (content : String) (w : Window) : Prop where
  shows : w.text.toList = join ['\n'] (w.region.select (Text.lines content.toList))
  whole : w.wholeFile = true ↔
    ∀ k, 1 ≤ k → k ≤ (Text.lines content.toList).length → w.region.start ≤ k ∧ k ≤ w.region.stop
  inside : w.wholeFile = true ∨
    (1 ≤ w.region.start ∧ w.region.start ≤ w.region.stop ∧ w.region.stop ≤ (Text.lines content.toList).length)
  replaceable : ∀ code, ∃ text, Edit.splice content w.editTarget code = .ok text
  small : w.text.length ≤ limit ∨ w.region.start = w.region.stop

/-- A window onto a region that may be shown suits the file. -/
theorem Showable.suits {content : String} (showable : Showable (Text.lines content.toList) region) :
    Suits content (ofRegion (Text.lines content.toList) region) := by
  obtain ⟨inside, small⟩ := showable
  constructor
  · simp [ofRegion]
  · exact Region.isWhole_iff inside
  · rcases inside with fits | ⟨rfl, none⟩
    · right
      exact Region.fits_iff.mp fits
    · left
      simp [ofRegion, Region.isWhole, none]
  · intro code
    unfold editTarget
    by_cases all : (ofRegion (Text.lines content.toList) region).wholeFile = true
    · rw [if_pos all]
      exact ⟨_, rfl⟩
    · rw [if_neg all]
      rcases inside with fits | ⟨rfl, none⟩
      · apply (Edit.splice_isOk_iff content code region).mpr
        rw [← length_lines, fits]
      · simp [ofRegion, Region.isWhole, none] at all
  · simpa [ofRegion, shownLength] using small

end Window

namespace FixContext

theorem windowOf_showable (d : Defect) (radius : Nat) (lines : List (List Char)) :
    ∃ region, Window.Showable lines region ∧ windowOf d radius lines = Window.ofRegion lines region := by
  unfold windowOf
  cases d.line with
  | some line => exact Window.around_showable lines line radius
  | none => exact Window.head_showable lines

theorem source?_eq_some {tree : Files.Tree} {root text : String} {d : Defect} {file : Files.RepositoryFile} :
    source? tree root d = some (file, text) ↔
      ∃ path, d.file = some path ∧ tree.resolve root path = .ok file ∧ tree.readText file.absolute = .ok text := by
  simp only [source?, Option.bind_eq_bind, Option.bind_eq_some_iff, Files.toOption_eq_some, Option.pure_def,
    Option.some.injEq, Prod.mk.injEq]
  constructor
  · rintro ⟨path, place, _, resolved, _, read, rfl, rfl⟩
    exact ⟨path, place, resolved, read⟩
  · rintro ⟨path, place, resolved, read⟩
    exact ⟨path, place, file, resolved, text, read, rfl, rfl⟩

/-- Whatever a file holds, the window that is shown for a defect suits the file. For a defect at a line it holds the nearest
line that the file has and is the widest one that the search meets, and for other defects it is the longest head. A request
shows code just if the defect's path is resolved and text is read there, and then it shows this window of that text. -/
theorem windowOf_suits (d : Defect) (radius : Nat) (content : String) :
    Window.Suits content (windowOf d radius (lines content.toList)) ∧
      (match d.line with
        | some line =>
          (lines content.toList ≠ [] →
            (windowOf d radius (lines content.toList)).region.start ≤ max 1 (min line (lines content.toList).length) ∧
            max 1 (min line (lines content.toList).length) ≤ (windowOf d radius (lines content.toList)).region.stop) ∧
          ∃ halvings,
            Window.Widest (lines content.toList) line radius (windowOf d radius (lines content.toList)) halvings
        | none => Window.Longest (lines content.toList) (windowOf d radius (lines content.toList))) ∧
      ∀ (tree : Files.Tree) root shown, (build tree root d radius).excerpt = some shown ↔
        ∃ path file text, d.file = some path ∧ tree.resolve root path = .ok file ∧ tree.readText file.absolute = .ok text ∧
          shown = ⟨file.relative, windowOf d radius (lines text.toList)⟩ := by
  refine ⟨?_, ?_, ?_⟩
  · obtain ⟨region, showable, shown⟩ := windowOf_showable d radius (lines content.toList)
    rw [shown]
    exact showable.suits
  · unfold windowOf
    cases d.line with
    | none => exact Window.head_longest _
    | some line =>
      obtain ⟨halvings, widest, -⟩ := Window.around_widest (lines content.toList) line radius
      refine ⟨?_, halvings, widest⟩
      intro nonempty
      simp only [widest.shown]
      exact Region.mem_around line _ (List.length_pos_iff.mpr nonempty)
  · intro tree root shown
    constructor
    · intro built
      unfold build at built
      split at built
      · next file text found =>
        obtain ⟨path, place, resolved, read⟩ := source?_eq_some.mp found
        exact ⟨path, file, text, place, resolved, read, (Option.some.inj built).symm⟩
      · cases built
    · rintro ⟨path, file, text, place, resolved, read, rfl⟩
      rw [build, source?_eq_some.mpr ⟨path, place, resolved, read⟩]
      rfl

end FixContext

end GatedRepair
