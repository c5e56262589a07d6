import GatedRepair.Proofs.Files.Shape
import GatedRepair.Proofs.Files.Steady
import GatedRepair.Proofs.Text.Lines
import GatedRepair.State
import Mathlib.Logic.Function.Iterate

/-!
# Keeping the state directory out of version control

The state directory is added to the ignore file of the repository before every save. Where the file holds text, whole lines are added
the first time, and the entry is recognised from then on. Bytes that are no text are read as an empty text, in which the entry is never
found, so it is added again by every call (`ensure_repeated`).
-/

namespace GatedRepair

open Files

/-! ## Bytes that are text -/

theorem toUTF8_of_fromUTF8? {content : ByteArray} {text : String} (decoded : String.fromUTF8? content = some text) :
    text.toUTF8 = content := by
  unfold String.fromUTF8? at decoded
  split at decoded
  · obtain rfl := Option.some.inj decoded
    rfl
  · cases decoded

theorem fromUTF8?_toUTF8 (text : String) : String.fromUTF8? text.toUTF8 = some text := dif_pos text.isValidUTF8

/-- Bytes in front of a text are a text if the whole is one. -/
theorem isValidUTF8_of_append {content : ByteArray} {text : String} (some : 0 < text.rawEndPos)
    (whole : (content ++ text.toUTF8).IsValidUTF8) : content.IsValidUTF8 := by
  have edge : (⟨content.size⟩ : String.Pos.Raw).IsValid ⟨content ++ text.toUTF8, whole⟩ := by
    have size : 0 < text.toByteArray.size := some
    have inside : content.size < (content ++ text.toUTF8).size := by
      rw [ByteArray.size_append]
      exact Nat.lt_add_of_pos_right size
    -- A character begins behind the bytes in front, so another one ends there.
    refine String.Pos.Raw.isValid_iff_isUTF8FirstByte.mpr (.inr ⟨inside, ?_⟩)
    have first : (content ++ text.toUTF8)[content.size] = text.toByteArray[0] := by
      rw [ByteArray.getElem_append_right (Nat.le_refl _)]
      simp
    have begins := String.isUTF8FirstByte_getUTF8Byte_zero (b := text) (h := some)
    unfold String.getUTF8Byte at begins ⊢
    simp only at first ⊢
    rw [first]
    exact begins
  have front := edge.isValidUTF8_extract_zero
  rwa [show (content ++ text.toUTF8).extract 0 content.size = content from ByteArray.extract_append_eq_left rfl] at front

theorem fromUTF8?_append_eq_none {content : ByteArray} {text : String} (some : 0 < text.rawEndPos)
    (undecodable : String.fromUTF8? content = none) : String.fromUTF8? (content ++ text.toUTF8) = none := by
  unfold String.fromUTF8? at undecodable ⊢
  split
  · next whole =>
    rw [dif_pos (isValidUTF8_of_append some whole)] at undecodable
    cases undecodable
  · rfl

namespace State

open Text

/-! ## Texts to which the entry is added -/

/-- The two lines that are added. -/
def entry : String := ignoreAddition ""

theorem isIgnored_iff {content : String} :
    isIgnored content = true ↔ ∃ line ∈ lines content.toList, trim line = ".remedy/".toList ∨ trim line = ".remedy".toList := by
  have spelt : ∀ (line : List Char) (text : String), String.ofList line = text ↔ line = text.toList := fun line text =>
    ⟨fun same => by rw [← same, String.toList_ofList], fun same => by rw [same, String.ofList_toList]⟩
  refine List.any_eq_true.trans (exists_congr fun line => and_congr_right fun _ => ?_)
  rw [Bool.or_eq_true, decide_eq_true_iff, decide_eq_true_iff, spelt, spelt]
  rfl

/-- The first of the added lines begins a line: nothing is open in front of it. -/
theorem toList_addition (text : String) : ∃ opening, (ignoreAddition text).toList = opening ++ entry.toList ∧
    (opening = ['\n'] ∨ opening = [] ∧ (allBlank text.toList = true ∨ endsInNewline text.toList = true)) := by
  unfold ignoreAddition
  simp only
  split
  · exact ⟨['\n'], by simp [entry, ignoreAddition, allBlank], .inl rfl⟩
  · next closed =>
    refine ⟨[], by simp [entry, ignoreAddition, allBlank], .inr ⟨rfl, ?_⟩⟩
    by_cases blank : allBlank text.toList = true
    · exact .inl blank
    · exact .inr (by simpa [blank] using closed)

/-- Behind the addition the entry is recognised. -/
theorem isIgnored_append (text : String) : isIgnored (text ++ ignoreAddition text) = true := by
  obtain ⟨opening, spelt, -⟩ := toList_addition text
  have cut : (text ++ ignoreAddition text).toList =
      (text.toList ++ (opening ++ "# remedy state".toList)) ++ '\n' :: (ignoreLine ++ "\n").toList := by
    have two : entry.toList = "# remedy state".toList ++ '\n' :: (ignoreLine ++ "\n").toList := by decide
    rw [String.toList_append, spelt, two]
    simp
  have line : ignoreLine.toList ∈ lines (ignoreLine ++ "\n").toList := by decide
  exact isIgnored_iff.mpr ⟨ignoreLine.toList, cut ▸ mem_lines_of_append line, .inl (by decide)⟩

/-- Lines that say something stay lines. -/
theorem mem_split_append {text : String} {line : List Char} (inside : line ∈ split '\n' text.toList)
    (full : allBlank line = false) : line ∈ split '\n' (text ++ ignoreAddition text).toList := by
  obtain ⟨opening, spelt, rfl | ⟨rfl, blank | closed⟩⟩ := toList_addition text
  · rw [String.toList_append, spelt, List.singleton_append, split_append]
    exact List.mem_append_left _ inside
  · have all : allBlank line = true := by
      refine List.all_eq_true.mpr fun c member => ?_
      exact List.all_eq_true.mp blank c (mem_of_mem_split inside c member).1
    rw [all] at full
    cases full
  · obtain ⟨front, ends⟩ := List.getLast?_eq_some_iff.mp (beq_iff_eq.mp closed)
    have last : split '\n' (front ++ ['\n']) = split '\n' front ++ [[]] := split_append '\n' front []
    rw [ends, last] at inside
    rw [String.toList_append, spelt, ends, List.append_assoc, List.nil_append, List.singleton_append, split_append]
    rcases List.mem_append.mp inside with early | empty
    · exact List.mem_append_left _ early
    · obtain rfl := List.mem_singleton.mp empty
      cases full

/-! ## What one call writes -/

/-- The content of an ignore file after a call. Bytes that are no text are read as an empty one. -/
def added (content : ByteArray) : ByteArray :=
  let text := (String.fromUTF8? content).getD ""
  if isIgnored text then content else content ++ (ignoreAddition text).toUTF8

theorem added_text (text : String) :
    added text.toUTF8 = if isIgnored text then text.toUTF8 else (text ++ ignoreAddition text).toUTF8 := by
  unfold added
  simp only [fromUTF8?_toUTF8, Option.getD_some]
  split
  · rfl
  · exact String.toByteArray_append.symm

/-- In a text the entry is recognised from the first call on. -/
theorem iterate_added_text (text : String) : ∃ new : String, isIgnored new = true ∧ (new = text ∨ new = text ++ ignoreAddition text) ∧
    ∀ n, added^[n + 1] text.toUTF8 = new.toUTF8 := by
  have stays : ∀ new : String, isIgnored new = true → ∀ n, added^[n] new.toUTF8 = new.toUTF8 := by
    intro new found n
    refine Function.iterate_fixed ?_ n
    rw [added_text, if_pos found]
  by_cases found : isIgnored text = true
  · exact ⟨text, found, .inl rfl, fun n => stays text found (n + 1)⟩
  · refine ⟨_, isIgnored_append text, .inr rfl, fun n => ?_⟩
    rw [Function.iterate_succ_apply, added_text, if_neg found, stays _ (isIgnored_append text)]

theorem added_of_undecodable {content : ByteArray} (undecodable : String.fromUTF8? content = none) :
    added content = content ++ entry.toUTF8 := by
  have unseen : isIgnored "" = false := by decide
  unfold added entry
  simp only [undecodable, Option.getD_none, unseen, Bool.false_eq_true, if_false]

theorem iterate_added_of_undecodable {content : ByteArray} (undecodable : String.fromUTF8? content = none) (n : Nat) :
    added^[n] content = (· ++ entry.toUTF8)^[n] content := by
  induction n generalizing content with
  | zero => rfl
  | succ n ih =>
    have some : 0 < entry.rawEndPos := by decide
    rw [Function.iterate_succ_apply, Function.iterate_succ_apply, added_of_undecodable undecodable,
      ih (fromUTF8?_append_eq_none some undecodable)]

/-! ## Calls -/

def ignoreFile (root : String) : String := Path.within root ".gitignore"

def gitDirectory (root : String) : String := Path.within root ".git"

def excludeFile (root : String) : String := Path.within (Path.within (gitDirectory root) "info") "exclude"

/-- The directories are made, and the path is that of the ignore file that is used. -/
structure Prepared (tree : Tree) (root path : String) : Prop where
  housed : tree.exists? (directory root) = true
  used : (path = ignoreFile root ∧ tree.exists? (ignoreFile root) = true) ∨
    (path = excludeFile root ∧ tree.exists? (ignoreFile root) = false ∧ tree.isDirectory (gitDirectory root) = true ∧
      tree.isDirectory (Path.within (gitDirectory root) "info") = true)

section
variable {tree before after : Tree} {root path : String} {place : Location} {content old : ByteArray} {mode : Mode}

theorem Prepared.sameShape (prepared : Prepared before root path) (same : SameShape before after) : Prepared after root path := by
  refine ⟨same.exists? prepared.housed, ?_⟩
  rcases prepared.used with ⟨rfl, there⟩ | ⟨rfl, absent, git, info⟩
  · exact .inl ⟨rfl, same.exists? there⟩
  · exact .inr ⟨rfl, (exists?_sameShape same _).trans absent, same.isDirectory git, same.isDirectory info⟩

/-- Once the directories are made a call does nothing but to see to the ignore file. -/
theorem Prepared.ensure_eq (prepared : Prepared tree root path) :
    ensure (.sound tree) root = (.ok (), addToIgnoreFile (.sound tree) path) := by
  have ignored : ensureIgnored (.sound tree) root = addToIgnoreFile (.sound tree) path := by
    unfold ensureIgnored
    rcases prepared.used with ⟨rfl, there⟩ | ⟨rfl, absent, git, info⟩
    · exact if_pos there
    · have made := Disk.makeDirectories_there info
      unfold gitDirectory at made git
      unfold ignoreFile at absent
      simp only [show (Disk.sound tree).tree = tree from rfl, absent, git, made, Bool.false_eq_true, if_false, if_true]
      rfl
  have housed : (Disk.sound tree).tree.exists? (directory root) = true := prepared.housed
  unfold ensure
  rw [if_pos housed, ignored]

/-- What is done to the ignore file: nothing, or the addition is written behind its content. -/
theorem addToIgnoreFile_found (found : tree.find? path = .ok (place, .file content mode)) (free : mode.refusal? = none) :
    ∃ after, addToIgnoreFile (.sound tree) path = .sound after ∧ SameShape tree after ∧
      after.find? path = .ok (place, .file (added content) mode) := by
  have stood := (find?_settled found).2
  have read : (tree.readText path).toOption.getD "" = (String.fromUTF8? content).getD "" := by
    rw [Tree.readText, Disk.read_found found]
    simp only
    cases String.fromUTF8? content <;> rfl
  have reads : (Disk.sound tree).readText path = (tree.readText path, Disk.sound tree) := rfl
  unfold addToIgnoreFile added
  simp only [reads, read]
  split
  · exact ⟨tree, rfl, .refl tree, found⟩
  · generalize (ignoreAddition ((String.fromUTF8? content).getD "")).toUTF8 = more
    refine ⟨tree.put place (.file (content ++ more) mode), ?_, sameShape_put stood _ _, ?_⟩
    · have able := Disk.writable_found found
      rw [free] at able
      simp only [Disk.append, Disk.writing, Disk.meet, Disk.sound, able]
      rfl
    · rw [Disk.find?_put_file (content ++ more) mode stood found, if_pos rfl]

/-- What makes the upkeep go well: the state directory can be made, and the ignore file stands where it can be written. It is the
one of the repository, or that of the version control where the repository has none, also once the state directory is made. -/
structure Upkeep (tree : Tree) (root path : String) (place : Location) (old : ByteArray) (mode : Mode) : Prop where
  rooted : root ≠ ""
  housed : (ensure (.sound tree) root).1 = .ok ()
  stands : tree.find? path = .ok (place, .file old mode)
  free : mode.refusal? = none
  used : path = ignoreFile root ∨ path = excludeFile root ∧
    ((Disk.sound tree).makeDirectories (directory root)).2.tree.exists? (ignoreFile root) = false

/-- The first call makes the state directory, unless it is there, and goes on. -/
theorem exists_housed (rooted : root ≠ "") (housed : (ensure (.sound tree) root).1 = .ok ()) :
    ∃ ready, ((Disk.sound tree).makeDirectories (directory root)).2 = .sound ready ∧ ready.exists? (directory root) = true ∧
      ensure (.sound tree) root = (.ok (), ensureIgnored (.sound ready) root) := by
  unfold ensure at housed ⊢
  split
  · next there =>
    unfold Tree.exists? at there
    cases found : tree.find? (directory root) with
    | error e => rw [show (Disk.sound tree).tree = tree from rfl, found] at there; cases there
    | ok result => exact ⟨tree, by rw [Disk.makeDirectories_found found], by rw [Tree.exists?, found]; rfl, rfl⟩
  · next absent =>
    rw [if_neg absent] at housed
    obtain ⟨ready, same⟩ := Disk.makeDirectories_sound tree (directory root)
    cases made : (Disk.sound tree).makeDirectories (directory root) with
    | mk result disk =>
      rw [made] at same housed
      obtain rfl : disk = .sound ready := same
      cases result with
      | error e => cases housed
      | ok =>
        refine ⟨ready, rfl, ?_, rfl⟩
        obtain ⟨house, found⟩ := isDirectory_iff.mp (Disk.makeDirectories_made rooted (by decide) made)
        rw [Tree.exists?, directory, found]
        rfl

/-- Once the state directory is made, all directories are there, and the ignore file is as it was. -/
theorem Upkeep.exists_prepared (upkeep : Upkeep tree root path place old mode) :
    ∃ ready, Prepared ready root path ∧ ready.find? path = .ok (place, .file old mode) ∧
      ensure (.sound tree) root = (.ok (), addToIgnoreFile (.sound ready) path) := by
  obtain ⟨ready, made, housed, ensured⟩ := exists_housed upkeep.rooted upkeep.housed
  have change : Changed Nowhere (fun _ => True) tree ready := by
    have change := @Disk.makeDirectories_changed (.sound tree) (directory root)
    rwa [made] at change
  have firm : Firm tree ready := ⟨fun x there => change.stays id there, fun x target there => change.stays id there⟩
  have stood := (find?_settled upkeep.stands).2
  have found : ready.find? path = .ok (place, .file old mode) := by
    refine find?_onto firm (by simp [stood]) (change.stays id stood) ?_
    rw [spotAt_of_get? stood]
    exact find?_iff.mp upkeep.stands
  have used : (path = ignoreFile root ∧ ready.exists? (ignoreFile root) = true) ∨
      (path = excludeFile root ∧ ready.exists? (ignoreFile root) = false ∧ ready.isDirectory (gitDirectory root) = true ∧
        ready.isDirectory (Path.within (gitDirectory root) "info") = true) := by
    rcases upkeep.used with rfl | ⟨rfl, absent⟩
    · exact .inl ⟨rfl, by rw [Tree.exists?, found]; rfl⟩
    · have git : gitDirectory root ≠ "" := within_ne_empty upkeep.rooted (by decide)
      have info : Path.within (gitDirectory root) "info" ≠ "" := within_ne_empty git (by decide)
      obtain ⟨-, house, inner⟩ := found_of_locate_within info (by decide) (find?_iff.mp found)
      obtain ⟨-, house', outer⟩ := found_of_locate_within git (by decide) (find?_iff.mp inner)
      rw [made] at absent
      exact .inr ⟨rfl, absent, isDirectory_iff.mpr ⟨house', outer⟩, isDirectory_iff.mpr ⟨house, inner⟩⟩
  have prepared : Prepared ready root path := ⟨housed, used⟩
  refine ⟨ready, prepared, found, ?_⟩
  have there : (Disk.sound ready).tree.exists? (directory root) = true := housed
  have again := prepared.ensure_eq
  unfold ensure at again
  rw [if_pos there] at again
  rw [ensured, (Prod.mk.inj again).2]

/-- The disk after a number of calls. -/
def ensured (root : String) (n : Nat) (disk : Disk) : Disk := (fun disk => (ensure disk root).2)^[n] disk

/-- After any number of calls the directories are there, and the content of the ignore file was added to as often. -/
theorem Upkeep.after_calls (upkeep : Upkeep tree root path place old mode) (n : Nat) :
    ∃ after, ensured root (n + 1) (.sound tree) = .sound after ∧ Prepared after root path ∧
      after.find? path = .ok (place, .file (added^[n + 1] old) mode) := by
  induction n with
  | zero =>
    obtain ⟨ready, prepared, found, first⟩ := upkeep.exists_prepared
    obtain ⟨after, call, same, written⟩ := addToIgnoreFile_found found upkeep.free
    refine ⟨after, ?_, prepared.sameShape same, written⟩
    rw [ensured, Function.iterate_one, first, call]
  | succ n ih =>
    obtain ⟨before, calls, prepared, found⟩ := ih
    obtain ⟨after, call, same, written⟩ := addToIgnoreFile_found found upkeep.free
    refine ⟨after, ?_, prepared.sameShape same, ?_⟩
    · unfold ensured at calls ⊢
      rw [Function.iterate_succ_apply', calls, prepared.ensure_eq, call]
    · rw [Function.iterate_succ_apply', written]

/-- However often the upkeep is called, an ignore file that holds text is as after the first call: whole lines were added behind its
content, and none that says something was lost. Every call adds the entry again to bytes that are no text. -/
theorem ensure_repeated (upkeep : Upkeep tree root path place old mode) :
    (∀ text, String.fromUTF8? old = some text → ∃ new : String,
      (∀ n, (ensured root (n + 1) (.sound tree)).tree.find? path = .ok (place, .file new.toUTF8 mode)) ∧
        (∃ more, new.toUTF8 = old ++ more) ∧
        (∀ line ∈ split '\n' text.toList, allBlank line = false → line ∈ split '\n' new.toList) ∧
        ∃ line ∈ lines new.toList, trim line = ".remedy/".toList ∨ trim line = ".remedy".toList) ∧
    (String.fromUTF8? old = none → ∀ n, (ensured root (n + 1) (.sound tree)).tree.find? path =
      .ok (place, .file ((· ++ "# remedy state\n.remedy/\n".toUTF8)^[n + 1] old) mode)) := by
  refine ⟨fun text decoded => ?_, fun undecodable n => ?_⟩
  · obtain ⟨new, found, cases_eq, settled⟩ := iterate_added_text text
    rw [toUTF8_of_fromUTF8? decoded] at settled
    refine ⟨new, fun n => ?_, ?_, fun line inside full => ?_, ?_⟩
    · obtain ⟨after, calls, -, written⟩ := upkeep.after_calls n
      rw [calls, ← settled n]
      exact written
    · rcases cases_eq with rfl | rfl
      · exact ⟨ByteArray.empty, by rw [toUTF8_of_fromUTF8? decoded, ByteArray.append_empty]⟩
      · exact ⟨(ignoreAddition text).toUTF8, by rw [← toUTF8_of_fromUTF8? decoded]; exact String.toByteArray_append⟩
    · rcases cases_eq with rfl | rfl
      · exact inside
      · exact mem_split_append inside full
    · exact isIgnored_iff.mp found
  · obtain ⟨after, calls, -, written⟩ := upkeep.after_calls n
    rw [iterate_added_of_undecodable undecodable] at written
    rw [calls]
    exact written

end

/-- A line that was left open is closed, once. -/
theorem open_line_is_closed_once :
    let tree : Tree := ⟨[(["r"], .directory), (["r", ".gitignore"], .file "target".toUTF8 .shared)]⟩
    let place := ["r", ".gitignore"]
    Upkeep tree "/r" "/r/.gitignore" place "target".toUTF8 .shared ∧ String.fromUTF8? "target".toUTF8 = some "target" ∧
      ∀ n, (ensured "/r" (n + 1) (.sound tree)).tree.find? "/r/.gitignore" =
        .ok (place, .file "target\n# remedy state\n.remedy/\n".toUTF8 .shared) := by
  intro tree place
  have upkeep : Upkeep tree "/r" "/r/.gitignore" place "target".toUTF8 .shared :=
    { rooted := by decide
      housed := by decide +kernel
      stands := by decide +kernel
      free := rfl
      used := .inl (by decide +kernel) }
  have text : String.fromUTF8? "target".toUTF8 = some "target" := fromUTF8?_toUTF8 "target"
  obtain ⟨new, settled, -⟩ := (ensure_repeated upkeep).1 "target" text
  have once : (ensured "/r" 1 (.sound tree)).tree.find? "/r/.gitignore" =
      .ok (place, .file "target\n# remedy state\n.remedy/\n".toUTF8 .shared) := by
    decide +kernel
  refine ⟨upkeep, text, fun n => ?_⟩
  rw [settled n, ← settled 0, once]

/-- One byte that is no text stands in the ignore file. A second call adds to what the first one wrote, and neither of them closes
the line of that byte. -/
theorem undecodable_file_grows :
    let tree : Tree := ⟨[(["r"], .directory), (["r", ".gitignore"], .file ⟨#[0xFF]⟩ .shared)]⟩
    let place := ["r", ".gitignore"]
    let once : ByteArray := ⟨#[0xFF]⟩ ++ "# remedy state\n.remedy/\n".toUTF8
    Upkeep tree "/r" "/r/.gitignore" place ⟨#[0xFF]⟩ .shared ∧
      (ensured "/r" 1 (.sound tree)).tree.find? "/r/.gitignore" = .ok (place, .file once .shared) ∧
      (ensured "/r" 2 (.sound tree)).tree.find? "/r/.gitignore" =
        .ok (place, .file (once ++ "# remedy state\n.remedy/\n".toUTF8) .shared) ∧
      (ensured "/r" 2 (.sound tree)).tree.find? "/r/.gitignore" ≠ (ensured "/r" 1 (.sound tree)).tree.find? "/r/.gitignore" := by
  intro tree place once
  have upkeep : Upkeep tree "/r" "/r/.gitignore" place ⟨#[0xFF]⟩ .shared :=
    { rooted := by decide
      housed := by decide +kernel
      stands := by decide +kernel
      free := rfl
      used := .inl (by decide +kernel) }
  exact ⟨upkeep, by decide +kernel, by decide +kernel, by decide +kernel⟩

end State

end GatedRepair
