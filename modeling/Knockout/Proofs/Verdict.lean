import Knockout.Command.Check
import Knockout.Proofs.JsonText
import Mathlib.Algebra.GroupWithZero.Nat
import Mathlib.Control.Monad.Basic
import Mathlib.Data.List.Forall2
import Mathlib.Tactic.Lemma

/-!
# The verdict on files

Files are read in the order in which they were collected, up to the first that cannot be read
(`Check.checkFiles_of_readable`, `Check.checkFiles_of_unreadable`). The verdict is made of what was
found out about all of them, whatever is printed on the way, and what is printed as JSON reads as
one record for each of them (`Check.Judged`, `Check.whole_record`). The main statement is
`Check.run_verdict`.
-/

namespace Knockout

namespace Json

/-- The value of an object under a name. -/
def field? : Json → String → Option Json
  | .object fields, name => fields.lookup name
  | _, _ => none

/-- A list of values whose numbers are whole. -/
lemma Whole.list {α : Type} {f : α → Json} (each : ∀ a, (f a).Whole) (items : List α) :
    (Json.list f items).Whole := by
  refine .array fun v mem => ?_
  obtain ⟨a, -, rfl⟩ := List.mem_map.1 mem
  exact each a

end Json

/-! ## Collecting -/

namespace Place

variable (w : Place) (config : Config) (format : OutputFormat)

/-- The format does not change what paths stand for. -/
lemma expandAll_format (paths : List Path) :
    w.expandAll { config with format } paths = w.expandAll config paths := by
  induction paths with
  | nil => rfl
  | cons p paths ih =>
    rw [expandAll, expandAll, ih]
    rfl

/-- Which files are collected does not depend on the format of the output. -/
lemma collect_format (base : Path) (paths : List Path) :
    w.collect { config with format } base paths = w.collect config base paths := by
  rw [collect, collect, expandAll_format]
  rfl

end Place

namespace Check

/-! ## Reading -/

section Reading

variable {s : Session} (strictness : Strictness) {files : List Path}

/-- Files that can be read are all checked. -/
lemma checkFiles_of_readable {text : Path → String}
    (readable : ∀ p ∈ files, s.place.readText p = .ok (text p)) :
    checkFiles s strictness files =
      (files.map fun p => ⟨p, analyze strictness (text p)⟩, none) := by
  induction files with
  | nil => rfl
  | cons p files ih =>
    rw [List.forall_mem_cons] at readable
    rw [checkFiles, Session.readSource, readable.1, ih readable.2]
    rfl

/-- The first file that cannot be read is the reason to fail. -/
lemma checkFiles_of_unreadable {before : List Path} {p : Path} {fault : FileFault}
    (readable : ∀ q ∈ before, ∃ source, s.place.readText q = .ok source)
    (unreadable : s.place.readText p = .error fault) (after : List Path) :
    (checkFiles s strictness (before ++ p :: after)).2 = some (.unreadableSource p fault) := by
  induction before with
  | nil =>
    rw [List.nil_append, checkFiles, Session.readSource, unreadable]
    rfl
  | cons q before ih =>
    rw [List.forall_mem_cons] at readable
    obtain ⟨⟨source, read⟩, readable⟩ := readable
    rw [List.cons_append, checkFiles, Session.readSource, read]
    exact ih readable

end Reading

/-! ## The verdict -/

section Verdict

variable {s : Session} {strictness : Strictness} {checked : List Checked}

/-- A file fails if it has errors. -/
lemma failed_eq (checked : List Checked) :
    checked.countP (fun c => !c.analysis.isClean) =
      checked.countP fun c => 0 < c.analysis.errorCount := by
  refine List.countP_congr fun c _ => ?_
  rw [Bool.not_eq_true', Bool.eq_false_iff, Ne, Analysis.isClean_iff, decide_eq_true_eq,
    Nat.pos_iff_ne_zero]

/-- The errors of all files are those of each, added up. -/
lemma errors_eq (checked : List Checked) :
    checked.foldl (fun n c => n + c.analysis.errorCount) 0 =
      (checked.map fun c => c.analysis.errorCount).sum := by
  rw [List.sum_eq_foldl, List.foldl_map]

/-- Files without errors pass. -/
lemma verdict_eq_none_iff : verdict checked = none ↔ ∀ c ∈ checked, c.analysis.isClean = true := by
  simp only [verdict]
  split
  · next failed => simpa [List.countP_eq_zero] using failed
  · next failed => simpa [List.countP_eq_zero] using failed

/-- Other files fail with their numbers. -/
lemma eq_errorsFound_of_verdict {f : Failure} (fails : verdict checked = some f) :
    f = .errorsFound (checked.map fun c => c.analysis.errorCount).sum
      (checked.countP fun c => 0 < c.analysis.errorCount) checked.length := by
  simp only [verdict] at fails
  split at fails
  · cases fails
  · rw [← errors_eq, ← failed_eq]
    exact (Option.some.inj fails).symm

/-- The failure does not depend on the format of the output. -/
lemma failure_runFiles (format : OutputFormat) (files : List Path) :
    (runFiles s strictness format files).failure =
      (checkFiles s strictness files).2.or (verdict (checkFiles s strictness files).1) := by
  unfold runFiles
  cases checkFiles s strictness files with
  | mk checked unreadable => cases unreadable <;> rfl

/-- The command fails where its files cannot be found, and else where checking them does. -/
lemma failure_run (s : Session) (config : Config) (strict : Bool) (format : Option OutputFormat)
    (paths : List Path) :
    (run s config strict format paths).failure =
      match s.place.collect config s.place.path paths with
      | .error p => some (.missingSource p)
      | .ok [] => none
      | .ok files =>
        (checkFiles s (config.strictness strict) files).2.or
          (verdict (checkFiles s (config.strictness strict) files).1) := by
  unfold run
  cases s.place.collect config s.place.path paths with
  | error p => rfl
  | ok files =>
    cases files with
    | nil => rfl
    | cons p files => exact failure_runFiles _ _

end Verdict

/-! ## Records -/

/-- A record tells what was found out about a file. -/
structure Tells (s : Session) (p : Path) (a : Analysis) (record : Json) : Prop where
  path : record.field? "path" = some (.string (s.display p))
  parsed : record.field? "parsed" = some (.bool a.parsed.isSome)
  lexical : record.field? "lex_errors" = some (.list LexicalError.record a.lexicalErrors)
  ofTokens : record.field? "syntax_errors" = some (.list SyntaxError.record a.syntaxErrors)
  ok : ∃ ok, record.field? "ok" = some (.bool ok) ∧
    (ok = true ↔ a.lexicalErrors = [] ∧ a.syntaxErrors = [])

/-- The record of a file tells what was found out about it. -/
lemma tells_record (s : Session) (c : Checked) : Tells s c.path c.analysis (record s c) where
  path := rfl
  parsed := rfl
  lexical := rfl
  ofTokens := rfl
  ok := ⟨_, rfl, by simp [Analysis.isClean]⟩

/-- The numbers of a place are whole. -/
lemma whole_location (l : Location) : l.record.Whole := by
  refine .object ?_
  simp only [List.forall_mem_cons]
  exact ⟨.int _, .int _, .int _, nofun⟩

/-- The numbers of a span are whole. -/
lemma whole_span (s : Span) : s.record.Whole := by
  refine .object ?_
  simp only [List.forall_mem_cons]
  exact ⟨whole_location _, whole_location _, nofun⟩

/-- The numbers of a lexical error are whole. -/
lemma whole_lexicalError (e : LexicalError) : e.record.Whole := by
  refine .object ?_
  simp only [List.forall_mem_cons]
  exact ⟨.int _, .string _, .string _, .string _, whole_span _, nofun⟩

/-- The numbers of a syntax error are whole. -/
lemma whole_syntaxError (e : SyntaxError) : e.record.Whole := by
  refine .object ?_
  simp only [List.forall_mem_cons]
  exact ⟨.int _, .string _, .string _, whole_span _, nofun⟩

/-- All numbers in a record are whole, so that its text determines it. -/
lemma whole_record (s : Session) (c : Checked) : (record s c).Whole := by
  refine .object ?_
  simp only [List.forall_mem_cons]
  exact ⟨.string _, .bool _, .bool _, .list whole_lexicalError _, .list whole_syntaxError _, nofun⟩

/-- What comes of files that can all be read: a failure when one has errors, with the number of
errors, of files with errors and of files, and where records are asked for, a text that reads as one
record for each file, in their order. -/
structure Judged (files : List Path) (analysis : Path → Analysis) (s : Session)
    (format : OutputFormat) (e : Execution) : Prop where
  passes : e.failure = none ↔ ∀ p ∈ files, (analysis p).isClean = true
  fails : ∀ f, e.failure = some f → f.kind = .analysis ∧
    f = .errorsFound (files.map fun p => (analysis p).errorCount).sum
      (files.countP fun p => 0 < (analysis p).errorCount) files.length
  text : format = .text → e.stdout = ""
  json : format = .json → ∃ records, Json.ofText? e.stdout = some (.array records) ∧
    List.Forall₂ (fun p record => Tells s p (analysis p) record) files records

/-- Files that can be read are judged by what their texts are. -/
lemma judged_runFiles {s : Session} {strictness : Strictness} {files : List Path}
    {text : Path → String} (readable : ∀ p ∈ files, s.place.readText p = .ok (text p))
    (format : OutputFormat) :
    Judged files (fun p => analyze strictness (text p)) s format
      (runFiles s strictness format files) := by
  have checked := checkFiles_of_readable strictness readable
  have failure : (runFiles s strictness format files).failure = verdict (files.map fun p =>
      ⟨p, analyze strictness (text p)⟩) := by
    rw [failure_runFiles, checked]
    rfl
  constructor
  case passes =>
    rw [failure, verdict_eq_none_iff, List.forall_mem_map]
  case fails =>
    intro f fails
    rw [failure] at fails
    have numbers := eq_errorsFound_of_verdict fails
    rw [List.map_map, List.countP_map, List.length_map] at numbers
    exact ⟨by rw [numbers]; rfl, numbers⟩
  case text =>
    rintro rfl
    rw [runFiles, checked]
  case json =>
    rintro rfl
    have printed : (runFiles s strictness .json files).stdout = (Json.list (record s)
        (files.map fun p => ⟨p, analyze strictness (text p)⟩)).pretty ++ "\n" := by
      rw [runFiles, checked]
    have blank : ∀ c ∈ "\n".toList, Json.isBlank c = true := List.all_eq_true.1 rfl
    have read := Json.ofText?_pretty (.list (whole_record s) (files.map fun p =>
      ⟨p, analyze strictness (text p)⟩)) blank
    rw [← printed] at read
    refine ⟨_, read, ?_⟩
    rw [List.map_map, List.forall₂_map_right_iff]
    exact List.forall₂_same.2 fun p _ => tells_record s ⟨p, analyze strictness (text p)⟩

/-! ## The whole command -/

/-- **The verdict is exact and does not depend on the format.** Whatever the files around it and its
arguments are, the command fails in the same way in both formats. Files that can all be read are
judged by their errors; otherwise the first file that cannot be read is the reason to fail, and
nothing is printed. -/
theorem run_verdict (s : Session) (config : Config) (strict : Bool) (paths : List Path) :
    (∀ (f g : Option OutputFormat) (other : OutputFormat),
      (run s config strict f paths).failure =
        (run s { config with format := other } strict g paths).failure) ∧
    ∀ files, s.place.collect config s.place.path paths = .ok files → files ≠ [] →
      ∀ format : Option OutputFormat,
        (∀ text : Path → String, (∀ p ∈ files, s.place.readText p = .ok (text p)) →
          Judged files (fun p => analyze (config.strictness strict) (text p)) s
            (format.getD config.format) (run s config strict format paths)) ∧
        ∀ before p after fault, files = before ++ p :: after →
          (∀ q ∈ before, ∃ source, s.place.readText q = .ok source) →
          s.place.readText p = .error fault →
            (run s config strict format paths).failure = some (.unreadableSource p fault) ∧
            (Failure.unreadableSource p fault).kind = .io ∧
            (run s config strict format paths).stdout = "" := by
  refine ⟨fun f g other => ?same, fun files collected nonempty format => ?judged⟩
  case same =>
    rw [failure_run, failure_run, s.place.collect_format config other]
    rfl
  case judged =>
    have whole : run s config strict format paths =
        runFiles s (config.strictness strict) (format.getD config.format) files := by
      cases files with
      | nil => exact absurd rfl nonempty
      | cons p files => rw [run, collected]
    rw [whole]
    refine ⟨fun text readable => judged_runFiles readable _, ?_⟩
    rintro before p after fault rfl readable unreadable
    have failure := checkFiles_of_unreadable (config.strictness strict) readable unreadable after
    refine ⟨?_, rfl, ?_⟩
    · rw [failure_runFiles, failure]
      rfl
    · unfold runFiles
      generalize checkFiles s (config.strictness strict) (before ++ p :: after) = read at failure ⊢
      obtain ⟨checked, unreadable⟩ := read
      cases failure
      rfl

/-- A text without errors, and one with a closer that has no opener. -/
def mixedText (p : Path) : String :=
  if p = ⟨"/a.tourney"⟩ then "TOURNEY\x7b\x7dTEAMS\x7b\x7dELIMINATION\x7b\x7d" else "\x7d"

/-- Files with these texts, and one that is no text. -/
def mixedFiles : Session where
  place.tree := .folder [("a.tourney", .file (mixedText ⟨"/a.tourney"⟩).toUTF8),
    ("b.tourney", .file (mixedText ⟨"/b.tourney"⟩).toUTF8), ("c.tourney", .file ⟨#[0xFF]⟩)]
  place.directory := []

/-- Without the file that is no text there is one error, in one of two files; with it, that file is
the reason to fail. -/
theorem run_verdict_mixedFiles :
    (run mixedFiles {} false (some .json) [⟨"/a.tourney"⟩, ⟨"/b.tourney"⟩]).failure =
        some (.errorsFound 1 1 2) ∧
      Judged [⟨"/a.tourney"⟩, ⟨"/b.tourney"⟩] (fun p => analyze {} (mixedText p)) mixedFiles .json
        (run mixedFiles {} false (some .json) [⟨"/a.tourney"⟩, ⟨"/b.tourney"⟩]) ∧
      (run mixedFiles {} false none [⟨"/b.tourney"⟩, ⟨"/c.tourney"⟩]).failure =
        some (.unreadableSource ⟨"/c.tourney"⟩ .notText) := by
  have readable : ∀ p ∈ [⟨"/a.tourney"⟩, ⟨"/b.tourney"⟩],
      mixedFiles.place.readText p = .ok (mixedText p) := by decide +kernel
  have judged := (run_verdict mixedFiles {} false [⟨"/a.tourney"⟩, ⟨"/b.tourney"⟩]).2
    [⟨"/a.tourney"⟩, ⟨"/b.tourney"⟩] (by decide +kernel) nofun (some .json)
  have refused := (run_verdict mixedFiles {} false [⟨"/b.tourney"⟩, ⟨"/c.tourney"⟩]).2
    [⟨"/b.tourney"⟩, ⟨"/c.tourney"⟩] (by decide +kernel) nofun none
  refine ⟨by decide +kernel, judged.1 mixedText readable, ?_⟩
  refine (refused.2 [⟨"/b.tourney"⟩] ⟨"/c.tourney"⟩ [] .notText rfl (fun q mem => ?_) ?_).1
  · exact ⟨_, readable q (List.mem_cons_of_mem _ mem)⟩
  · decide +kernel

end Check

end Knockout
