import Knockout.Command.Failure
import Knockout.Project.Sources
import Knockout.Proofs.Project.Trees
import Mathlib.Data.List.Forall2
import Mathlib.Data.List.Induction

/-!
# Which sources are gathered

The paths that are asked for are those given, or the sources of the configuration where none is
given (`Place.Asks`, `Place.asks_iff`). A requested path stands for itself or for the
definition files below it (`Place.StandsFor`, `Place.expand_eq_some_iff`), and gathering keeps of
all these the first of each path (`Path.firsts`, `Path.distinct_eq_firsts`). The main statement is
`Place.collect_gathers`: gathering fails at the first path that leads nowhere and never otherwise,
and what it gives is just that.
-/

namespace Knockout

/-- What is computed from a result is there when the result is. -/
lemma map_eq_ok_iff {ε α β : Type} {f : α → β} {x : Except ε α} {b : β} :
    x.map f = .ok b ↔ ∃ a, x = .ok a ∧ b = f a := by
  cases x with
  | error e => exact ⟨nofun, nofun⟩
  | ok a => simp [Except.map, eq_comm]

/-- What is computed from a result fails when the result does. -/
lemma map_eq_error_iff {ε α β : Type} {f : α → β} {x : Except ε α} {e : ε} :
    x.map f = .error e ↔ x = .error e := by
  cases x with
  | error e => simp [Except.map]
  | ok a => exact ⟨nofun, nofun⟩

namespace Path

variable {p q r : Path} {paths : List Path}

/-! ## Sources seen from a base -/

/-- The path that a source stands for, seen from a base: one that starts at the root is the path
itself, and any other goes on where the base ends, with a slash between them unless the base is
empty or has one at its end. -/
inductive SeenFrom (base : Path) : String → Path → Prop where
  | root (rest : String) : SeenFrom base ("/" ++ rest) ⟨"/" ++ rest⟩
  | after {source : String} (relative : ∀ rest, source ≠ "/" ++ rest)
    (ended : base.text = "" ∨ ∃ front, base.text = front ++ "/") :
    SeenFrom base source ⟨base.text ++ source⟩
  | below {source : String} (relative : ∀ rest, source ≠ "/" ++ rest) (nonempty : base.text ≠ "")
    (goesOn : ∀ front, base.text ≠ front ++ "/") :
    SeenFrom base source ⟨base.text ++ "/" ++ source⟩

/-- A path starts at the root just when a slash is its first character. -/
lemma isAbsolute_iff : p.isAbsolute = true ↔ ∃ rest, p.text = "/" ++ rest := by
  rw [isAbsolute, beq_iff_eq, List.head?_eq_some_iff]
  constructor
  · rintro ⟨cs, spelled⟩
    exact ⟨.ofList cs, String.toList_inj.1 (by rw [spelled, String.toList_append]; simp)⟩
  · rintro ⟨rest, spelled⟩
    exact ⟨rest.toList, by rw [spelled, String.toList_append]; rfl⟩

/-- Nothing has to be put between a base and what goes on from it. -/
lemma ended_iff : (p.text.isEmpty || p.text.toList.getLast? == some '/') = true ↔
    p.text = "" ∨ ∃ front, p.text = front ++ "/" := by
  rw [Bool.or_eq_true, String.isEmpty_iff, beq_iff_eq, List.getLast?_eq_some_iff]
  refine or_congr_right ⟨?_, ?_⟩
  · rintro ⟨cs, spelled⟩
    exact ⟨.ofList cs, String.toList_inj.1 (by rw [spelled, String.toList_append]; simp)⟩
  · rintro ⟨front, spelled⟩
    exact ⟨front.toList, by rw [spelled, String.toList_append]; rfl⟩

/-- A source stands for the one path that joining it to the base gives. -/
lemma seenFrom_iff {base : Path} {source : String} :
    base.SeenFrom source p ↔ p = base.join ⟨source⟩ := by
  have relative_iff : (∀ rest, source ≠ "/" ++ rest) ↔ ¬ isAbsolute ⟨source⟩ = true := by
    rw [isAbsolute_iff, not_exists]
  constructor
  · intro seen
    rw [join]
    cases seen with
    | root rest => rw [if_pos (isAbsolute_iff.2 ⟨rest, rfl⟩)]
    | after relative ended => rw [if_neg (relative_iff.1 relative), if_pos (ended_iff.2 ended)]
    | below relative nonempty goesOn =>
      rw [if_neg (relative_iff.1 relative), if_neg]
      rw [ended_iff, not_or, not_exists]
      exact ⟨nonempty, goesOn⟩
  · rintro rfl
    rw [join]
    split
    · next absolute =>
      obtain ⟨rest, rfl⟩ := isAbsolute_iff.1 absolute
      exact .root rest
    · next relative =>
      split
      · next ended => exact .after (relative_iff.2 relative) (ended_iff.1 ended)
      · next goesOn =>
        rw [ended_iff, not_or, not_exists] at goesOn
        exact .below (relative_iff.2 relative) goesOn.1 goesOn.2

/-! ## First places -/

/-- Being the same is symmetric. -/
lemma same_comm (p q : Path) : p.same q = q.same p := by
  rw [Bool.eq_iff_iff, same_iff, same_iff, eq_comm]

/-- Being the same is transitive. -/
lemma same_trans (first : p.same q = true) (second : q.same r = true) : p.same r = true :=
  same_iff.2 ((same_iff.1 first).trans (same_iff.1 second))

/-- The paths that stand behind none that is the same. -/
def firsts (paths : List Path) : List Path :=
  (paths.zipIdx.filter fun (p, i) => !(paths.take i).any p.same).map (·.1)

/-- A further path is a first one if none in front of it is the same. -/
lemma firsts_concat (paths : List Path) (p : Path) :
    firsts (paths ++ [p]) = if paths.any p.same then firsts paths else firsts paths ++ [p] := by
  have earlier : (paths.zipIdx.filter fun (q, i) => !((paths ++ [p]).take i).any q.same) =
      paths.zipIdx.filter fun (q, i) => !(paths.take i).any q.same := by
    refine List.filter_congr fun ⟨q, i⟩ here => ?_
    have inside : i < paths.length := List.snd_lt_of_mem_zipIdx here
    simp only [List.take_append_of_le_length (Nat.le_of_lt inside)]
  -- the paths in front keep the ones they had before them, and the last has all of them
  rw [firsts, List.zipIdx_append, List.filter_append, earlier, List.map_append]
  split
  · next known => simp [firsts, known]
  · next new => simp [firsts, new]

/-- A further path is kept if none that is kept is the same. -/
lemma distinct_concat (paths : List Path) (p : Path) :
    distinct (paths ++ [p]) =
      if (distinct paths).any p.same then distinct paths else distinct paths ++ [p] := by
  rw [distinct, List.foldl_append]
  rfl

/-- No path is lost. -/
lemma any_distinct (paths : List Path) (q : Path) :
    (distinct paths).any q.same = paths.any q.same := by
  induction paths using List.reverseRecOn with
  | nil => rfl
  | append_singleton paths p ih =>
    rw [distinct_concat, List.any_append, ← ih]
    split
    · next known =>
      cases same : q.same p with
      | false => simp [same]
      | true =>
        obtain ⟨r, kept, known⟩ := List.any_eq_true.1 known
        rw [List.any_eq_true.2 ⟨r, kept, same_trans same known⟩, Bool.true_or]
    · exact List.any_append

/-- The paths that are kept are those that come first. -/
lemma distinct_eq_firsts (paths : List Path) : distinct paths = firsts paths := by
  induction paths using List.reverseRecOn with
  | nil => rfl
  | append_singleton paths p ih => rw [distinct_concat, firsts_concat, any_distinct, ih]

/-- No two paths that are kept are the same. -/
lemma pairwise_distinct (paths : List Path) :
    (distinct paths).Pairwise fun q r => q.same r = false := by
  induction paths using List.reverseRecOn with
  | nil => exact .nil
  | append_singleton paths p ih =>
    rw [distinct_concat]
    split
    · exact ih
    · next new =>
      refine List.pairwise_append.2 ⟨ih, List.pairwise_singleton _ p, fun q kept r last => ?_⟩
      rw [List.mem_singleton.1 last, same_comm]
      exact Bool.eq_false_iff.2 fun same => new (List.any_eq_true.2 ⟨q, kept, same⟩)

/-- Paths of which no two are the same are different. -/
lemma nodup_of_pairwise (once : paths.Pairwise fun q r => q.same r = false) : paths.Nodup := by
  refine once.imp fun {q r} apart => ?_
  rintro rfl
  exact absurd (same_iff.2 rfl) (Bool.eq_false_iff.1 apart)

/-! ## Names of definition files -/

/-- A definition is told by the ending of its name, with something in front of it. -/
lemma isDefinition_iff :
    p.isDefinition = true ↔ ∃ stem, stem ≠ "" ∧ p.fileName? = some (stem ++ ".tourney") := by
  rw [isDefinition, beq_iff_eq, fileExtension?, Option.bind_eq_some_iff]
  constructor
  · rintro ⟨name, named, extension⟩
    dsimp only at extension
    split at extension
    · cases extension
    · cases extension
    · next dot c before dropped =>
      have isDot : dot = '.' := by
        have head := List.head?_dropWhile_not (· != '.') name.toList.reverse
        rw [dropped] at head
        simpa using head
      have taken := congrArg String.toList (Option.some.inj extension)
      rw [String.toList_ofList, List.reverse_eq_iff] at taken
      have cut := List.takeWhile_append_dropWhile (p := (· != '.')) (l := name.toList.reverse)
      rw [taken, dropped, isDot, eq_comm, List.reverse_eq_iff, List.reverse_append,
        List.reverse_reverse, List.reverse_cons, List.append_assoc] at cut
      refine ⟨.ofList (c :: before).reverse, by simp, ?_⟩
      rw [named, ← String.ofList_toList (s := name), cut, String.ofList_append]
      rfl
  · rintro ⟨stem, nonempty, named⟩
    refine ⟨_, named, ?_⟩
    obtain ⟨c, before, same⟩ := List.exists_cons_of_ne_nil
      (mt List.reverse_eq_nil_iff.1 (mt String.toList_eq_nil_iff.1 nonempty))
    have reversed : (stem ++ ".tourney").toList.reverse =
        "yenruot".toList ++ '.' :: c :: before := by
      rw [String.toList_append, List.reverse_append, same]
      rfl
    dsimp only
    rw [reversed]
    rfl

end Path

namespace Place

/-! ## What is asked for -/

/-- The paths that are asked for: those given, where there are any; else the sources that the
configuration names, in its order and seen from the base; and where it names none, the folder of the
project itself, which a dot stands for. -/
inductive Asks (config : Config) (base : Path) : List Path → List Path → Prop where
  | given {paths : List Path} (nonempty : paths ≠ []) : Asks config base paths paths
  | named {asked : List Path} (nonempty : config.sources ≠ [])
    (seen : List.Forall₂ base.SeenFrom config.sources asked) : Asks config base [] asked
  | unnamed {here : Path} (empty : config.sources = []) (seen : base.SeenFrom "." here) :
    Asks config base [] [here]

variable {w : Place} {config : Config} {base p q : Path} {paths files : List Path}

/-- Without paths, the sources that the configuration names are asked for. -/
lemma requested_of_named (nonempty : config.sources ≠ []) :
    requested config base [] = config.sources.map fun source => base.join ⟨source⟩ := by
  simp [requested, Config.effectiveSources, nonempty]

/-- Without paths and without sources, the folder of the project is asked for. -/
lemma requested_of_unnamed (empty : config.sources = []) :
    requested config base [] = [base.join ⟨"."⟩] := by
  simp [requested, Config.effectiveSources, empty]

/-- Just one list of paths is asked for. -/
lemma asks_iff {asked : List Path} :
    Asks config base paths asked ↔ asked = requested config base paths := by
  constructor
  · intro asks
    cases asks with
    | given nonempty => simp [requested, nonempty]
    | named nonempty seen =>
      rw [requested_of_named nonempty, ← List.forall₂_eq_eq_eq, List.forall₂_map_right_iff]
      exact seen.flip.imp fun p source seen => Path.seenFrom_iff.1 seen
    | unnamed empty seen => rw [requested_of_unnamed empty, Path.seenFrom_iff.1 seen]
  · rintro rfl
    cases paths with
    | cons p paths => exact .given (List.cons_ne_nil p paths)
    | nil =>
      by_cases empty : config.sources = []
      · rw [requested_of_unnamed empty]
        exact .unnamed empty (Path.seenFrom_iff.2 rfl)
      · rw [requested_of_named empty]
        refine .named empty (List.forall₂_map_right_iff.2 ?_)
        exact List.forall₂_same.2 fun source _ => Path.seenFrom_iff.2 rfl

/-! ## One request -/

/-- What a requested path stands for: a file for itself, and a folder for those of the files below
it, in the order of their paths, that are definitions by their names and match no pattern. -/
inductive StandsFor (w : Place) (config : Config) (p : Path) : List Path → Prop where
  | file (isFile : w.isFile p = true) : StandsFor w config p [p]
  | folder {files : List Path} (isFolder : w.isFolder p = true)
    (ordered : files.Pairwise fun q r => q.le r = true)
    (once : files.Pairwise fun q r => q.same r = false)
    (listed : ∀ q, q ∈ files ↔ w.IsBelow p q ∧
      (∃ stem, stem ≠ "" ∧ q.fileName? = some (stem ++ ".tourney")) ∧
      ∀ pattern ∈ config.excludes, Exclude.matchesPattern pattern.toList (Exclude.seen q) = false) :
    StandsFor w config p files

/-- A path is kept when none of the patterns matches it. -/
lemma excluded_eq_false_iff : config.excluded q = false ↔ ∀ pattern ∈ config.excludes,
    Exclude.matchesPattern pattern.toList (Exclude.seen q) = false := by
  rw [Config.excluded, Exclude.anyMatches, List.any_eq_false]
  simp only [Bool.not_eq_true]

/-- A folder is scanned for all definitions below it that match no pattern. -/
lemma scan_perm (w : Place) (config : Config) (p : Path) : (w.scan config p).Perm
    ((w.filesBelow p).filter fun file => !config.excluded file && file.isDefinition) :=
  List.mergeSort_perm _ _

/-- What is scanned is in the order of the paths. -/
lemma ordered_scan (w : Place) (config : Config) (p : Path) :
    (w.scan config p).Pairwise fun q r => q.le r = true := by
  rw [scan]
  refine List.pairwise_mergeSort ?transitive ?total _
  case transitive => exact fun _ _ _ => Path.le_trans
  case total =>
    intro q r
    rw [Bool.or_eq_true]
    exact Path.le_total q r

/-- What is scanned comes once each. -/
lemma once_scan (wellFormed : w.tree.WellFormed) (config : Config) (p : Path) :
    (w.scan config p).Pairwise fun q r => q.same r = false := by
  have symmetric {q r : Path} (apart : q.same r = false) : r.same q = false := by
    rw [Path.same_comm, apart]
  rw [(scan_perm w config p).pairwise_iff symmetric]
  exact (pairwise_filesBelow wellFormed p).filter _

/-- Nothing but one list of files is what a path stands for. -/
lemma StandsFor.unique {other : List Path} (stands : w.StandsFor config p files)
    (stands' : w.StandsFor config p other) : files = other := by
  cases stands with
  | file isFile =>
    cases stands' with
    | file => rfl
    | folder isFolder => exact absurd isFolder (Bool.eq_false_iff.1 (isFolder_eq_false isFile))
  | folder isFolder ordered once listed =>
    cases stands' with
    | file isFile => exact absurd isFolder (Bool.eq_false_iff.1 (isFolder_eq_false isFile))
    | folder _ ordered' once' listed' =>
      have perm : files.Perm other :=
        (List.perm_ext_iff_of_nodup (Path.nodup_of_pairwise once)
          (Path.nodup_of_pairwise once')).2 fun q => (listed q).trans (listed' q).symm
      -- two places of one list hold the same path only where they are one place
      refine perm.eq_of_pairwise (fun q r _ _ before after => ?_) (ordered.and once)
        (ordered'.and once')
      exact absurd (Path.same_of_le before.1 after.1) (Bool.eq_false_iff.1 before.2)

/-- Only what is neither a folder nor a file stands for nothing. -/
lemma expand_eq_none_iff (config : Config) :
    w.expand config p = none ↔ (!w.isFolder p && !w.isFile p) = true := by
  rw [expand]
  cases w.isFolder p <;> cases w.isFile p <;> simp

/-- What a request is expanded to is what it stands for. -/
lemma standsFor_of_expand (wellFormed : w.tree.WellFormed)
    (stands : w.expand config p = some files) : w.StandsFor config p files := by
  rw [expand] at stands
  split at stands
  · next folder =>
    cases stands
    refine .folder folder (ordered_scan w config p) (once_scan wellFormed config p) fun q => ?_
    rw [(scan_perm w config p).mem_iff, List.mem_filter, mem_filesBelow_iff wellFormed folder,
      Bool.and_eq_true, Bool.not_eq_true', excluded_eq_false_iff, Path.isDefinition_iff,
      and_comm (b := ∃ stem, _)]
  · split at stands
    · next file =>
      cases stands
      exact .file file
    · cases stands

/-- A request is expanded to exactly what it stands for. -/
lemma expand_eq_some_iff (wellFormed : w.tree.WellFormed) :
    w.expand config p = some files ↔ w.StandsFor config p files := by
  refine ⟨standsFor_of_expand wellFormed, fun stands => ?_⟩
  cases found : w.expand config p with
  | none =>
    have lost := (expand_eq_none_iff config).1 found
    cases stands with
    | file isFile => simp [isFile] at lost
    | folder isFolder => simp [isFolder] at lost
  | some other => rw [stands.unique (standsFor_of_expand wellFormed found)]

/-! ## All requests -/

/-- The path that is told is the first that leads nowhere. -/
lemma expandAll_eq_error_iff (config : Config) : w.expandAll config paths = .error p ↔
    paths.find? (fun p => !w.isFolder p && !w.isFile p) = some p := by
  induction paths with
  | nil => exact ⟨nofun, nofun⟩
  | cons first paths ih =>
    rw [expandAll, List.find?_cons]
    cases stands : w.expand config first with
    | none =>
      rw [(expand_eq_none_iff config).1 stands]
      simp only [Except.error.injEq, Option.some.injEq]
    | some files =>
      have leads : (!w.isFolder first && !w.isFile first) = false := by
        rw [← Bool.not_eq_true, ← expand_eq_none_iff config, stands]
        exact Option.some_ne_none files
      rw [leads, ← ih]
      exact map_eq_error_iff

/-- Requests are expanded one after the other, all of them or none. -/
lemma expandAll_eq_ok_iff : w.expandAll config paths = .ok files ↔
    ∃ parts, List.Forall₂ (fun p part => w.expand config p = some part) paths parts ∧
      files = parts.flatten := by
  induction paths generalizing files with
  | nil =>
    constructor
    · intro done
      cases done
      exact ⟨[], .nil, rfl⟩
    · rintro ⟨parts, ⟨⟩, rfl⟩
      rfl
  | cons p paths ih =>
    rw [expandAll]
    constructor
    · intro done
      split at done
      · cases done
      · next part stands =>
        obtain ⟨rest, more, rfl⟩ := map_eq_ok_iff.1 done
        obtain ⟨parts, each, rfl⟩ := ih.1 more
        exact ⟨part :: parts, .cons stands each, rfl⟩
    · rintro ⟨parts, each, rfl⟩
      cases each with
      | cons stands each =>
        rw [stands]
        exact map_eq_ok_iff.2 ⟨_, ih.2 ⟨_, each, rfl⟩, rfl⟩

/-- What is gathered for some requests: all that they stand for, one after the other, each path
where it comes first. -/
structure Gathers (w : Place) (config : Config) (asked files : List Path) : Prop where
  once : files.Pairwise fun q r => q.same r = false
  whole : ∃ parts, List.Forall₂ (w.StandsFor config) asked parts ∧
    files = Path.firsts parts.flatten

/-- What is collected is what is gathered for the requests. -/
lemma collect_eq_ok_iff (wellFormed : w.tree.WellFormed) :
    w.collect config base paths = .ok files ↔
      w.Gathers config (requested config base paths) files := by
  have stands (asked : List Path) (parts : List (List Path)) :
      List.Forall₂ (fun p part => w.expand config p = some part) asked parts ↔
        List.Forall₂ (w.StandsFor config) asked parts := by
    simp only [expand_eq_some_iff wellFormed]
  rw [collect, map_eq_ok_iff]
  constructor
  · rintro ⟨listed, expanded, rfl⟩
    obtain ⟨parts, each, rfl⟩ := expandAll_eq_ok_iff.1 expanded
    exact ⟨Path.pairwise_distinct _, parts, (stands _ _).1 each, Path.distinct_eq_firsts _⟩
  · rintro ⟨-, parts, each, rfl⟩
    exact ⟨_, expandAll_eq_ok_iff.2 ⟨parts, (stands _ _).2 each, rfl⟩,
      (Path.distinct_eq_firsts _).symm⟩

/-- Collecting fails at the first request that is neither a folder nor a file. -/
lemma collect_eq_error_iff : w.collect config base paths = .error p ↔
    (requested config base paths).find? (fun p => !w.isFolder p && !w.isFile p) = some p := by
  rw [collect, map_eq_error_iff, expandAll_eq_error_iff]

/-- Files are collected exactly when every request is a folder or a file. -/
lemma exists_collect_iff : (∃ files, w.collect config base paths = .ok files) ↔
    ∀ p ∈ requested config base paths, w.isFolder p = true ∨ w.isFile p = true := by
  have never : (∃ files, w.collect config base paths = .ok files) ↔
      ∀ p, w.collect config base paths ≠ .error p := by
    cases w.collect config base paths with
    | error p => exact ⟨nofun, fun never => absurd rfl (never p)⟩
    | ok files => exact ⟨fun _ => nofun, fun _ => ⟨files, rfl⟩⟩
  rw [never]
  simp only [ne_eq, collect_eq_error_iff]
  rw [← Option.eq_none_iff_forall_ne_some, List.find?_eq_none]
  refine forall₂_congr fun p _ => ?_
  cases w.isFolder p <;> cases w.isFile p <;> simp

/-- **What is gathered.** The given paths are asked for, or else the sources of the configuration.
Gathering succeeds just when all that is asked for leads somewhere, and fails with the first path
that does not. Then it gives all that the requests stand for, each path once, and nothing else. -/
theorem collect_gathers (wellFormed : w.tree.WellFormed) (config : Config) (base : Path)
    (paths : List Path) : ∃ asked, Asks config base paths asked ∧
    ((∃ files, w.collect config base paths = .ok files) ↔
      ∀ p ∈ asked, w.isFolder p = true ∨ w.isFile p = true) ∧
    (∀ failure, (w.collect config base paths).mapError Failure.missingSource = .error failure ↔
      ∃ p, asked.find? (fun p => !w.isFolder p && !w.isFile p) = some p ∧
        failure = .missingSource p ∧ failure.kind = .io) ∧
    ∀ files, w.collect config base paths = .ok files ↔ w.Gathers config asked files := by
  refine ⟨requested config base paths, asks_iff.2 rfl, exists_collect_iff,
    fun failure => ?_, fun files => collect_eq_ok_iff wellFormed⟩
  simp only [← collect_eq_error_iff]
  cases w.collect config base paths with
  | error p =>
    constructor
    · intro fails
      cases fails
      exact ⟨p, rfl, rfl, rfl⟩
    · rintro ⟨p, same, rfl, -⟩
      cases same
      rfl
  | ok files => exact ⟨nofun, nofun⟩

/-- A folder with definition files, one of them in a folder of drafts, and a file that is none. -/
def withDrafts : Place where
  tree := .folder [("notes.txt", .file .empty), ("cups", .folder [("west.tourney", .file .empty),
    ("drafts", .folder [("wip.tourney", .file .empty)]), ("east.tourney", .file .empty)])]
  directory := []

/-- A file and its folder may both be asked for; the first path that leads nowhere is told; and
without any path, a source is seen from the base, or from the root if it starts there. -/
theorem collect_gathers_withDrafts :
    withDrafts.tree.WellFormed ∧
    (∃ files, withDrafts.collect { excludes := ["drafts/*"] } ⟨"/"⟩
        [⟨"cups/west.tourney"⟩, ⟨"notes.txt"⟩, ⟨"cups"⟩] = .ok files ∧
      withDrafts.Gathers { excludes := ["drafts/*"] }
        [⟨"cups/west.tourney"⟩, ⟨"notes.txt"⟩, ⟨"cups"⟩] files) ∧
    (withDrafts.collect {} ⟨"/"⟩ [⟨"cups"⟩, ⟨"lost"⟩, ⟨"gone"⟩]).mapError Failure.missingSource =
      .error (.missingSource ⟨"lost"⟩) ∧
    (∃ files, withDrafts.collect { sources := ["drafts", "/notes.txt"] } ⟨"/cups"⟩ [] = .ok files ∧
      withDrafts.Gathers { sources := ["drafts", "/notes.txt"] }
        [⟨"/cups/drafts"⟩, ⟨"/notes.txt"⟩] files) ∧
    ∃ files, withDrafts.collect {} ⟨"/cups/"⟩ [] = .ok files ∧
      withDrafts.Gathers {} [⟨"/cups/."⟩] files := by
  have file : (Tree.file .empty).WellFormed := .file _
  have drafts : (Tree.folder [("wip.tourney", .file .empty)]).WellFormed :=
    .folder (by decide) (by decide) (List.forall_mem_cons.2 ⟨file, nofun⟩)
  have cups : Tree.WellFormed (.folder [("west.tourney", .file .empty),
      ("drafts", .folder [("wip.tourney", .file .empty)]), ("east.tourney", .file .empty)]) :=
    .folder (by decide) (by decide) (by simp [file, drafts])
  have wellFormed : withDrafts.tree.WellFormed :=
    .folder (by decide) (by decide) (by simp [file, cups])
  refine ⟨wellFormed, ?given, ?lost, ?named, ?unnamed⟩
  case given =>
    obtain ⟨_, asks, succeeds, -, gathers⟩ := collect_gathers wellFormed
      { excludes := ["drafts/*"] } ⟨"/"⟩ [⟨"cups/west.tourney"⟩, ⟨"notes.txt"⟩, ⟨"cups"⟩]
    cases asks
    obtain ⟨files, done⟩ := succeeds.2 (by decide)
    exact ⟨files, done, (gathers files).1 done⟩
  case lost =>
    obtain ⟨_, asks, -, fails, -⟩ :=
      collect_gathers wellFormed {} ⟨"/"⟩ [⟨"cups"⟩, ⟨"lost"⟩, ⟨"gone"⟩]
    cases asks
    exact (fails _).2 ⟨⟨"lost"⟩, by decide, rfl, rfl⟩
  case named =>
    obtain ⟨_, asks, succeeds, -, gathers⟩ := collect_gathers wellFormed
      { sources := ["drafts", "/notes.txt"] } ⟨"/cups"⟩ []
    obtain rfl := asks_iff.1 asks
    obtain ⟨files, done⟩ := succeeds.2 (by decide)
    exact ⟨files, done, (gathers files).1 done⟩
  case unnamed =>
    obtain ⟨_, asks, succeeds, -, gathers⟩ := collect_gathers wellFormed {} ⟨"/cups/"⟩ []
    obtain rfl := asks_iff.1 asks
    obtain ⟨files, done⟩ := succeeds.2 (by decide)
    exact ⟨files, done, (gathers files).1 done⟩

end Place

end Knockout
