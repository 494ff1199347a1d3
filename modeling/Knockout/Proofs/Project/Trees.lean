import Knockout.Project.Tree
import Knockout.Proofs.Project.Paths

/-!
# Files below a folder

What is below a folder is said by paths alone (`Place.IsBelow`): a path that goes on from the folder
with some names and leads to a file. The walk through a tree finds these and no others
(`Place.mem_filesBelow_iff`), each of them once (`Place.pairwise_filesBelow`), where the folders of
the tree hold what folders can hold (`Tree.WellFormed`).
-/

namespace Knockout

/-- Two steps succeed when both do. -/
lemma exists_of_bind_eq_ok {ε α β : Type} {x : Except ε α} {f : α → Except ε β} {b : β}
    (run : x >>= f = .ok b) : ∃ a, x = .ok a ∧ f a = .ok b := by
  cases x with
  | error => cases run
  | ok a => exact ⟨a, rfl, run⟩

namespace Tree

/-- A tree as file systems have them: all entries of its folders have names, each its own. -/
inductive WellFormed : Tree → Prop where
  | file (content : ByteArray) : WellFormed (.file content)
  | folder {entries : List (String × Tree)} (distinct : (entries.map (·.1)).Nodup)
    (names : ∀ e ∈ entries, Path.IsName e.1) (inner : ∀ e ∈ entries, WellFormed e.2) :
    WellFormed (.folder entries)

variable {t child : Tree} {entries : List (String × Tree)} {p q : Path} {name : String}
  {names : List String}

/-- A child is among the entries of its folder. -/
lemma mem_of_child? (held : (folder entries).child? name = some child) :
    (name, child) ∈ entries := by
  obtain ⟨before, after, split, -⟩ := List.lookup_eq_some_iff.1 held
  change entries = _ at split
  rw [split]
  exact List.mem_append_right _ List.mem_cons_self

/-- Names are followed one after the other. -/
lemma find?_append (t : Tree) (names more : List String) :
    t.find? (names ++ more) = (t.find? names).bind (·.find? more) := by
  induction names generalizing t with
  | nil => rfl
  | cons name names ih =>
    rw [List.cons_append, find?, find?]
    cases t.child? name with
    | none => rfl
    | some child => exact ih child

/-- What is found in a tree as file systems have them is such a tree. -/
lemma WellFormed.find? (wellFormed : t.WellFormed) (found : t.find? names = some child) :
    child.WellFormed := by
  induction names generalizing t with
  | nil =>
    cases found
    exact wellFormed
  | cons name names ih =>
    obtain ⟨next, here, deeper⟩ := Option.bind_eq_some_iff.1 found
    cases wellFormed with
    | file => cases here
    | folder distinct areNames inner => exact ih (inner _ (mem_of_child? here)) deeper

/-- The files of a folder are those of its entries, in their order. -/
lemma filesOf_eq_flatMap (p : Path) (entries : List (String × Tree)) :
    filesOf p entries = entries.flatMap fun e => e.2.filesFrom (p.join ⟨e.1⟩) := by
  induction entries with
  | nil => rfl
  | cons e entries ih =>
    obtain ⟨name, child⟩ := e
    rw [filesOf, ih, List.flatMap_cons]

/-- The walk finds what names lead to. -/
lemma joinAll_mem_filesFrom {content : ByteArray} (found : t.find? names = some (.file content))
    (p : Path) : p.joinAll names ∈ t.filesFrom p := by
  induction names generalizing t p with
  | nil =>
    cases found
    rw [filesFrom]
    exact List.mem_singleton_self p
  | cons name names ih =>
    obtain ⟨child, here, deeper⟩ := Option.bind_eq_some_iff.1 found
    cases t with
    | file => cases here
    | folder entries =>
      rw [filesFrom, filesOf_eq_flatMap, List.mem_flatMap]
      exact ⟨(name, child), mem_of_child? here, ih deeper (p.join ⟨name⟩)⟩

/-- What the walk finds goes on from the folder with names. -/
lemma WellFormed.exists_of_mem_filesFrom (wellFormed : t.WellFormed) (listed : q ∈ t.filesFrom p) :
    ∃ names, (∀ name ∈ names, Path.IsName name) ∧ q = p.joinAll names := by
  induction wellFormed generalizing p with
  | file content =>
    rw [filesFrom, List.mem_singleton] at listed
    exact ⟨[], nofun, listed⟩
  | folder distinct areNames inner ih =>
    rw [filesFrom, filesOf_eq_flatMap] at listed
    obtain ⟨e, here, listed⟩ := List.mem_flatMap.1 listed
    obtain ⟨names, more, rfl⟩ := ih e here listed
    exact ⟨e.1 :: names, List.forall_mem_cons.2 ⟨areNames e here, more⟩, rfl⟩

/-- The walk finds every file once. -/
lemma WellFormed.pairwise_filesFrom (wellFormed : t.WellFormed) (nonempty : p.text ≠ "") :
    (t.filesFrom p).Pairwise fun q r => q.same r = false := by
  induction wellFormed generalizing p with
  | file content =>
    rw [filesFrom]
    exact List.pairwise_singleton _ p
  | @folder entries distinct areNames inner ih =>
    rw [filesFrom, filesOf_eq_flatMap, List.pairwise_flatMap]
    refine ⟨fun e here => ih e here (p.text_join_ne (areNames e here)), ?_⟩
    -- below two entries, the components are different where the names of the entries are
    have components : ∀ e ∈ entries, ∀ q ∈ e.2.filesFrom (p.join ⟨e.1⟩),
        ∃ names : List String, q.components = p.components ++ .name e.1 :: names.map .name := by
      intro e here q listed
      obtain ⟨names, more, rfl⟩ := (inner e here).exists_of_mem_filesFrom listed
      have areNames' := List.forall_mem_cons.2 ⟨areNames e here, more⟩
      refine ⟨names, ?_⟩
      rw [← Path.joinAll_cons, Path.components_joinAll nonempty areNames', List.map_cons]
    refine (List.pairwise_map.1 distinct).imp_of_mem fun {d e} first second apart q inD r inE => ?_
    obtain ⟨names, left⟩ := components d first q inD
    obtain ⟨names', right⟩ := components e second r inE
    refine Bool.eq_false_iff.2 fun same => apart ?_
    rw [Path.same_iff, left, right] at same
    exact Component.name.inj (List.cons.inj (List.append_cancel_left same)).1

end Tree

namespace Place

variable {w : Place} {p q : Path} {t : Tree} {here there names : List String} {name : String}

/-! ## Resolving -/

/-- Follows one segment of a path. -/
def step (w : Place) (here : List String) (segment : String) : Except FileFault (List String) :=
  match w.tree.find? here with
  | none => .error .notFound
  | some (.file _) => .error .notAFolder
  | some (.folder entries) =>
    if segment = "" ∨ segment = "." then .ok here
    else if segment = ".." then .ok here.dropLast
    else if longestName < segment.utf8ByteSize then .error .nameTooLong
    else if (entries.lookup segment).isSome then .ok (here ++ [segment])
    else .error .notFound

/-- A path is followed segment by segment. -/
lemma walk_eq_foldlM (w : Place) (here segments : List String) :
    w.walk here segments = segments.foldlM w.step here := by
  induction segments generalizing here with
  | nil => rfl
  | cons segment segments ih =>
    rw [walk, List.foldlM_cons, step]
    cases w.tree.find? here with
    | none => rfl
    | some t =>
      cases t with
      | file => rfl
      | folder entries =>
        dsimp only
        repeat' split
        all_goals first | exact ih _ | rfl

/-- Segments are followed one after the other. -/
lemma walk_append (w : Place) (here segments more : List String) :
    w.walk here (segments ++ more) = w.walk here segments >>= (w.walk · more) := by
  simp only [walk_eq_foldlM, List.foldlM_append]

/-- An empty segment leads nowhere else. -/
lemma eq_of_step_empty (followed : w.step here "" = .ok there) : there = here := by
  unfold step at followed
  split at followed
  · cases followed
  · cases followed
  · rw [if_pos (.inl rfl)] at followed
    exact (Except.ok.inj followed).symm

/-- A name leads one level down. -/
lemma eq_append_of_step (isName : Path.IsName name) (followed : w.step here name = .ok there) :
    there = here ++ [name] := by
  unfold step at followed
  split at followed
  · cases followed
  · cases followed
  · rw [if_neg (not_or.2 ⟨isName.nonempty, isName.notHere⟩), if_neg isName.notParent] at followed
    split at followed
    · cases followed
    · split at followed
      · exact (Except.ok.inj followed).symm
      · cases followed

/-- Names lead to what they name. -/
lemma eq_append_of_walk (areNames : ∀ name ∈ names, Path.IsName name)
    (walked : w.walk here names = .ok there) : there = here ++ names := by
  induction names generalizing here with
  | nil =>
    cases walked
    exact (List.append_nil _).symm
  | cons name names ih =>
    rw [List.forall_mem_cons] at areNames
    rw [walk_eq_foldlM, List.foldlM_cons] at walked
    obtain ⟨next, followed, walked⟩ := exists_of_bind_eq_ok walked
    rw [← walk_eq_foldlM] at walked
    rw [ih areNames.2 walked, eq_append_of_step areNames.1 followed, List.append_assoc,
      List.singleton_append]

/-- What a path leads to is found in the tree, at a place that its segments lead to. -/
lemma exists_of_get_eq_ok (held : w.get p = .ok t) :
    ∃ here, p.text ≠ "" ∧ w.walk (w.origin p) p.segments = .ok here ∧
      w.tree.find? here = some t := by
  obtain ⟨here, resolved, found⟩ := exists_of_bind_eq_ok held
  obtain ⟨⟨⟩, accepted, walked⟩ := exists_of_bind_eq_ok resolved
  refine ⟨here, ?_, walked, ?_⟩
  · intro empty
    have refused : refuse p = .error .notFound := by
      obtain rfl : p = ⟨""⟩ := congrArg Path.mk empty
      rfl
    rw [refused] at accepted
    cases accepted
  · split at found
    · next t' same =>
      cases found
      exact same
    · cases found

/-- A path is that of a file if it leads to one. -/
lemma isFile_iff : w.isFile p = true ↔ ∃ content, w.get p = .ok (.file content) := by
  unfold isFile
  split
  · next content held => exact ⟨fun _ => ⟨content, held⟩, fun _ => rfl⟩
  · next other => exact ⟨nofun, fun ⟨content, held⟩ => absurd held (other content)⟩

/-- A path is that of a folder if it leads to one. -/
lemma isFolder_iff : w.isFolder p = true ↔ ∃ entries, w.get p = .ok (.folder entries) := by
  unfold isFolder
  split
  · next entries held => exact ⟨fun _ => ⟨entries, held⟩, fun _ => rfl⟩
  · next other => exact ⟨nofun, fun ⟨entries, held⟩ => absurd held (other entries)⟩

/-- A file is no folder. -/
lemma isFolder_eq_false (isFile : w.isFile p = true) : w.isFolder p = false := by
  obtain ⟨content, held⟩ := isFile_iff.1 isFile
  rw [isFolder, held]

/-- What a path with names behind it leads to, the names lead to from where the path leads. -/
lemma find?_of_get_joinAll {child : Tree} (held : w.get p = .ok t)
    (areNames : ∀ name ∈ names, Path.IsName name) (named : names ≠ [])
    (below : w.get (p.joinAll names) = .ok child) : t.find? names = some child := by
  obtain ⟨here, nonempty, walked, found⟩ := exists_of_get_eq_ok held
  obtain ⟨there, -, walkedAll, foundAll⟩ := exists_of_get_eq_ok below
  obtain ⟨stem, stem'⟩ := Path.exists_stem nonempty
  have origin : w.origin (p.joinAll names) = w.origin p := by
    rw [Place.origin, Place.origin, Path.isAbsolute_joinAll nonempty areNames]
  rw [origin, stem'.segments_joinAll areNames named, walk_append] at walkedAll
  obtain ⟨middle, walkedStem, walkedNames⟩ := exists_of_bind_eq_ok walkedAll
  -- a path that ends with a slash is followed by one empty segment more, which leads nowhere else
  have same : here = middle := by
    obtain own | own := stem'.own
    · rw [own, walkedStem] at walked
      exact (Except.ok.inj walked).symm
    · rw [own, walk_append, walkedStem] at walked
      change w.walk middle [""] = .ok here at walked
      rw [walk_eq_foldlM, List.foldlM_cons] at walked
      obtain ⟨last, followed, done⟩ := exists_of_bind_eq_ok walked
      cases done
      exact eq_of_step_empty followed
  rw [eq_append_of_walk areNames walkedNames, ← same, Tree.find?_append, found] at foundAll
  exact foundAll

/-! ## The walk -/

/-- A file below a folder: the path of the folder goes on to it with names. -/
def IsBelow (w : Place) (p q : Path) : Prop :=
  ∃ names, names ≠ [] ∧ (∀ name ∈ names, Path.IsName name) ∧ q = p.joinAll names ∧
    w.isFile q = true

/-- The files of a folder are those below it. -/
lemma mem_filesBelow_iff (wellFormed : w.tree.WellFormed) (folder : w.isFolder p = true) :
    q ∈ w.filesBelow p ↔ w.IsBelow p q := by
  obtain ⟨entries, held⟩ := isFolder_iff.1 folder
  have list : w.filesBelow p = ((Tree.folder entries).filesFrom p).filter w.isFile := by
    rw [filesBelow, held]
  rw [list, List.mem_filter]
  constructor
  · rintro ⟨listed, file⟩
    obtain ⟨here, -, -, found⟩ := exists_of_get_eq_ok held
    obtain ⟨names, areNames, rfl⟩ := (wellFormed.find? found).exists_of_mem_filesFrom listed
    refine ⟨names, ?_, areNames, rfl, file⟩
    rintro rfl
    exact absurd folder (Bool.eq_false_iff.1 (isFolder_eq_false file))
  · rintro ⟨names, named, areNames, rfl, file⟩
    obtain ⟨content, below⟩ := isFile_iff.1 file
    exact ⟨Tree.joinAll_mem_filesFrom (find?_of_get_joinAll held areNames named below) p, file⟩

/-- The walk names no file twice. -/
lemma pairwise_filesBelow (wellFormed : w.tree.WellFormed) (p : Path) :
    (w.filesBelow p).Pairwise fun q r => q.same r = false := by
  rw [filesBelow]
  split
  · next t held =>
    obtain ⟨here, nonempty, -, found⟩ := exists_of_get_eq_ok held
    exact ((wellFormed.find? found).pairwise_filesFrom nonempty).filter _
  · exact .nil

end Place

end Knockout
