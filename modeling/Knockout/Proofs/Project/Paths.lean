import Knockout.Project.Path
import Mathlib.Data.List.Basic

/-!
# Paths and names

A name that is joined to a path is one more component behind those of the path
(`Path.components_join`), whatever the path ends with, so paths that go on with different names are
not the same. The order of paths is total and transitive, and has only the same paths at one place
(`Path.le_total`, `Path.le_trans`, `Path.same_of_le`).
-/

namespace Knockout

namespace Path

/-- A name as a file or a folder may have it. -/
structure IsName (s : String) : Prop where
  nonempty : s ≠ ""
  notHere : s ≠ "."
  notParent : s ≠ ".."
  whole : '/' ∉ s.toList

instance : DecidablePred IsName := fun s =>
  decidable_of_iff (s ≠ "" ∧ s ≠ "." ∧ s ≠ ".." ∧ '/' ∉ s.toList)
    ⟨fun ⟨nonempty, notHere, notParent, whole⟩ => ⟨nonempty, notHere, notParent, whole⟩,
      fun isName => ⟨isName.nonempty, isName.notHere, isName.notParent, isName.whole⟩⟩

/-! ## Segments -/

/-- Segments are what stands between slashes. -/
lemma segmentsOf_eq_splitOn (cs : List Char) : segmentsOf cs = cs.splitOn '/' := by
  induction cs with
  | nil => rfl
  | cons c cs ih =>
    rw [segmentsOf, ih, List.splitOn_cons_eq_if_modifyHead]
    by_cases slash : c = '/'
    · simp [slash]
    · rw [if_neg slash, if_neg (by simpa using slash)]
      cases split : cs.splitOn '/' with
      | nil => exact absurd split (List.splitOn_ne_nil '/' cs)
      | cons s segments => rfl

/-- The segments to which a path is cut before a name is joined to it: its own, without an empty one
at the end. -/
structure Stem (p : Path) (stem : List String) : Prop where
  own : p.segments = stem ∨ p.segments = stem ++ [""]
  nonempty : p.isAbsolute = false → stem ≠ []
  join : ∀ {name}, IsName name → (p.join ⟨name⟩).segments = stem ++ [name]

variable {p q : Path} {stem names : List String} {name : String}

/-- A name is no absolute path. -/
lemma IsName.isAbsolute (isName : IsName name) : isAbsolute ⟨name⟩ = false := by
  rw [Path.isAbsolute, beq_eq_false_iff_ne]
  exact fun slash => isName.whole (List.mem_of_mem_head? slash)

/-- A path that goes on with a name has its own text in front and the name at the end. -/
lemma IsName.exists_text_join (isName : IsName name) (p : Path) :
    ∃ between, (p.join ⟨name⟩).text = p.text ++ between ++ name :=
  text_join_of_relative isName.isAbsolute

/-- A path that goes on with a name is absolute exactly if it was. -/
lemma isAbsolute_join (nonempty : p.text ≠ "") (isName : IsName name) :
    (p.join ⟨name⟩).isAbsolute = p.isAbsolute := by
  obtain ⟨between, text⟩ := isName.exists_text_join p
  have first : p.text.toList ≠ [] := fun empty => nonempty (String.toList_eq_nil_iff.1 empty)
  rw [Path.isAbsolute, text, String.toList_append, String.toList_append, List.append_assoc,
    List.head?_append_of_ne_nil _ first]
  rfl

/-- A path that goes on with a name is not empty. -/
lemma text_join_ne (p : Path) (isName : IsName name) : (p.join ⟨name⟩).text ≠ "" := by
  obtain ⟨between, text⟩ := isName.exists_text_join p
  rw [text, Ne, String.append_eq_empty_iff]
  exact fun empty => isName.nonempty empty.2

/-- All stretches of a path between slashes, also one in front of the first. -/
def pieces (p : Path) : List String := (p.text.toList.splitOn '/').map .ofList

/-- The segments of a path are its pieces, without the empty one in front of the root. -/
lemma segments_eq_pieces (p : Path) :
    p.segments = if p.isAbsolute then p.pieces.tail else p.pieces := by
  rw [segments, segmentsOf_eq_splitOn]
  rfl

/-- A slash separates the pieces in front of it from those behind it. -/
lemma pieces_of_append_slash {front rest : List Char}
    (text : p.text.toList = front ++ '/' :: rest) :
    p.pieces = (front.splitOn '/').map .ofList ++ (rest.splitOn '/').map .ofList := by
  rw [pieces, text, List.splitOn_append_cons_self, List.map_append]

/-- A name is one piece. -/
lemma map_splitOn_name (isName : IsName name) :
    (name.toList.splitOn '/').map String.ofList = [name] := by
  rw [List.splitOn_eq_singleton isName.whole, List.map_singleton, String.ofList_toList]

/-- A name is joined as one more piece, where the path ends with a slash in place of the empty last
one. -/
lemma exists_pieces (nonempty : p.text ≠ "") :
    ∃ front, front ≠ [] ∧ (p.pieces = front ∨ p.pieces = front ++ [""]) ∧
      ∀ {name}, IsName name → (p.join ⟨name⟩).pieces = front ++ [name] := by
  by_cases slash : p.text.toList.getLast? = some '/'
  · obtain ⟨front, text⟩ := List.getLast?_eq_some_iff.1 slash
    refine ⟨(front.splitOn '/').map .ofList, by simp, .inr (pieces_of_append_slash text), ?_⟩
    intro name isName
    have whole : (p.join ⟨name⟩).text.toList = front ++ '/' :: name.toList := by
      simp [join, isName.isAbsolute, text]
    rw [pieces_of_append_slash whole, map_splitOn_name isName]
  · refine ⟨p.pieces, by simp [pieces], .inl rfl, ?_⟩
    intro name isName
    have whole : (p.join ⟨name⟩).text.toList = p.text.toList ++ '/' :: name.toList := by
      simp [join, isName.isAbsolute, slash, nonempty]
    rw [pieces_of_append_slash whole, map_splitOn_name isName]
    rfl

/-- Every path has segments to which a name can be joined. -/
lemma exists_stem (nonempty : p.text ≠ "") : ∃ stem, p.Stem stem := by
  obtain ⟨front, inFront, own, joined⟩ := exists_pieces nonempty
  have cut (last : String) : (front ++ [last]).tail = front.tail ++ [last] :=
    List.tail_append_of_ne_nil inFront
  refine ⟨if p.isAbsolute then front.tail else front, ?_, ?_, ?_⟩
  · rw [segments_eq_pieces]
    obtain own | own := own <;> rw [own]
    · exact .inl rfl
    · right
      split
      · exact cut ""
      · rfl
  · intro relative
    rw [if_neg (by simp [relative])]
    exact inFront
  · intro name isName
    rw [segments_eq_pieces, isAbsolute_join nonempty isName, joined isName]
    split
    · exact cut name
    · rfl

/-- What follows a name that was joined is joined to it. -/
lemma Stem.snoc (stem' : p.Stem stem) (isName : IsName name) :
    (p.join ⟨name⟩).Stem (stem ++ [name]) := by
  obtain ⟨longer, next⟩ := exists_stem (text_join_ne p isName)
  have same : longer = stem ++ [name] := by
    obtain own | own := next.own
    · rw [← own, stem'.join isName]
    · -- the name at the end is no empty segment
      rw [stem'.join isName] at own
      have last := congrArg List.getLast? own
      rw [List.getLast?_concat, List.getLast?_concat] at last
      exact absurd (Option.some.inj last) isName.nonempty
  exact same ▸ next

/-! ## Going on with names -/

/-- The path that goes on with some names. -/
def joinAll (p : Path) (names : List String) : Path := names.foldl (fun q name => q.join ⟨name⟩) p

/-- The first name is joined first. -/
lemma joinAll_cons (p : Path) (name : String) (names : List String) :
    p.joinAll (name :: names) = (p.join ⟨name⟩).joinAll names := rfl

/-- A path that goes on with names is absolute exactly if it was. -/
lemma isAbsolute_joinAll (nonempty : p.text ≠ "") (areNames : ∀ name ∈ names, IsName name) :
    (p.joinAll names).isAbsolute = p.isAbsolute := by
  induction names generalizing p with
  | nil => rfl
  | cons name names ih =>
    rw [List.forall_mem_cons] at areNames
    rw [joinAll_cons, ih (text_join_ne p areNames.1) areNames.2,
      isAbsolute_join nonempty areNames.1]

/-- Names are joined behind the segments of a path. -/
lemma Stem.segments_joinAll (stem' : p.Stem stem)
    (areNames : ∀ name ∈ names, IsName name) (others : names ≠ []) :
    (p.joinAll names).segments = stem ++ names := by
  induction names generalizing p stem with
  | nil => exact absurd rfl others
  | cons name names ih =>
    rw [List.forall_mem_cons] at areNames
    cases names with
    | nil => exact stem'.join areNames.1
    | cons next names =>
      rw [joinAll_cons, ih (stem'.snoc areNames.1) areNames.2 (List.cons_ne_nil next names),
        List.append_assoc, List.singleton_append]

/-! ## Components -/

/-- The components of a path with these segments. -/
def componentsOf (absolute : Bool) (segments : List String) : List Component :=
  let own (leading : Bool) (segments : List String) : List Component :=
    (segments.filter (counts leading)).map componentOf
  if absolute then .root :: own false segments
  else own true (segments.take 1) ++ own false (segments.drop 1)

/-- One more segment is no more than one more component, unless it comes first. -/
lemma componentsOf_concat {absolute : Bool} {segments : List String}
    (nonempty : absolute = false → segments ≠ []) (last : String) :
    componentsOf absolute (segments ++ [last]) =
      componentsOf absolute segments ++ ([last].filter (counts false)).map componentOf := by
  cases absolute with
  | true => simp [componentsOf]
  | false =>
    obtain ⟨first, segments, rfl⟩ := List.exists_cons_of_ne_nil (nonempty rfl)
    simp [componentsOf]

/-- The components of a path come from the segments to which a name is joined. -/
lemma Stem.components_eq (stem' : p.Stem stem) :
    p.components = componentsOf p.isAbsolute stem := by
  have own : p.components = componentsOf p.isAbsolute p.segments := rfl
  obtain same | same := stem'.own
  · rw [own, same]
  · rw [own, same, componentsOf_concat stem'.nonempty]
    exact List.append_nil _

/-- A name that is joined is one more component. -/
lemma components_join (nonempty : p.text ≠ "") (isName : IsName name) :
    (p.join ⟨name⟩).components = p.components ++ [.name name] := by
  obtain ⟨stem, stem'⟩ := exists_stem nonempty
  have last : ([name].filter (counts false)).map componentOf = [.name name] := by
    simp [counts, componentOf, isName.nonempty, isName.notHere, isName.notParent]
  rw [(stem'.snoc isName).components_eq, isAbsolute_join nonempty isName,
    componentsOf_concat stem'.nonempty, last, stem'.components_eq]

/-- Names that are joined to a path are further components of it. -/
lemma components_joinAll (nonempty : p.text ≠ "") (areNames : ∀ name ∈ names, IsName name) :
    (p.joinAll names).components = p.components ++ names.map .name := by
  induction names generalizing p with
  | nil => exact (List.append_nil _).symm
  | cons name names ih =>
    rw [List.forall_mem_cons] at areNames
    rw [joinAll_cons, ih (text_join_ne p areNames.1) areNames.2,
      components_join nonempty areNames.1, List.append_assoc, List.singleton_append, List.map_cons]

/-- Paths are the same when their components are. -/
lemma same_iff : p.same q = true ↔ p.components = q.components := beq_iff_eq

end Path

/-! ## Order -/

namespace Component

variable {b c d : Component} {bs cs ds : List Component}

/-- Components are in order of their ranks, and names among themselves in order of the texts. -/
lemma lt_iff :
    c.lt d = true ↔ c.rank < d.rank ∨ ∃ s t, c = .name s ∧ d = .name t ∧ s < t := by
  cases c with
  | name s =>
    cases d with
    | name t =>
      simp only [lt, rank, decide_eq_true_eq, name.injEq, exists_eq_left', exists_and_left,
        Nat.lt_irrefl, false_or]
    | _ => simp [lt, rank]
  | _ => cases d <;> simp [lt, rank]

/-- No component comes before itself. -/
lemma not_lt_self (c : Component) : ¬ c.lt c = true := by
  rw [lt_iff]
  rintro (less | ⟨s, t, rfl, same, less⟩)
  · exact Nat.lt_irrefl _ less
  · cases same
    exact String.lt_irrefl _ less

/-- The order of components is transitive. -/
lemma lt_trans (first : b.lt c = true) (second : c.lt d = true) : b.lt d = true := by
  rw [lt_iff] at first second ⊢
  obtain first | ⟨s, t, rfl, rfl, first⟩ := first
  · obtain second | ⟨t, u, rfl, rfl, second⟩ := second
    · exact .inl (Nat.lt_trans first second)
    · exact .inl first
  · obtain second | ⟨t', u, same, rfl, second⟩ := second
    · exact .inl second
    · cases same
      exact .inr ⟨s, u, rfl, rfl, String.lt_trans first second⟩

/-- Of two components, one comes first. -/
lemma lt_or_lt (different : c ≠ d) : c.lt d = true ∨ d.lt c = true := by
  rw [lt_iff, lt_iff]
  obtain less | same | more := Nat.lt_trichotomy c.rank d.rank
  · exact .inl (.inl less)
  · cases c with
    | name s =>
      cases d with
      | name t =>
        have apart : s ≠ t := fun same => different (congrArg name same)
        have ordered : s < t ∨ t < s := by
          by_contra neither
          rw [not_or, String.not_lt, String.not_lt] at neither
          exact apart (String.le_antisymm neither.2 neither.1)
        exact ordered.imp (fun less => .inr ⟨s, t, rfl, rfl, less⟩)
          fun more => .inr ⟨t, s, rfl, rfl, more⟩
      | _ => cases same
    | _ => cases d <;> first | exact absurd rfl different | cases same
  · exact .inr (.inl more)

/-- Lists of components are in the order of the first ones that differ. -/
lemma listLe_cons :
    listLe (c :: cs) (d :: ds) = true ↔ c = d ∧ listLe cs ds = true ∨ c.lt d = true := by
  rw [listLe]
  split
  · next same =>
    subst same
    simp [not_lt_self]
  · next different => simp [different]

/-- The order of lists of components is transitive. -/
lemma listLe_trans (first : listLe bs cs = true) (second : listLe cs ds = true) :
    listLe bs ds = true := by
  induction bs generalizing cs ds with
  | nil => rfl
  | cons b bs ih =>
    cases cs with
    | nil => cases first
    | cons c cs =>
      cases ds with
      | nil => cases second
      | cons d ds =>
        rw [listLe_cons] at first second ⊢
        obtain ⟨rfl, first⟩ | first := first
        · obtain ⟨rfl, second⟩ | second := second
          · exact .inl ⟨rfl, ih first second⟩
          · exact .inr second
        · obtain ⟨rfl, -⟩ | second := second
          · exact .inr first
          · exact .inr (lt_trans first second)

/-- Of two lists of components, one may come first. -/
lemma listLe_total (cs ds : List Component) : listLe cs ds = true ∨ listLe ds cs = true := by
  induction cs generalizing ds with
  | nil => exact .inl rfl
  | cons c cs ih =>
    cases ds with
    | nil => exact .inr rfl
    | cons d ds =>
      rw [listLe_cons, listLe_cons]
      by_cases same : c = d
      · exact (ih ds).imp (fun le => .inl ⟨same, le⟩) fun le => .inl ⟨same.symm, le⟩
      · exact (lt_or_lt same).imp .inr .inr

/-- Lists of components that may both come first are equal. -/
lemma listLe_antisymm (first : listLe cs ds = true) (second : listLe ds cs = true) : cs = ds := by
  induction cs generalizing ds with
  | nil =>
    cases ds with
    | nil => rfl
    | cons d ds => cases second
  | cons c cs ih =>
    cases ds with
    | nil => cases first
    | cons d ds =>
      rw [listLe_cons] at first second
      obtain ⟨rfl, first⟩ | first := first
      · obtain ⟨-, second⟩ | second := second
        · rw [ih first second]
        · exact absurd second (not_lt_self c)
      · obtain ⟨rfl, -⟩ | second := second
        · exact absurd first (not_lt_self d)
        · exact absurd (lt_trans first second) (not_lt_self c)

end Component

namespace Path

variable {p q r : Path}

/-- The order of paths is transitive. -/
lemma le_trans (first : p.le q = true) (second : q.le r = true) : p.le r = true :=
  Component.listLe_trans first second

/-- Of two paths, one may come first. -/
lemma le_total (p q : Path) : p.le q = true ∨ q.le p = true :=
  Component.listLe_total p.components q.components

/-- Paths that may both come first are the same. -/
lemma same_of_le (first : p.le q = true) (second : q.le p = true) : p.same q = true :=
  same_iff.2 (Component.listLe_antisymm first second)

end Path

end Knockout
