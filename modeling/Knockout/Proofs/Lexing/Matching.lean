import Knockout.Proofs.Lexing.Delimiters

/-!
# Delimiters that belong together

Which delimiters belong together can be said without reading from left to right: an opener and a
closer do when everything between them is balanced (`Delimiter.Balanced`), so a closer belongs to
the nearest opener in front of it that no other closer belongs to. Delimiters of another sort do not
count. The openers that are open at some place (`Delimiter.track`) are those that nothing up to
there closes, since balanced tokens leave them as they are (`Delimiter.foldl_balanced`). Main
statements: `Delimiter.strays_iff`, the closers that find nothing open have no opener, and
`Delimiter.mem_foldl_track_iff`, the openers that are open in the end have no closer.
-/

namespace Knockout

/-! ## Which delimiters belong together -/

namespace Delimiter

/-- Every opener of a sort has its closer behind it, and every closer its opener in front of it.
Other tokens do not count. -/
inductive Balanced (d : Delimiter) : List Token → Prop where
  | nil : Balanced d []
  | other (notOpener : t.kind ≠ .symbol d.opener) (notCloser : t.kind ≠ .symbol d.closer)
    (more : Balanced d ts) : Balanced d (t :: ts)
  | pair (opens : o.kind = .symbol d.opener) (inside : Balanced d us)
    (closes : c.kind = .symbol d.closer) (more : Balanced d ts) : Balanced d (o :: us ++ c :: ts)

/-- A closer behind these tokens has its opener among them. -/
def HasOpener (d : Delimiter) (before : List Token) : Prop :=
  ∃ front o inner, before = front ++ o :: inner ∧ o.kind = .symbol d.opener ∧ d.Balanced inner

/-- An opener in front of these tokens has its closer among them. -/
def HasCloser (d : Delimiter) (after : List Token) : Prop :=
  ∃ inner c back, after = inner ++ c :: back ∧ c.kind = .symbol d.closer ∧ d.Balanced inner

/-- A closer among some tokens that has no opener. -/
def UnmatchedCloser (d : Delimiter) (tokens : List Token) (t : Token) : Prop :=
  ∃ before after, tokens = before ++ t :: after ∧ t.kind = .symbol d.closer ∧ ¬d.HasOpener before

/-- An opener among some tokens that has no closer. -/
def UnmatchedOpener (d : Delimiter) (tokens : List Token) (t : Token) : Prop :=
  ∃ before after, tokens = before ++ t :: after ∧ t.kind = .symbol d.opener ∧ ¬d.HasCloser after

variable {d d' : Delimiter} {ts us : List Token} {t : Token}

/-- An unmatched closer is among its tokens. -/
lemma UnmatchedCloser.mem (closer : d.UnmatchedCloser ts t) : t ∈ ts := by
  obtain ⟨before, after, rfl, -⟩ := closer
  exact List.mem_append_right _ List.mem_cons_self

/-- An unmatched opener is among its tokens. -/
lemma UnmatchedOpener.mem (opener : d.UnmatchedOpener ts t) : t ∈ ts := by
  obtain ⟨before, after, rfl, -⟩ := opener
  exact List.mem_append_right _ List.mem_cons_self

/-- Balanced tokens one after the other are balanced. -/
lemma Balanced.append (front : d.Balanced ts) (back : d.Balanced us) : d.Balanced (ts ++ us) := by
  induction front with
  | nil => exact back
  | other notOpener notCloser _ ih => exact .other notOpener notCloser ih
  | pair opens inside closes _ _ ih =>
    rw [List.append_assoc]
    exact .pair opens inside closes ih

/-! ## The open delimiters of one sort -/

/-- The openers that are open after one more token, the latest first. -/
def track (d : Delimiter) (opened : List Span) (t : Token) : List Span :=
  if t.kind = .symbol d.opener then t.span :: opened
  else if t.kind = .symbol d.closer then opened.tail
  else opened

variable {opened : List Span}

/-- Delimiters of one sort do not see those of another. -/
lemma track_opener_of (opens : t.kind = .symbol d'.opener) :
    d.track opened t = if d = d' then t.span :: opened else opened := by
  rw [track, opens]
  cases d <;> cases d' <;> rfl

/-- A closer takes away the latest opener of its own sort and none of another. -/
lemma track_closer_of (closes : t.kind = .symbol d'.closer) :
    d.track opened t = if d = d' then opened.tail else opened := by
  rw [track, closes]
  cases d <;> cases d' <;> rfl

/-- An opener is open behind it. -/
lemma track_opener (opens : t.kind = .symbol d.opener) : d.track opened t = t.span :: opened := by
  rw [track_opener_of opens, if_pos rfl]

/-- A closer takes away the latest opener. -/
lemma track_closer (closes : t.kind = .symbol d.closer) : d.track opened t = opened.tail := by
  rw [track_closer_of closes, if_pos rfl]

/-- A token that is neither opens and closes nothing. -/
lemma track_other (notOpener : t.kind ≠ .symbol d.opener) (notCloser : t.kind ≠ .symbol d.closer) :
    d.track opened t = opened := by
  rw [track, if_neg notOpener, if_neg notCloser]

/-- Balanced tokens leave open what was open. -/
lemma foldl_balanced (balanced : d.Balanced ts) (opened : List Span) :
    ts.foldl d.track opened = opened := by
  induction balanced generalizing opened with
  | nil => rfl
  | other notOpener notCloser _ ih => rw [List.foldl_cons, track_other notOpener notCloser, ih]
  | pair opens _ closes _ inside more =>
    rw [List.foldl_append, List.foldl_cons, List.foldl_cons, track_opener opens, inside,
      track_closer closes, List.tail_cons, more]

/-- The latest open delimiter is one behind which everything is balanced. -/
lemma exists_of_foldl_track {s : Span} (left : ts.foldl d.track [] = s :: opened) :
    ∃ front o inner, ts = front ++ o :: inner ∧ o.kind = .symbol d.opener ∧ o.span = s ∧
      d.Balanced inner ∧ front.foldl d.track [] = opened := by
  induction h : ts.length using Nat.strong_induction_on generalizing ts s opened with
  | _ n ih =>
    obtain rfl | ⟨ts, t, rfl⟩ := List.eq_nil_or_concat' ts
    · cases left
    rw [List.foldl_append, List.foldl_cons, List.foldl_nil] at left
    rw [List.length_append, List.length_singleton] at h
    by_cases opens : t.kind = .symbol d.opener
    · rw [track_opener opens] at left
      cases left
      exact ⟨ts, t, [], rfl, opens, rfl, .nil, rfl⟩
    by_cases closes : t.kind = .symbol d.closer
    · -- the token closes the latest delimiter, and the one before it is left
      rw [track_closer closes] at left
      cases top : ts.foldl d.track [] with
      | nil =>
        rw [top] at left
        cases left
      | cons r below =>
        rw [top, List.tail_cons] at left
        subst left
        obtain ⟨front, o, inner, rfl, opens', rfl, inside, rest⟩ := ih ts.length (by omega) top rfl
        have shorter : front.length < n := by
          rw [List.length_append] at h
          omega
        obtain ⟨front, o', inner', rfl, opens'', rfl, inside', rest⟩ := ih _ shorter rest rfl
        refine ⟨front, o', inner' ++ (o :: inner ++ t :: []), ?_, opens'', rfl, ?_, rest⟩
        · simp only [List.append_assoc, List.cons_append]
        · exact inside'.append (.pair opens' inside closes .nil)
    · rw [track_other opens closes] at left
      obtain ⟨front, o, inner, rfl, opens', rfl, inside, rest⟩ := ih ts.length (by omega) left rfl
      refine ⟨front, o, inner ++ [t], ?_, opens', rfl, ?_, rest⟩
      · rw [List.append_assoc, List.cons_append]
      · exact inside.append (.other opens closes .nil)

/-- Nothing is open exactly where a closer has no opener. -/
lemma foldl_track_eq_nil_iff : ts.foldl d.track [] = [] ↔ ¬d.HasOpener ts := by
  constructor
  · rintro empty ⟨front, o, inner, rfl, opens, inside⟩
    rw [List.foldl_append, List.foldl_cons, track_opener opens, foldl_balanced inside] at empty
    cases empty
  · intro unopened
    cases left : ts.foldl d.track [] with
    | nil => rfl
    | cons s opened =>
      obtain ⟨front, o, inner, whole, opens, -, inside, -⟩ := exists_of_foldl_track left
      exact absurd ⟨front, o, inner, whole, opens, inside⟩ unopened

/-- Whatever is open in front of these tokens is open behind them. -/
def Keeps (d : Delimiter) (ts : List Token) : Prop :=
  ∃ more, ∀ opened, ts.foldl d.track opened = more ++ opened

/-- Balanced tokens keep open what is open. -/
lemma Balanced.keeps (balanced : d.Balanced ts) : d.Keeps ts := ⟨[], foldl_balanced balanced⟩

/-- What is open is kept through one stretch and then through another. -/
lemma Keeps.append (front : d.Keeps ts) (back : d.Keeps us) : d.Keeps (ts ++ us) := by
  obtain ⟨more, front⟩ := front
  obtain ⟨more', back⟩ := back
  refine ⟨more' ++ more, fun opened => ?_⟩
  rw [List.foldl_append, front, back, List.append_assoc]

/-- With an opener in front, what is open is still kept. -/
lemma Keeps.opener (opens : t.kind = .symbol d.opener) (more : d.Keeps ts) : d.Keeps (t :: ts) := by
  obtain ⟨more, keeps⟩ := more
  refine ⟨more ++ [t.span], fun opened => ?_⟩
  rw [List.foldl_cons, track_opener opens, keeps, List.append_assoc, List.singleton_append]

/-- With a token in front that is neither opener nor closer, what is open is still kept. -/
lemma Keeps.other (notOpener : t.kind ≠ .symbol d.opener) (notCloser : t.kind ≠ .symbol d.closer)
    (more : d.Keeps ts) : d.Keeps (t :: ts) := by
  obtain ⟨more, keeps⟩ := more
  refine ⟨more, fun opened => ?_⟩
  rw [List.foldl_cons, track_other notOpener notCloser, keeps]

/-- Tokens keep open what is open, or one of them closes it. -/
lemma keeps_or_hasCloser (d : Delimiter) (ts : List Token) : d.Keeps ts ∨ d.HasCloser ts := by
  induction h : ts.length using Nat.strong_induction_on generalizing ts with
  | _ n ih =>
    cases ts with
    | nil => exact .inl Balanced.nil.keeps
    | cons t ts =>
      rw [List.length_cons] at h
      by_cases opens : t.kind = .symbol d.opener
      · obtain keeps | ⟨inner, c, back, rfl, closes, inside⟩ := ih ts.length (by omega) ts rfl
        · exact .inl (keeps.opener opens)
        have closed : d.Balanced (t :: inner ++ c :: []) := .pair opens inside closes .nil
        have whole : t :: (inner ++ c :: back) = (t :: inner ++ c :: []) ++ back := by simp
        have shorter : back.length < n := by
          rw [List.length_append, List.length_cons] at h
          omega
        rw [whole]
        obtain keeps | ⟨inner', c', back, rfl, closes', inside'⟩ := ih _ shorter back rfl
        · exact .inl (closed.keeps.append keeps)
        · exact .inr ⟨_, c', back, (List.append_assoc ..).symm, closes', closed.append inside'⟩
      by_cases closes : t.kind = .symbol d.closer
      · exact .inr ⟨[], t, ts, rfl, closes, .nil⟩
      · obtain keeps | ⟨inner, c, back, rfl, closes', inside⟩ := ih ts.length (by omega) ts rfl
        · exact .inl (keeps.other opens closes)
        · exact .inr ⟨t :: inner, c, back, rfl, closes', .other opens closes inside⟩

/-- What is kept open is not closed. -/
lemma Keeps.not_hasCloser (keeps : d.Keeps ts) : ¬d.HasCloser ts := by
  rintro ⟨inner, c, back, rfl, closes, inside⟩
  obtain ⟨more, keeps⟩ := keeps
  -- the closer takes away what is open, so it cannot matter whether anything was
  have empty := keeps []
  have one := keeps [.unknown]
  rw [List.foldl_append, List.foldl_cons, foldl_balanced inside, track_closer closes] at empty one
  rw [List.tail_nil] at empty
  rw [List.tail_cons, empty] at one
  simp at one

/-- An opener stays open exactly through tokens that have no closer for it. -/
lemma keeps_iff : d.Keeps ts ↔ ¬d.HasCloser ts :=
  ⟨Keeps.not_hasCloser, (keeps_or_hasCloser d ts).resolve_right⟩

/-- What is open in the end are the openers without a closer. -/
lemma mem_foldl_track_iff {s : Span} :
    s ∈ ts.foldl d.track [] ↔ ∃ t, d.UnmatchedOpener ts t ∧ t.span = s := by
  constructor
  · intro mem
    induction h : ts.length using Nat.strong_induction_on generalizing ts with
    | _ n ih =>
      cases left : ts.foldl d.track [] with
      | nil =>
        rw [left] at mem
        cases mem
      | cons r opened =>
        obtain ⟨front, o, inner, rfl, opens, rfl, inside, rest⟩ := exists_of_foldl_track left
        rw [left, ← rest] at mem
        obtain rfl | mem := List.mem_cons.1 mem
        · exact ⟨o, ⟨front, inner, rfl, opens, inside.keeps.not_hasCloser⟩, rfl⟩
        have shorter : front.length < n := by
          rw [← h, List.length_append, List.length_cons]
          omega
        obtain ⟨t, ⟨before, after, rfl, opens', unclosed⟩, same⟩ := ih _ shorter mem rfl
        refine ⟨t, ⟨before, after ++ o :: inner, by simp, opens', ?_⟩, same⟩
        exact ((keeps_iff.2 unclosed).append (inside.keeps.opener opens)).not_hasCloser
  · rintro ⟨t, ⟨before, after, rfl, opens, unclosed⟩, rfl⟩
    obtain ⟨more, keeps⟩ := keeps_iff.2 unclosed
    rw [List.foldl_append, List.foldl_cons, track_opener opens, keeps]
    exact List.mem_append_right _ List.mem_cons_self

/-- Among these tokens there is a closer in front of which nothing of its sort is open. -/
def Strays (d : Delimiter) (opened : List Span) (ts : List Token) (s : Span) : Prop :=
  ∃ before t after, ts = before ++ t :: after ∧ t.kind = .symbol d.closer ∧ t.span = s ∧
    before.foldl d.track opened = []

/-- Where there are no tokens, no closer goes astray. -/
lemma not_strays_nil {s : Span} : ¬d.Strays opened [] s := by
  rintro ⟨before, t, after, whole, -⟩
  cases before <;> cases whole

/-- A closer goes astray at the first token, where nothing is open, or at a later one. -/
lemma strays_cons {s : Span} :
    d.Strays opened (t :: ts) s ↔
      (t.kind = .symbol d.closer ∧ t.span = s ∧ opened = []) ∨
        d.Strays (d.track opened t) ts s := by
  constructor
  · rintro ⟨before, u, after, whole, closes, span, unopened⟩
    cases before with
    | nil =>
      cases whole
      exact .inl ⟨closes, span, unopened⟩
    | cons v before =>
      cases whole
      exact .inr ⟨before, u, after, rfl, closes, span, unopened⟩
  · rintro (⟨closes, span, unopened⟩ | ⟨before, u, after, rfl, closes, span, unopened⟩)
    · exact ⟨[], t, ts, rfl, closes, span, unopened⟩
    · exact ⟨t :: before, u, after, rfl, closes, span, unopened⟩

/-- The closers without an opener are those that come when nothing is open. -/
lemma strays_iff {s : Span} : d.Strays [] ts s ↔ ∃ t, d.UnmatchedCloser ts t ∧ t.span = s := by
  constructor
  · rintro ⟨before, t, after, whole, closes, span, unopened⟩
    exact ⟨t, ⟨before, after, whole, closes, foldl_track_eq_nil_iff.1 unopened⟩, span⟩
  · rintro ⟨t, ⟨before, after, whole, closes, unopened⟩, span⟩
    exact ⟨before, t, after, whole, closes, span, foldl_track_eq_nil_iff.2 unopened⟩

end Delimiter

end Knockout
