import Knockout.Proofs.Grammar.Reading

/-!
# What readers ensure

`Reader.Ensures p Q` says that on all tokens the value that `p` gives, the faults that it meets and
the tokens that it takes are related by `Q`. One reader after another ensures what follows from what
each of them ensures (`Reader.Ensures.bind`), and a block ensures whatever its entries keep and no
further tokens or faults undo (`Block.ensures_read`).
-/

namespace Knockout

namespace Reader

/-- On all tokens the value, the faults and the tokens taken are related by `Q`. -/
def Ensures (p : Reader α) (Q : α → List SyntaxFault → List Token → Prop) : Prop :=
  ∀ tokens, ∃ taken, tokens = taken ++ (p.run tokens).rest ∧
    Q (p.run tokens).value (p.run tokens).faults taken

variable {p : Reader α} {f : α → Reader β} {Q R : α → List SyntaxFault → List Token → Prop}
  {T : β → List SyntaxFault → List Token → Prop}

/-- What follows from a postcondition is one as well. -/
lemma Ensures.mono (ensures : p.Ensures R) (weaker : ∀ a fs taken, R a fs taken → Q a fs taken) :
    p.Ensures Q := by
  intro tokens
  obtain ⟨taken, split, holds⟩ := ensures tokens
  exact ⟨taken, split, weaker _ _ _ holds⟩

/-- A reader takes tokens from the front and leaves the others. -/
lemma ensures_of_forall (always : ∀ a fs taken, Q a fs taken) : p.Ensures Q := by
  intro tokens
  obtain ⟨taken, split⟩ := p.rest_suffix tokens
  exact ⟨taken, split.symm, always _ _ _⟩

/-- A value alone reports nothing and takes no tokens. -/
lemma ensures_pure {a : α} (holds : Q a [] []) : (pure a : Reader α).Ensures Q :=
  fun _ => ⟨[], rfl, holds⟩

/-- One reader after another: faults and tokens of the second come behind those of the first. -/
lemma Ensures.bind (first : p.Ensures R)
    (next : ∀ a fs taken, R a fs taken →
      (f a).Ensures fun b fs' taken' => T b (fs ++ fs') (taken ++ taken')) :
    (p >>= f).Ensures T := by
  intro tokens
  obtain ⟨taken, split, holds⟩ := first tokens
  obtain ⟨taken', split', holds'⟩ := next _ _ _ holds (p.run tokens).rest
  refine ⟨taken ++ taken', ?_, holds'⟩
  rw [run_bind, List.append_assoc, ← split']
  exact split

/-- After a reader about which nothing need be known. -/
lemma ensures_bind
    (next : ∀ a fs taken, (f a).Ensures fun b fs' taken' => T b (fs ++ fs') (taken ++ taken')) :
    (p >>= f).Ensures T :=
  Ensures.bind (R := fun _ _ _ => True) (ensures_of_forall fun _ _ _ => trivial)
    fun a fs taken _ => next a fs taken

/-- The token that is looked for is the one taken, or there is a fault that names what was
wanted. -/
lemma ensures_expect (k : Kind) (wanted : Expected) :
    (expect k wanted).Ensures fun t fs taken =>
      (∃ u, t = some u ∧ u.kind = k ∧ taken = [u]) ∨
        (t = none ∧ ((∃ u, .unexpected wanted u ∈ fs) ∨ .endOfInput wanted ∈ fs)) := by
  intro tokens
  cases tokens with
  | nil => exact ⟨[], rfl, .inr ⟨rfl, .inr (List.mem_singleton_self _)⟩⟩
  | cons t rest =>
    refine ⟨[t], ?_⟩
    by_cases fits : t.kind = k
    · rw [run_expect fits]
      exact ⟨rfl, .inl ⟨t, rfl, fits, rfl⟩⟩
    · rw [run_expect_of_ne fits]
      exact ⟨rfl, .inr ⟨rfl, .inl ⟨t, List.mem_singleton_self _⟩⟩⟩

end Reader

namespace Block

variable {ε σ : Type} {b : Block ε} {entry : σ → ε → Reader σ}
  {I : σ → List SyntaxFault → List Token → Prop} {s : σ} {fs : List SyntaxFault}
  {taken : List Token}

/-- One turn keeps what its entry keeps; a stray token changes nothing. -/
lemma ensures_turn
    (grows : ∀ s fs taken fs' taken', I s fs taken → I s (fs ++ fs') (taken ++ taken'))
    (each : ∀ s fs taken t e, b.entry? t.kind = some e → I s fs taken →
      (entry s e).Ensures fun s' fs' taken' => I s' (fs ++ fs') (taken ++ t :: taken'))
    (start : I s fs taken) (t : Token) :
    (b.turn entry s t).Ensures fun s' fs' taken' => I s' (fs ++ fs') (taken ++ t :: taken') := by
  cases starts : b.entry? t.kind with
  | some e =>
    unfold turn
    rw [starts]
    refine (each s fs taken t e starts start).bind fun s' fs' taken' holds => ?_
    refine Reader.ensures_bind fun _ fs'' taken'' => Reader.ensures_pure ?_
    have more := grows _ _ _ fs'' taken'' holds
    simpa using more
  | none =>
    -- what is skipped after a stray token leaves the value as it is
    have same : ∀ tokens, ((b.turn entry s t).run tokens).value = s := by
      intro tokens
      unfold turn
      rw [starts]
      rfl
    intro tokens
    obtain ⟨skipped, split⟩ := (b.turn entry s t).rest_suffix tokens
    refine ⟨skipped, split.symm, ?_⟩
    rw [same]
    exact grows _ _ _ _ _ start

/-- What each entry keeps, and no stray token breaks, holds at the end of all entries. -/
lemma ensures_entries
    (grows : ∀ s fs taken fs' taken', I s fs taken → I s (fs ++ fs') (taken ++ taken'))
    (each : ∀ s fs taken t e, b.entry? t.kind = some e → I s fs taken →
      (entry s e).Ensures fun s' fs' taken' => I s' (fs ++ fs') (taken ++ t :: taken'))
    (start : I s fs taken) :
    (b.entries entry s).Ensures fun s' fs' taken' => I s' (fs ++ fs') (taken ++ taken') := by
  intro tokens
  change ∃ taken', tokens = taken' ++ (b.entriesFrom entry s tokens).rest ∧
    I (b.entriesFrom entry s tokens).value (fs ++ (b.entriesFrom entry s tokens).faults)
      (taken ++ taken')
  -- the invariant carries what was reported and taken before, so both change from turn to turn
  fun_induction entriesFrom b entry s tokens generalizing fs taken with
  | case1 => exact ⟨[], rfl, by simpa using start⟩
  | case2 => exact ⟨[], rfl, by simpa using start⟩
  | case3 s t rest _ first =>
    rename_i later ih
    obtain ⟨front, split, holds⟩ := ensures_turn grows each start t rest
    obtain ⟨more, splitMore, holdsMore⟩ := ih holds
    refine ⟨t :: front ++ more, ?_, ?_⟩
    · rw [List.append_assoc, ← splitMore, List.cons_append]
      exact congrArg (t :: ·) split
    · simpa only [List.append_assoc, List.cons_append] using holdsMore

/-- What holds before a block, is kept by each of its entries and is not undone by further tokens or
faults holds after the block. -/
theorem ensures_read (fs : List SyntaxFault) (taken : List Token)
    (grows : ∀ s fs taken fs' taken', I s fs taken → I s (fs ++ fs') (taken ++ taken'))
    (each : ∀ s fs taken t e, b.entry? t.kind = some e → I s fs taken →
      (entry s e).Ensures fun s' fs' taken' => I s' (fs ++ fs') (taken ++ t :: taken'))
    (start : I s fs taken) :
    (b.read entry s).Ensures fun s' fs' taken' => I s' (fs ++ fs') (taken ++ taken') := by
  refine (ensures_entries grows each start).bind fun s' fs' taken' holds => ?_
  refine Reader.ensures_bind fun _ fs'' taken'' => Reader.ensures_pure ?_
  have more := grows _ _ _ fs'' taken'' holds
  simpa using more

/-- What each entry keeps of the value, the block keeps. -/
lemma ensures_read_value {I : σ → Prop}
    (each : ∀ s e, I s → (entry s e).Ensures fun s' _ _ => I s') (start : I s) :
    (b.read entry s).Ensures fun s' _ _ => I s' :=
  ensures_read (I := fun s _ _ => I s) [] [] (fun _ _ _ _ _ holds => holds)
    (fun s _ _ _ e _ holds => each s e holds) start

end Block

end Knockout
