import Knockout.Proofs.Blame.Errors

/-!
# What a definition depends on

Readers go by the kinds of tokens. Of their texts they use those of strings and numbers, and their
places are only handed on to faults. So tokens with the same content (`Token.SameContent`), however
they are spelled and wherever they stand, are read alike: into the same tournament, with the same
faults about corresponding tokens. `Reader.Alike` says this of two readers on any related tokens,
and one reader after another keeps it (`Reader.Alike.bind`). The main statement is
`parse_of_sameContent`.
-/

namespace Knockout

/-- The tokens are of one kind, and strings and numbers have the same text. -/
def Token.SameContent (t u : Token) : Prop :=
  t.kind = u.kind ∧ (t.kind = .string ∨ t.kind = .number → t.lexeme = u.lexeme)

/-- The faults have the same cause, each about its own of two related tokens. -/
inductive SyntaxFault.Alike (R : Token → Token → Prop) : SyntaxFault → SyntaxFault → Prop where
  | unexpected (same : R t u) : Alike R (.unexpected wanted t) (.unexpected wanted u)
  | endOfInput : Alike R (.endOfInput wanted) (.endOfInput wanted)
  | numberOutOfRange (same : R t u) : Alike R (.numberOutOfRange t) (.numberOutOfRange u)
  | notAPosition (same : R t u) : Alike R (.notAPosition t) (.notAPosition u)
  | stray (same : R t u) : Alike R (.stray block t) (.stray block u)
  | trailing (same : R t u) : Alike R (.trailing t) (.trailing u)
  | duplicateTeam (same : R t u) : Alike R (.duplicateTeam t) (.duplicateTeam u)
  | unknownTeam (same : R t u) : Alike R (.unknownTeam t) (.unknownTeam u)
  | teamCount (same : Option.Rel R t u) :
    Alike R (.teamCount declared defined t) (.teamCount declared defined u)

/-- What reading related tokens gives: related values, faults of the same causes, and related tokens
left over. -/
structure Outcome.Alike (R : Token → Token → Prop) (S : α → α → Prop) (o o' : Outcome α) :
    Prop where
  value : S o.value o'.value
  faults : List.Forall₂ (SyntaxFault.Alike R) o.faults o'.faults
  rest : List.Forall₂ R o.rest o'.rest

/-- On related tokens the readers do the same. -/
def Reader.Alike (R : Token → Token → Prop) (S : α → α → Prop) (p q : Reader α) : Prop :=
  ∀ ts us, List.Forall₂ R ts us → (p.run ts).Alike R S (q.run us)

section Related

variable {R : Token → Token → Prop} {S : α → α → Prop}

namespace Reader

/-- One reader after another: what the second does may depend on the value of the first. -/
lemma Alike.bind {T : β → β → Prop} {p q : Reader α} {f g : α → Reader β} (first : p.Alike R S q)
    (second : ∀ a b, S a b → (f a).Alike R T (g b)) : (p >>= f).Alike R T (q >>= g) := by
  intro ts us same
  have first := first ts us same
  have second := second _ _ first.value _ _ first.rest
  exact ⟨second.value, List.rel_append first.faults second.faults, second.rest⟩

/-- A weaker relation between the values holds as well. -/
lemma Alike.mono {T : α → α → Prop} {p q : Reader α} (same : p.Alike R S q)
    (weaker : ∀ a b, S a b → T a b) : p.Alike R T q := by
  intro ts us related
  obtain ⟨value, faults, rest⟩ := same ts us related
  exact ⟨weaker _ _ value, faults, rest⟩

/-- Two values that are related need no tokens. -/
lemma alike_pure {a b : α} (same : S a b) : (pure a : Reader α).Alike R S (pure b) :=
  fun _ _ rest => ⟨same, .nil, rest⟩

/-- The same fault about two related tokens is reported in the same way. -/
lemma alike_report {f g : SyntaxFault} (same : f.Alike R g) :
    (report f).Alike R (· = ·) (report g) :=
  fun _ _ rest => ⟨rfl, .cons same .nil, rest⟩

variable (content : ∀ t u, R t u → t.SameContent u)
include content

/-- Of a token that is looked for only the kind is looked at. -/
lemma alike_expect (k : Kind) (wanted : Expected) :
    (expect k wanted).Alike R (Option.Rel fun t u => R t u ∧ t.kind = k) (expect k wanted) := by
  intro ts us same
  cases same with
  | nil => exact ⟨.none, .cons .endOfInput .nil, .nil⟩
  | @cons t u _ _ same rest =>
    obtain ⟨kind, -⟩ := content _ _ same
    by_cases fits : t.kind = k
    · rw [run_expect fits, run_expect (kind.symm.trans fits)]
      exact ⟨.some ⟨same, fits⟩, .nil, rest⟩
    · rw [run_expect_of_ne fits, run_expect_of_ne (kind ▸ fits)]
      exact ⟨.none, .cons (.unexpected same) .nil, rest⟩

/-- Whether a token of a kind comes next is the same for related tokens. -/
lemma alike_isSome (k : Kind) (wanted : Expected) :
    (return (← expect k wanted).isSome : Reader Bool).Alike R (· = ·)
      (return (← expect k wanted).isSome) := by
  refine (alike_expect content k wanted).bind fun a b same => alike_pure ?_
  cases same <;> rfl

/-- A keyword is read alike from related tokens. -/
lemma alike_keyword (k : Keyword) : (keyword k).Alike R (· = ·) (keyword k) :=
  alike_isSome content _ _

/-- A symbol is read alike from related tokens. -/
lemma alike_symbol (s : Symbol) : (symbol s).Alike R (· = ·) (symbol s) :=
  alike_isSome content _ _

/-- The word between two sides is read alike from related tokens. -/
lemma alike_versus : versus.Alike R (· = ·) versus := alike_isSome content _ _

/-- A string is handed on with its text. -/
lemma alike_string (wanted : Expected) :
    (string wanted).Alike R (Option.Rel fun t u => R t u ∧ t.lexeme = u.lexeme)
      (string wanted) := by
  refine (alike_expect content .string wanted).mono fun a b same => ?_
  cases same with
  | some same => exact .some ⟨same.1, (content _ _ same.1).2 (.inl same.2)⟩
  | none => exact .none

/-- A number is handed on with its value. -/
lemma alike_number (wanted : Expected) :
    (number wanted).Alike R (Option.Rel fun m n => m.1 = n.1 ∧ R m.2 n.2) (number wanted) := by
  refine (alike_expect content .number wanted).bind fun a b same => ?_
  obtain @⟨t, u, same, kind⟩ | _ := same
  · dsimp only
    rw [(content _ _ same).2 (.inr kind)]
    cases Text.ofLiteral? u.lexeme with
    | some n => exact alike_pure (.some ⟨rfl, same⟩)
    | none =>
      exact (alike_report (.numberOutOfRange same)).bind fun _ _ _ => alike_pure Option.Rel.none
  · exact alike_pure .none

/-- A position is read alike from related tokens. -/
lemma alike_position : position.Alike R (· = ·) position := by
  intro ts us same
  cases same with
  | nil => exact ⟨rfl, .cons .endOfInput .nil, .nil⟩
  | @cons t u _ _ same rest =>
    obtain ⟨kind, text⟩ := content _ _ same
    cases k : t.kind with
    | position p =>
      rw [run_position (.word k), run_position (.word (kind.symm.trans k))]
      exact ⟨rfl, .nil, rest⟩
    | string =>
      have text := text (.inl k)
      cases value : Position.ofWord? t.lexeme with
      | some p =>
        rw [run_position (.string k value),
          run_position (.string (kind.symm.trans k) (text.symm ▸ value))]
        exact ⟨rfl, .nil, rest⟩
      | none =>
        rw [run_position_of_none k value,
          run_position_of_none (kind.symm.trans k) (text.symm ▸ value)]
        exact ⟨rfl, .cons (.notAPosition same) .nil, rest⟩
    | _ =>
      rw [run_position_of_ne (by simp [k]) (by simp [k]),
        run_position_of_ne (by simp [← kind, k]) (by simp [← kind, k])]
      exact ⟨rfl, .cons (.unexpected same) .nil, rest⟩

/-- A comma is passed over alike in related tokens. -/
lemma alike_comma : comma.Alike R (· = ·) comma := by
  intro ts us same
  cases same with
  | nil => exact ⟨rfl, .nil, .nil⟩
  | @cons t u _ _ same rest =>
    obtain ⟨kind, -⟩ := content _ _ same
    by_cases separates : t.kind = .symbol .comma
    · rw [run_comma separates, run_comma (kind.symm.trans separates)]
      exact ⟨rfl, .nil, rest⟩
    · rw [run_comma_of_ne separates, run_comma_of_ne (kind ▸ separates)]
      exact ⟨rfl, .nil, .cons same rest⟩

/-- Related tokens are skipped up to the same place. -/
lemma alike_skipTo (stop : Kind → Bool) : (skipTo stop).Alike R (· = ·) (skipTo stop) := by
  intro ts us same
  refine ⟨rfl, .nil, ?_⟩
  rw [run_skipTo, run_skipTo]
  induction same with
  | nil => exact .nil
  | @cons t u ts us same rest ih =>
    rw [List.dropWhile_cons, List.dropWhile_cons, (content _ _ same).1]
    split
    · exact ih
    · exact .cons same rest

omit content in
/-- The end is missed alike in related tokens. -/
lemma alike_ending : ending.Alike R (· = ·) ending := by
  intro ts us same
  cases same with
  | nil => exact ⟨rfl, .nil, .nil⟩
  | cons same rest => exact ⟨rfl, .cons (.trailing same) .nil, .nil⟩

end Reader

/-! ## Blocks -/

namespace Block

variable {ε σ : Type} {b : Block ε} {entry : σ → ε → Reader σ} {S : σ → σ → Prop}

section

variable (content : ∀ t u, R t u → t.SameContent u)
  (each : ∀ s s' e, S s s' → (entry s e).Alike R S (entry s' e))
include content each

/-- A turn goes alike where the entries do. -/
lemma alike_turn {s s' : σ} {t u : Token} (values : S s s') (same : R t u) :
    (b.turn entry s t).Alike R S (b.turn entry s' u) := by
  unfold turn
  rw [(content _ _ same).1]
  cases b.entry? u.kind with
  | some e =>
    exact (each s s' e values).bind fun _ _ values' => (Reader.alike_comma content).bind
      fun _ _ _ => Reader.alike_pure values'
  | none =>
    exact (Reader.alike_report (.stray same)).bind fun _ _ _ =>
      (Reader.alike_skipTo content _).bind fun _ _ _ => (Reader.alike_comma content).bind
        fun _ _ _ => Reader.alike_pure values

/-- All turns of a block go alike where the entries do. -/
lemma alike_entries {s s' : σ} (values : S s s') :
    (b.entries entry s).Alike R S (b.entries entry s') := by
  intro ts us same
  -- both loops take turns on related tokens, and a turn leaves fewer of them
  induction h : ts.length using Nat.strong_induction_on generalizing s s' ts us with
  | _ n ih =>
    cases same with
    | nil =>
      rw [run_entries_nil, run_entries_nil]
      exact ⟨values, .nil, .nil⟩
    | @cons t u ts us same rest =>
      obtain ⟨kind, -⟩ := content _ _ same
      by_cases closed : t.kind = .symbol b.closer
      · rw [run_entries_of_closer closed, run_entries_of_closer (kind.symm.trans closed)]
        exact ⟨values, .nil, .cons same rest⟩
      · have first := alike_turn (b := b) content each values same _ _ rest
        have shorter := b.length_rest_turn_lt entry s t ts
        rw [h] at shorter
        have later := ih _ shorter first.value _ _ first.rest rfl
        rw [run_entries_of_ne closed, run_entries_of_ne (kind ▸ closed)]
        exact ⟨later.value, List.rel_append first.faults later.faults, later.rest⟩

/-- A block is read alike where its entries are. -/
lemma alike_read {s s' : σ} (values : S s s') :
    (b.read entry s).Alike R S (b.read entry s') :=
  (alike_entries content each values).bind fun _ _ values' =>
    (Reader.alike_symbol content _).bind fun _ _ _ => Reader.alike_pure values'

end

end Block

/-! ## The readers of a definition -/

/-- The headers differ in nothing but the token that declares the number of teams. -/
structure Header.Alike (R : Token → Token → Prop) (h h' : Header) : Prop where
  name : h.name = h'.name
  venue : h.venue = h'.venue
  count : Option.Rel (fun m n => m.1 = n.1 ∧ R m.2 n.2) h.count h'.count

/-- What related tokens have in common is the same where there may be none. -/
lemma map_eq_of_rel {T : β → β → Prop} {a b : Option β} {f : β → γ} (same : Option.Rel T a b)
    (common : ∀ x y, T x y → f x = f y) : a.map f = b.map f := by
  cases same with
  | none => rfl
  | some same => exact congrArg some (common _ _ same)

/-- Headers that are alike declare the same number of teams. -/
lemma Header.Alike.declared {h h' : Header} (same : h.Alike R h') : h.declared = h'.declared := by
  rw [Header.declared, Header.declared, map_eq_of_rel same.count fun _ _ same => same.1]

/-- The tokens that declare the number of teams in headers that are alike are related. -/
lemma Header.Alike.token {h h' : Header} (same : h.Alike R h') :
    Option.Rel R (h.count.map Prod.snd) (h'.count.map Prod.snd) := by
  obtain ⟨-, -, count⟩ := same
  generalize h.count = a at count
  generalize h'.count = b at count
  cases count with
  | none => exact .none
  | some same => exact .some same.2

/-- A team is entered alike under the same name. -/
lemma Team.alike_enrol (teams : List Team) (players : List Player) {a b : Option Token}
    (name : Option.Rel (fun t u => R t u ∧ t.lexeme = u.lexeme) a b) :
    (enrol teams a players).Alike R (· = ·) (enrol teams b players) := by
  cases name with
  | none => exact Reader.alike_pure rfl
  | @some t u same =>
    obtain ⟨same, text⟩ := same
    unfold enrol
    dsimp only
    rw [text]
    split
    · exact (Reader.alike_report (.duplicateTeam same)).bind fun _ _ _ => Reader.alike_pure rfl
    · exact Reader.alike_pure rfl

section

variable (content : ∀ t u, R t u → t.SameContent u)
include content

/-- Headers are read alike from related tokens. -/
lemma Header.alike_reader : reader.Alike R (Header.Alike R) reader := by
  refine (Reader.alike_keyword content _).bind fun _ _ _ =>
    (Reader.alike_symbol content _).bind fun _ _ _ =>
      Block.alike_read content (fun h h' field same => ?_) ⟨rfl, rfl, .none⟩
  refine (Reader.alike_symbol content _).bind fun _ _ _ => ?_
  cases field with
  | name =>
    refine (Reader.alike_string content _).bind fun a b text => ?_
    cases text with
    | none => exact Reader.alike_pure same
    | some text => exact Reader.alike_pure ⟨text.2, same.venue, same.count⟩
  | venue =>
    refine (Reader.alike_string content _).bind fun a b text => ?_
    cases text with
    | none => exact Reader.alike_pure same
    | some text => exact Reader.alike_pure ⟨same.name, text.2, same.count⟩
  | teamCount =>
    refine (Reader.alike_number content _).bind fun a b count => ?_
    cases count with
    | none => exact Reader.alike_pure same
    | some count => exact Reader.alike_pure ⟨same.name, same.venue, .some count⟩

/-- Players are read alike from related tokens. -/
lemma Player.alike_reader : reader.Alike R (· = ·) reader := by
  refine (Reader.alike_symbol content _).bind fun _ _ _ =>
    (Reader.alike_string content _).bind fun a b name =>
      (Reader.alike_symbol content _).bind fun _ _ _ => ?_
  rw [map_eq_of_rel name fun _ _ same => same.2]
  refine Block.alike_read content (fun p p' field same => ?_) rfl
  obtain rfl := same
  refine (Reader.alike_symbol content _).bind fun _ _ _ => ?_
  cases field with
  | position =>
    refine (Reader.alike_position content).bind fun a b same => ?_
    obtain rfl := same
    cases a <;> exact Reader.alike_pure rfl
  | number | age =>
    refine (Reader.alike_number content _).bind fun a b same => ?_
    cases same with
    | none => exact Reader.alike_pure rfl
    | some same => exact Reader.alike_pure (by rw [same.1])

/-- Teams are read alike from related tokens. -/
lemma Team.alike_reader : reader.Alike R (· = ·) reader := by
  refine (Reader.alike_keyword content _).bind fun _ _ _ =>
    (Reader.alike_symbol content _).bind fun _ _ _ =>
      Block.alike_read content (fun teams teams' _ same => ?_) rfl
  obtain rfl := same
  refine (Reader.alike_symbol content _).bind fun _ _ _ =>
    (Reader.alike_string content _).bind fun _ _ name =>
      (Reader.alike_symbol content _).bind fun _ _ _ =>
        (Block.alike_read content (fun players players' _ same => ?_) rfl).bind
          fun players players' same => ?_
  · obtain rfl := same
    refine (Player.alike_reader content).bind fun a b same => ?_
    exact Reader.alike_pure (by rw [same])
  · obtain rfl := same
    exact alike_enrol teams players name

/-- Scorers are read alike from related tokens. -/
lemma Scorer.alike_reader : reader.Alike R (· = ·) reader := by
  refine (Reader.alike_symbol content _).bind fun _ _ _ =>
    (Reader.alike_string content _).bind fun a b player =>
      (Reader.alike_symbol content _).bind fun _ _ _ => ?_
  rw [map_eq_of_rel player fun _ _ same => same.2]
  refine Block.alike_read content (fun s s' _ same => ?_) rfl
  obtain rfl := same
  refine (Reader.alike_symbol content _).bind fun _ _ _ =>
    (Reader.alike_number content _).bind fun a b same => ?_
  cases same with
  | none => exact Reader.alike_pure rfl
  | some same => exact Reader.alike_pure (by rw [same.1])

/-- Lists of scorers are read alike from related tokens. -/
lemma Scorer.alike_listReader : listReader.Alike R (· = ·) listReader := by
  refine (Reader.alike_symbol content _).bind fun opened opened' same => ?_
  obtain rfl := same
  cases opened with
  | true =>
    refine Block.alike_read content (fun scorers scorers' _ same => ?_) rfl
    obtain rfl := same
    exact (alike_reader content).bind fun a b same => Reader.alike_pure (by rw [same])
  | false => exact Reader.alike_pure rfl

section Matches

variable (strictness : Strictness) (teams : List Team)

/-- A side of a match is read alike from related tokens. -/
lemma Fixture.alike_side (wanted : Expected) :
    (side strictness teams wanted).Alike R (· = ·) (side strictness teams wanted) := by
  refine (Reader.alike_string content wanted).bind fun a b name => ?_
  cases name with
  | none => exact Reader.alike_pure rfl
  | @some t u same =>
    obtain ⟨same, text⟩ := same
    dsimp only
    rw [text]
    split
    · exact (Reader.alike_report (.unknownTeam same)).bind fun _ _ _ => Reader.alike_pure rfl
    · exact Reader.alike_pure rfl

/-- Matches are read alike from related tokens. -/
lemma Fixture.alike_reader :
    (reader strictness teams).Alike R (· = ·) (reader strictness teams) := by
  refine (Reader.alike_symbol content _).bind fun _ _ _ =>
    (alike_side content strictness teams _).bind fun first _ same => ?_
  obtain rfl := same
  refine (Reader.alike_versus content).bind fun _ _ _ =>
    (alike_side content strictness teams _).bind fun second _ same => ?_
  obtain rfl := same
  refine (Reader.alike_symbol content _).bind fun _ _ _ =>
    Block.alike_read content (fun f f' field same => ?_) rfl
  obtain rfl := same
  refine (Reader.alike_symbol content _).bind fun _ _ _ => ?_
  cases field with
  | result =>
    refine (Reader.alike_string content _).bind fun a b text => ?_
    cases text with
    | none => exact Reader.alike_pure rfl
    | some text => exact Reader.alike_pure (by rw [text.2])
  | scorers =>
    exact (Scorer.alike_listReader content).bind fun a b same =>
      Reader.alike_pure (by rw [same])

/-- Brackets are read alike from related tokens. -/
lemma Bracket.alike_reader :
    (reader strictness teams).Alike R (· = ·) (reader strictness teams) := by
  refine (Reader.alike_keyword content _).bind fun _ _ _ =>
    (Reader.alike_symbol content _).bind fun _ _ _ =>
      Block.alike_read content (fun b b' phase same => ?_) rfl
  obtain rfl := same
  refine (Reader.alike_symbol content _).bind fun _ _ _ =>
    (Reader.alike_symbol content _).bind fun _ _ _ =>
      Block.alike_read content (fun b b' _ same => ?_) rfl
  obtain rfl := same
  exact (Fixture.alike_reader content strictness teams).bind fun f f' same =>
    Reader.alike_pure (by rw [same])

/-- Related tokens are read into the same tournament, and corresponding tokens declare its number of
teams. -/
theorem Tournament.alike_reader :
    (reader strictness).Alike R (fun t u => t.1 = u.1 ∧ Option.Rel R t.2 u.2)
      (reader strictness) := by
  refine (Header.alike_reader content).bind fun header header' same =>
    (Team.alike_reader content).bind fun teams teams' same' => ?_
  obtain rfl := same'
  refine (Bracket.alike_reader content strictness teams).bind fun bracket bracket' same' =>
    Reader.alike_ending.bind fun _ _ _ => Reader.alike_pure ⟨?_, same.token⟩
  rw [same.name, same.venue, same.declared, same']

end Matches

end

/-! ## From faults to errors -/

/-- Faults of the same cause are of the same kind. -/
lemma SyntaxFault.Alike.kind_eq {f g : SyntaxFault} (same : f.Alike R g) : f.kind = g.kind := by
  cases same <;> rfl

/-- Of two faults of the same cause both are about the end of the tokens or neither is. -/
lemma SyntaxFault.Alike.isEndOfInput_eq {f g : SyntaxFault} (same : f.Alike R g) :
    f.isEndOfInput = g.isEndOfInput := by
  cases same <;> rfl

/-- From faults of the same causes the same ones are dropped. -/
lemma SyntaxFault.alike_dropRepeatedEnds {fs gs : List SyntaxFault}
    (same : List.Forall₂ (Alike R) fs gs) :
    List.Forall₂ (Alike R) (dropRepeatedEnds fs) (dropRepeatedEnds gs) := by
  induction same with
  | nil => exact .nil
  | @cons f g fs gs same rest ih =>
    rw [dropRepeatedEnds, dropRepeatedEnds, same.isEndOfInput_eq]
    split
    · refine .cons same (List.rel_filter (fun f g same => ?_) rest)
      simp only [same.isEndOfInput_eq]
    · exact .cons same ih

/-- The number of teams is judged alike, each time at its own token. -/
lemma Tournament.alike_countFaults (t : Tournament) {count count' : Option Token}
    (same : Option.Rel R count count') :
    List.Forall₂ (SyntaxFault.Alike R) (t.countFaults count) (t.countFaults count') := by
  rw [countFaults, countFaults]
  split
  · exact .nil
  · exact .cons (.teamCount same) .nil

/-- Errors are compared number by number when their faults are. -/
lemma SyntaxError.forall₂_ofFaults {T : SyntaxFault → SyntaxFault → Prop}
    {U : SyntaxError → SyntaxError → Prop} {ending ending' : Span}
    (each : ∀ n f g, T f g → U ⟨n, f.kind, f.message, f.span ending⟩
      ⟨n, g.kind, g.message, g.span ending'⟩)
    {fs gs : List SyntaxFault} (same : List.Forall₂ T fs gs) :
    List.Forall₂ U (ofFaults ending fs) (ofFaults ending' gs) := by
  rw [ofFaults, ofFaults]
  generalize 1 = n
  induction same generalizing n with
  | nil => exact .nil
  | cons same rest ih =>
    rw [List.zipIdx_cons, List.zipIdx_cons]
    exact .cons (each n _ _ same) (ih (n + 1))

/-- Related tokens are parsed into the same tournament, with errors that are compared fault by
fault. -/
lemma parse_alike (content : ∀ t u, R t u → t.SameContent u) {U : SyntaxError → SyntaxError → Prop}
    {ts us : List Token} (strictness : Strictness) (related : List.Forall₂ R ts us)
    (each : ∀ n f g, SyntaxFault.Alike R f g → U ⟨n, f.kind, f.message, f.span (endSpan ts)⟩
      ⟨n, g.kind, g.message, g.span (endSpan us)⟩) :
    (parse strictness ts).document = (parse strictness us).document ∧
      List.Forall₂ U (parse strictness ts).errors (parse strictness us).errors := by
  obtain ⟨⟨document, count⟩, faults, -⟩ :=
    Tournament.alike_reader content strictness _ _ related
  refine ⟨document, ?_⟩
  rw [errors_parse, errors_parse, document]
  refine SyntaxError.forall₂_ofFaults each
    (List.rel_append (SyntaxFault.alike_dropRepeatedEnds faults) ?_)
  exact Tournament.alike_countFaults _ count

end Related

/-- The errors stand at the same place of two lists of tokens. -/
inductive SyntaxError.SamePlace (ts us : List Token) (e e' : SyntaxError) : Prop where
  /-- At two tokens of the same index. -/
  | token {i : Nat} {t u : Token} (first : ts[i]? = some t) (second : us[i]? = some u)
    (span : e.span = t.span) (span' : e'.span = u.span)
  /-- Behind the last tokens. -/
  | ending (ends : e.ReportsEnd) (ends' : e'.ReportsEnd) (span : e.span = endSpan ts)
    (span' : e'.span = endSpan us)
  | nowhere (span : e.span = .unknown) (span' : e'.span = .unknown)

/-- Faults of the same cause about tokens at one index are errors at the same place. -/
lemma SyntaxFault.Alike.samePlace {ts us : List Token} {f g : SyntaxFault} {n : Nat}
    (same : f.Alike (fun t u => t.SameContent u ∧ ∃ i : Nat, ts[i]? = some t ∧ us[i]? = some u) g) :
    SyntaxError.SamePlace ts us ⟨n, f.kind, f.message, f.span (endSpan ts)⟩
      ⟨n, g.kind, g.message, g.span (endSpan us)⟩ := by
  cases same with
  | endOfInput => exact .ending ⟨rfl, _, rfl⟩ ⟨rfl, _, rfl⟩ rfl rfl
  | teamCount same =>
    cases same with
    | none => exact .nowhere rfl rfl
    | some same =>
      obtain ⟨-, i, first, second⟩ := same
      exact .token first second rfl rfl
  | unexpected same | numberOutOfRange same | notAPosition same | stray same | trailing same
  | duplicateTeam same | unknownTeam same =>
    obtain ⟨-, i, first, second⟩ := same
    exact .token first second rfl rfl

/-- Tokens of the same content are parsed into the same tournament, with errors of the same kinds at
the same places: how words are spelled and where they stand does not matter. -/
theorem parse_of_sameContent {ts us : List Token} (strictness : Strictness)
    (same : List.Forall₂ Token.SameContent ts us) :
    (parse strictness ts).document = (parse strictness us).document ∧
      List.Forall₂
        (fun e e' => e.number = e'.number ∧ e.kind = e'.kind ∧ SyntaxError.SamePlace ts us e e')
        (parse strictness ts).errors (parse strictness us).errors := by
  have placed : List.Forall₂
      (fun t u => t.SameContent u ∧ ∃ i : Nat, ts[i]? = some t ∧ us[i]? = some u) ts us := by
    obtain ⟨length, each⟩ := List.forall₂_iff_zip.1 same
    refine List.forall₂_iff_zip.2 ⟨length, fun {t u} mem => ⟨each mem, ?_⟩⟩
    obtain ⟨i, pair⟩ := List.mem_iff_getElem?.1 mem
    exact ⟨i, List.getElem?_zip_eq_some.1 pair⟩
  exact parse_alike (fun _ _ same => same.1) strictness placed fun n f g same =>
    ⟨rfl, same.kind_eq, same.samePlace⟩

namespace Definition

/-- The start of a definition with a word that is no attribute, in Spanish. -/
def spanishFront : List Token :=
  [⟨.keyword .tournament, "TORNEO", .point ⟨0, 1, 1⟩⟩, ⟨.symbol .lbrace, "\x7b", .point ⟨7, 1, 8⟩⟩,
    ⟨.identifier, "sede", .point ⟨9, 1, 10⟩⟩, ⟨.attribute .name, "nombre", .point ⟨14, 1, 15⟩⟩,
    ⟨.symbol .colon, ":", .point ⟨20, 1, 21⟩⟩, ⟨.string, "Cup", .point ⟨22, 1, 23⟩⟩]

/-- The same start in English, one line a word. -/
def englishFront : List Token :=
  [⟨.keyword .tournament, "TOURNEY", .point ⟨0, 1, 1⟩⟩,
    ⟨.symbol .lbrace, "\x7b", .point ⟨8, 2, 1⟩⟩, ⟨.identifier, "place", .point ⟨10, 3, 1⟩⟩,
    ⟨.attribute .name, "name", .point ⟨16, 4, 1⟩⟩, ⟨.symbol .colon, ":", .point ⟨21, 5, 1⟩⟩,
    ⟨.string, "Cup", .point ⟨23, 6, 1⟩⟩]

/-- The two starts of a definition have the same content, token by token. -/
lemma sameContent_fronts : List.Forall₂ Token.SameContent spanishFront englishFront :=
  .cons ⟨rfl, by decide⟩ (.cons ⟨rfl, by decide⟩ (.cons ⟨rfl, by decide⟩ (.cons ⟨rfl, by decide⟩
    (.cons ⟨rfl, by decide⟩ (.cons ⟨rfl, by decide⟩ .nil)))))

end Definition

/-- Two languages and two layouts of one start of a definition. -/
theorem parse_spanishFront :
    List.Forall₂ Token.SameContent Definition.spanishFront Definition.englishFront ∧
      (parse {} Definition.spanishFront).document = (parse {} Definition.englishFront).document ∧
      List.Forall₂
        (fun e e' => e.number = e'.number ∧ e.kind = e'.kind ∧
          SyntaxError.SamePlace Definition.spanishFront Definition.englishFront e e')
        (parse {} Definition.spanishFront).errors (parse {} Definition.englishFront).errors :=
  ⟨Definition.sameContent_fronts, parse_of_sameContent {} Definition.sameContent_fronts⟩

end Knockout
