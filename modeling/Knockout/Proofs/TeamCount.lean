import Knockout.Proofs.Blame.Errors

/-!
# The declared number of teams

An entry of the header takes its word and two tokens more, whether these fit or not, so that the
entries can be told from the tokens alone (`Header.entriesOf`). The number of teams is that of the
last entry in which one can be read, and it comes with the token that spells it
(`Header.count_reader`). What is said about it has both numerals in it
(`SyntaxFault.exists_teamCountMessage`). The main statement is `parse_counts_teams`.
-/

namespace Knockout

/-- The tokens after a comma, if one comes first. -/
def pastComma : List Token → List Token
  | [] => []
  | t :: rest => if t.kind = .symbol .comma then rest else t :: rest

/-- The number that a token spells, with the token. -/
def Token.number? (t : Token) : Option (UInt32 × Token) :=
  if t.kind = .number then (Text.ofLiteral? t.lexeme).map (·, t) else none

/-- Past a comma there is an end of the tokens. -/
lemma pastComma_suffix (tokens : List Token) : pastComma tokens <:+ tokens := by
  cases tokens with
  | nil => exact List.suffix_refl _
  | cons t rest =>
    rw [pastComma]
    split
    · exact List.suffix_cons _ _
    · exact List.suffix_refl _

namespace Header

/-- The entries of a header: the word of each and the two tokens after it, which should be a colon
and the value. A token that starts none is skipped with all up to where reading goes on. -/
def entriesOf : List Token → List (List Token)
  | [] => []
  | t :: rest =>
    if t.kind = .symbol .rbrace then []
    else if block.starts t.kind then
      (t :: rest.take 2) :: entriesOf (pastComma (rest.drop 2))
    else entriesOf (pastComma (rest.dropWhile fun u => !block.resumes u.kind))
termination_by tokens => tokens.length
decreasing_by
  · have shorter := (pastComma_suffix (rest.drop 2)).trans (List.drop_suffix 2 rest)
    exact Nat.lt_succ_of_le shorter.length_le
  · have shorter := (pastComma_suffix _).trans
      (List.dropWhile_suffix (l := rest) fun u => !block.resumes u.kind)
    exact Nat.lt_succ_of_le shorter.length_le

/-- The number of teams that an entry declares, with the token that spells it. -/
def count? : List Token → Option (UInt32 × Token)
  | [word, _, value] => if word.kind = .attribute .teamCount then value.number? else none
  | _ => none

/-- The numbers of teams that the header of a definition declares; it comes after two tokens. -/
def counts (tokens : List Token) : List (UInt32 × Token) :=
  (entriesOf (tokens.drop 2)).filterMap count?

end Header

/-! ## What readers take -/

section Readers

variable (k : Kind) (wanted : Expected)

/-- Looking for a token takes one, whatever it is. -/
lemma Reader.rest_expect (tokens : List Token) :
    ((expect k wanted).run tokens).rest = tokens.drop 1 := by
  cases tokens with
  | nil => rfl
  | cons t rest =>
    by_cases fits : t.kind = k
    · rw [run_expect fits]
      rfl
    · rw [run_expect_of_ne fits]
      rfl

/-- Looking for a symbol takes one token, whatever it is. -/
lemma Reader.rest_symbol (s : Symbol) (tokens : List Token) :
    ((symbol s).run tokens).rest = tokens.drop 1 :=
  rest_expect _ _ tokens

/-- A number is the next token, if that spells one; the token is taken in any case. -/
lemma Reader.run_number_eq (tokens : List Token) :
    ((number wanted).run tokens).value = tokens.head?.bind Token.number? ∧
      ((number wanted).run tokens).rest = tokens.drop 1 := by
  cases tokens with
  | nil => exact ⟨rfl, rfl⟩
  | cons t rest =>
    rw [List.head?_cons, Option.bind_some, Token.number?]
    by_cases kind : t.kind = .number
    · cases value : Text.ofLiteral? t.lexeme with
      | none =>
        rw [run_number_of_none kind value, if_pos kind]
        exact ⟨rfl, rfl⟩
      | some n =>
        rw [run_number ⟨kind, value⟩, if_pos kind]
        exact ⟨rfl, rfl⟩
    · rw [run_number_of_ne kind, if_neg kind]
      exact ⟨rfl, rfl⟩

/-- Reading a comma goes past it. -/
lemma Reader.rest_comma (tokens : List Token) : (comma.run tokens).rest = pastComma tokens := by
  cases tokens with
  | nil => rfl
  | cons t rest =>
    rw [pastComma]
    split
    · next here => rw [run_comma here]
    · next other => rw [run_comma_of_ne other]

end Readers

namespace Header

variable {t : Token} {f : Field} {rest tokens : List Token}

/-- An entry of the header takes two tokens behind its word, whatever they are. -/
lemma rest_entry (h : Header) (f : Field) (rest : List Token) :
    ((entry h f).run rest).rest = rest.drop 2 := by
  have string (wanted : Expected) :
      ((Reader.string wanted).run (rest.drop 1)).rest = rest.drop 2 := by
    rw [Reader.string, Reader.rest_expect, List.drop_drop]
  have number : ((Reader.number .teamCount).run (rest.drop 1)).rest = rest.drop 2 := by
    rw [(Reader.run_number_eq _ _).2, List.drop_drop]
  unfold entry
  rw [Reader.run_bind, Reader.rest_symbol]
  cases f with
  | name =>
    rw [Reader.run_bind, string]
    split <;> rfl
  | teamCount =>
    rw [Reader.run_bind, number]
    split <;> rfl
  | venue =>
    rw [Reader.run_bind, string]
    split <;> rfl

/-- An entry about the number of teams starts with the word for it and with no other. -/
lemma entry?_eq_teamCount_iff {k : Kind} :
    block.entry? k = some .teamCount ↔ k = .attribute .teamCount := by
  constructor
  · intro start
    rw [block] at start
    dsimp only at start
    split at start
    · cases start
    · rfl
    · cases start
    · cases start
  · rintro rfl
    rfl

/-- An entry changes the number of teams together with its token, or neither of them. -/
lemma count_entry (h : Header) (starts : block.entry? t.kind = some f) (rest : List Token) :
    ((entry h f).run rest).value.count = (count? (t :: rest.take 2)).or h.count := by
  have word : f = .teamCount ↔ t.kind = .attribute .teamCount := by
    rw [← entry?_eq_teamCount_iff, starts, Option.some.injEq]
  have uncounted (other : f ≠ .teamCount) : count? (t :: rest.take 2) = none := by
    rw [count?.eq_def]
    split
    · next same =>
      obtain ⟨rfl, -⟩ := List.cons.inj same
      exact if_neg fun teams => other (word.2 teams)
    · rfl
  unfold entry
  rw [Reader.run_bind, Reader.rest_symbol]
  cases f with
  | name =>
    rw [uncounted nofun, Option.none_or, Reader.run_bind]
    split <;> rfl
  | teamCount =>
    have value : count? (t :: rest.take 2) = (rest.drop 1).head?.bind Token.number? := by
      cases rest with
      | nil => rfl
      | cons c rest =>
        cases rest with
        | nil => rfl
        | cons n rest => exact if_pos (word.1 rfl)
    rw [value, ← (Reader.run_number_eq .teamCount _).1, Reader.run_bind]
    split
    · next read => rw [read]; rfl
    · next read => rw [read]; rfl
  | venue =>
    rw [uncounted nofun, Option.none_or, Reader.run_bind]
    split <;> rfl

/-- An entry of the header changes the number of teams if it declares one, and the token with it. -/
lemma turn_of_starts (h : Header) (starts : block.entry? t.kind = some f) (rest : List Token) :
    ((block.turn entry h t).run rest).value.count = (count? (t :: rest.take 2)).or h.count ∧
      ((block.turn entry h t).run rest).rest = pastComma (rest.drop 2) := by
  unfold Block.turn
  rw [starts]
  refine ⟨count_entry h starts rest, ?_⟩
  rw [Reader.run_bind, Reader.run_bind, Reader.rest_comma, rest_entry]
  rfl

/-- A token that starts no entry of the header changes nothing in it. -/
lemma turn_of_stray (h : Header) (stray : block.entry? t.kind = none) (rest : List Token) :
    ((block.turn entry h t).run rest).value = h ∧
      ((block.turn entry h t).run rest).rest =
        pastComma (rest.dropWhile fun u => !block.resumes u.kind) := by
  unfold Block.turn
  rw [stray]
  refine ⟨rfl, ?_⟩
  rw [Reader.run_bind, Reader.run_bind, Reader.run_bind, Reader.rest_comma]
  rfl

/-- The number of teams is the last one that can be read. -/
lemma count_entries (h : Header) (tokens : List Token) :
    ((block.entries entry h).run tokens).value.count =
      ((entriesOf tokens).filterMap count?).getLast?.or h.count := by
  induction tokens using entriesOf.induct generalizing h with
  | case1 =>
    rw [Block.run_entries_nil, entriesOf]
    rfl
  | case2 t rest closed =>
    rw [Block.run_entries_of_closer closed, entriesOf, if_pos closed]
    rfl
  | case3 t rest unclosed starts ih =>
    obtain ⟨f, starts'⟩ := Option.isSome_iff_exists.1 starts
    obtain ⟨count, next⟩ := turn_of_starts h starts' rest
    rw [Block.run_entries_of_ne unclosed, Reader.run_bind, next, ih, count, entriesOf,
      if_neg unclosed, if_pos starts]
    -- a number that is read here stands where the entries behind it give none
    cases read : count? (t :: rest.take 2) with
    | none => rw [List.filterMap_cons_none read, Option.none_or]
    | some count =>
      rw [List.filterMap_cons_some read, List.getLast?_cons, Option.some_or, Option.some_or]
      cases ((entriesOf (pastComma (rest.drop 2))).filterMap count?).getLast? <;> rfl
  | case4 t rest unclosed stray ih =>
    have noEntry : block.entry? t.kind = none := Option.not_isSome_iff_eq_none.1 stray
    obtain ⟨same, next⟩ := turn_of_stray h noEntry rest
    rw [Block.run_entries_of_ne unclosed, Reader.run_bind, next, ih, same, entriesOf,
      if_neg unclosed, if_neg stray]

/-- The number of teams is that of the last entry that declares one. -/
lemma count_reader (tokens : List Token) :
    (reader.run tokens).value.count = (counts tokens).getLast? := by
  have start : ((Reader.symbol .lbrace).run ((Reader.keyword .tournament).run tokens).rest).rest =
      tokens.drop 2 := by
    rw [Reader.rest_symbol]
    exact congrArg (List.drop 1) (Reader.rest_expect _ _ tokens) |>.trans List.drop_drop
  unfold reader
  rw [Reader.run_bind, Reader.run_bind, start, Block.read, Reader.run_bind, Reader.run_bind]
  exact (count_entries {} _).trans (Option.or_none)

/-- Entries are made of the tokens of the header. -/
lemma subset_of_mem_entriesOf {e : List Token} (listed : e ∈ entriesOf tokens) : e ⊆ tokens := by
  induction tokens using entriesOf.induct with
  | case1 =>
    rw [entriesOf] at listed
    cases listed
  | case2 t rest closed =>
    rw [entriesOf, if_pos closed] at listed
    cases listed
  | case3 t rest unclosed starts ih =>
    rw [entriesOf, if_neg unclosed, if_pos starts] at listed
    obtain rfl | later := List.mem_cons.1 listed
    · exact List.cons_subset_cons _ (List.take_subset 2 rest)
    · have inside := (pastComma_suffix (rest.drop 2)).trans (List.drop_suffix 2 rest)
      exact fun u mem => List.mem_cons_of_mem _ (inside.subset (ih later mem))
  | case4 t rest unclosed stray ih =>
    rw [entriesOf, if_neg unclosed, if_neg stray] at listed
    have inside := (pastComma_suffix _).trans
      (List.dropWhile_suffix (l := rest) fun u => !block.resumes u.kind)
    exact fun u mem => List.mem_cons_of_mem _ (inside.subset (ih listed mem))

/-- The number that a token gives is the one it spells. -/
lemma number?_eq_some {t : Token} {c : UInt32 × Token} (read : t.number? = some c) :
    c.2 = t ∧ t.SpellsNumber c.1 := by
  rw [Token.number?] at read
  split at read
  · next kind =>
    obtain ⟨n, value, rfl⟩ := Option.map_eq_some_iff.1 read
    exact ⟨rfl, kind, value⟩
  · cases read

/-- Declared numbers are spelled by tokens. -/
lemma spells_of_mem_counts {c : UInt32 × Token} (listed : c ∈ counts tokens) :
    c.2 ∈ tokens ∧ c.2.SpellsNumber c.1 := by
  obtain ⟨e, entry, read⟩ := List.mem_filterMap.1 listed
  have inside := subset_of_mem_entriesOf entry
  rw [count?.eq_def] at read
  split at read
  · next word colon value =>
    split at read
    · obtain ⟨same, spells⟩ := number?_eq_some read
      rw [same]
      exact ⟨List.mem_of_mem_drop (inside (by simp)), spells⟩
    · cases read
  · cases read

end Header

/-- The message about two numbers of teams has both numerals in it, the declared number first, and
no other digits. -/
lemma SyntaxFault.exists_teamCountMessage (declared defined : Nat) :
    ∃ before between after, teamCountMessage declared defined =
        before ++ toString declared ++ between ++ toString defined ++ after ∧
      ∀ c ∈ (before ++ between ++ after).toList, c.isDigit = false := by
  refine ⟨"declared ", " team" ++ (if declared = 1 then "" else "s") ++ " but ",
    " " ++ (if defined = 1 then "was" else "were") ++ " defined", ?_, ?_⟩
  · refine String.toList_inj.1 ?_
    delta teamCountMessage
    simp only [String.toList_append, List.append_assoc]
    rfl
  · split <;> split <;> simp

/-- There are as many errors as faults. -/
lemma SyntaxError.length_ofFaults (ending : Span) (faults : List SyntaxFault) :
    (ofFaults ending faults).length = faults.length := by
  rw [ofFaults, List.length_map, List.length_zipIdx]

/-- **The number of teams is judged once.** The declared number is the last one in the header that
can be read, and 0 where none can. If it is not the number of teams that are defined, then this is
the last error and no other error is about it; the error names both numbers, at the token that
spells the declared one or nowhere at all. An entry of the header changes the number and its token
together, or, where it spells no number of teams, neither. -/
theorem parse_counts_teams (strictness : Strictness) (tokens : List Token) :
    let document := (parse strictness tokens).document
    let count := (Header.counts tokens).getLast?
    document.declaredTeams = (count.map (·.1)).getD 0 ∧
    (∃ others, (∀ e ∈ others, e.kind ≠ .cardinalityMismatch) ∧
      (parse strictness tokens).errors = others ++
        if document.declaredTeams.toNat = document.teams.length then []
        else [{ number := others.length + 1
                kind := .cardinalityMismatch
                message := SyntaxFault.teamCountMessage document.declaredTeams.toNat
                  document.teams.length
                span := (count.map (·.2.span)).getD .unknown }]) ∧
    (∀ c ∈ Header.counts tokens, c.2 ∈ tokens ∧ c.2.SpellsNumber c.1) ∧
    ∀ (h : Header) t f rest, Header.block.entry? t.kind = some f →
      ((Header.entry h f).run rest).value.count =
        (Header.count? (t :: rest.take 2)).or h.count := by
  intro document count
  have read : (Header.reader.run tokens).value.count = count := Header.count_reader tokens
  have declared : document.declaredTeams = (count.map (·.1)).getD 0 := by
    rw [← read]
    rfl
  refine ⟨declared, ?judged, fun c => Header.spells_of_mem_counts,
    fun h t f rest starts => Header.count_entry h starts rest⟩
  case judged =>
    have uncounted := (Tournament.books_reader strictness tokens).uncounted
    refine ⟨SyntaxError.ofFaults (endSpan tokens)
      (SyntaxFault.dropRepeatedEnds ((Tournament.reader strictness).run tokens).faults), ?_, ?_⟩
    · intro e mem
      obtain ⟨f, mem, kind, -, -⟩ := SyntaxError.exists_of_mem_ofFaults mem
      rw [kind]
      exact uncounted f ((SyntaxFault.dropRepeatedEnds_sublist _).subset mem)
    · have token : ((Tournament.reader strictness).run tokens).value.2 = count.map (·.2) := by
        rw [← read]
        rfl
      have given : ((Tournament.reader strictness).run tokens).value.1 = document := rfl
      rw [errors_parse, Tournament.countFaults, token, given]
      by_cases same : document.declaredTeams.toNat = document.teams.length
      · rw [if_pos same, if_pos same, List.append_nil, List.append_nil]
      · rw [if_neg same, if_neg same, SyntaxError.ofFaults_concat, SyntaxError.length_ofFaults]
        cases count <;> rfl

/-- A number is read where the colon should stand before it, but nowhere else; one that does not fit
and one that is missing leave it as it is. -/
example :
    let five := Token.onLine 16 .number "5"
    Header.counts [.onLine 0 (.keyword .tournament) "TOURNEY", .onLine 7 (.symbol .lbrace) "\x7b",
      .onLine 8 (.attribute .teamCount) "teams", .onLine 14 .number "4", five,
      .onLine 17 (.symbol .rbracket) "]", .onLine 18 .number "6",
      .onLine 20 (.attribute .teamCount) "teams", .onLine 25 (.symbol .colon) ":",
      .onLine 26 .number "4294967296", .onLine 37 (.attribute .teamCount) "teams",
      .onLine 42 (.symbol .colon) ":", .onLine 43 (.symbol .rbrace) "\x7d"] =
        [(5, five)] := by
  decide +kernel

end Knockout
