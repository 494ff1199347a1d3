import Knockout.Proofs.Lexing.Places
import Knockout.Source.Cursor

/-!
# Cursors in a text

Whatever a cursor is asked and however it is moved, it only ever reads on: one moment and any later
one are apart by the characters that were read between them (`Cursor.Reads`), each call adds to
these (`Cursor.exists_reads_move`), and the text since an earlier location is made of them
(`Cursor.Reads.textSince_eq`). The main statement is `Cursor.run_faithful`.
-/

namespace Knockout

/-- The part of a text between two byte offsets. There is none where they are not in order, or where
one of them is inside a character or behind the text. -/
def Span.slice? (s : Span) (source : String) : Option String :=
  if s.first.offset ≤ s.stop.offset ∧ String.Pos.Raw.isValid source ⟨s.first.offset⟩ ∧
      String.Pos.Raw.isValid source ⟨s.stop.offset⟩ then
    some (s.slice source)
  else none

/-- The span of a stretch of a text cuts that stretch out. -/
lemma Span.Encloses.slice?_eq {s : Span} {source : String} {text : List Char}
    (encloses : s.Encloses source text) : s.slice? source = some (.ofList text) := by
  have first := String.Pos.Raw.isValid_eq_true_iff.2 encloses.first.isValid
  have stop := String.Pos.Raw.isValid_eq_true_iff.2 encloses.stop.isValid
  have ordered : s.first.offset ≤ s.stop.offset := by
    rw [encloses.covers.stop]
    exact Nat.le_add_right _ _
  rw [slice?, if_pos ⟨ordered, first, stop⟩, encloses.slice]

namespace Cursor

/-- What a cursor is called for: a question about where it is, or a move. -/
inductive Call where
  | current
  | isAtEnd
  | location
  | textSince (mark : Location)
  | advance
  | advanceWhile (p : Char → Bool)

/-- The cursor after a call. Questions leave it where it is. -/
def move (c : Cursor) : Call → Cursor
  | .current | .isAtEnd | .location | .textSince _ => c
  | .advance => c.advance
  | .advanceWhile p => c.advanceWhile p

/-- The cursor after some calls. -/
def run (c : Cursor) (calls : List Call) : Cursor := calls.foldl move c

variable {c d e : Cursor} {read more : List Char}

/-! ## Reading on -/

/-- From the first cursor to the second, these characters are read. -/
structure Reads (c : Cursor) (read : List Char) (d : Cursor) : Prop where
  rest : c.rest = read ++ d.rest
  seen : d.seen = read.reverse ++ c.seen
  location : d.location = c.location.after read

/-- A cursor that does not move reads nothing. -/
lemma Reads.nil (c : Cursor) : Reads c [] c := ⟨rfl, rfl, rfl⟩

/-- What is read in two moves is read in one after the other. -/
lemma Reads.append (first : Reads c read d) (next : Reads d more e) :
    Reads c (read ++ more) e where
  rest := by rw [first.rest, next.rest, List.append_assoc]
  seen := by rw [next.seen, first.seen, List.reverse_append, List.append_assoc]
  location := by rw [next.location, first.location, Location.after_append]

/-- A cursor that is moved reads the character under it, if there is one. -/
lemma reads_advance (c : Cursor) : Reads c c.current.toList c.advance := by
  obtain ⟨seen, rest, location⟩ := c
  cases rest with
  | nil => exact .nil _
  | cons ch rest => exact ⟨rfl, rfl, rfl⟩

/-- Advancing once for each of some characters that are there reads them. -/
lemma reads_foldl_advance (ahead : read <+: c.rest) :
    Reads c read (read.foldl (fun k _ => k.advance) c) := by
  induction read generalizing c with
  | nil => exact .nil c
  | cons ch read ih =>
    obtain ⟨more, whole⟩ := ahead
    have here : c.current = some ch := by rw [current, ← whole]; rfl
    have first := c.reads_advance
    rw [here] at first
    have ahead : read <+: c.advance.rest := by
      have same := whole.trans first.rest
      exact ⟨more, (List.cons.inj same).2⟩
    exact first.append (ih ahead)

/-- A cursor that moves over a class of characters reads a run of them. -/
lemma reads_advanceWhile (p : Char → Bool) (c : Cursor) :
    Reads c (c.rest.takeWhile p) (c.advanceWhile p) :=
  reads_foldl_advance (List.takeWhile_prefix p)

/-- Past a run of characters there is what comes after it. -/
lemma rest_advanceWhile (p : Char → Bool) (c : Cursor) :
    (c.advanceWhile p).rest = c.rest.dropWhile p := by
  have whole := (c.reads_advanceWhile p).rest
  have split : c.rest = c.rest.takeWhile p ++ c.rest.dropWhile p :=
    List.takeWhile_append_dropWhile.symm
  exact List.append_cancel_left (whole.symm.trans split)

/-- A call reads some characters. -/
lemma exists_reads_move (c : Cursor) (call : Call) : ∃ read, Reads c read (c.move call) := by
  cases call with
  | current | isAtEnd | location | textSince => exact ⟨[], .nil c⟩
  | advance => exact ⟨_, c.reads_advance⟩
  | advanceWhile p => exact ⟨_, c.reads_advanceWhile p⟩

/-- Calls read some characters. -/
lemma exists_reads_run (c : Cursor) (calls : List Call) : ∃ read, Reads c read (c.run calls) := by
  induction calls generalizing c with
  | nil => exact ⟨[], .nil c⟩
  | cons call calls ih =>
    obtain ⟨first, moved⟩ := c.exists_reads_move call
    obtain ⟨more, later⟩ := ih (c.move call)
    exact ⟨first ++ more, moved.append later⟩

/-! ## The text between two moments -/

/-- As many bytes as a front part has give that part back. -/
lemma takeBytes_append (cs ds : List Char) : takeBytes (String.utf8Len cs) (cs ++ ds) = cs := by
  induction cs with
  | nil => simp only [String.utf8Len_nil, takeBytes]
  | cons c cs ih =>
    obtain ⟨n, size⟩ := Nat.exists_eq_succ_of_ne_zero c.utf8Size_pos.ne'
    have left : String.utf8Len cs + n + 1 - (n + 1) = String.utf8Len cs := by omega
    rw [String.utf8Len_cons, size, List.cons_append, Nat.add_succ, takeBytes, size, left, ih]

/-- What is read since an earlier moment is the text since its location. -/
lemma Reads.textSince_eq (reads : Reads c read d) : d.textSince c.location = .ofList read := by
  have bytes : d.location.offset - c.location.offset = String.utf8Len read.reverse := by
    rw [reads.location, Location.after_offset, Nat.add_sub_cancel_left, String.utf8Len_reverse]
  rw [textSince, bytes, reads.seen, takeBytes_append, List.reverse_reverse]

/-! ## Where a cursor stands -/

/-- The cursor stands in a text, behind a front part of it. -/
structure StandsBehind (c : Cursor) (source : String) (front : List Char) : Prop where
  text : source.toList = front ++ c.rest
  seen : c.seen = front.reverse
  location : c.location = .behind front

variable {source : String} {front : List Char}

/-- A new cursor stands at the start of its text. -/
lemma standsBehind_ofString (source : String) : (ofString source).StandsBehind source [] :=
  ⟨rfl, rfl, rfl⟩

/-- After reading, a cursor stands behind what has been read as well. -/
lemma StandsBehind.reads (stands : c.StandsBehind source front) (reads : Reads c read d) :
    d.StandsBehind source (front ++ read) where
  text := by rw [stands.text, reads.rest, List.append_assoc]
  seen := by rw [reads.seen, stands.seen, List.reverse_append]
  location := by
    rw [reads.location, stands.location, ← Location.after_start, ← Location.after_append,
      Location.after_start]

/-- A cursor is right about where it stands. -/
lemma StandsBehind.placed (stands : c.StandsBehind source front) : c.location.PlacedIn source :=
  ⟨front, c.rest, stands.text, stands.location⟩

/-- The locations of two moments enclose what is read between them. -/
lemma StandsBehind.encloses (stands : c.StandsBehind source front) (reads : Reads c read d) :
    Span.Encloses ⟨c.location, d.location⟩ source read := by
  refine ⟨front, d.rest, by rw [stands.text, reads.rest], ?_⟩
  rw [stands.location, (stands.reads reads).location]

/-- The character under a cursor is the one at its offset. -/
lemma StandsBehind.current_eq (stands : c.StandsBehind source front) :
    c.current = String.Pos.Raw.get? source ⟨c.location.offset⟩ := by
  have found := String.get?_of_valid front c.rest
  rw [← stands.text, String.ofList_toList] at found
  rw [stands.location]
  exact found.symm

/-- A cursor is at the end where its offset is the length of the text. -/
lemma StandsBehind.isAtEnd_iff (stands : c.StandsBehind source front) :
    c.isAtEnd = true ↔ c.location.offset = source.utf8ByteSize := by
  have whole : source.utf8ByteSize = c.location.offset + String.utf8Len c.rest := by
    rw [← String.utf8Len_toList, stands.text, String.utf8Len_append, stands.location]
    rfl
  rw [isAtEnd, List.isEmpty_iff, ← String.utf8Len_eq_zero]
  omega

/-- Moving while a predicate holds takes characters that satisfy it, up to one that does not. -/
lemma exists_run_advanceWhile (p : Char → Bool) (c : Cursor) :
    ∃ run, c.rest = run ++ (c.advanceWhile p).rest ∧ (∀ ch ∈ run, p ch = true) ∧
      ∀ ch ∈ (c.advanceWhile p).current, p ch = false := by
  refine ⟨_, (c.reads_advanceWhile p).rest, fun ch => List.mem_takeWhile_imp, ?_⟩
  rw [current, rest_advanceWhile]
  exact Text.ends_dropWhile p c.rest

/-- **A cursor is always where it says.** Take any two moments of any use of a cursor in a text that
is not too long for its lines and columns to be counted. What was read up to the first and what was
read between the two stand in the text in front of what is to come, and both locations are those
behind what was read. So the offset is between two characters and never moves back, and the text
since the earlier location can be cut out of the whole and is what was read since. The character
under the cursor is the one at its offset; a move reads it, or the longest run that satisfies a
predicate; and the end is where no character is to come. -/
theorem run_faithful (source : String) (small : source.length < 2 ^ 32 - 1)
    (calls later : List Call) :
    let c := (ofString source).run calls
    let d := c.run later
    (∃ front read, source.toList = front ++ read ++ d.rest ∧ c.location = .behind front ∧
      d.location = .behind (front ++ read) ∧ d.textSince c.location = .ofList read ∧
      Span.slice? ⟨c.location, d.location⟩ source = some (.ofList read)) ∧
    String.Pos.Raw.IsValid source ⟨d.location.offset⟩ ∧
    c.location.offset ≤ d.location.offset ∧ d.location.offset ≤ source.utf8ByteSize ∧
    d.location.line < 2 ^ 32 ∧ d.location.column < 2 ^ 32 ∧
    d.current = String.Pos.Raw.get? source ⟨d.location.offset⟩ ∧
    d.rest = d.current.toList ++ d.advance.rest ∧
    (∀ p, ∃ run, d.rest = run ++ (d.advanceWhile p).rest ∧ (∀ ch ∈ run, p ch = true) ∧
      ∀ ch ∈ (d.advanceWhile p).current, p ch = false) ∧
    (d.isAtEnd = true ↔ d.current = none) ∧
    (d.isAtEnd = true ↔ d.location.offset = source.utf8ByteSize) := by
  intro c d
  -- the calls up to the first moment read `front`, those behind it `read`
  obtain ⟨front, before⟩ := (ofString source).exists_reads_run calls
  obtain ⟨read, between⟩ := c.exists_reads_run later
  have first := (standsBehind_ofString source).reads before
  rw [List.nil_append] at first
  have second := first.reads between
  have placed : d.location.PlacedIn source := second.placed
  have line := placed.line_le
  have column := placed.column_le
  refine ⟨⟨front, read, second.text, first.location, second.location, between.textSince_eq,
    (first.encloses between).slice?_eq⟩, placed.isValid, ?_, placed.offset_le, by omega, by omega,
    second.current_eq, d.reads_advance.rest, fun p => d.exists_run_advanceWhile p,
    d.isAtEnd_iff, second.isAtEnd_iff⟩
  rw [between.location]
  exact c.location.offset_le_after read

/-- Behind a letter of two bytes, a line end and another such letter are read; they stand between
the bytes 2 and 6, and the cursor is in column 2 of the second line. -/
theorem run_faithful_lines :
    "Ñ\r\nó1".length < 2 ^ 32 - 1 ∧
      Span.slice? ⟨⟨2, 1, 2⟩, ⟨6, 2, 2⟩⟩ "Ñ\r\nó1" = some "\r\nó" ∧
      String.Pos.Raw.IsValid "Ñ\r\nó1" ⟨6⟩ := by
  have small : "Ñ\r\nó1".length < 2 ^ 32 - 1 := by decide
  have faithful := run_faithful "Ñ\r\nó1" small [.advance, .current]
    [.advanceWhile (· ≠ 'ó'), .isAtEnd, .advance]
  have first : ((ofString "Ñ\r\nó1").run [.advance, .current]).location = ⟨2, 1, 2⟩ := by decide
  have second : (((ofString "Ñ\r\nó1").run [.advance, .current]).run
      [.advanceWhile (· ≠ 'ó'), .isAtEnd, .advance]).location = ⟨6, 2, 2⟩ := by decide
  have since : (((ofString "Ñ\r\nó1").run [.advance, .current]).run
      [.advanceWhile (· ≠ 'ó'), .isAtEnd, .advance]).textSince ⟨2, 1, 2⟩ = "\r\nó" := by decide
  dsimp only at faithful
  rw [first, second, since] at faithful
  obtain ⟨⟨front, read, -, -, -, same, cut⟩, valid, -⟩ := faithful
  exact ⟨small, by rw [cut, same], valid⟩

end Cursor

end Knockout
