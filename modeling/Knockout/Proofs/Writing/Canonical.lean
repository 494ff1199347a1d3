import Knockout.Proofs.Writing.Script
import Mathlib.Tactic.Lemma

/-!
# The canonical text of a tournament

One way to write every tournament: the canonical word for each reserved word, the attributes and
the phases in the order in which they are listed, no commas and one space after each atom. So every
tournament whose strings hold neither quotes nor line feeds has a text: `Tournament.written_text`.
-/

namespace Knockout

/-- The canonical word of a kind of reserved words. -/
def Kind.canonical : Kind → String
  | .keyword k => k.name
  | .attribute a => a.word
  | .position p => p.name
  | .versus => "vs"
  | .identifier | .string | .number | .symbol _ => ""

namespace Atom

/-- The canonical spelling of an atom. -/
def spelling : Atom → List Char
  | .word k => k.canonical.toList
  | .symbol s => [s.char]
  | .string text => '"' :: text.toList ++ ['"']
  | .number n => (toString n.toNat).toList

/-- Whether the canonical spelling is a spelling of the atom. -/
def Spellable : Atom → Prop
  | .word k => (k.canonical, k) ∈ Kind.vocabulary
  | .string text => ∀ c ∈ text.toList, c ≠ '"' ∧ c ≠ '\n'
  | .symbol _ | .number _ => True

/-- The canonical spelling of an atom is one of its spellings. -/
lemma spelled_spelling {a : Atom} (spellable : a.Spellable) : Spelled a a.spelling := by
  cases a with
  | word k => exact .word spellable
  | symbol s => exact .symbol
  | string text => exact .string spellable
  | number n => exact .number

/-- The canonical text of some atoms. -/
def text (as : List Atom) : List Char := as.flatMap fun a => a.spelling ++ [' ']

/-- A blank may stand in front. -/
lemma Written.space {as : List Atom} {cs : List Char} (written : Written as cs) :
    Written as (' ' :: cs) := by
  cases written with
  | nil gap => exact .nil (List.forall_mem_cons.2 ⟨rfl, gap⟩)
  | cons gap spelled apart more =>
    exact .cons (List.forall_mem_cons.2 ⟨rfl, gap⟩) spelled apart more

/-- The canonical text of some atoms shows them. -/
lemma written_text {as : List Atom} (spellable : ∀ a ∈ as, a.Spellable) :
    Written as (text as) := by
  induction as with
  | nil => exact .nil nofun
  | cons a as ih =>
    rw [List.forall_mem_cons] at spellable
    have more := (ih spellable.2).space
    have one : Written (a :: as) ([] ++ (a.spelling ++ ' ' :: text as)) :=
      .cons nofun (spelled_spelling spellable.1) (by rintro c ⟨⟩; decide) more
    rw [text, List.flatMap_cons, List.append_assoc]
    exact one

/-- Whether the canonical spellings are spellings of all of some atoms. -/
def AllSpellable (as : List Atom) : Prop := ∀ a ∈ as, a.Spellable

/-- A string that can be written. -/
def Plain (text : String) : Prop := Spellable (.string text)

section

variable {as bs : List Atom}

/-- Where there are no atoms, all can be spelled. -/
@[simp] lemma allSpellable_nil : AllSpellable [] := nofun

/-- All atoms can be spelled if the first and all others can. -/
@[simp] lemma allSpellable_cons {a : Atom} :
    AllSpellable (a :: as) ↔ a.Spellable ∧ AllSpellable as := List.forall_mem_cons

/-- Atoms one after the other can be spelled if both parts can. -/
@[simp] lemma allSpellable_append :
    AllSpellable (as ++ bs) ↔ AllSpellable as ∧ AllSpellable bs := List.forall_mem_append

/-- The atoms of some entries can be spelled if those of each can. -/
@[simp] lemma allSpellable_flatMap {entries : List α} {f : α → List Atom} :
    AllSpellable (entries.flatMap f) ↔ ∀ e ∈ entries, AllSpellable (f e) := by
  simp only [AllSpellable, List.mem_flatMap]
  exact ⟨fun h e mem a inside => h a ⟨e, mem, inside⟩, fun h a ⟨e, mem, inside⟩ => h e mem a inside⟩

/-- A symbol can always be spelled. -/
@[simp] lemma spellable_symbol {s : Symbol} : Spellable (.symbol s) := trivial

/-- A number can always be spelled. -/
@[simp] lemma spellable_number {n : UInt32} : Spellable (.number n) := trivial

/-- A string can be spelled if it is plain. -/
@[simp] lemma spellable_string {text : String} : Spellable (.string text) ↔ Plain text := Iff.rfl

/-- A keyword can always be spelled. -/
@[simp] lemma spellable_keyword {k : Keyword} : Spellable (.word (.keyword k)) := by
  show (k.name, Kind.keyword k) ∈ Kind.vocabulary
  cases k with
  | phase p => cases p <;> decide
  | _ => decide

/-- The name of an attribute can always be spelled. -/
@[simp] lemma spellable_attribute {a : Attribute} : Spellable (.word (.attribute a)) := by
  show (a.word, Kind.attribute a) ∈ Kind.vocabulary
  cases a <;> decide

/-- A position can always be spelled. -/
@[simp] lemma spellable_position {p : Position} : Spellable (.word (.position p)) := by
  show (p.name, Kind.position p) ∈ Kind.vocabulary
  cases p <;> decide

/-- What stands between two sides can always be spelled. -/
@[simp] lemma spellable_versus : Spellable (.word .versus) := by
  show ("vs", Kind.versus) ∈ Kind.vocabulary
  decide

end

end Atom

open Atom

/-- Entries that are written in one definite way each. -/
lemma Script.each_flatMap {E : Script α} {f : α → List Atom} {as : List α}
    (entries : ∀ a ∈ as, E a (f a)) : Each E as (as.flatMap f) := by
  induction as with
  | nil => exact .nil
  | cons a as ih =>
    rw [List.forall_mem_cons] at entries
    exact .cons entries.1 (ih entries.2)

/-- The last entry may stand without a comma. -/
lemma Script.Each.last {E : Script α} {a : α} {as : List Atom} (entry : E a as) :
    Each E [a] as := by
  have one := Each.cons entry .nil
  rwa [List.append_nil] at one

namespace Player

/-- An attribute of a player as it is written. -/
def valueAtoms (p : Player) : Attribute → List Atom
  | .position => p.position.toList.flatMap fun q => valued .position (.word (.position q))
  | .age => p.age.toList.flatMap fun n => valued .age (.number n)
  | _ => valued .number (.number p.number)

/-- A player as it is written. -/
def atoms (p : Player) : List Atom := named .player p.name (p.attributes.flatMap p.valueAtoms)

/-- A player is written by its script. -/
lemma script_atoms (p : Player) : Player.Script p p.atoms := by
  refine .intro (.refl _) (Script.each_flatMap fun a mem => ?_)
  simp only [attributes, List.mem_append, Option.mem_toList, Option.map_eq_some_iff,
    List.mem_singleton] at mem
  obtain (⟨q, known, rfl⟩ | rfl) | ⟨n, known, rfl⟩ := mem
  · have given := AttributeScript.position known
    simpa [valueAtoms, known] using given
  · exact .number
  · have given := AttributeScript.age known
    simpa [valueAtoms, known] using given

/-- A player can be spelled if the name is plain. -/
lemma allSpellable_atoms {p : Player} : AllSpellable p.atoms ↔ Plain p.name := by
  have values : ∀ a, AllSpellable (p.valueAtoms a) := by
    intro a
    cases a <;> simp [valueAtoms, valued]
  simp [atoms, named, values]

end Player

namespace Team

/-- A team as it is written. -/
def atoms (t : Team) : List Atom := named .team t.name (t.players.flatMap Player.atoms)

/-- A team is written by its script. -/
lemma script_atoms (t : Team) : Team.Script t t.atoms :=
  .intro (Script.each_flatMap fun p _ => p.script_atoms)

/-- The strings of a team. -/
def strings (t : Team) : List String := t.name :: t.players.map (·.name)

/-- A team can be spelled if its strings are plain. -/
lemma allSpellable_atoms {t : Team} : AllSpellable t.atoms ↔ ∀ s ∈ t.strings, Plain s := by
  simp [atoms, strings, named, Player.allSpellable_atoms]

end Team

namespace Scorer

/-- A scorer as it is written. -/
def atoms (s : Scorer) : List Atom := named .scorer s.player (valued .minute (.number s.minute))

/-- A scorer is written by its script. -/
lemma script_atoms (s : Scorer) : Scorer.Script s s.atoms :=
  .intro (.last .minute)

/-- A scorer can be spelled if the name is plain. -/
lemma allSpellable_atoms {s : Scorer} : AllSpellable s.atoms ↔ Plain s.player := by
  simp [atoms, named, valued]

end Scorer

namespace Fixture

/-- A match as it is written. -/
def atoms (f : Fixture) : List Atom :=
  [.word (.keyword .fixture), .symbol .colon, .string f.first, .word .versus, .string f.second,
    .symbol .lbracket] ++
    (valued .result (.string f.score) ++
      listed (.attribute .scorers) (f.scorers.flatMap Scorer.atoms) ++ [.symbol .rbracket])

/-- A match is written by its script. -/
lemma script_atoms (f : Fixture) : Fixture.Script f f.atoms :=
  .intro (.refl _) (.cons .result
    (.last (.scorers (Script.each_flatMap fun s _ => s.script_atoms))))

/-- The strings of a match. -/
def strings (f : Fixture) : List String :=
  [f.first, f.second, f.score] ++ f.scorers.map (·.player)

/-- A match can be spelled if its strings are plain. -/
lemma allSpellable_atoms {f : Fixture} : AllSpellable f.atoms ↔ ∀ s ∈ f.strings, Plain s := by
  simp [atoms, strings, valued, listed, Scorer.allSpellable_atoms]

end Fixture

namespace Bracket

/-- A phase of a bracket as it is written. -/
def atoms (b : Bracket) (p : Phase) : List Atom :=
  listed (.keyword (.phase p)) ((b.fixtures p).flatMap Fixture.atoms)

/-- A phase is written by its script. -/
lemma script_atoms (b : Bracket) (p : Phase) : b.Script p (b.atoms p) :=
  .intro (Script.each_flatMap fun f _ => f.script_atoms)

/-- A phase can be spelled if the strings of its matches are plain. -/
lemma allSpellable_atoms {b : Bracket} {p : Phase} :
    AllSpellable (b.atoms p) ↔ ∀ f ∈ b.fixtures p, ∀ s ∈ f.strings, Plain s := by
  simp [atoms, listed, Fixture.allSpellable_atoms]

end Bracket

namespace Tournament

/-- A tournament as it is written. -/
def atoms (d : Tournament) : List Atom :=
  braced .tournament (valued .name (.string d.name) ++
      (valued .teamCount (.number d.declaredTeams) ++ valued .venue (.string d.venue))) ++
    (braced .teams (d.teams.flatMap Team.atoms) ++
      braced .elimination (Phase.all.flatMap d.bracket.atoms))

/-- A tournament is written by its script. -/
lemma script_atoms (d : Tournament) : d.Script d.atoms := by
  have header := Script.Each.cons (HeaderScript.name (d := d)) (.cons .teamCount (.last .venue))
  exact .intro (.refl _) header (Script.each_flatMap fun t _ => t.script_atoms) (.refl _)
    (Script.each_flatMap fun p _ => d.bracket.script_atoms p)

/-- The strings of a tournament. -/
def strings (d : Tournament) : List String :=
  [d.name, d.venue] ++ d.teams.flatMap Team.strings ++
    Phase.all.flatMap fun p => (d.bracket.fixtures p).flatMap Fixture.strings

/-- A tournament can be spelled if its strings are plain. -/
lemma allSpellable_atoms {d : Tournament} : AllSpellable d.atoms ↔ ∀ s ∈ d.strings, Plain s := by
  simp only [strings, List.forall_mem_append, List.forall_mem_flatMap]
  simp [atoms, braced, valued, Team.allSpellable_atoms, Bracket.allSpellable_atoms, and_assoc]

/-- The canonical text of a tournament. -/
def text (d : Tournament) : String := String.ofList (Atom.text d.atoms)

/-- A tournament all whose strings can be written has a text. -/
theorem written_text {d : Tournament} (plain : ∀ s ∈ d.strings, Plain s) : d.Written d.text := by
  refine ⟨d.atoms, d.script_atoms, ?_⟩
  rw [text, String.toList_ofList]
  exact Atom.written_text (allSpellable_atoms.2 plain)

end Tournament

end Knockout
