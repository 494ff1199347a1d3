import Knockout.Project.Exclude
import Knockout.Syntax.Parsed
import Knockout.Text.Blank
import Knockout.Yaml.Value

/-!
# Project configuration

What a project says about itself in its configuration file: where its definitions are, which of
them to leave out, and how to judge and print. A key that is not known is passed over; a known one
may come once, with a value of the right sort.
-/

namespace Knockout

/-- How commands print their results. -/
inductive OutputFormat where
  | text
  | json
  deriving DecidableEq, Repr

namespace OutputFormat

def name : OutputFormat → String
  | .text => "text"
  | .json => "json"

/-- The format a word stands for. -/
def ofName? : String → Option OutputFormat
  | "text" => some .text
  | "json" => some .json
  | _ => none

end OutputFormat

/-- The configuration of a project. -/
structure Config where
  /-- Files and folders to check when none are given. -/
  sources : List String := []
  /-- Patterns for paths to leave out. -/
  excludes : List String := []
  /-- Whether a match has to name defined teams. -/
  strict : Bool := false
  format : OutputFormat := .text
  deriving DecidableEq, Repr

namespace Config

/-- The name of the configuration file of a project. -/
def fileName : String := "tourney.yaml"

/-- The sources to go by: the folder of the project itself where none are given. -/
def effectiveSources (c : Config) : List String := if c.sources.isEmpty then ["."] else c.sources

/-- How strictly definitions are judged, by the configuration or by a flag. -/
def strictness (c : Config) (flag : Bool) : Strictness := { teamReferences := c.strict || flag }

/-- Whether a path is left out. -/
def excluded (c : Config) (p : Path) : Bool := Exclude.anyMatches c.excludes p

/-- The text of a scalar. -/
def textOf? : Yaml → Option String
  | .scalar text _ => some text
  | _ => none

/-- A list of texts; nothing at all is an empty list. -/
def textsOf? : Yaml → Option (List String)
  | .sequence items => items.mapM textOf?
  | v => if v.isEmpty then some [] else none

/-- A truth value: one of its words without quotes. -/
def boolOf? : Yaml → Option Bool
  | .scalar text true =>
    if text ∈ ["true", "True", "TRUE"] then some true
    else if text ∈ ["false", "False", "FALSE"] then some false
    else none
  | _ => none

/-- The value of a known key; other keys change nothing. -/
def setField (c : Config) (key : String) (value : Yaml) : Option Config :=
  match key with
  | "sources" => (textsOf? value).map fun sources => { c with sources }
  | "excludes" => (textsOf? value).map fun excludes => { c with excludes }
  | "strict" => (boolOf? value).map fun strict => { c with strict }
  | "format" => ((textOf? value).bind OutputFormat.ofName?).map fun format => { c with format }
  | _ => some c

def knownKeys : List String := ["sources", "excludes", "strict", "format"]

/-- Reads entries; `read` are the known keys read before. -/
def ofEntries? (c : Config) (read : List String) : List (Yaml × Yaml) → Option Config
  | [] => some c
  | (key, value) :: entries => do
    let key ← textOf? key
    if key ∈ read then none
    let c ← c.setField key value
    ofEntries? c (if key ∈ knownKeys then key :: read else read) entries

/-- Reads a configuration file. One without content has the defaults. -/
def ofText? (text : String) : Option Config :=
  if text.toList.all Text.isBlank then some {}
  else do
    match ← Yaml.ofText? text with
    | none => return {}
    | some (.mapping entries) => ofEntries? {} [] entries
    | some v => if v.isEmpty then return {} else none

end Config

end Knockout
