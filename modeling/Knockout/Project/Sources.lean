import Knockout.Project.Config
import Knockout.Project.Tree

/-!
# Sources of a project

Which files a command works on. Folders stand for the definition files below them, in path order
and without those that are excluded; files stand for themselves. Each file comes once, where it
comes first.
-/

namespace Knockout

/-- Whether a path is that of a definition, by its extension. -/
def Path.isDefinition (p : Path) : Bool := p.fileExtension? == some "tourney"

/-- Paths without those that are the same as one before them. -/
def Path.distinct (paths : List Path) : List Path :=
  paths.foldl (fun kept p => if kept.any p.same then kept else kept ++ [p]) []

namespace Place

/-- The definition files at and below a path, in path order. -/
def scan (w : Place) (config : Config) (p : Path) : List Path :=
  ((w.filesBelow p).filter fun file => !config.excluded file && file.isDefinition).mergeSort
    Path.le

/-- The files that one requested path stands for, if it leads anywhere. -/
def expand (w : Place) (config : Config) (p : Path) : Option (List Path) :=
  if w.isFolder p then some (w.scan config p)
  else if w.isFile p then some [p]
  else none

/-- The paths that are asked for: those given, or else the sources of the configuration, seen from
a base. -/
def requested (config : Config) (base : Path) (paths : List Path) : List Path :=
  if paths.isEmpty then config.effectiveSources.map fun s => base.join ⟨s⟩ else paths

/-- The files that all the given paths stand for, or the first path that leads nowhere. -/
def expandAll (w : Place) (config : Config) : List Path → Except Path (List Path)
  | [] => .ok []
  | p :: paths =>
    match w.expand config p with
    | none => .error p
    | some files => (w.expandAll config paths).map (files ++ ·)

/-- The files a command works on, or the first path that leads nowhere. -/
def collect (w : Place) (config : Config) (base : Path) (paths : List Path) :
    Except Path (List Path) :=
  (w.expandAll config (requested config base paths)).map Path.distinct

/-- The nearest configuration file at a path or above it. -/
def findConfig? (w : Place) (p : Path) : Option Path :=
  (p.ancestors.map (·.join ⟨Config.fileName⟩)).find? w.isFile

end Place

end Knockout
