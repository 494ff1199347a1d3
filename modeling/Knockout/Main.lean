import Knockout.Command.Run

/-!
# The program

The outermost layer: it takes a picture of the files that a command line is about, has the command
carried out on the picture, and prints and writes what comes of it. It decides nothing itself.
-/

namespace Knockout

/-- A picture of what a path of the file system leads to, if it leads anywhere. -/
partial def takePicture (path : String) : IO (Option Tree) := do
  try
    let found ← IO.FS.realPath path
    if ← found.isDir then
      let entries ← found.readDir
      let children ← entries.toList.filterMapM fun entry => do
        let child ← takePicture (path ++ "/" ++ entry.fileName)
        return child.map (entry.fileName, ·)
      return some (.folder children)
    else return some (.file (← IO.FS.readBinFile path))
  catch _ => return none

/-- The names from the root that a path spells, without going through the tree. -/
def spelledNames (directory : List String) (p : Path) : List String :=
  p.segments.foldl
    (fun names segment =>
      if segment = "" ∨ segment = "." then names
      else if segment = ".." then names.dropLast
      else names ++ [segment])
    (if p.isAbsolute then [] else directory)

/-- Adds to a picture a folder, without what it holds. -/
def addFolder (w : Place) (p : Path) : IO Place := do
  let names := spelledNames w.directory p
  if (w.tree.find? names).isSome then return w
  try
    if ← (← IO.FS.realPath p.text).isDir then
      return { w with tree := w.tree.put (.folder []) names }
    else return w
  catch _ => return w

/-- Adds to a picture the folders that a path goes through. -/
def addFolders (w : Place) (p : Path) : IO Place :=
  (w.path.join p).ancestors.tail.foldlM addFolder w

def addPicture (w : Place) (p : Path) : IO Place := do
  let w ← addFolders w p
  match ← takePicture (w.path.join p).text with
  | none => return w
  | some t => return { w with tree := w.tree.put t (spelledNames w.directory p) }

/-- The paths that a command reads or writes. -/
def Command.paths (config : Config) (base : Path) : Command → List Path
  | .check paths _ _ => Place.requested config base paths
  | .tokens file _ | .report file _ _ _ => [file]
  | .dot file output _ => file :: output.toList
  | .completions _ => []

/-- Carries out a command line on the files it is about. -/
def carryOut (i : Invocation) : IO UInt32 := do
  let directory := spelledNames [] ⟨(← IO.currentDir).toString⟩
  let mut place : Place := { tree := Tree.put (.folder []) (.folder []) directory, directory }
  let configs := place.path.ancestors.map (·.join ⟨Config.fileName⟩)
  for p in i.config.toList ++ configs do
    place ← addPicture place p
  let terminal ← (← IO.getStderr).isTty
  let config := ((Session.loadConfig { place, terminal } i.config).toOption).getD {}
  for p in i.command.paths config place.path do
    place ← addPicture place p
  let e := i.run { place, terminal }
  IO.print e.stdout
  IO.eprint e.stderr
  if let some (p, text) := e.written then
    IO.FS.writeFile (place.path.join p).text text
  match e.failure with
  | none => return 0
  | some f =>
    IO.eprintln s!"Error: {f.message}"
    if let some help := f.help then IO.eprintln s!"  help: {help}"
    return 1

end Knockout

open Knockout in
/-- Runs the program with its arguments. -/
def main (args : List String) : IO UInt32 := do
  match Invocation.ofArguments args with
  | .ok i => carryOut i
  | .error fault =>
    if fault.isAnswer then
      IO.print fault.message
      return 0
    else
      IO.eprint fault.message
      return 2
