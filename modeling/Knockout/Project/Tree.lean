import Knockout.Project.Path

/-!
# Directory trees

Files and folders as values. A `Place` is a tree seen from a working directory: it resolves paths
the way a file system does, going through every component, and names what is wrong with a path
that leads nowhere.
-/

namespace Knockout

/-- A file or a folder. -/
inductive Tree where
  | file (content : ByteArray)
  | folder (entries : List (String × Tree))

namespace Tree

/-- What a folder holds; a file holds nothing. -/
def entries : Tree → List (String × Tree)
  | .file _ => []
  | .folder entries => entries

/-- Whether this is a folder. -/
def isFolder : Tree → Bool
  | .file _ => false
  | .folder _ => true

/-- What a folder holds under a name. -/
def child? (t : Tree) (name : String) : Option Tree := t.entries.lookup name

/-- What a tree holds under some names, each inside the one before it. -/
def find? (t : Tree) : List String → Option Tree
  | [] => some t
  | name :: names => (t.child? name).bind (find? · names)

/-- The folder with the entry of one name replaced or added. -/
def setChild (t : Tree) (name : String) (child : Tree) : Tree :=
  .folder ((name, child) :: t.entries.filter (·.1 != name))

/-- The tree with something put under some names; folders on the way are made. -/
def put (t : Tree) (new : Tree) : List String → Tree
  | [] => new
  | name :: names => t.setChild name (put ((t.child? name).getD (.folder [])) new names)

/-- The tree without what it holds under some names. -/
def remove (t : Tree) : List String → Tree
  | [] => t
  | [name] => .folder (t.entries.filter (·.1 != name))
  | name :: names =>
    match t.child? name with
    | none => t
    | some child => t.setChild name (remove child names)

mutual

/-- The files of a tree, each with its path; the tree itself has the path `p`. -/
def filesFrom (p : Path) : Tree → List Path
  | .file _ => [p]
  | .folder entries => filesOf p entries

/-- The files below the entries of a folder. -/
def filesOf (p : Path) : List (String × Tree) → List Path
  | [] => []
  | (name, child) :: entries => filesFrom (p.join ⟨name⟩) child ++ filesOf p entries

end

end Tree

/-- What keeps a file from being read or written. -/
inductive FileFault where
  | notFound
  /-- The path goes through something that is no folder. -/
  | notAFolder
  | isAFolder
  | nameTooLong
  /-- The path holds a NUL character, which no file name does. -/
  | nulInName
  /-- The bytes of the file are not UTF-8. -/
  | notText
  deriving DecidableEq, Repr

namespace FileFault

/-- The fault as people read it. -/
def message : FileFault → String
  | .notFound => "No such file or directory (os error 2)"
  | .notAFolder => "Not a directory (os error 20)"
  | .isAFolder => "Is a directory (os error 21)"
  | .nameTooLong => "File name too long (os error 36)"
  | .nulInName => "file name contained an unexpected NUL byte"
  | .notText => "stream did not contain valid UTF-8"

end FileFault

/-- A tree seen from a working directory. -/
structure Place where
  tree : Tree
  /-- The names that lead from the root to the working directory. -/
  directory : List String

namespace Place

/-- The path of the working directory. -/
def path (w : Place) : Path := ⟨"/" ++ String.intercalate "/" w.directory⟩

/-- The most bytes that a name may have. -/
def longestName : Nat := 255

/-- The most bytes that the text of a path may have. -/
def longestPath : Nat := 4095

/-- What is wrong with the text of a path, wherever it leads. -/
def refuse (p : Path) : Except FileFault Unit :=
  if p.text.toList.contains '\x00' then .error .nulInName
  else if p.text.isEmpty then .error .notFound
  else if longestPath < p.text.utf8ByteSize then .error .nameTooLong
  else .ok ()

/-- Follows the segments of a path from the names reached so far. -/
def walk (w : Place) (names : List String) : List String → Except FileFault (List String)
  | [] => .ok names
  | segment :: segments =>
    match w.tree.find? names with
    | none => .error .notFound
    | some (.file _) => .error .notAFolder
    | some (.folder entries) =>
      if segment = "" ∨ segment = "." then w.walk names segments
      else if segment = ".." then w.walk names.dropLast segments
      else if longestName < segment.utf8ByteSize then .error .nameTooLong
      else if (entries.lookup segment).isSome then w.walk (names ++ [segment]) segments
      else .error .notFound

/-- The names from which a path is followed. -/
def origin (w : Place) (p : Path) : List String := if p.isAbsolute then [] else w.directory

/-- The names from the root to what a path leads to. -/
def resolve (w : Place) (p : Path) : Except FileFault (List String) := do
  refuse p
  w.walk (w.origin p) p.segments

/-- What a path leads to. -/
def get (w : Place) (p : Path) : Except FileFault Tree := do
  match w.tree.find? (← w.resolve p) with
  | some t => .ok t
  | none => .error .notFound

/-- Whether a path leads to a file. -/
def isFile (w : Place) (p : Path) : Bool :=
  match w.get p with
  | .ok (.file _) => true
  | _ => false

/-- Whether a path leads to a folder. -/
def isFolder (w : Place) (p : Path) : Bool :=
  match w.get p with
  | .ok (.folder _) => true
  | _ => false

/-- The text of a file, which has to be encoded as text. -/
def readText (w : Place) (p : Path) : Except FileFault String := do
  match ← w.get p with
  | .folder _ => .error .isAFolder
  | .file content =>
    match String.fromUTF8? content with
    | some text => .ok text
    | none => .error .notText

/-- The tree after a text has been written to the file a path names. The folder that is to hold it
has to be there. -/
def writeText (w : Place) (p : Path) (text : String) : Except FileFault Tree := do
  refuse p
  let reversed := p.segments.reverse
  let slashes := reversed.takeWhile (· == "")
  match reversed.dropWhile (· == "") with
  | [] => .error .isAFolder
  | name :: before =>
    let folder ← w.walk (w.origin p) before.reverse
    match w.tree.find? folder with
    | some (.folder entries) =>
      if name = "." ∨ name = ".." then .error .isAFolder
      else
        match slashes, entries.lookup name with
        | _ :: _, _ | _, some (.folder _) => .error .isAFolder
        | [], _ =>
          if longestName < name.utf8ByteSize then .error .nameTooLong
          else .ok (w.tree.put (.file text.toUTF8) (folder ++ [name]))
    | _ => .error .notAFolder

/-- The files at and below a path, those whose own path leads to them. -/
def filesBelow (w : Place) (p : Path) : List Path :=
  match w.get p with
  | .ok t => (t.filesFrom p).filter w.isFile
  | .error _ => []

end Place

end Knockout
