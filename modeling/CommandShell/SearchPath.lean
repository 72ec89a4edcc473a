import CommandShell.FileTree.Walk
import CommandShell.Path

/-!
# Search paths

A search path is a list of directories, written with colons between them.  A name is looked
up in each of them in turn; only a file with an execute bit counts, and a name with a slash
is never found.
-/

namespace CommandShell

/-- The directories in which programs are looked up. -/
structure SearchPath where
  directories : List Text
  deriving DecidableEq, Repr

namespace SearchPath

/-- The search path of a text; empty directories are left out. -/
def ofText (text : Text) : SearchPath :=
  ⟨runs (· = ':') text⟩

/-- The path of the first file with an execute bit that has the name. -/
def resolve (search : SearchPath) (tree : FileTree) (base : Location) (name : Text) :
    Option Text :=
  if name.isEmpty || name.contains '/' then none
  else (search.directories.map (Path.join · name)).find? fun path =>
    tree.isExecutable base (Path.route path)

/-- The names of the files with an execute bit in a directory, if it is one; a name that is no
text does not count. -/
def executables (tree : FileTree) (base : Location) (directory : Text) : List Text :=
  match tree.lookup base (Path.route directory) with
  | some node =>
    (node.names.filterMap Name.text?).filter fun name =>
      tree.isExecutable base (Path.route (Path.join directory name))
  | none => []

/-- The names of all programs, in increasing order and each once. -/
def list (search : SearchPath) (tree : FileTree) (base : Location) : List Text :=
  Text.sortDistinct (search.directories.flatMap (executables tree base))

end SearchPath

end CommandShell
