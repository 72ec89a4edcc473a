import CommandShell.FileTree.Walk

/-!
# Files and directories by route

Reading a file, opening one for writing, and making directories.  Opening for writing
makes a file that does not exist; it empties one that exists or leaves its bytes, as asked.
An operation that fails leaves the tree as it was, but directories that have been made on
the way to one that cannot be made stay.
-/

namespace CommandShell

/-- What opening for writing does with the bytes of a file. -/
inductive Disposition where
  /-- Removes them. -/
  | truncate
  /-- Keeps them, and writes after them. -/
  | append
  deriving DecidableEq, Repr

namespace FileTree

/-- The bytes of the file that a route leads to. -/
def read (tree : FileTree) (base : Location) (route : Bytes) : Except SystemError Bytes := do
  let trail ← tree.find base route
  match trail.node with
  | .file mode content =>
    if (Node.file mode content).isReadable then .ok content else .error .permissionDenied
  | .directory _ => .error .isDirectory

/-- The tree and the location of the file after a file that exists is opened for writing. -/
def openExisting (tree : FileTree) (location : Location) (disposition : Disposition) :
    Node → Except SystemError (FileTree × Location)
  | .directory _ => .error .isDirectory
  | .file mode content =>
    if (Node.file mode content).isWritable then
      match disposition with
      | .truncate => .ok (tree.put location (.file (changedMode mode) []), location)
      | .append => .ok (tree, location)
    else .error .permissionDenied

/-- The tree and the location of the file after the file with a name in a directory is
opened for writing. -/
def openName (tree : FileTree) (parent : Trail) (name : Name) (disposition : Disposition)
    (mode : Nat) : Except SystemError (FileTree × Location) :=
  let location := parent.location ++ [name]
  if maxNameSize < name.bytes.length then .error .nameTooLong
  else
    match parent.node.child? name with
    | some node => tree.openExisting location disposition node
    | none => .ok (tree.put location (.file mode []), location)

/-- The tree and the location of the file after the file that a route names is opened for
writing; a file that does not exist gets the mode.  A route with a slash at its end names a
directory. -/
def openForWriting (tree : FileTree) (base : Location) (route : Bytes) (disposition : Disposition)
    (mode : Nat) : Except SystemError (FileTree × Location) := do
  let parent ← tree.findParent base route
  match Route.name? route with
  | some name =>
    if route.getLast? = some slash then .error .isDirectory
    else tree.openName parent name disposition mode
  | none => .error .isDirectory

/-- The tree with the directory that a route names. -/
def makeDirectory (tree : FileTree) (base : Location) (route : Bytes) :
    Except SystemError FileTree := do
  let parent ← tree.findParent base route
  match Route.name? route with
  | some name =>
    if maxNameSize < name.bytes.length then .error .nameTooLong
    else if (parent.node.child? name).isSome then .error .alreadyExists
    else .ok (tree.put (parent.location ++ [name]) (.directory []))
  | none => .error .alreadyExists

/-- The tree with the directory that a route names, after `makeParent` if its parent does
not exist, and the failure if there is one.  A directory that exists is no failure. -/
def ensureDirectory (base : Location) (route : Bytes)
    (makeParent : FileTree → FileTree × Option SystemError) (tree : FileTree) :
    FileTree × Option SystemError :=
  match tree.makeDirectory base route with
  | .ok grown => (grown, none)
  | .error .notFound =>
    match makeParent tree with
    | (grown, some error) => (grown, some error)
    | (grown, none) =>
      match grown.makeDirectory base route with
      | .ok complete => (complete, none)
      | .error error => (grown, if grown.isDirectory base route then none else some error)
  | .error error => (tree, if tree.isDirectory base route then none else some error)

/-- The tree with the directories that routes name, each route naming the parent of what the
one before it names, and the failure if there is one. -/
def ensureDirectories (base : Location) : List Bytes → FileTree → FileTree × Option SystemError
  | [], tree => (tree, none)
  | route :: parents, tree =>
    ensureDirectory base route (ensureDirectories base parents) tree

/-- The tree with the directory that a route names and every one above it, as far as they
can be made, and the failure if there is one. -/
def makeDirectories (tree : FileTree) (base : Location) (route : Bytes) :
    FileTree × Option SystemError :=
  if route = [] then (tree, none)
  else ensureDirectories base (route :: Route.parents route) tree

end FileTree

end CommandShell
