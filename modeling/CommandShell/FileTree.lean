import CommandShell.Association
import CommandShell.Location

/-!
# File trees

A node is a file, with a mode and bytes, or a directory of named nodes.  A file tree is the
directory at the root.  `FileTree.node?` is what there is at a location.  What `FileTree.put`
puts at a location is there (`node?_put_child`, `node?_put_self`), and nothing changes that is
neither above nor below it (`node?_put_of_not_prefix`).
-/

namespace CommandShell

/-- A mode after the bytes of its file have changed: starting the file no longer gives the
rights of its owner, nor those of its group where the group may start it. -/
def changedMode (mode : Nat) : Nat :=
  let ownMode := if mode.testBit 11 then mode - 0o4000 else mode
  if ownMode.testBit 10 && ownMode.testBit 3 then ownMode - 0o2000 else ownMode

/-- A file or a directory. -/
inductive Node where
  | file (mode : Nat) (content : Bytes)
  | directory (entries : List (Name × Node))

namespace Node

/-- Whether a node is a directory. -/
def isDirectory : Node → Bool
  | .directory _ => true
  | .file _ _ => false

/-- Whether a node is a file. -/
def isFile : Node → Bool
  | .directory _ => false
  | .file _ _ => true

/-- Whether the mode lets the owner read. -/
def isReadable : Node → Bool
  | .directory _ => true
  | .file mode _ => mode.testBit 8

/-- Whether the mode lets the owner write. -/
def isWritable : Node → Bool
  | .directory _ => false
  | .file mode _ => mode.testBit 7

/-- Whether the mode lets the owner start the file. -/
def isStartable : Node → Bool
  | .directory _ => false
  | .file mode _ => mode.testBit 6

/-- Whether a file has an execute bit, be it for the owner, the group or the others. -/
def isExecutable : Node → Bool
  | .directory _ => false
  | .file mode _ => mode.testBit 6 || mode.testBit 3 || mode.testBit 0

/-- The node with a name in a directory. -/
def child? : Node → Name → Option Node
  | .file _ _, _ => none
  | .directory entries, name => entries.lookup name

/-- The names in a directory. -/
def names : Node → List Name
  | .file _ _ => []
  | .directory entries => entries.map Prod.fst

/-- The node at a location below. -/
def at? (node : Node) : Location → Option Node
  | [] => some node
  | name :: rest => (node.child? name).bind (at? · rest)

/-- The node with another one at a location below; where there is nothing on the way,
directories are made. -/
def put (new : Node) : Location → Node → Node
  | [], _ => new
  | _ :: _, .file mode content => .file mode content
  | name :: rest, .directory entries =>
    .directory (replace name (put new rest ((entries.lookup name).getD (.directory []))) entries)

end Node

/-- The entries of the directory at the root. -/
structure FileTree where
  entries : List (Name × Node) := []

namespace FileTree

/-- The directory at the root. -/
def root (tree : FileTree) : Node :=
  .directory tree.entries

/-- What there is at a location. -/
def node? (tree : FileTree) (location : Location) : Option Node :=
  tree.root.at? location

/-- The tree with another node at a location below the root. -/
def put (tree : FileTree) (location : Location) (node : Node) : FileTree :=
  match location with
  | [] => tree
  | name :: rest =>
    ⟨replace name (Node.put node rest ((tree.entries.lookup name).getD (.directory [])))
      tree.entries⟩

/-- The bytes of the file at a location. -/
def content (tree : FileTree) (location : Location) : Bytes :=
  match tree.node? location with
  | some (.file _ content) => content
  | _ => []

/-- The tree with other bytes in the file at a location. -/
def setContent (tree : FileTree) (location : Location) (content : Bytes) : FileTree :=
  match tree.node? location with
  | some (.file mode _) => tree.put location (.file (changedMode mode) content)
  | _ => tree

/-- The bytes of a file after others are written at an offset; a gap before them is filled
with zeros. -/
def splice (content : Bytes) (offset : Nat) (bytes : Bytes) : Bytes :=
  (content.take offset).rightpad offset 0 ++ bytes ++ content.drop (offset + bytes.length)

/-- The tree after bytes are written into the file at a location at an offset.  Where there
are none nothing happens. -/
def overwrite (tree : FileTree) (location : Location) (offset : Nat) (bytes : Bytes) : FileTree :=
  if bytes = [] then tree
  else tree.setContent location (splice (tree.content location) offset bytes)

/-- The tree after bytes are added to the file at a location. -/
def extend (tree : FileTree) (location : Location) (bytes : Bytes) : FileTree :=
  tree.overwrite location (tree.content location).length bytes

end FileTree

namespace Node

@[simp]
theorem at?_nil (node : Node) :
  node.at? [] = some node
  := rfl

@[simp]
theorem at?_cons (node : Node) (name : Name) (rest : Location) :
  node.at? (name :: rest) = (node.child? name).bind (at? · rest)
  := rfl

theorem at?_append (node : Node) (above below : Location) :
  node.at? (above ++ below) = (node.at? above).bind (at? · below)
  := by
  induction above generalizing node with
  | nil => rfl
  | cons name above ih =>
    cases h : node.child? name with
    | none => simp [h]
    | some child => simp [h, ih]

/-- What there is above something is a directory. -/
theorem isDirectory_of_at?_append {node upper lower : Node} {above below : Location}
    (hb : node.at? (above ++ below) = some lower) (hne : below ≠ [])
    (ha : node.at? above = some upper) :
  upper.isDirectory = true
  := by
  rw [at?_append, ha] at hb
  cases upper with
  | directory entries => rfl
  | file mode content =>
    cases below with
    | nil => exact absurd rfl hne
    | cons name below => simp [child?] at hb

/-- A node that is put at a location is there, unless there is a file on the way. -/
theorem at?_put_self (new : Node) {location : Location} {node : Node}
    (h : ∀ above below, location = above ++ below → below ≠ [] →
      (node.at? above).all isDirectory = true) :
  (put new location node).at? location = some new
  := by
  induction location generalizing node with
  | nil => rfl
  | cons name rest ih =>
    cases node with
    | file mode content => simpa [isDirectory] using h [] (name :: rest) rfl (by simp)
    | directory entries =>
      rw [put, at?_cons, child?, lookup_replace_self, Option.bind_some]
      refine ih fun above below hr hb => ?_
      have := h (name :: above) below (by simp [hr]) hb
      cases hl : entries.lookup name with
      | none => cases above <;> simp [child?, isDirectory]
      | some child => simpa [child?, hl] using this

/-- A node that is put at a location changes nothing that is neither above nor below it. -/
theorem at?_put_of_not_prefix (new : Node) {location other : Location} (node : Node)
    (hl : ¬ location <+: other) (ho : ¬ other <+: location) :
  (put new location node).at? other = node.at? other
  := by
  induction location generalizing node other with
  | nil => exact absurd List.nil_prefix hl
  | cons name rest ih =>
    cases other with
    | nil => exact absurd List.nil_prefix ho
    | cons there others =>
      cases node with
      | file mode content => rfl
      | directory entries =>
        by_cases hn : there = name
        · subst hn
          rw [List.cons_prefix_cons, not_and] at hl ho
          rw [put, at?_cons, child?, lookup_replace_self, Option.bind_some,
            ih _ (hl rfl) (ho rfl), at?_cons, child?]
          cases entries.lookup there with
          | some child => rfl
          | none =>
            cases others with
            | nil => exact absurd List.nil_prefix (ho rfl)
            | cons => rfl
        · rw [put, at?_cons, child?, lookup_replace_of_ne hn, at?_cons, child?]

/-- A node that is put where another one has been put takes its place. -/
theorem put_put (first second : Node) (location : Location) (node : Node) :
  put second location (put first location node) = put second location node
  := by
  induction location generalizing node with
  | nil => rfl
  | cons name rest ih =>
    cases node with
    | file mode content => rfl
    | directory entries =>
      rw [put, put, lookup_replace_self, Option.getD_some, ih, replace_replace, put]

end Node

namespace FileTree

theorem root_put (tree : FileTree) {location : Location} (h : location ≠ []) (node : Node) :
  (tree.put location node).root = Node.put node location tree.root
  := by
  cases location with
  | nil => exact absurd rfl h
  | cons name rest => rfl

@[simp]
theorem node?_nil (tree : FileTree) :
  tree.node? [] = some tree.root
  := rfl

/-- A node that is put in a directory is there. -/
theorem node?_put_child (tree : FileTree) {parent : Location} {directory : Node} (name : Name)
    (node : Node) (hp : tree.node? parent = some directory)
    (hd : directory.isDirectory = true) :
  (tree.put (parent ++ [name]) node).node? (parent ++ [name]) = some node
  := by
  rw [node?, root_put _ (by simp)]
  refine Node.at?_put_self _ fun above below ha hb => ?_
  obtain ⟨rest, last, rfl⟩ := (List.eq_nil_or_concat below).resolve_left hb
  rw [List.concat_eq_append, ← List.append_assoc] at ha
  obtain rfl := (List.append_inj' ha rfl).1
  cases h : tree.root.at? above with
  | none => rfl
  | some node =>
    cases rest with
    | nil =>
      rw [node?, List.append_nil, h, Option.some.injEq] at hp
      exact hp ▸ hd
    | cons => exact Node.isDirectory_of_at?_append hp (by simp) h

/-- A node that is put where there is one takes its place. -/
theorem node?_put_self (tree : FileTree) {location : Location} {old : Node} (node : Node)
    (h : tree.node? location = some old) (hl : location ≠ []) :
  (tree.put location node).node? location = some node
  := by
  rw [node?, root_put _ hl]
  refine Node.at?_put_self _ fun above below ha hb => ?_
  subst ha
  cases hn : tree.root.at? above with
  | none => rfl
  | some node => exact Node.isDirectory_of_at?_append h hb hn

/-- A node that is put at a location changes nothing that is neither above nor below it. -/
theorem node?_put_of_not_prefix (tree : FileTree) {location other : Location} (node : Node)
    (hl : ¬ location <+: other) (ho : ¬ other <+: location) :
  (tree.put location node).node? other = tree.node? other
  := by
  have hne : location ≠ [] := by
    rintro rfl
    exact hl List.nil_prefix
  rw [node?, root_put _ hne, node?, Node.at?_put_of_not_prefix _ _ hl ho]

/-- A node that is put where another one has been put takes its place. -/
theorem put_put (tree : FileTree) (location : Location) (first second : Node) :
  (tree.put location first).put location second = tree.put location second
  := by
  cases location with
  | nil => rfl
  | cons name rest =>
    rw [put, put, lookup_replace_self, Option.getD_some, Node.put_put, replace_replace, put]

end FileTree

end CommandShell
