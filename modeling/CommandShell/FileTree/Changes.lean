import CommandShell.FileTree

/-!
# Changes of a file tree

What a tree has that an earlier one does not have, in the order of the routes.
-/

namespace CommandShell

/-- What is seen of a node without looking into a directory. -/
inductive Item where
  | file (mode : Nat) (content : Bytes)
  | directory
  deriving DecidableEq, Repr

namespace Node

mutual

/-- The nodes below one that the names lead to, the last name first, with those names. -/
def items (names : List Name) (node : Node) : List (List Name × Item) :=
  match node with
  | .file mode content => [(names, .file mode content)]
  | .directory entries => (names, .directory) :: itemsOf names entries
  termination_by sizeOf node

/-- The nodes of the entries of a directory that the names lead to, with their names. -/
def itemsOf (names : List Name) (entries : List (Name × Node)) : List (List Name × Item) :=
  match entries with
  | [] => []
  | (name, node) :: rest => node.items (name :: names) ++ itemsOf names rest
  termination_by sizeOf entries

end

end Node

/-- A route and what it leads to. -/
structure RouteItem where
  route : Bytes
  item : Item
  deriving DecidableEq, Repr

namespace FileTree

/-- What there is below the root, in the order of the routes. -/
def listing (tree : FileTree) : List RouteItem :=
  ((Node.itemsOf [] tree.entries).map fun entry =>
    ⟨Location.route entry.1.reverse, entry.2⟩).mergeSort fun a b => a.route ≤ b.route

/-- The items of a listing that another one does not have, both in the order of the routes. -/
def newItems : List RouteItem → List RouteItem → List RouteItem
  | after, [] => after
  | [], _ => []
  | item :: after, old :: before =>
    if item = old then newItems after before
    else if old.route < item.route then newItems (item :: after) before
    else item :: newItems after (old :: before)
  termination_by after before => after.length + before.length

/-- What a tree has and an earlier one did not have, in the order of the routes. -/
def changes (before after : FileTree) : List RouteItem :=
  newItems after.listing before.listing

end FileTree

end CommandShell
