import CommandShell.FileTree.Changes
import CommandShell.History
import CommandShell.Proofs.Growth
import Mathlib.Data.Nat.Bitwise

/-!
# Edits of a file tree

What is seen at a location of a tree is a file, with its mode and bytes, a directory, or nothing.
Where a file is put nothing else is seen to change (`FileTree.item?_put`).  So whatever a shell does
it makes files and writes them (`Item.Edit`), and a tree is edited at some locations only
(`FileTree.Edited`).  What can be opened for writing is a file afterwards, and it can be opened
again in every tree that is edited from there (`FileTree.Edited.openable`).
-/

namespace CommandShell

/-! ### Modes -/

theorem testBit_sub_two_pow {m n : Nat} (h : m.testBit n = true) (i : Nat) :
  (m - 2 ^ n).testBit i = (m.testBit i && i ≠ n)
  := by
  have hr : m % 2 ^ n < 2 ^ n := Nat.mod_lt _ (Nat.two_pow_pos n)
  obtain ⟨q, hq⟩ : ∃ q, m / 2 ^ n = 2 * q + 1 := by
    rw [Nat.testBit_eq_decide_div_mod_eq, decide_eq_true_eq] at h
    exact ⟨m / 2 ^ n / 2, by omega⟩
  have hm : m = 2 ^ n * (2 * q + 1) + m % 2 ^ n := by rw [← hq, Nat.div_add_mod]
  have hs : m - 2 ^ n = 2 ^ n * (2 * q) + m % 2 ^ n := by
    rw [Nat.mul_add] at hm
    omega
  have hb := Nat.testBit_two_pow_mul_add (2 * q + 1) hr i
  rw [← hm] at hb
  rw [hs, hb, Nat.testBit_two_pow_mul_add _ hr]
  rcases Nat.lt_trichotomy i n with hi | rfl | hi
  · simp [hi, Nat.ne_of_lt hi]
  · simp
  · obtain ⟨k, rfl⟩ := Nat.exists_eq_add_of_lt hi
    simp [Nat.add_assoc, Nat.testBit_succ, Nat.mul_add_div]

/-- A mode without the bit that gives the rights of the owner. -/
theorem testBit_withoutOwner (mode bit : Nat) :
  (if mode.testBit 11 then mode - 0o4000 else mode).testBit bit
    = (mode.testBit bit && bit ≠ 11)
  := by
  split
  · rename_i h
    apply testBit_sub_two_pow h
  · rename_i h
    by_cases hb : bit = 11 <;> simp_all

/-- A mode without the bit that gives the rights of the group, where the group may start it. -/
theorem testBit_withoutGroup (mode bit : Nat) :
  (if mode.testBit 10 && mode.testBit 3 then mode - 0o2000 else mode).testBit bit
    = (mode.testBit bit && (bit ≠ 10 || !mode.testBit 3))
  := by
  split
  · rename_i h
    rw [Bool.and_eq_true] at h
    have hs := testBit_sub_two_pow h.1 bit
    simpa [h.2] using hs
  · rename_i h
    by_cases hb : bit = 10 <;> simp_all

/-- The bits of a mode after its file has changed. -/
theorem testBit_changedMode (mode bit : Nat) :
  (changedMode mode).testBit bit
    = (mode.testBit bit && bit ≠ 11 && (bit ≠ 10 || !mode.testBit 3))
  := by
  simp only [changedMode]
  rw [testBit_withoutGroup, testBit_withoutOwner, testBit_withoutOwner]
  simp

/-- A mode changes only once. -/
@[simp]
theorem changedMode_changedMode (mode : Nat) :
  changedMode (changedMode mode) = changedMode mode
  := by
  apply Nat.eq_of_testBit_eq
  intro bit
  simp only [testBit_changedMode]
  cases mode.testBit bit <;> cases mode.testBit 3 <;> grind

@[simp]
theorem changedMode_newFileMode :
  changedMode newFileMode = newFileMode
  := rfl

@[simp]
theorem Node.isWritable_changedMode (mode : Nat) (content : Bytes) :
  (Node.file (changedMode mode) content).isWritable = (Node.file mode content).isWritable
  := by
  simp [isWritable, testBit_changedMode]

@[simp]
theorem Node.isReadable_changedMode (mode : Nat) (content : Bytes) :
  (Node.file (changedMode mode) content).isReadable = (Node.file mode content).isReadable
  := by
  simp [isReadable, testBit_changedMode]

/-! ### What is seen at a location -/

/-- What is seen of a node. -/
def Node.item : Node → Item
  | .file mode content => .file mode content
  | .directory _ => .directory

/-- What is seen at a location. -/
def FileTree.item? (tree : FileTree) (location : Location) : Option Item :=
  (tree.node? location).map Node.item

namespace Node

/-- There is nothing below a file. -/
theorem at?_cons_of_not_directory {node : Node} (h : node.isDirectory = false) (name : Name)
    (rest : Location) :
  node.at? (name :: rest) = none
  := by
  cases node with
  | file mode content => rfl
  | directory entries => contradiction

/-- Where a file is put in the place of a file, or in a directory, nothing else changes. -/
theorem item_at?_put (mode : Nat) (content : Bytes) {node : Node} {location : Location}
    (hne : location ≠ []) (hd : (node.at? location.dropLast).any isDirectory = true)
    (hf : (node.at? location).any isDirectory = false) (other : Location) :
  ((put (.file mode content) location node).at? other).map item
    = if other = location then some (.file mode content) else (node.at? other).map item
  := by
  induction location generalizing node other with
  | nil => contradiction
  | cons name rest ih =>
    cases node with
    | file mode content =>
      cases rest with
      | nil => contradiction
      | cons next others => simp [child?] at hd
    | directory entries =>
      cases other with
      | nil => simp [put, item]
      | cons there others =>
        by_cases hn : there = name
        · subst hn
          rw [put, at?_cons, child?, lookup_replace_self, Option.bind_some, at?_cons, child?]
          rw [at?_cons, child?] at hf
          cases rest with
          | nil =>
            cases others with
            | nil => simp [put, item]
            | cons next others =>
              have hb : (entries.lookup there).bind (at? · (next :: others)) = none := by
                cases hl : entries.lookup there with
                | none => rfl
                | some child =>
                  apply at?_cons_of_not_directory
                  simpa [hl] using hf
              rw [hb]
              simp [put, child?]
          | cons next rest =>
            rw [List.dropLast_cons_of_ne_nil (by simp), at?_cons, child?] at hd
            cases hl : entries.lookup there with
            | none => simp [hl] at hd
            | some child =>
              rw [hl, Option.bind_some] at hd hf
              rw [Option.getD_some, ih (by simp) hd hf]
              simp
        · rw [put, at?_cons, child?, lookup_replace_of_ne hn, at?_cons, child?, if_neg]
          simp [hn]

end Node

namespace FileTree

variable {tree : FileTree} {location : Location}

/-- Where a file is put in the place of a file, or in a directory, nothing else changes. -/
theorem item?_put (mode : Nat) (content : Bytes) (hne : location ≠ [])
    (hd : (tree.node? location.dropLast).any Node.isDirectory = true)
    (hf : (tree.node? location).any Node.isDirectory = false) (other : Location) :
  (tree.put location (.file mode content)).item? other
    = if other = location then some (.file mode content) else tree.item? other
  := by
  rw [item?, node?, root_put tree hne]
  apply Node.item_at?_put mode content hne hd hf

/-- Above something there is a directory. -/
theorem isDirectory_above {node : Node} (h : tree.node? location = some node)
    (hne : location ≠ []) :
  (tree.node? location.dropLast).any Node.isDirectory = true
  := by
  have hl : location.dropLast ++ [location.getLast hne] = location :=
    List.dropLast_concat_getLast hne
  rw [← hl, node?, Node.at?_append] at h
  obtain ⟨above, ha, hb⟩ := Option.bind_eq_some_iff.mp h
  rw [node?, ha, Option.any_some]
  cases above with
  | directory entries => rfl
  | file mode content => simp [Node.child?] at hb

theorem ne_nil_of_node?_file {mode : Nat} {content : Bytes}
    (h : tree.node? location = some (.file mode content)) :
  location ≠ []
  := by
  rintro rfl
  rw [node?_nil, Option.some_inj] at h
  contradiction

/-- Where a file is put in the place of a file nothing else is seen to change. -/
theorem item?_put_file {old : Nat} {bytes : Bytes}
    (h : tree.node? location = some (.file old bytes)) (mode : Nat) (content : Bytes)
    (other : Location) :
  (tree.put location (.file mode content)).item? other
    = if other = location then some (.file mode content) else tree.item? other
  := by
  have hne := ne_nil_of_node?_file h
  apply item?_put mode content hne (isDirectory_above h hne)
  rw [h]
  rfl

theorem item?_eq_file_iff {mode : Nat} {content : Bytes} :
  tree.item? location = some (.file mode content)
    ↔ tree.node? location = some (.file mode content)
  := by
  rw [item?]
  cases tree.node? location with
  | none => simp
  | some node => cases node <;> simp [Node.item]

/-- The bytes of a file are told by what is seen of it. -/
theorem content_eq_match (tree : FileTree) (location : Location) :
  tree.content location
    = match tree.item? location with
      | some (.file _ content) => content
      | some .directory | none => []
  := by
  rw [content, item?]
  rcases tree.node? location with - | (_ | _) <;> rfl

theorem content_eq_of_item? {tree other : FileTree} {location : Location}
    (h : tree.item? location = other.item? location) :
  tree.content location = other.content location
  := by
  rw [content_eq_match, content_eq_match, h]

theorem splice_length (content bytes : Bytes) :
  splice content content.length bytes = content ++ bytes
  := by
  simp [splice, List.rightpad]

/-- A file after bytes are added to it. -/
theorem exists_node?_extend {mode : Nat} {content : Bytes}
    (h : tree.node? location = some (.file mode content)) (bytes : Bytes) :
  ∃ after, (tree.extend location bytes).node? location = some (.file after (content ++ bytes))
  := by
  have hc : tree.content location = content := by rw [FileTree.content, h]
  rw [extend, overwrite, hc, splice_length]
  split
  · rename_i hb
    use mode
    rw [hb, List.append_nil, h]
  · use changedMode mode
    rw [setContent, h]
    apply tree.node?_put_self _ h (ne_nil_of_node?_file h)

theorem content_extend {mode : Nat} {content : Bytes}
    (h : tree.node? location = some (.file mode content)) (bytes : Bytes) :
  (tree.extend location bytes).content location = content ++ bytes
  := by
  obtain ⟨after, ha⟩ := exists_node?_extend h bytes
  rw [FileTree.content, ha]

/-- To add bytes to a file in two pieces is to add them at once. -/
theorem extend_append (tree : FileTree) (location : Location) (first second : Bytes) :
  tree.extend location (first ++ second) = (tree.extend location first).extend location second
  := by
  by_cases hf : first = []
  · simp [hf, extend, overwrite]
  by_cases hs : second = []
  · simp [hs, extend, overwrite]
  have hb : first ++ second ≠ [] := by simp [hf]
  simp only [extend, overwrite, if_neg hf, if_neg hs, if_neg hb, splice_length]
  rcases hn : tree.node? location with - | (⟨mode, content⟩ | entries)
  · simp [setContent, hn]
  · have hp := fun new => tree.node?_put_self (.file (changedMode mode) new) hn
      (ne_nil_of_node?_file hn)
    simp [setContent, hn, hp, FileTree.content, put_put]
  · simp [setContent, hn]

end FileTree

/-! ### Edits -/

/-- What a shell makes of what is seen at a location. -/
inductive Item.Edit : Option Item → Option Item → Prop where
  /-- It leaves it. -/
  | keep (item : Option Item) : Edit item item
  /-- It makes a file. -/
  | make (content : Bytes) : Edit none (some (.file newFileMode content))
  /-- It writes a file. -/
  | write (mode : Nat) (old new : Bytes) :
      Edit (some (.file mode old)) (some (.file (changedMode mode) new))

theorem Item.Edit.trans {first second third : Option Item} (h : Edit first second)
    (h' : Edit second third) :
  Edit first third
  := by
  cases h with
  | keep => exact h'
  | make content =>
    cases h' with
    | keep => exact .make content
    | write mode old new =>
      rw [changedMode_newFileMode]
      exact .make new
  | write mode old new =>
    cases h' with
    | keep => exact .write mode old new
    | write _ _ other =>
      rw [changedMode_changedMode]
      exact .write mode old other

/-- Whether what is seen at a location, if anything, is a file that can be read. -/
def Item.isLegible : Option Item → Bool
  | none => true
  | some (.file mode content) => (Node.file mode content).isReadable
  | some .directory => false

theorem Item.Edit.isLegible {before after : Option Item} (h : Edit before after)
    (hb : Item.isLegible before = true) :
  Item.isLegible after = true
  := by
  cases h with
  | keep => exact hb
  | make content => rfl
  | write mode old new =>
    rw [Item.isLegible] at hb ⊢
    rw [Node.isReadable_changedMode]
    exact hb

/-- What there is in a tree after edits at some locations. -/
structure FileTree.Edited (locations : Set Location) (before after : FileTree) : Prop where
  edit : ∀ location, Item.Edit (before.item? location) (after.item? location)
  /-- Nothing is seen to change at other locations. -/
  frame : ∀ location, location ∉ locations → after.item? location = before.item? location

namespace FileTree

namespace Edited

variable {locations : Set Location} {before after : FileTree}

theorem refl (locations : Set Location) (tree : FileTree) :
  Edited locations tree tree
  := ⟨fun _ => .keep _, fun _ _ => rfl⟩

theorem trans {third : FileTree} (h : Edited locations before after)
    (h' : Edited locations after third) :
  Edited locations before third
  := by
  constructor
  · intro location
    apply (h.edit location).trans (h'.edit location)
  · intro location hl
    rw [h'.frame location hl, h.frame location hl]

theorem mono {others : Set Location} (h : Edited locations before after)
    (hs : locations ⊆ others) :
  Edited others before after
  := by
  constructor
  · apply h.edit
  · intro location hl
    apply h.frame
    intro hm
    apply hl (hs hm)

/-- A tree that is edited grows. -/
theorem grows (h : Edited locations before after) :
  before.Grows after
  := by
  intro location node hn
  have he := h.edit location
  rw [item?, item?, hn, Option.map_some] at he
  cases ha : after.node? location with
  | none =>
    rw [ha] at he
    generalize node.item = item at he
    nomatch he
  | some grown =>
    rw [ha, Option.map_some] at he
    use grown, rfl
    cases node <;> cases grown <;> simp only [Node.item] at he <;> first | rfl | cases he

end Edited

/-- A file that is written is the only one that is edited. -/
theorem edited_put_file {tree : FileTree} {location : Location} {mode : Nat} {old : Bytes}
    (h : tree.node? location = some (.file mode old)) (new : Bytes) :
  Edited {location} tree (tree.put location (.file (changedMode mode) new))
  := by
  constructor
  · intro other
    rw [item?_put_file h]
    split
    · rename_i ho
      subst ho
      rw [item?_eq_file_iff.mpr h]
      exact .write mode old new
    · exact .keep _
  · intro other ho
    rw [item?_put_file h]
    apply if_neg ho

theorem edited_setContent (tree : FileTree) (location : Location) (content : Bytes) :
  Edited {location} tree (tree.setContent location content)
  := by
  rw [setContent]
  split
  · rename_i mode old h
    apply edited_put_file h
  · apply Edited.refl

theorem edited_overwrite (tree : FileTree) (location : Location) (offset : Nat) (bytes : Bytes) :
  Edited {location} tree (tree.overwrite location offset bytes)
  := by
  rw [overwrite]
  split
  · apply Edited.refl
  · apply edited_setContent

theorem edited_extend (tree : FileTree) (location : Location) (bytes : Bytes) :
  Edited {location} tree (tree.extend location bytes)
  := by
  apply edited_overwrite

end FileTree

/-! ### Opening for writing -/

/-- The bytes of a file that opening it leaves. -/
def Disposition.kept : Disposition → Bytes → Bytes
  | .truncate, _ => []
  | .append, content => content

namespace FileTree

section

variable {tree after : FileTree} {base : Location} {route : Bytes} {parent : Trail} {name : Name}

theorem name?_eq_some {taken : Step} (h : taken.name? = some name) :
  taken = .down name
  := by
  cases taken with
  | down other =>
    obtain rfl := Option.some_inj.mp h
    rfl
  | stay => contradiction
  | up => contradiction

/-- What a route names that does not end with a slash is found in the directory that holds it. -/
theorem find_eq_down (hp : tree.findParent base route = .ok parent)
    (hn : Route.name? route = some name) (hs : route.getLast? ≠ some slash) :
  tree.find base route = parent.down name
  := by
  obtain ⟨_, hc, hp⟩ := bind_eq_ok_iff.mp hp
  obtain ⟨trail, hw, hd⟩ := bind_eq_ok_iff.mp hp
  split at hd
  · rename_i hdir
    obtain rfl := Except.ok.inj hd
    have ht := Route.trimSlashes_eq hs
    rw [Route.name?, ht] at hn
    obtain ⟨taken, hl, hn⟩ := Option.bind_eq_some_iff.mp hn
    obtain ⟨steps, hl⟩ := List.getLast?_eq_some_iff.mp hl
    rw [Route.parentSteps, ht, hl, List.dropLast_concat] at hw
    rw [find, hc, hl, walk, name?_eq_some hn, ← List.append_assoc, Trail.walk_append]
    rw [walk] at hw
    rw [hw]
    have hs : trail.step (.down name) = trail.down name := by rw [Trail.step, if_pos hdir]
    change trail.step (.down name) >>= Except.ok = _
    rw [hs]
    cases trail.down name <;> rfl
  · contradiction

/-- What there is under a name in a directory that a trail leads to. -/
theorem node?_child (h : parent.IsIn tree) (name : Name) :
  tree.node? (parent.location ++ [name]) = parent.node.child? name
  := by
  rw [node?, Node.at?_append, ← node?, h.node?_location]
  simp

theorem isDirectory_of_findParent (h : tree.findParent base route = .ok parent) :
  parent.node.isDirectory = true
  := by
  obtain ⟨_, -, h⟩ := bind_eq_ok_iff.mp h
  obtain ⟨trail, -, h⟩ := bind_eq_ok_iff.mp h
  split at h
  · obtain rfl := Except.ok.inj h
    assumption
  · contradiction

/-- The directory that holds what a route names stays where it is in a tree that has grown. -/
theorem Grows.findParent (h : tree.Grows after) (hp : tree.findParent base route = .ok parent) :
  ∃ grown, after.findParent base route = .ok grown ∧ grown.location = parent.location
  := by
  have hd := isDirectory_of_findParent hp
  have hi := isIn_of_findParent hp
  obtain ⟨_, hc, hp⟩ := bind_eq_ok_iff.mp hp
  obtain ⟨trail, hw, hp⟩ := bind_eq_ok_iff.mp hp
  split at hp
  · obtain rfl := Except.ok.inj hp
    have ha : after.trail.IsIn after := .root
    obtain ⟨grown, hg, hl⟩ := Trail.walk_of_grows h .root ha rfl hw
    have hd' := (Trail.isDirectory_of_grows h hi (ha.walk hg) hl).trans hd
    refine ⟨grown, ?_, hl⟩
    rw [FileTree.findParent, hc, FileTree.walk, hg]
    exact if_pos hd'
  · contradiction

theorem locate_eq_ok_iff {location : Location} :
  tree.locate base route = .ok location
    ↔ ∃ trail, tree.find base route = .ok trail ∧ trail.location = location
  := by
  rw [locate]
  cases tree.find base route with
  | error error => simp [Except.map]
  | ok trail => simp [Except.map]

/-- What there is where a route leads is what there is at the location that it leads to. -/
theorem lookup_eq_some_iff {node : Node} :
  tree.lookup base route = some node
    ↔ ∃ location, tree.locate base route = .ok location ∧ tree.node? location = some node
  := by
  rw [lookup, locate]
  cases h : tree.find base route with
  | error error => simp [Except.map, Except.toOption]
  | ok trail => simp [Except.map, Except.toOption, (isIn_of_find h).node?_location]

/-- A file where a route leads can be read if its mode lets it. -/
theorem read_of_locate {location : Location} {mode : Nat} {content : Bytes}
    (hl : tree.locate base route = .ok location)
    (hn : tree.node? location = some (.file mode content))
    (hr : Item.isLegible (tree.item? location) = true) :
  tree.read base route = .ok content
  := by
  obtain ⟨trail, hf, rfl⟩ := locate_eq_ok_iff.mp hl
  rw [item?_eq_file_iff.mpr hn, Item.isLegible] at hr
  rw [(isIn_of_find hf).node?_location, Option.some_inj] at hn
  rw [read, hf]
  obtain ⟨node, above⟩ := trail
  obtain rfl : node = .file mode content := hn
  exact if_pos hr

/-- A file that is read can be read. -/
theorem isLegible_of_read {content : Bytes} (h : tree.read base route = .ok content) :
  ∃ location, tree.locate base route = .ok location
    ∧ Item.isLegible (tree.item? location) = true
  := by
  obtain ⟨trail, hf, h⟩ := bind_eq_ok_iff.mp h
  have hn := (isIn_of_find hf).node?_location
  refine ⟨trail.location, locate_eq_ok_iff.mpr ⟨trail, hf, rfl⟩, ?_⟩
  obtain ⟨node, above⟩ := trail
  cases node with
  | directory entries => contradiction
  | file mode bytes =>
    rw [item?_eq_file_iff.mpr hn, Item.isLegible]
    dsimp only at h
    split at h
    · assumption
    · contradiction

/-- A route leads to the same place in a tree that has grown. -/
theorem Grows.locate {location : Location} (h : tree.Grows after)
    (hl : tree.locate base route = .ok location) :
  after.locate base route = .ok location
  := by
  obtain ⟨trail, hf, rfl⟩ := locate_eq_ok_iff.mp hl
  obtain ⟨grown, hf', hg⟩ := h.find hf
  apply locate_eq_ok_iff.mpr ⟨grown, hf', hg⟩

/-- A route leads to what there is under its name in the directory that holds it. -/
theorem locate_child {node : Node} (hp : tree.findParent base route = .ok parent)
    (hn : Route.name? route = some name) (hs : route.getLast? ≠ some slash)
    (hl : name.bytes.length ≤ maxNameSize) (hc : parent.node.child? name = some node) :
  tree.locate base route = .ok (parent.location ++ [name])
  := by
  have hd : parent.down name = .ok ⟨node, (name, parent.node) :: parent.above⟩ := by
    rw [Trail.down, if_neg (Nat.not_lt.mpr hl), hc]
  apply locate_eq_ok_iff.mpr ⟨_, (find_eq_down hp hn hs).trans hd, Trail.location_down hd⟩

/-- What opening for writing finds, and what it makes of the tree. -/
inductive Opens (tree : FileTree) (base : Location) (route : Bytes) (disposition : Disposition)
    (mode : Nat) : FileTree → Location → Prop where
  /-- It finds a file that can be written. -/
  | existing {trail : Trail} {old : Nat} {content : Bytes}
      (hf : tree.find base route = .ok trail) (hn : trail.node = .file old content)
      (hw : (Node.file old content).isWritable = true) :
      Opens tree base route disposition mode
        (match disposition with
          | .truncate => tree.put trail.location (.file (changedMode old) [])
          | .append => tree)
        trail.location
  /-- It makes a file in a directory that has none with the name. -/
  | made {parent : Trail} {name : Name} (hp : tree.findParent base route = .ok parent)
      (hn : Route.name? route = some name) (hs : route.getLast? ≠ some slash)
      (hl : name.bytes.length ≤ maxNameSize) (hc : parent.node.child? name = none) :
      Opens tree base route disposition mode
        (tree.put (parent.location ++ [name]) (.file mode [])) (parent.location ++ [name])

theorem opens_of_openForWriting {disposition : Disposition} {mode : Nat} {location : Location}
    (h : tree.openForWriting base route disposition mode = .ok (after, location)) :
  Opens tree base route disposition mode after location
  := by
  obtain ⟨parent, hp, h⟩ := bind_eq_ok_iff.mp h
  split at h
  · rename_i name hn
    split at h
    · contradiction
    · rename_i hs
      rw [openName] at h
      split at h
      · contradiction
      · rename_i hl
        have hl := Nat.le_of_not_lt hl
        split at h
        · rename_i node hc
          have hf : tree.find base route = .ok ⟨node, (name, parent.node) :: parent.above⟩ := by
            rw [find_eq_down hp hn hs, Trail.down, if_neg (Nat.not_lt.mpr hl), hc]
          have hloc := Trail.location_down ((find_eq_down hp hn hs).symm.trans hf)
          cases node with
          | directory entries => contradiction
          | file old content =>
            rw [openExisting_file, ← hloc] at h
            split at h
            · rename_i hw
              obtain ⟨rfl, rfl⟩ := Prod.mk.inj (Except.ok.inj h)
              exact .existing hf rfl hw
            · contradiction
        · rename_i hc
          obtain ⟨rfl, rfl⟩ := Prod.mk.inj (Except.ok.inj h)
          exact .made hp hn hs hl hc
  · contradiction

namespace Opens

variable {disposition : Disposition} {mode : Nat} {location : Location}

/-- Whatever is opened can be opened in any way. -/
theorem exists_openForWriting (h : Opens tree base route disposition mode after location)
    (other : Disposition) :
  ∃ opened, tree.openForWriting base route other mode = .ok (opened, location)
  := by
  cases h with
  | @existing trail old content hf hn hw =>
    rw [openForWriting_of_find hf (by rw [hn]; rfl), hn, openExisting_file, if_pos hw]
    exact ⟨_, rfl⟩
  | @made parent name hp hn hs hl hc =>
    rw [openForWriting, hp]
    simp only [bind, Except.bind, hn, if_neg hs, openName, if_neg (Nat.not_lt.mpr hl), hc]
    exact ⟨_, rfl⟩

/-- Nothing is edited but the file that is opened. -/
theorem edited (h : Opens tree base route disposition newFileMode after location) :
  Edited {location} tree after
  := by
  cases h with
  | @existing trail old content hf hn hw =>
    cases disposition with
    | append => apply Edited.refl
    | truncate =>
      have hl := (isIn_of_find hf).node?_location
      rw [hn] at hl
      apply edited_put_file hl
  | @made parent name hp hn hs hl hc =>
    have hi := isIn_of_findParent hp
    have hnone := (node?_child hi name).trans hc
    have hput : ∀ other, (tree.put (parent.location ++ [name]) (.file newFileMode [])).item? other
        = if other = parent.location ++ [name] then some (.file newFileMode [])
          else tree.item? other := by
      apply item?_put newFileMode []
      · simp
      · simp [hi.node?_location, isDirectory_of_findParent hp]
      · simp [hnone]
    constructor
    · intro other
      rw [hput]
      split
      · rename_i ho
        rw [ho, item?, hnone]
        exact .make []
      · exact .keep _
    · intro other ho
      rw [hput]
      apply if_neg ho

/-- What is opened is where the route leads then. -/
theorem locate (h : Opens tree base route disposition newFileMode after location) :
  after.locate base route = .ok location
  := by
  have hg := h.edited.grows
  cases h with
  | @existing trail old content hf hn hw => apply hg.locate (locate_eq_ok_iff.mpr ⟨_, hf, rfl⟩)
  | @made parent name hp hn hs hl hc =>
    obtain ⟨grown, hp', hloc⟩ := hg.findParent hp
    have hput := tree.node?_put_child name (.file newFileMode [])
      (isIn_of_findParent hp).node?_location (isDirectory_of_findParent hp)
    have hc' := node?_child (isIn_of_findParent hp') name
    rw [hloc, hput] at hc'
    have hloc' := locate_child hp' hn hs hl hc'.symm
    rw [hloc] at hloc'
    exact hloc'

/-- What is opened is a file, whose bytes are kept or removed. -/
theorem node? (h : Opens tree base route disposition newFileMode after location) :
  ∃ kept, after.node? location = some (.file kept (disposition.kept (tree.content location)))
  := by
  cases h with
  | @existing trail old content hf hn hw =>
    have hl := (isIn_of_find hf).node?_location
    rw [hn] at hl
    cases disposition with
    | append =>
      use old
      rw [Disposition.kept, FileTree.content, hl]
    | truncate =>
      use changedMode old
      apply tree.node?_put_self _ hl (ne_nil_of_node?_file hl)
  | @made parent name hp hn hs hl hc =>
    have hi := isIn_of_findParent hp
    use newFileMode
    rw [tree.node?_put_child name _ hi.node?_location (isDirectory_of_findParent hp),
      FileTree.content, node?_child hi, hc]
    cases disposition <;> rfl

end Opens

/-- A file that is opened and written to has what opening leaves of it and then what is written. -/
theorem lookup_extend {disposition : Disposition} {location : Location}
    (h : tree.openForWriting base route disposition newFileMode = .ok (after, location))
    (bytes : Bytes) :
  ∃ mode, (after.extend location bytes).lookup base route
    = some (.file mode (disposition.kept (tree.content location) ++ bytes))
  := by
  have ho := opens_of_openForWriting h
  obtain ⟨mode, hn⟩ := ho.node?
  obtain ⟨last, hn⟩ := exists_node?_extend hn bytes
  have hl := (edited_extend after location bytes).grows.locate ho.locate
  use last
  apply lookup_eq_some_iff.mpr ⟨location, hl, hn⟩

/-- A file that is opened and written to can be read if what was there could, if there was anything,
and then has what opening leaves of it and what is written. -/
theorem read_extend {disposition : Disposition} {location : Location}
    (h : tree.openForWriting base route disposition newFileMode = .ok (after, location))
    (hi : Item.isLegible (tree.item? location) = true) (bytes : Bytes) :
  (after.extend location bytes).read base route
    = .ok (disposition.kept (tree.content location) ++ bytes)
  := by
  have ho := opens_of_openForWriting h
  obtain ⟨mode, hn⟩ := ho.node?
  obtain ⟨last, hn⟩ := exists_node?_extend hn bytes
  have he := edited_extend after location bytes
  apply read_of_locate (he.grows.locate ho.locate) hn
  apply ((ho.edited.trans he).edit location).isLegible hi

/-- Whether opening the file that a route names for writing gives one at a location. -/
def Openable (tree : FileTree) (base : Location) (route : Bytes) (location : Location) : Prop :=
  ∃ opened, tree.openForWriting base route .truncate newFileMode = .ok (opened, location)

theorem openable_iff (disposition : Disposition) {location : Location} :
  tree.Openable base route location
    ↔ ∃ opened, tree.openForWriting base route disposition newFileMode = .ok (opened, location)
  := by
  constructor
  · rintro ⟨opened, h⟩
    apply (opens_of_openForWriting h).exists_openForWriting
  · rintro ⟨opened, h⟩
    apply (opens_of_openForWriting h).exists_openForWriting

/-- What can be opened is what the route leads to, if it leads anywhere. -/
theorem Openable.eq_of_locate {location found : Location}
    (h : tree.Openable base route location) (hl : tree.locate base route = .ok found) :
  found = location
  := by
  obtain ⟨opened, h⟩ := h
  have ho := opens_of_openForWriting h
  apply Except.ok.inj
  rw [← ho.locate]
  apply (ho.edited.grows.locate hl).symm

/-- What can be opened is nothing before if the route leads nowhere. -/
theorem Openable.item?_eq_none {location : Location} (h : tree.Openable base route location)
    (hn : tree.lookup base route = none) :
  tree.item? location = none
  := by
  obtain ⟨opened, h⟩ := h
  cases opens_of_openForWriting h with
  | existing hf =>
    rw [lookup, hf] at hn
    contradiction
  | made hp _ _ _ hc =>
    rw [item?, node?_child (isIn_of_findParent hp), hc]
    rfl

/-- A file where a route leads can be opened for writing if it can be written. -/
theorem openable_of_locate {location : Location} {mode : Nat} {content : Bytes}
    (hl : tree.locate base route = .ok location)
    (hi : tree.item? location = some (.file mode content))
    (hw : (Node.file mode content).isWritable = true) :
  tree.Openable base route location
  := by
  obtain ⟨trail, hf, rfl⟩ := locate_eq_ok_iff.mp hl
  have hn := item?_eq_file_iff.mp hi
  rw [(isIn_of_find hf).node?_location, Option.some_inj] at hn
  have ho : Opens tree base route .truncate newFileMode _ trail.location := .existing hf hn hw
  apply ho.exists_openForWriting

/-- A file that can be opened for writing can be opened in every tree that is edited from there. -/
theorem Edited.openable {locations : Set Location} {location : Location}
    (h : Edited locations tree after) (ho : tree.Openable base route location) :
  after.Openable base route location
  := by
  obtain ⟨opened, ho⟩ := ho
  cases opens_of_openForWriting ho with
  | @existing trail old content hf hn hw =>
    have hl := (isIn_of_find hf).node?_location
    rw [hn] at hl
    have hloc : after.locate base route = .ok trail.location :=
      h.grows.locate (locate_eq_ok_iff.mpr ⟨_, hf, rfl⟩)
    have he := h.edit trail.location
    rw [item?_eq_file_iff.mpr hl] at he
    generalize hi : after.item? trail.location = item at he
    cases he with
    | keep => apply openable_of_locate hloc hi hw
    | write _ _ new =>
      apply openable_of_locate hloc hi
      rw [Node.isWritable_changedMode]
      exact hw
  | @made parent name hp hn hs hl hc =>
    obtain ⟨grown, hp', hg⟩ := h.grows.findParent hp
    have hc' := node?_child (isIn_of_findParent hp') name
    have he := h.edit (parent.location ++ [name])
    rw [item?, node?_child (isIn_of_findParent hp), hc, Option.map_none, ← hg] at he
    rw [← hg]
    generalize hi : after.item? (grown.location ++ [name]) = item at he
    cases he with
    | keep =>
      rw [item?, hc', Option.map_eq_none_iff] at hi
      have ho' : Opens after base route .truncate newFileMode _ (grown.location ++ [name]) :=
        .made hp' hn hs hl hi
      apply ho'.exists_openForWriting
    | make content =>
      rw [item?_eq_file_iff.mp hi] at hc'
      apply openable_of_locate (locate_child hp' hn hs hl hc'.symm) hi rfl

end

end FileTree

end CommandShell
