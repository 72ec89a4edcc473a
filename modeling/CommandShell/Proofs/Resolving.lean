import CommandShell.Proofs.Evolution
import CommandShell.SearchPath

/-!
# Resolving in an edited tree

Edits make no directories, so a route that leads to a place in an edited tree led to it before if
there was anything (`FileTree.Edited.locate_of_exists`).  The same routes lead to directories
(`FileTree.Edited.isDirectory_eq`).  Files that are made have no execute bit, and those that are
written keep theirs, so the same routes lead to executable files too
(`FileTree.Edited.isExecutable_eq`) and a name is resolved to the same path
(`SearchPath.resolve_of_edited`).
-/

namespace CommandShell

section

variable {locations : Set Location} {before after : FileTree}

/-- Edits make no directories. -/
theorem FileTree.Edited.exists_node? (h : Edited locations before after) {location : Location}
    {node : Node} (hn : after.node? location = some node) (hd : node.isDirectory = true) :
  ∃ old, before.node? location = some old
  := by
  have he := h.edit location
  cases hb : before.node? location with
  | some old => exact ⟨old, rfl⟩
  | none =>
    rw [item?, item?, hb, hn] at he
    cases node with
    | file mode content => contradiction
    | directory entries => cases he

namespace Trail

variable {trail grown : Trail}

/-- What leads on in an edited tree to where there was something led there before. -/
theorem step_of_edited (h : FileTree.Edited locations before after) (ht : trail.IsIn before)
    (hg : grown.IsIn after) (hl : grown.location = trail.location) {taken : Step} {last : Trail}
    (hs : grown.step taken = .ok last) {old : Node} (ho : before.node? last.location = some old) :
  ∃ next, trail.step taken = .ok next ∧ next.location = last.location
  := by
  obtain ⟨hd, hs⟩ := leads_of_step hs
  have hd' : trail.node.isDirectory = true := (isDirectory_of_grows h.grows ht hg hl).symm.trans hd
  unfold step
  rw [if_pos hd']
  cases hs with
  | stay => exact ⟨_, rfl, hl.symm⟩
  | up =>
    refine ⟨_, rfl, ?_⟩
    rw [location_up, location_up, hl]
  | @down name last hs =>
    obtain ⟨hn, -, -⟩ := down_eq_ok hs
    have hl' := location_down hs
    rw [hl', hl, FileTree.node?_child ht] at ho
    have hw : trail.down name = .ok ⟨old, (name, trail.node) :: trail.above⟩ := by
      rw [down, if_neg (Nat.not_lt.mpr hn), ho]
    refine ⟨_, hw, ?_⟩
    rw [location_down hw, hl', hl]

theorem walk_of_edited (h : FileTree.Edited locations before after) (ht : trail.IsIn before)
    (hg : grown.IsIn after) (hl : grown.location = trail.location) {steps : List Step}
    {last : Trail} (hs : grown.walk steps = .ok last) {old : Node}
    (ho : before.node? last.location = some old) :
  ∃ next, trail.walk steps = .ok next ∧ next.location = last.location
  := by
  induction steps generalizing trail grown with
  | nil =>
    obtain rfl := Except.ok.inj hs
    exact ⟨_, rfl, hl.symm⟩
  | cons first rest ih =>
    obtain ⟨middle, hf, hs⟩ := walk_cons_eq_ok_iff.mp hs
    -- What the walk goes on from is a directory, so it was there before.
    have hm : ∃ node, before.node? middle.location = some node := by
      cases rest with
      | nil =>
        obtain rfl := Except.ok.inj hs
        exact ⟨old, ho⟩
      | cons second rest =>
        obtain ⟨_, hs, -⟩ := walk_cons_eq_ok_iff.mp hs
        apply h.exists_node? (hg.step hf).node?_location (leads_of_step hs).1
    obtain ⟨node, hm⟩ := hm
    obtain ⟨next, hn, hl⟩ := step_of_edited h ht hg hl hf hm
    obtain ⟨final, hw, hl⟩ := ih (ht.step hn) (hg.step hf) hl.symm hs
    exact ⟨final, walk_cons_eq_ok_iff.mpr ⟨next, hn, hw⟩, hl⟩

end Trail

/-- A file that is written keeps its execute bits. -/
theorem Node.isExecutable_changedMode (mode : Nat) (old new : Bytes) :
  (Node.file (changedMode mode) new).isExecutable = (Node.file mode old).isExecutable
  := by
  have h : ∀ bit < 7, (changedMode mode).testBit bit = mode.testBit bit := by
    intro bit hb
    rw [testBit_changedMode]
    have ho : bit ≠ 11 := by omega
    have hg : bit ≠ 10 := by omega
    simp [ho, hg]
  rw [isExecutable, isExecutable, h 6 (by decide), h 3 (by decide), h 0 (by decide)]

/-- Whether what is seen at a location is a file with an execute bit. -/
def Item.isExecutable : Option Item → Bool
  | some (.file mode content) => (Node.file mode content).isExecutable
  | some .directory | none => false

/-- Whether what is seen at a location is a directory. -/
def Item.isDirectory : Option Item → Bool
  | some .directory => true
  | some (.file _ _) | none => false

theorem Item.Edit.isExecutable_eq {first second : Option Item} (h : Item.Edit first second) :
  Item.isExecutable second = Item.isExecutable first
  := by
  cases h with
  | keep => rfl
  | make content => rfl
  | write mode old new => exact Node.isExecutable_changedMode mode old new

theorem Item.Edit.isDirectory_eq {first second : Option Item} (h : Item.Edit first second) :
  Item.isDirectory second = Item.isDirectory first
  := by
  cases h <;> rfl

namespace FileTree

variable (tree : FileTree) (base : Location) (route : Bytes)

/-- What is seen where a route leads to. -/
def sight (base : Location) (route : Bytes) : Option Item :=
  (tree.lookup base route).map Node.item

theorem sight_eq_bind :
  tree.sight base route = (tree.locate base route).toOption.bind tree.item?
  := by
  rw [sight, lookup, locate]
  cases hf : tree.find base route with
  | error error => rfl
  | ok trail =>
    have hn := (isIn_of_find hf).node?_location
    simp [Except.toOption, Except.map, item?, hn]

theorem isExecutable_eq_sight :
  tree.isExecutable base route = Item.isExecutable (tree.sight base route)
  := by
  rw [isExecutable, sight]
  rcases tree.lookup base route with - | (_ | _) <;> rfl

theorem isDirectory_eq_sight :
  tree.isDirectory base route = Item.isDirectory (tree.sight base route)
  := by
  rw [isDirectory, sight]
  rcases tree.lookup base route with - | (_ | _) <;> rfl

end FileTree

namespace FileTree.Edited

variable {base : Location} {route : Bytes}

/-- A route led before to where it leads after edits, if there was anything. -/
theorem locate_of_exists (h : Edited locations before after) {location : Location} {old : Node}
    (hl : after.locate base route = .ok location) (ho : before.node? location = some old) :
  before.locate base route = .ok location
  := by
  obtain ⟨grown, hf, rfl⟩ := locate_eq_ok_iff.mp hl
  obtain ⟨hc, hw⟩ := find_eq_ok_iff.mp hf
  have ha : after.trail.IsIn after := .root
  have hb : before.trail.IsIn before := .root
  obtain ⟨trail, hw, hl⟩ := Trail.walk_of_edited h hb ha rfl hw ho
  exact locate_eq_ok_iff.mpr ⟨trail, find_eq_ok_iff.mpr ⟨hc, hw⟩, hl⟩

/-- What is seen where a route leads to is edited like what is seen at a location. -/
theorem edit_sight (h : Edited locations before after) :
  Item.Edit (before.sight base route) (after.sight base route)
  := by
  rw [sight_eq_bind, sight_eq_bind]
  cases hb : before.locate base route with
  | ok location =>
    rw [h.grows.locate hb]
    apply h.edit location
  | error error =>
    cases ha : after.locate base route with
    | error error => exact .keep none
    | ok location =>
      have he := h.edit location
      cases ho : before.node? location with
      | some old =>
        rw [h.locate_of_exists ha ho] at hb
        contradiction
      | none =>
        rw [item?, ho] at he
        exact he

/-- Routes lead to executable files in an edited tree exactly if they did before. -/
theorem isExecutable_eq (h : Edited locations before after) :
  after.isExecutable base route = before.isExecutable base route
  := by
  rw [isExecutable_eq_sight, isExecutable_eq_sight, h.edit_sight.isExecutable_eq]

/-- Routes lead to directories in an edited tree exactly if they did before. -/
theorem isDirectory_eq (h : Edited locations before after) :
  after.isDirectory base route = before.isDirectory base route
  := by
  rw [isDirectory_eq_sight, isDirectory_eq_sight, h.edit_sight.isDirectory_eq]

end FileTree.Edited

/-- A name is resolved to the same path in an edited tree. -/
theorem SearchPath.resolve_of_edited (h : FileTree.Edited locations before after)
    (search : SearchPath) (base : Location) (name : Text) :
  search.resolve after base name = search.resolve before base name
  := by
  rw [resolve, resolve]
  simp only [h.isExecutable_eq]

end

end CommandShell
