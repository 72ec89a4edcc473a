import CommandShell.FileTree.Access
import Mathlib.Tactic.Use

/-!
# Growing file trees

A tree grows if all that is in it stays where it is, a file or a directory as before
(`FileTree.Grows`).  In a tree that has grown every route leads where it led before
(`FileTree.Grows.find`).  Opening the file that a route leads to opens what is there
(`FileTree.openForWriting_of_find`).
-/

namespace CommandShell

/-- What follows a computation succeeds where the computation does. -/
theorem bind_eq_ok_iff {ε α β : Type} {first : Except ε α} {second : α → Except ε β} {b : β} :
  first >>= second = .ok b ↔ ∃ a, first = .ok a ∧ second a = .ok b
  := by
  cases first with
  | error error => simp [bind, Except.bind]
  | ok a => simp [bind, Except.bind]

namespace FileTree

/-- Whether all nodes of a tree are in another one, directories as directories and files as
files. -/
def Grows (before after : FileTree) : Prop :=
  ∀ location node, before.node? location = some node →
    ∃ grown, after.node? location = some grown ∧ grown.isDirectory = node.isDirectory

end FileTree

/-! ### Trails -/

namespace Trail

/-- Whether a trail is one in a tree, from its root. -/
inductive IsIn (tree : FileTree) : Trail → Prop where
  | root : IsIn tree ⟨tree.root, []⟩
  | down {name : Name} {parent node : Node} {above : List (Name × Node)}
      (h : IsIn tree ⟨parent, above⟩) (hc : parent.child? name = some node) :
      IsIn tree ⟨node, (name, parent) :: above⟩

/-- A trail leads to the node at its location. -/
theorem IsIn.node?_location {tree : FileTree} {trail : Trail} (h : trail.IsIn tree) :
  tree.node? trail.location = some trail.node
  := by
  induction h with
  | root => rfl
  | down h hc ih =>
    rw [FileTree.node?, location] at ih ⊢
    rw [List.map_cons, List.reverse_cons, Node.at?_append, ih, Option.bind_some, Node.at?_cons, hc]
    rfl

theorem location_up (trail : Trail) :
  trail.up.location = trail.location.dropLast
  := by
  obtain ⟨node, _ | ⟨⟨name, parent⟩, above⟩⟩ := trail
  · rfl
  · simp [up, location]

/-- A step down goes to a child. -/
theorem down_eq_ok {trail next : Trail} {name : Name} (h : trail.down name = .ok next) :
  name.bytes.length ≤ maxNameSize
    ∧ trail.node.child? name = some next.node
    ∧ next.above = (name, trail.node) :: trail.above
  := by
  rw [down] at h
  split at h
  · contradiction
  · rename_i hs
    split at h
    · rename_i node hc
      obtain rfl := Except.ok.inj h
      exact ⟨Nat.le_of_not_lt hs, hc, rfl⟩
    · contradiction

/-- Where a step leads from a directory. -/
inductive Leads (trail : Trail) : Step → Trail → Prop where
  | stay : Leads trail .stay trail
  | up : Leads trail .up trail.up
  | down {name : Name} {next : Trail} (h : trail.down name = .ok next) :
      Leads trail (.down name) next

/-- A step is taken in a directory. -/
theorem leads_of_step {trail next : Trail} {taken : Step} (h : trail.step taken = .ok next) :
  trail.node.isDirectory = true ∧ trail.Leads taken next
  := by
  unfold step at h
  split at h
  · rename_i hd
    refine ⟨hd, ?_⟩
    cases taken with
    | stay =>
      obtain rfl := Except.ok.inj h
      apply Leads.stay
    | up =>
      obtain rfl := Except.ok.inj h
      apply Leads.up
    | down name => apply Leads.down h
  · contradiction

/-- A walk takes its first step and then the others. -/
theorem walk_cons_eq_ok_iff {trail last : Trail} {first : Step} {rest : List Step} :
  trail.walk (first :: rest) = .ok last
    ↔ ∃ next, trail.step first = .ok next ∧ next.walk rest = .ok last
  := by
  rw [walk, bind_eq_ok_iff]

theorem walk_append (trail : Trail) (first second : List Step) :
  trail.walk (first ++ second) = trail.walk first >>= fun next => next.walk second
  := by
  induction first generalizing trail with
  | nil => rfl
  | cons taken rest ih =>
    rw [List.cons_append, walk, walk, bind_assoc]
    congr 1
    funext next
    apply ih

theorem walk_append_eq_ok_iff {trail last : Trail} {first second : List Step} :
  trail.walk (first ++ second) = .ok last
    ↔ ∃ next, trail.walk first = .ok next ∧ next.walk second = .ok last
  := by
  rw [walk_append, bind_eq_ok_iff]

namespace IsIn

variable {tree : FileTree} {trail next : Trail}

theorem step (h : trail.IsIn tree) {taken : Step} (hs : trail.step taken = .ok next) :
  next.IsIn tree
  := by
  obtain ⟨-, hs⟩ := leads_of_step hs
  cases hs with
  | stay => apply h
  | up =>
    cases h with
    | root => apply root
    | down h hc => apply h
  | down hs =>
    obtain ⟨-, hc, ha⟩ := down_eq_ok hs
    obtain ⟨node, above⟩ := next
    subst ha
    apply down h hc

theorem walk (h : trail.IsIn tree) {steps : List Step} (hs : trail.walk steps = .ok next) :
  next.IsIn tree
  := by
  induction steps generalizing trail with
  | nil =>
    obtain rfl := Except.ok.inj hs
    apply h
  | cons first rest ih =>
    obtain ⟨middle, hf, hs⟩ := walk_cons_eq_ok_iff.mp hs
    apply ih (h.step hf) hs

/-- A step up from a directory leads to a directory. -/
theorem isDirectory_up (h : trail.IsIn tree) (hd : trail.node.isDirectory = true) :
  trail.up.node.isDirectory = true
  := by
  cases h with
  | root => apply hd
  | @down name parent node above h hc =>
    cases parent with
    | directory entries => rfl
    | file mode content => simp [Node.child?] at hc

end IsIn

theorem location_down {trail next : Trail} {name : Name} (h : trail.down name = .ok next) :
  next.location = trail.location ++ [name]
  := by
  obtain ⟨-, -, ha⟩ := down_eq_ok h
  rw [location, ha]
  simp [location]

section

variable {before after : FileTree} {trail grown : Trail}

/-- Trails to the same place in a tree and in one that has grown lead to nodes of the same kind. -/
theorem isDirectory_of_grows (h : before.Grows after) (ht : trail.IsIn before)
    (hg : grown.IsIn after) (hl : grown.location = trail.location) :
  grown.node.isDirectory = trail.node.isDirectory
  := by
  obtain ⟨node, hn, hd⟩ := h _ _ ht.node?_location
  rw [← hl, hg.node?_location, Option.some_inj] at hn
  rw [hn, hd]

/-- What leads on from a place in a tree leads on in the same way from that place in a tree that has
grown. -/
theorem step_of_grows (h : before.Grows after) (ht : trail.IsIn before) (hg : grown.IsIn after)
    (hl : grown.location = trail.location) {taken : Step} {next : Trail}
    (hs : trail.step taken = .ok next) :
  ∃ last, grown.step taken = .ok last ∧ last.location = next.location
  := by
  obtain ⟨hd, hs'⟩ := leads_of_step hs
  have hd' : grown.node.isDirectory = true := (isDirectory_of_grows h ht hg hl).trans hd
  unfold step
  rw [if_pos hd']
  cases hs' with
  | stay => exact ⟨_, rfl, hl⟩
  | up =>
    refine ⟨_, rfl, ?_⟩
    rw [location_up, location_up, hl]
  | @down name next hs' =>
    obtain ⟨hn, -, -⟩ := down_eq_ok hs'
    have hl' := location_down hs'
    obtain ⟨node, hc, -⟩ := h _ _ (ht.step hs).node?_location
    rw [hl', ← hl, FileTree.node?, Node.at?_append, ← FileTree.node?, hg.node?_location] at hc
    have hc : grown.node.child? name = some node := by simpa using hc
    have hw : grown.down name = .ok ⟨node, (name, grown.node) :: grown.above⟩ := by
      rw [down, if_neg (Nat.not_lt.mpr hn), hc]
    refine ⟨_, hw, ?_⟩
    rw [location_down hw, hl', hl]

theorem walk_of_grows (h : before.Grows after) (ht : trail.IsIn before) (hg : grown.IsIn after)
    (hl : grown.location = trail.location) {steps : List Step} {next : Trail}
    (hs : trail.walk steps = .ok next) :
  ∃ last, grown.walk steps = .ok last ∧ last.location = next.location
  := by
  induction steps generalizing trail grown with
  | nil =>
    obtain rfl := Except.ok.inj hs
    exact ⟨_, rfl, hl⟩
  | cons first rest ih =>
    obtain ⟨middle, hf, hs⟩ := walk_cons_eq_ok_iff.mp hs
    obtain ⟨other, hf', hl'⟩ := step_of_grows h ht hg hl hf
    obtain ⟨last, hw, hl''⟩ := ih (ht.step hf) (hg.step hf') hl' hs
    exact ⟨last, walk_cons_eq_ok_iff.mpr ⟨other, hf', hw⟩, hl''⟩

end

end Trail

/-! ### Routes -/

namespace FileTree

variable {tree : FileTree} {base : Location} {route : Bytes} {trail : Trail}

theorem find_eq_ok_iff :
  tree.find base route = .ok trail
    ↔ Route.check route = .ok ()
      ∧ tree.trail.walk ((Route.origin base route).map Step.down ++ Route.steps route) = .ok trail
  := by
  constructor
  · intro h
    obtain ⟨_, hc, hw⟩ := bind_eq_ok_iff.mp h
    exact ⟨hc, hw⟩
  · rintro ⟨hc, hw⟩
    apply bind_eq_ok_iff.mpr ⟨(), hc, hw⟩

theorem isIn_of_find (h : tree.find base route = .ok trail) :
  trail.IsIn tree
  := Trail.IsIn.root.walk (find_eq_ok_iff.mp h).2

theorem isIn_of_findParent (h : tree.findParent base route = .ok trail) :
  trail.IsIn tree
  := by
  obtain ⟨_, -, h⟩ := bind_eq_ok_iff.mp h
  obtain ⟨parent, hw, h⟩ := bind_eq_ok_iff.mp h
  split at h
  · obtain rfl := Except.ok.inj h
    apply Trail.IsIn.root.walk hw
  · contradiction

/-- A route leads to the same place in a tree that has grown. -/
theorem Grows.find {after : FileTree} (h : tree.Grows after)
    (hf : tree.find base route = .ok trail) :
  ∃ grown, after.find base route = .ok grown ∧ grown.location = trail.location
  := by
  obtain ⟨hc, hw⟩ := find_eq_ok_iff.mp hf
  have ha : after.trail.IsIn after := .root
  obtain ⟨grown, hw', hl⟩ := Trail.walk_of_grows h .root ha rfl hw
  exact ⟨grown, find_eq_ok_iff.mpr ⟨hc, hw'⟩, hl⟩

end FileTree

namespace Route

/-- A route whose last step goes down to a name does not end with a slash. -/
theorem getLast?_ne_slash {route : Bytes} {name : Name}
    (h : (steps route).getLast? = some (.down name)) :
  route.getLast? ≠ some slash
  := by
  intro hl
  obtain ⟨before, rfl⟩ := List.getLast?_eq_some_iff.mp hl
  have hs : (before ++ [slash]).splitOn slash = before.splitOn slash ++ [[]] :=
    List.splitOnP_append_cons before [] (by simp)
  rw [steps, hs, List.map_append] at h
  simp [Step.ofPiece, isProperName] at h

/-- A route that does not end with a slash has none to trim. -/
theorem trimSlashes_eq {route : Bytes} (h : route.getLast? ≠ some slash) :
  trimSlashes route = route
  := by
  rw [trimSlashes, List.reverse_eq_iff]
  rw [← List.head?_reverse] at h
  cases hr : route.reverse with
  | nil => rfl
  | cons first rest =>
    rw [hr, List.head?_cons, ne_eq, Option.some_inj] at h
    rw [List.dropWhile_cons_of_neg (by simpa using h)]

end Route

namespace FileTree

variable {tree : FileTree} {base : Location} {route : Bytes} {trail : Trail}

/-- A file that a route leads to is reached by a last step down from a directory. -/
theorem exists_parent (h : tree.find base route = .ok trail) (hf : trail.node.isDirectory = false) :
  ∃ name parent, (Route.steps route).getLast? = some (.down name)
    ∧ tree.walk (Route.origin base route) (Route.steps route).dropLast = .ok parent
    ∧ parent.node.isDirectory = true
    ∧ parent.down name = .ok trail
  := by
  obtain ⟨hc, hw⟩ := find_eq_ok_iff.mp h
  cases hl : (Route.steps route).getLast? with
  | none =>
    rw [List.getLast?_eq_none_iff, Route.steps, List.map_eq_nil_iff] at hl
    apply absurd hl (List.splitOnP_ne_nil _ _)
  | some taken =>
    obtain ⟨before, hb⟩ := List.getLast?_eq_some_iff.mp hl
    rw [hb, ← List.append_assoc, Trail.walk_append_eq_ok_iff] at hw
    obtain ⟨parent, hp, hw⟩ := hw
    obtain ⟨last, hs, hw⟩ := Trail.walk_cons_eq_ok_iff.mp hw
    obtain rfl := Except.ok.inj hw
    obtain ⟨hd, hs⟩ := Trail.leads_of_step hs
    have hi : parent.IsIn tree := Trail.IsIn.root.walk hp
    cases hs with
    | stay =>
      rw [hd] at hf
      contradiction
    | up =>
      rw [hi.isDirectory_up hd] at hf
      contradiction
    | @down name last hs =>
      refine ⟨name, parent, rfl, ?_, hd, hs⟩
      rw [hb, List.dropLast_concat]
      apply hp

/-- To open a file that a route leads to is to open what is there. -/
theorem openForWriting_of_find (h : tree.find base route = .ok trail)
    (hf : trail.node.isDirectory = false) (disposition : Disposition) (mode : Nat) :
  tree.openForWriting base route disposition mode
    = tree.openExisting trail.location disposition trail.node
  := by
  obtain ⟨name, parent, hl, hp, hd, hs⟩ := exists_parent h hf
  have hn := Route.getLast?_ne_slash hl
  have ht := Route.trimSlashes_eq hn
  have hfp : tree.findParent base route = .ok parent := by
    rw [findParent, (find_eq_ok_iff.mp h).1, Route.parentSteps, ht, hp]
    simp [bind, Except.bind, hd]
  obtain ⟨hsize, hc, -⟩ := Trail.down_eq_ok hs
  have hname : Route.name? route = some name := by
    rw [Route.name?, ht, hl]
    rfl
  rw [openForWriting, hfp]
  simp only [bind, Except.bind, hname, if_neg hn, openName, if_neg (Nat.not_lt.mpr hsize), hc,
    Trail.location_down hs]

/-! ### Opening for writing -/

theorem openExisting_file (tree : FileTree) (location : Location) (disposition : Disposition)
    (mode : Nat) (content : Bytes) :
  tree.openExisting location disposition (.file mode content)
    = if (Node.file mode content).isWritable then
        .ok (match disposition with
          | .truncate => tree.put location (.file (changedMode mode) [])
          | .append => tree, location)
      else .error .permissionDenied
  := by
  cases disposition <;> rfl

end FileTree

end CommandShell
