import CommandShell.Proofs.Evolution
import CommandShell.Proofs.Redirection

/-!
# What a line reaches

A line edits no files but those at the paths that it names, which are targets of output operators
and files that the history is saved to.  Nothing is removed and no directory is made; a file that is
made has the mode of new files, and one that is written keeps its own but for the bits that give the
rights of its owner and of its group (`Shell.edited_runLine`).  Redirections that want nothing open
nothing.
-/

namespace CommandShell

/-! ### Redirections that want nothing -/

/-- Whether a redirection is one of output with the number of a stream and a target. -/
def Redirection.isSound (redirection : Redirection) : Bool :=
  redirection.operator.isOutput && redirection.selector.any Token.isSelector
    && redirection.target.isSome

/-- An outline without the redirections that are not sound. -/
def Outline.sound (outline : Outline) : Outline :=
  { outline with redirections := outline.redirections.filter Redirection.isSound }

/-- Whether two results have the same world and the same streams. -/
structure Redirected.Agree (state other : Redirected) : Prop where
  world_eq : state.world = other.world
  output_eq : state.output = other.output
  error_eq : state.error = other.error

/-- What is wanted of a redirection that is not sound is a fault. -/
theorem Redirection.exists_wanted_eq_error {redirection : Redirection}
    (h : redirection.isSound = false) :
  ∃ fault, redirection.wanted = .error fault
  := by
  cases hw : redirection.wanted with
  | error fault => exact ⟨fault, rfl⟩
  | ok wanted =>
    obtain ⟨ht, ho, selector, hs, hn⟩ := wanted_eq_ok hw
    simp [isSound, ht, ho, hs, hn] at h

namespace Redirected.Agree

variable {state other : Redirected}

/-- A redirection does the same in results that agree. -/
theorem perform (h : Agree state other) (directory : Text) (redirection : Redirection) :
  Agree (redirection.perform directory state) (redirection.perform directory other)
  := by
  obtain ⟨world, output, error, faults⟩ := state
  obtain ⟨rfl, rfl, rfl⟩ := h
  rw [Redirection.perform, Redirection.perform]
  split
  · exact ⟨rfl, rfl, rfl⟩
  · rename_i outlet target hw
    dsimp only
    split
    · exact ⟨rfl, rfl, rfl⟩
    · cases outlet <;> exact ⟨rfl, rfl, rfl⟩

/-- A redirection that is not sound changes nothing but the faults. -/
theorem perform_of_not_sound (h : Agree state other) (directory : Text)
    {redirection : Redirection} (hr : redirection.isSound = false) :
  Agree (redirection.perform directory state) other
  := by
  obtain ⟨fault, hw⟩ := Redirection.exists_wanted_eq_error hr
  rw [Redirection.perform, hw]
  exact ⟨h.world_eq, h.output_eq, h.error_eq⟩

theorem foldl_perform (h : Agree state other) (directory : Text)
    (redirections : List Redirection) :
  Agree (redirections.foldl (Redirection.perform directory) state)
    ((redirections.filter Redirection.isSound).foldl (Redirection.perform directory) other)
  := by
  induction redirections generalizing state other with
  | nil => exact h
  | cons redirection rest ih =>
    rw [List.foldl_cons]
    cases hr : redirection.isSound with
    | true =>
      rw [List.filter_cons_of_pos hr, List.foldl_cons]
      apply ih (h.perform directory redirection)
    | false =>
      rw [List.filter_cons_of_neg (by simp [hr])]
      apply ih (h.perform_of_not_sound directory hr)

end Redirected.Agree

/-! ### Lines -/

namespace Shell

/-- A line edits no files but those at the paths that it names.  Nothing is removed, no directory is
made, a file that is made has the mode of new files, and one that is written keeps its own but for
the bits that give the rights of its owner and of its group.  The redirections of its stages that
are not ones of output with the number of a stream and a target open nothing. -/
theorem edited_runLine {shell after : Shell} {line : Text} {exits : Bool}
    (h : shell.runLine line = .ok (after, exits)) :
  FileTree.Edited (after.world.located (shell.namedPaths line)) shell.world.tree after.world.tree
    ∧ ∀ stage ∈ stages line, ∀ (directory : Text) (output : Stream) (world : World),
      let outline := Outline.read none (Token.ofStage stage).tail
      Redirected.Agree (outline.performed directory output world)
        (outline.sound.performed directory output world)
  := by
  constructor
  · have hc := (evolves_runLine h Set.Subset.rfl).confined
    apply hc.edited.mono
    apply Set.union_subset
    · rintro location ⟨entry, he, -⟩
      contradiction
    · exact Set.Subset.rfl
  · intro stage _ directory output world
    apply Redirected.Agree.foldl_perform ⟨rfl, rfl, rfl⟩

/-- A shell in a directory with a file that is started with the rights of its owner. -/
def elevated : Shell where
  session := { directory := "/d".toList, search := .ofText [] }
  world := .within [(⟨Text.encode ['f'], by decide⟩, .file 0o4755 (Text.encode ['x']))]

/-- In an elevated shell a line edits no files but the one that it names. -/
theorem edited_runLine_elevated :
  ∃ after, elevated.runLine "echo hi > f".toList = .ok (after, false)
    ∧ FileTree.Edited (after.world.located (elevated.namedPaths "echo hi > f".toList))
        elevated.world.tree after.world.tree
  := ⟨_, rfl, (edited_runLine rfl).1⟩

/-- A file that exists does not always keep its mode: where it is started with the rights of its
owner, it no longer is after it is written. -/
theorem not_mode_kept :
  ¬ ∀ (shell after : Shell) (line : Text) (exits : Bool) (location : Location)
      (mode mode' : Nat) (old new : Bytes),
    shell.runLine line = .ok (after, exits) →
      shell.world.tree.item? location = some (.file mode old) →
        after.world.tree.item? location = some (.file mode' new) → mode' = mode
  := by
  intro h
  have hm : 0o755 = 0o4755 :=
    h elevated _ "echo hi > f".toList false [World.folder, ⟨Text.encode ['f'], by decide⟩]
      0o4755 0o755 (Text.encode ['x']) (Text.encode "hi\n".toList) rfl rfl rfl
  contradiction

end Shell

end CommandShell
