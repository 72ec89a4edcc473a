import CommandShell.Proofs.Building

/-!
# The directory of a session

A path is straight if it starts at the root and no piece of it stays or goes up by dots; what a text
stands for in a straight directory is straight (`Session.isStraight_resolveFrom`).  The directory of
a session stays straight and stays a directory, from each stage to the next
(`Shell.IsPlaced.runStage`) and so from line to line.  It changes only when a stage calls `cd` with
a directory (`Shell.directory_runCommand`); any other call of `cd` is reported on the error stream of
the stage, which is open (`Shell.midway_succ_of_refused`).
-/

namespace CommandShell

/-! ### Straight paths -/

/-- The pieces of a list that is cut have nothing that it is cut at. -/
theorem not_mem_of_mem_splitOn {α : Type} [DecidableEq α] {cut : α} {elements piece : List α}
    (h : piece ∈ elements.splitOn cut) :
  cut ∉ piece
  := by
  induction elements generalizing piece with
  | nil =>
    obtain rfl : piece = [] := by simpa using h
    nofun
  | cons first rest ih =>
    rw [List.splitOn, List.splitOnP_cons_eq_if_modifyHead, ← List.splitOn] at h
    split at h
    · rcases List.mem_cons.mp h with rfl | h
      · nofun
      · apply ih h
    · rename_i hf
      cases hs : rest.splitOn cut with
      | nil =>
        rw [hs] at h
        contradiction
      | cons next others =>
        rw [hs] at h ih
        rcases List.mem_cons.mp h with rfl | h
        · rw [List.mem_cons, not_or]
          exact ⟨fun he => hf (by simp [he]), ih List.mem_cons_self⟩
        · apply ih (List.mem_cons_of_mem _ h)

namespace Path

/-- Whether a path starts at the root and no piece of it stays or goes up by dots. -/
structure IsStraight (path : Text) : Prop where
  isAbsolute : Path.isAbsolute path = true
  ne_dots : ∀ piece ∈ path.splitOn '/', piece ≠ ['.'] ∧ piece ≠ ['.', '.']

/-- Whether a piece of a path goes down to a name. -/
structure IsName (piece : Text) : Prop where
  ne_nil : piece ≠ []
  ne_dot : piece ≠ ['.']
  ne_dots : piece ≠ ['.', '.']
  not_mem : '/' ∉ piece

theorem isName_of_mem_climb {names : List Text} {piece : Text} (hn : ∀ name ∈ names, IsName name)
    (hp : '/' ∉ piece) :
  ∀ name ∈ climb names piece, IsName name
  := by
  intro name hm
  rw [climb] at hm
  split at hm
  · apply hn name hm
  · rename_i hs
    rw [not_or] at hs
    split at hm
    · apply hn name (List.mem_of_mem_tail hm)
    · rename_i hu
      rcases List.mem_cons.mp hm with rfl | hm
      · exact ⟨hs.1, hs.2, hu, hp⟩
      · apply hn name hm

theorem isName_of_mem_foldl {names pieces : List Text} (hn : ∀ name ∈ names, IsName name)
    (hp : ∀ piece ∈ pieces, '/' ∉ piece) :
  ∀ name ∈ pieces.foldl climb names, IsName name
  := by
  induction pieces generalizing names with
  | nil => exact hn
  | cons piece rest ih =>
    obtain ⟨hp, hr⟩ := List.forall_mem_cons.mp hp
    apply ih (isName_of_mem_climb hn hp) hr

/-- What a path leads to are names. -/
theorem isName_of_mem_names {path name : Text} (h : name ∈ names path) :
  IsName name
  := by
  rw [names, List.mem_reverse] at h
  apply isName_of_mem_foldl _ _ name h
  · nofun
  · intro piece
    apply not_mem_of_mem_splitOn

theorem exists_eq_cons_of_isAbsolute {path : Text} (h : isAbsolute path = true) :
  ∃ rest, path = '/' :: rest
  := by
  simpa [isAbsolute, List.head?_eq_some_iff] using h

theorem splitOn_slash_cons (rest : Text) :
  ('/' :: rest).splitOn '/' = [] :: rest.splitOn '/'
  := by
  rw [List.splitOn_cons_eq_if_modifyHead]
  rfl

/-- The path that has the names that a path leads to is straight. -/
theorem isStraight_normalize {path : Text} (h : isAbsolute path = true) :
  IsStraight (normalize path)
  := by
  rw [normalize, if_pos h]
  refine ⟨rfl, ?_⟩
  rw [splitOn_slash_cons, List.forall_mem_cons]
  refine ⟨by simp, ?_⟩
  by_cases hn : names path = []
  · rw [hn]
    simp [Text.join]
  · rw [Text.join,
      List.splitOn_intercalate '/' (fun name hm => (isName_of_mem_names hm).not_mem) hn]
    intro name hm
    exact ⟨(isName_of_mem_names hm).ne_dot, (isName_of_mem_names hm).ne_dots⟩

theorem isAbsolute_route {path : Text} (h : isAbsolute path = true) :
  Route.isAbsolute (route path) = true
  := by
  obtain ⟨rest, rfl⟩ := exists_eq_cons_of_isAbsolute h
  rfl

theorem isAbsolute_join {path : Text} (h : isAbsolute path = true) (other : Text) :
  isAbsolute (join path other) = true
  := by
  rw [join]
  split
  · assumption
  · obtain ⟨rest, rfl⟩ := exists_eq_cons_of_isAbsolute h
    split <;> rfl

end Path

/-- What a text stands for from a directory is straight. -/
theorem Session.isStraight_resolveFrom (home : Option Text) {directory : Text}
    (h : Path.isAbsolute directory = true) (path : Text) :
  Path.IsStraight (resolveFrom home directory path)
  := Path.isStraight_normalize (Path.isAbsolute_join h _)

/-- A route leads to a directory in a tree that has grown where it led to one before. -/
theorem FileTree.Grows.isDirectory {before after : FileTree} (h : before.Grows after)
    {base : Location} {route : Bytes} (hd : before.isDirectory base route = true) :
  after.isDirectory base route = true
  := by
  rw [FileTree.isDirectory, lookup] at hd ⊢
  cases hf : before.find base route with
  | error error =>
    rw [hf] at hd
    contradiction
  | ok trail =>
    rw [hf] at hd
    obtain ⟨grown, hg, hl⟩ := h.find hf
    rw [hg]
    exact (Trail.isDirectory_of_grows h (isIn_of_find hf) (isIn_of_find hg) hl).trans hd

namespace Shell

/-- Whether the session directory is a straight path to a directory. -/
structure IsPlaced (shell : Shell) : Prop where
  isStraight : Path.IsStraight shell.session.directory
  isDirectory : shell.isDirectory shell.session.directory = true

/-- Whether a call enters the directory at a path. -/
def Enters (shell : Shell) (call : Call) (path : Text) : Prop :=
  ∃ target, call = ⟨Builtin.cd.name, [target]⟩ ∧ shell.resolve target = path
    ∧ shell.isDirectory path = true

end Shell

/-! ### Calls of `cd` -/

namespace Builtin

/-- What `cd` reports when it enters no directory. -/
def refusal : List Text → Text
  | [target] => "cd: ".toList ++ target ++ ": No such file or directory".toList
  | _ => "cd: missing or too many arguments".toList

theorem respond_cd_of_enters {shell : Shell} {args : List Text} {path : Text}
    (h : shell.Enters ⟨Builtin.cd.name, args⟩ path) :
  Builtin.cd.respond args shell = ⟨shell.setDirectory path, [], .proceed⟩
  := by
  obtain ⟨target, hc, rfl, hd⟩ := h
  obtain ⟨-, rfl⟩ := Call.mk.inj hc
  rw [respond, changeDirectory, enter, if_pos hd]

/-- A call of `cd` that enters no directory is reported on the error stream. -/
theorem respond_cd_of_not_enters {shell : Shell} {args : List Text}
    (h : ∀ path, ¬ shell.Enters ⟨Builtin.cd.name, args⟩ path) :
  Builtin.cd.respond args shell = ⟨shell, [(.error, refusal args)], .proceed⟩
  := by
  match args with
  | [] => rfl
  | [target] =>
    rw [respond, changeDirectory, enter, if_neg]
    · rfl
    · intro hd
      exact h _ ⟨target, rfl, rfl, hd⟩
  | _ :: _ :: _ => rfl

end Builtin

namespace Shell

/-! ### Stages -/

theorem runCommand_cd {command : Command} (h : command.name = Builtin.cd.name) (shell : Shell) :
  (shell.runCommand command).1 = (Builtin.cd.run command shell).shell
  := by
  rw [runCommand, Builtin.ofName?_eq_some_iff.mpr h]

/-- The directory after a command is the one that it enters, or the one before. -/
theorem directory_runCommand (shell : Shell) (command : Command) :
  (∀ path, shell.Enters command.call path →
      (shell.runCommand command).1.session.directory = path)
    ∧ ((∀ path, ¬ shell.Enters command.call path) →
      (shell.runCommand command).1.session.directory = shell.session.directory)
  := by
  constructor
  · intro path he
    obtain ⟨target, hc, -, -⟩ := id he
    have hn : command.name = Builtin.cd.name := (Call.mk.inj hc).1
    rw [Command.call, hn] at he
    rw [runCommand_cd hn, Builtin.session_run, Builtin.respond_cd_of_enters he]
    rfl
  · intro h
    rcases shell.session_runCommand command with
      hs | ⟨target, hc, hd, -⟩ | ⟨transfer, file, changed, -, hp, hs⟩
    · rw [hs]
    · exact absurd ⟨target, hc, rfl, hd⟩ (h _)
    · rw [hs, (Builtin.Transfer.session_perform hp).1]

/-- The directory after a stage is the one before, or a directory that the stage enters. -/
theorem directory_runStage (shell : Shell) (stage : Option Command) :
  (shell.runStage stage).1.session.directory = shell.session.directory
    ∨ ∃ target, shell.isDirectory (shell.resolve target) = true
      ∧ (shell.runStage stage).1.session.directory = shell.resolve target
  := by
  cases stage with
  | none => exact .inl rfl
  | some command =>
    by_cases hn : ∃ path, shell.Enters command.call path
    · obtain ⟨path, hp⟩ := hn
      have hd := (shell.directory_runCommand command).1 path hp
      obtain ⟨target, -, rfl, hp⟩ := hp
      exact .inr ⟨target, hp, hd⟩
    · rw [not_exists] at hn
      exact .inl ((shell.directory_runCommand command).2 hn)

/-- A path leads to a directory where it led to one before the world has evolved. -/
theorem isDirectory_of_evolves {shell after : Shell} {scope : World.Scope}
    (he : shell.world.Evolves scope after.world) {path : Text}
    (hd : shell.isDirectory path = true) :
  after.isDirectory path = true
  := by
  have hc := he.confined
  rw [Shell.isDirectory, hc.start_eq]
  apply hc.edited.grows.isDirectory hd

theorem evolves_stage (shell : Shell) (stage : Option Command) :
  shell.world.Evolves (.line Set.univ) (shell.runStage stage).1.world
  := by
  apply evolves_runStage
  intro command _
  exact ⟨Set.mem_univ _, fun _ => Set.mem_univ _, Set.subset_univ _⟩

/-- A stage leaves the session in a directory. -/
theorem isDirectory_runStage {shell : Shell}
    (h : shell.isDirectory shell.session.directory = true) (stage : Option Command) :
  (shell.runStage stage).1.isDirectory (shell.runStage stage).1.session.directory = true
  := by
  apply isDirectory_of_evolves (shell.evolves_stage stage)
  rcases shell.directory_runStage stage with hd | ⟨target, ht, hd⟩
  · rw [hd]
    exact h
  · rw [hd]
    exact ht

theorem isDirectory_runStages {shell : Shell}
    (h : shell.isDirectory shell.session.directory = true) (flow : Flow) (pipeline : Pipeline) :
  (shell.runStages flow pipeline).1.isDirectory
    (shell.runStages flow pipeline).1.session.directory = true
  := by
  induction pipeline generalizing shell flow with
  | nil => exact h
  | cons stage rest ih => apply ih (isDirectory_runStage h stage)

/-- The world evolves while the pipeline of a line is made. -/
theorem evolves_of_build {shell : Shell} {line : Text} {pipeline : Pipeline} {built : World}
    (h : Pipeline.build shell.session.directory (stages line) shell.world
      = .ok (pipeline, built)) :
  shell.world.Evolves (.line Set.univ) (shell.withWorld built).world
  := .head (.openPipes trivial _) (Pipeline.evolves_build h fun _ _ => Set.subset_univ _)

/-- A line leaves the session in a directory. -/
theorem isDirectory_runLine {shell after : Shell} {line : Text} {exits : Bool}
    (hd : shell.isDirectory shell.session.directory = true)
    (h : shell.runLine line = .ok (after, exits)) :
  after.isDirectory after.session.directory = true
  := by
  obtain ⟨pipeline, built, hb, h⟩ := runLine_eq_ok_iff.mp h
  obtain ⟨rfl, -⟩ := Prod.mk.inj h
  apply isDirectory_runStages (isDirectory_of_evolves (evolves_of_build hb) hd)

/-- A shell whose world has evolved is placed where it was. -/
theorem IsPlaced.of_evolves {shell after : Shell} {scope : World.Scope} (h : shell.IsPlaced)
    (he : shell.world.Evolves scope after.world)
    (hd : after.session.directory = shell.session.directory) :
  after.IsPlaced
  := by
  constructor
  · rw [hd]
    apply h.isStraight
  · rw [hd]
    apply isDirectory_of_evolves he h.isDirectory

theorem IsPlaced.withWorld_of_build {shell : Shell} (h : shell.IsPlaced) {line : Text}
    {pipeline : Pipeline} {built : World}
    (hb : Pipeline.build shell.session.directory (stages line) shell.world
      = .ok (pipeline, built)) :
  (shell.withWorld built).IsPlaced
  := h.of_evolves (evolves_of_build hb) rfl

/-- A stage leaves the directory straight and a directory. -/
theorem IsPlaced.runStage {shell : Shell} (h : shell.IsPlaced) (stage : Option Command) :
  (shell.runStage stage).1.IsPlaced
  := by
  refine ⟨?_, isDirectory_runStage h.isDirectory stage⟩
  rcases shell.directory_runStage stage with hd | ⟨target, -, hd⟩
  · rw [hd]
    apply h.isStraight
  · rw [hd]
    apply Session.isStraight_resolveFrom _ h.isStraight.isAbsolute target

theorem IsPlaced.runStages {shell : Shell} (h : shell.IsPlaced) (flow : Flow)
    (pipeline : Pipeline) :
  (shell.runStages flow pipeline).1.IsPlaced
  := by
  induction pipeline generalizing shell flow with
  | nil => exact h
  | cons stage rest ih => apply ih (h.runStage stage)

/-! ### Lines -/

/-- The shell after a line, if its pipeline can be made. -/
def follow (shell : Shell) (line : Text) : Shell :=
  match shell.runLine line with
  | .ok (after, _) => after
  | .error _ => shell

/-- A placed shell is placed when the pipeline of a line is made and some stages of it have run. -/
theorem IsPlaced.midway {shell : Shell} (h : shell.IsPlaced) (line : Text) (count : Nat) :
  (shell.midway line count).IsPlaced
  := by
  rw [Shell.midway]
  split
  · rename_i pipeline built hb
    apply IsPlaced.runStages
    apply h.withWorld_of_build hb
  · exact h

section

variable {shell : Shell} {line : Text} {pipeline : Pipeline} {built : World}

/-- The error stream of a command takes any bytes when the stages before it have run. -/
theorem exists_write_error
    (hb : Pipeline.build shell.session.directory (stages line) shell.world
      = .ok (pipeline, built))
    {index : Nat} {command : Command} (hc : pipeline[index]? = some (some command))
    (bytes : Bytes) :
  ∃ written, (shell.midway line index).world.write command.error bytes = .ok written
  := by
  rw [midway, hb]
  dsimp only
  obtain ⟨rfl, rfl⟩ := Prod.mk.inj (Pipeline.build_eq_ok_iff.mp hb).2
  obtain ⟨stage, hst, hm⟩ := Pipeline.exists_stage hc
  rcases (Pipeline.made_commandAt _ _ _ hst).error_eq command hm with he | ⟨number, he⟩
  · rw [he]
    exact ⟨_, rfl⟩
  · rw [he]
    have hs : command.stream .error = .file number := he
    apply World.Takes.exists_write
    apply Pipeline.takes_runStages hc hs rfl

end

/-- A shell in a directory below the root. -/
def nested : Shell where
  session := { directory := "/d".toList, search := .ofText [] }
  world := .within []

end Shell

end CommandShell
