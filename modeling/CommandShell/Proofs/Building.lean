import CommandShell.Interaction
import CommandShell.Proofs.Evolution
import CommandShell.Proofs.Wiring

/-!
# Pipelines that are built

A pipeline is built exactly if there is room for its pipes (`Pipeline.build_cases`).  Each end of a
pipe is then held by one command, or closed, and a stage whose pipe no command writes to has nothing
to read when it runs (`Pipeline.wired_wire`).  Where there is no room nothing changes.
-/

namespace CommandShell

/-- Whether a command reads or writes a stream. -/
def Command.Holds (command : Command) (stream : Stream) : Prop :=
  command.input = stream ∨ command.output = stream ∨ command.error = stream

namespace Pipeline

/-- The world in which the stage with an index is made a command when a pipeline is built. -/
def worldBefore (directory : Text) (stages : List Text) (world : World) (index : Nat) : World :=
  worldAt directory 0 stages (world.openPipes (stages.length - 1)) index

/-- What a pipeline that is built of stages is like, and the world after that. -/
structure Wired (directory : Text) (stages : List Text) (world : World) (pipeline : Pipeline)
    (after : World) : Prop where
  length_eq : pipeline.length = stages.length
  /-- Each stage is made a command, against the same directory, in the world that the one before it
  leaves. -/
  ofStage_eq : ∀ (index : Nat) (stage : Text), stages[index]? = some stage →
    let made := Command.ofStage directory stage (inputOf index)
      (outputOf index (index + 1 = stages.length)) (worldBefore directory stages world index)
    pipeline[index]? = some made.1 ∧ worldBefore directory stages world (index + 1) = made.2
  after_eq : after = worldBefore directory stages world stages.length
  /-- A stage has a command unless it is one of blanks. -/
  none_iff : ∀ (index : Nat) (stage : Text), stages[index]? = some stage →
    (pipeline[index]? = some none ↔ stage.isBlank = true)
  input_eq : ∀ (index : Nat) (command : Command), pipeline[index]? = some (some command) →
    command.input = inputOf index
  /-- The output is the last target that was opened for it, whose file is open. -/
  output_eq : ∀ (index : Nat) (stage : Text) (command : Command),
    stages[index]? = some stage → pipeline[index]? = some (some command) →
      let output := outputOf index (index + 1 = stages.length)
      match lastOpened .output (Command.targets directory stage output
          (worldBefore directory stages world index)) with
      | some (number, opened) =>
        command.output = .file number ∧ after.files.lookup number = some opened.file
      | none => command.output = output
  /-- An end of a pipe is held by the command that it was made for, or by none. -/
  index_eq : ∀ (index : Nat) (command : Command), pipeline[index]? = some (some command) →
    ∀ number, (command.Holds (.pipeReader number) → index = number + 1)
      ∧ (command.Holds (.pipeWriter number) → index = number)
  length_pipes : after.pipes.length = stages.length - 1
  /-- A pipe is empty, and its ends are open exactly if a command holds them. -/
  pipe_eq : ∀ (number : Nat) (pipe : Pipe), after.pipes[number]? = some pipe →
    pipe.content = []
      ∧ (pipe.readerOpen = true
        ↔ ∃ command : Command, some command ∈ pipeline ∧ command.Holds (.pipeReader number))
      ∧ (pipe.writerOpen = true
        ↔ ∃ command : Command, some command ∈ pipeline ∧ command.Holds (.pipeWriter number))
  /-- Where no command holds the writer of its pipe a stage finds nothing to read when the stages
  before it have run. -/
  drain_eq : ∀ (number : Nat) (command : Command),
    pipeline[number + 1]? = some (some command) →
      (∀ other : Command, some other ∈ pipeline → ¬ other.Holds (.pipeWriter number)) →
        ∀ (shell : Shell) (flow : Flow),
          let ran := ((shell.withWorld after).runStages flow (pipeline.take (number + 1))).1
          (ran.world.drain command.input).1 = []

section

variable {directory : Text} {stages : List Text} {world : World}

theorem getElem?_wire_zero (directory : Text) (world : World) {index : Nat} {stage : Text}
    (h : stages[index]? = some stage) :
  (wire directory 0 stages world).1[index]? = some (commandAt directory stages world index)
  := by
  have hc := (getElem?_wire directory 0 stages world h).1
  rw [commandAt, hc]
  rfl

/-- A command of a pipeline is that of the stage with its index. -/
theorem exists_stage {index : Nat} {command : Command}
    (h : (wire directory 0 stages world).1[index]? = some (some command)) :
  ∃ stage, stages[index]? = some stage ∧ commandAt directory stages world index = some command
  := by
  have hi : index < stages.length := by
    rw [← length_wire directory 0 stages world]
    apply (List.getElem?_eq_some_iff.mp h).1
  use stages[index], List.getElem?_eq_getElem hi
  rw [commandAt, h]
  rfl

theorem holds_pipeReader_iff {index : Nat} {command : Command}
    (h : (wire directory 0 stages world).1[index]? = some (some command)) (number : Nat) :
  command.Holds (.pipeReader number) ↔ index = number + 1
  := by
  obtain ⟨stage, hs, hc⟩ := exists_stage h
  have hm := made_commandAt directory stages world hs
  have ho : command.output ≠ .pipeReader number := by
    rw [hm.output_eq command hc]
    cases lastOpened .output (Command.targets directory stage
        (outputOf index (index + 1 = stages.length)) (worldAt directory 0 stages world index)) with
    | none => apply outputOf_ne_pipeReader
    | some target => nofun
  have he : command.error ≠ .pipeReader number := by
    rcases hm.error_eq command hc with he | ⟨other, he⟩ <;> simp [he]
  rw [Command.Holds, hm.input_eq command hc, inputOf_eq_iff]
  simp [ho, he]

theorem holds_pipeWriter_iff {index : Nat} {command : Command}
    (h : (wire directory 0 stages world).1[index]? = some (some command)) (number : Nat) :
  command.Holds (.pipeWriter number) ↔ index = number ∧ command.output = .pipeWriter number
  := by
  obtain ⟨stage, hs, hc⟩ := exists_stage h
  have hm := made_commandAt directory stages world hs
  have hi : command.input ≠ .pipeWriter number := by
    rw [hm.input_eq command hc]
    apply inputOf_ne_pipeWriter
  have ho : command.output = .pipeWriter number → index = number := by
    rw [hm.output_eq command hc]
    cases lastOpened .output (Command.targets directory stage
        (outputOf index (index + 1 = stages.length)) (worldAt directory 0 stages world index)) with
    | none => exact fun ho => ((outputOf_eq_iff _ _ _).mp ho).1
    | some target => nofun
  have he : command.error ≠ .pipeWriter number := by
    rcases hm.error_eq command hc with he | ⟨other, he⟩ <;> simp [he]
  simp only [Command.Holds, hi, he, or_false, false_or]
  exact ⟨fun h => ⟨ho h, h⟩, And.right⟩

end

/-- Some command of a pipeline holds the reader of a pipe exactly if the stage after the pipe has a
command. -/
theorem exists_holds_pipeReader_iff (directory : Text) (stages : List Text) (world : World)
    {number : Nat} (hn : number + 1 < stages.length) :
  (∃ command : Command, some command ∈ (wire directory 0 stages world).1
      ∧ command.Holds (.pipeReader number))
    ↔ (commandAt directory stages world (number + 1)).isSome = true
  := by
  have hs : stages[number + 1]? = some stages[number + 1] := List.getElem?_eq_getElem hn
  constructor
  · rintro ⟨command, hm, hh⟩
    obtain ⟨index, hc⟩ := List.mem_iff_getElem?.mp hm
    obtain rfl := (holds_pipeReader_iff hc number).mp hh
    rw [commandAt, hc]
    rfl
  · intro h
    obtain ⟨command, hc⟩ := Option.isSome_iff_exists.mp h
    have hw := getElem?_wire_zero directory world hs
    rw [hc] at hw
    use command, List.mem_of_getElem? hw
    apply (holds_pipeReader_iff hw number).mpr rfl

/-- Some command of a pipeline holds the writer of a pipe exactly if that of the stage before the
pipe writes to it. -/
theorem exists_holds_pipeWriter_iff (directory : Text) (stages : List Text) (world : World)
    {number : Nat} (hn : number + 1 < stages.length) :
  (∃ command : Command, some command ∈ (wire directory 0 stages world).1
      ∧ command.Holds (.pipeWriter number))
    ↔ (commandAt directory stages world number).any (·.output = .pipeWriter number) = true
  := by
  have hl : number < stages.length := Nat.lt_of_succ_lt hn
  have hs : stages[number]? = some stages[number] := List.getElem?_eq_getElem hl
  constructor
  · rintro ⟨command, hm, hh⟩
    obtain ⟨index, hc⟩ := List.mem_iff_getElem?.mp hm
    obtain ⟨rfl, ho⟩ := (holds_pipeWriter_iff hc number).mp hh
    rw [commandAt, hc]
    simpa using ho
  · intro h
    cases hc : commandAt directory stages world number with
    | none =>
      rw [hc] at h
      contradiction
    | some command =>
      have hw := getElem?_wire_zero directory world hs
      rw [hc] at hw h
      use command, List.mem_of_getElem? hw
      apply (holds_pipeWriter_iff hw number).mpr
      simpa using h

/-- The output of a command is the last target that its stage opened for it, which is open after all
stages are made commands, or the one that was given. -/
theorem output_commandAt {directory : Text} {stages : List Text} {world : World} {index : Nat}
    {stage : Text} {command : Command} (hs : stages[index]? = some stage)
    (hc : commandAt directory stages world index = some command) :
  let output := outputOf index (index + 1 = stages.length)
  match lastOpened .output (Command.targets directory stage output
      (worldAt directory 0 stages world index)) with
  | some (number, opened) =>
    command.output = .file number
      ∧ (wire directory 0 stages world).2.files.lookup number = some opened.file
  | none => command.output = output
  := by
  have hm := made_commandAt directory stages world hs
  have ho := hm.output_eq command hc
  dsimp only
  split
  · rename_i number opened hl
    obtain ⟨hn, hf⟩ := hm.number_lt command hc number opened hl
    have hi : index + 1 ≤ stages.length := (List.getElem?_eq_some_iff.mp hs).1
    rw [ho, hl, wire_snd, (lookup_worldAt _ _ _ hi (Nat.le_refl _)).2 number hn]
    exact ⟨rfl, hf⟩
  · rename_i hl
    rw [ho, hl]
    rfl

/-- After all stages are made commands a pipe is empty, and its ends are open exactly if a command
holds them. -/
theorem pipe_wire {directory : Text} {stages : List Text} {world : World}
    (hp : world.pipes = List.replicate (stages.length - 1) Pipe.new) {number : Nat} {pipe : Pipe}
    (h : (wire directory 0 stages world).2.pipes[number]? = some pipe) :
  pipe.content = []
    ∧ (pipe.readerOpen = true ↔ ∃ command : Command,
      some command ∈ (wire directory 0 stages world).1 ∧ command.Holds (.pipeReader number))
    ∧ (pipe.writerOpen = true ↔ ∃ command : Command,
      some command ∈ (wire directory 0 stages world).1 ∧ command.Holds (.pipeWriter number))
  := by
  have hn : number < stages.length - 1 := by
    have hb := (List.getElem?_eq_some_iff.mp h).1
    rwa [wire_snd, length_pipes_worldAt _ _ _ (Nat.le_refl _), hp, List.length_replicate] at hb
  have hs : number + 1 < stages.length := by omega
  have hnew : world.pipes[number]? = some Pipe.new := by
    rw [hp]
    apply List.getElem?_replicate_of_lt hn
  have hr : ¬ stages.length ≤ number + 1 := by omega
  have hw : ¬ stages.length ≤ number := by omega
  rw [wire_snd, pipes_worldAt directory stages _ (Nat.le_refl _) hs hnew, Option.some_inj] at h
  subst h
  rw [exists_holds_pipeReader_iff _ _ _ hs, exists_holds_pipeWriter_iff _ _ _ hs]
  simp [Pipe.content, hr, hw]

/-- A pipe whose writer no command of a pipeline holds goes on to yield nothing while stages run. -/
theorem drain_runStages {pipeline : Pipeline} {number : Nat}
    (h : ∀ command : Command, some command ∈ pipeline → ¬ command.Holds (.pipeWriter number))
    (shell : Shell) (flow : Flow) (hd : (shell.world.drain (.pipeReader number)).1 = []) :
  ((shell.runStages flow pipeline).1.world.drain (.pipeReader number)).1 = []
  := by
  have he : shell.world.Evolves ⟨{stream | stream ≠ .pipeWriter number}, Set.univ, False⟩
      (shell.runStages flow pipeline).1.world := by
    apply shell.evolves_runStages flow
    intro index command hc
    have hn := h command (List.mem_of_getElem? hc)
    refine ⟨fun hi => hn (.inl hi), ?_, Set.subset_univ _⟩
    rintro (_ | _) hw
    · exact hn (.inr (.inl hw))
    · exact hn (.inr (.inr hw))
  apply he.drain_eq_nil _ hd
  simp

/-- After all stages are made commands there is nothing to read from a pipe. -/
theorem drain_wire {directory : Text} {stages : List Text} {world : World}
    (hp : world.pipes = List.replicate (stages.length - 1) Pipe.new) (number : Nat) :
  ((wire directory 0 stages world).2.drain (.pipeReader number)).1 = []
  := by
  rw [World.drain_pipeReader_fst]
  cases h : (wire directory 0 stages world).2.pipes[number]? with
  | none => rfl
  | some pipe => apply (pipe_wire hp h).1

/-- A file that a command writes to is open for writing when the stages before it have run. -/
theorem takes_runStages {directory : Text} {stages : List Text} {world : World} {index : Nat}
    {command : Command} (hc : (wire directory 0 stages world).1[index]? = some (some command))
    {outlet : Outlet} {number : Nat} (hs : command.stream outlet = .file number) {shell : Shell}
    (hw : shell.world = (wire directory 0 stages world).2) (flow : Flow) :
  (shell.runStages flow ((wire directory 0 stages world).1.take index)).1.world.Takes number
  := by
  obtain ⟨stage, hst, hm⟩ := exists_stage hc
  have hi : index < stages.length := (List.getElem?_eq_some_iff.mp hst).1
  obtain ⟨hl, hn, file, hf, hwr⟩ := (made_commandAt _ _ _ hst).takes command hm outlet number hs
  have he : shell.world.Evolves ⟨{stream | stream ≠ .file number}, Set.univ, False⟩
      (shell.runStages flow ((wire directory 0 stages world).1.take index)).1.world := by
    apply shell.evolves_runStages flow
    intro other made ho
    rw [List.getElem?_take] at ho
    split at ho
    · rename_i hlt
      obtain ⟨earlier, hst', hm'⟩ := exists_stage ho
      have hmade := made_commandAt directory stages world hst'
      have hle : (worldAt directory 0 stages world (other + 1)).opened
          ≤ (worldAt directory 0 stages world index).opened :=
        (lookup_worldAt directory stages world hlt (Nat.le_of_lt hi)).1
      refine ⟨?_, ?_, Set.subset_univ _⟩
      · change made.input ≠ .file number
        rw [hmade.input_eq made hm']
        apply inputOf_ne_file
      · intro place hf
        have hb := (hmade.takes made hm' place number hf).2.1
        omega
    · contradiction
  refine ⟨file, ?_, hwr⟩
  rw [he.lookup_files id (by simp), hw, wire_snd,
    (lookup_worldAt _ _ _ hi (Nat.le_refl _)).2 number hn]
  exact hf

/-- The pipeline that is made of stages when there is room for its pipes is wired. -/
theorem wired_wire (directory : Text) (stages : List Text) (world : World) :
  let built := wire directory 0 stages (world.openPipes (stages.length - 1))
  Wired directory stages world built.1 built.2
  := by
  constructor
  · apply length_wire
  · intro index stage hs
    have hw := getElem?_wire directory 0 stages (world.openPipes (stages.length - 1)) hs
    rwa [Nat.zero_add] at hw
  · apply wire_snd
  · intro index stage hs
    rw [getElem?_wire_zero _ _ hs, Option.some_inj]
    apply (made_commandAt _ _ _ hs).none_iff
  · intro index command hc
    obtain ⟨stage, hs, hc⟩ := exists_stage hc
    apply (made_commandAt _ _ _ hs).input_eq command hc
  · intro index stage command hs hc
    rw [getElem?_wire_zero _ _ hs, Option.some_inj] at hc
    apply output_commandAt hs hc
  · intro index command hc number
    rw [holds_pipeReader_iff hc, holds_pipeWriter_iff hc]
    exact ⟨id, And.left⟩
  · rw [wire_snd, length_pipes_worldAt _ _ _ (Nat.le_refl _)]
    apply List.length_replicate
  · intro number pipe
    apply pipe_wire rfl
  · intro number command hc hw shell flow
    obtain ⟨stage, hs, hm⟩ := exists_stage hc
    have hi : command.input = .pipeReader number := (made_commandAt _ _ _ hs).input_eq command hm
    rw [hi]
    apply drain_runStages _ _ _ (drain_wire rfl number)
    intro other ho
    apply hw other (List.mem_of_mem_take ho)

/-- A pipeline is built exactly if there is room for its pipes, and then it is wired. -/
theorem build_cases (directory : Text) (stages : List Text) (world : World) :
  match build directory stages world with
  | .ok (pipeline, after) =>
    stages.length - 1 ≤ world.pipeRoom ∧ Wired directory stages world pipeline after
  | .error error => world.pipeRoom < stages.length - 1 ∧ error = .tooManyPipes
  := by
  rw [build]
  split
  · rename_i hb
    split at hb
    · contradiction
    · rename_i hr
      obtain ⟨rfl, rfl⟩ := Prod.mk.inj (Except.ok.inj hb)
      exact ⟨Nat.le_of_not_lt hr, wired_wire directory stages world⟩
  · rename_i hb
    split at hb
    · rename_i hr
      obtain rfl := Except.error.inj hb
      exact ⟨hr, rfl⟩
    · contradiction

end Pipeline

/-- A report on the error stream changes nothing else. -/
theorem World.tryWrite_stderr (world : World) (bytes : Bytes) :
  (world.tryWrite .stderr bytes).tree = world.tree
    ∧ (world.tryWrite .stderr bytes).files = world.files
  := by
  rw [tryWrite_stderr_eq]
  exact ⟨rfl, rfl⟩

/-- The stages of a line are wired before any of them runs, against the directory that the session
has then.  If there is no room for their pipes nothing is built; no file is opened then, the tree
stays as it was, and so does the session with the line that is recorded. -/
theorem build_wired (shell : Shell) (stages : List Text) :
  (match Pipeline.build shell.session.directory stages shell.world with
    | .ok (pipeline, after) =>
      stages.length - 1 ≤ shell.world.pipeRoom
        ∧ Pipeline.Wired shell.session.directory stages shell.world pipeline after
    | .error error => shell.world.pipeRoom < stages.length - 1 ∧ error = .tooManyPipes)
    ∧ ∀ (looks : Shell.Looks) (line : Text), line.isBlank = false →
      match Pipeline.build shell.session.directory (CommandShell.stages line) shell.world with
      | .ok (pipeline, after) =>
        shell.obey looks line = ((shell.record line).withWorld after).runPipeline pipeline
      | .error _ =>
        let after := (shell.obey looks line).1
        after.session = (shell.record line).session
          ∧ after.world.tree = shell.world.tree
          ∧ after.world.files = shell.world.files
  := by
  refine ⟨Pipeline.build_cases shell.session.directory stages shell.world, ?_⟩
  intro looks line hl
  have hr : Pipeline.build (shell.record line).session.directory (CommandShell.stages line)
      (shell.record line).world
        = Pipeline.build shell.session.directory (CommandShell.stages line) shell.world := rfl
  rw [Shell.obey, hl, Shell.runLine, hr]
  cases Pipeline.build shell.session.directory (CommandShell.stages line) shell.world with
  | ok built => rfl
  | error error => exact ⟨rfl, World.tryWrite_stderr _ _⟩

end CommandShell
