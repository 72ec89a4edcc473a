import CommandShell.Proofs.Directory
import CommandShell.Proofs.Diversion
import CommandShell.Proofs.Resolving

/-!
# Programs that copy their input

A line that is piped into a program that copies its input does the same as the line itself: the
bytes that the pipe has taken come to the output in the end, and all but the pipes is as it is
without the program (`Shell.runLine_copied`).  The line must leave the program as it is
(`Shell.CopiesAt.of_runLine`), and it must not end with a bar that cuts
(`Shell.not_runLine_copied`).
-/

namespace CommandShell

theorem FileTree.find_of_isAbsolute (tree : FileTree) {route : Bytes}
    (h : Route.isAbsolute route = true) (base other : Location) :
  tree.find base route = tree.find other route
  := by
  rw [find, find, Route.origin, Route.origin, if_pos h, if_pos h]

namespace World

/-- How `cat` is started without arguments. -/
def copyingStart (directory : Location) : Start :=
  ⟨Text.encode "cat".toList, [], directory⟩

theorem held_of_isHeld {world : World} {location : Location} (h : world.isHeld location = true) :
  location ∈ world.held
  := by
  obtain ⟨entry, he, h⟩ := List.any_eq_true.mp h
  rw [Bool.and_eq_true, decide_eq_true_eq] at h
  exact ⟨entry, he, h.2⟩

/-- What is written as one message to the output is received by it. -/
theorem speak_stdout (world : World) {streams : Outlet → Stream}
    (h : streams .output = .stdout) (bytes : Bytes) :
  (world.speak streams [(.output, bytes)]).1 = world.withOutput (world.output.write bytes)
  := by
  rw [speak, List.map_singleton, h, ← tryWrite_stdout, gather, gather, deliver, tryWrite]
  cases world.writeAll .stdout bytes <;> rfl

/-- The program that copies brings back to the output what has been diverted. -/
theorem IsDiverted.run_copy {number : Nat} {before : Sink} {pipe : Pipe} {world other : World}
    (h : IsDiverted number before pipe world other) (directory : Location) :
  ∃ pipes, Program.copy.run (copyingStart directory) (.pipeReader number)
    (Command.copying number).stream other = { world with pipes }
  := by
  obtain ⟨rfl, -, hr, rfl⟩ := h
  have hd : ({ world with output := before, pipes := world.pipes ++ [pipe] } : World).drain
        (.pipeReader world.pipes.length)
      = (pipe.content, { world with
          output := before
          pipes := (world.pipes ++ [pipe]).set world.pipes.length { pipe with sink := {} } }) := by
    dsimp only [World.drain]
    rw [List.getElem?_concat_length]
    rfl
  have ho : before.write pipe.content = world.output := by
    apply congrArg Sink.mk
    rw [hr, List.reverseAux_eq, Pipe.content, Sink.content, List.reverse_reverse]
  have ha : (copyingStart directory).args = [] := rfl
  rw [Program.run, if_pos ha, hd]
  dsimp only
  rw [speak_stdout _ rfl]
  use (world.pipes ++ [pipe]).set world.pipes.length { pipe with sink := {} }
  dsimp only [withOutput]
  rw [ho]

end World

namespace Shell

/-- Whether `cat` stands for a file at an absolute path that holds the program that copies its
input, and that can be started without arguments. -/
structure CopiesAt (shell : Shell) (path : Text) : Prop where
  program?_eq : shell.program? "cat".toList = some path
  isAbsolute : Path.isAbsolute path = true
  file : ∃ mode content, shell.world.tree.lookup shell.world.start (Path.route path)
      = some (.file mode content)
    ∧ (Node.file mode content).isStartable = true
    ∧ shell.world.program? content = some .copy
  canPass : shell.world.canPass (World.copyingStart []) = true
  fits : World.passedSizes (World.copyingStart []).words
    ≤ shell.world.wordRoom (Path.route path) (World.copyingStart [])

/-- Whether a file that a path leads to is open for writing. -/
def Holds (shell : Shell) (path : Text) : Prop :=
  ∃ location, shell.world.tree.locate shell.world.start (Path.route path) = .ok location
    ∧ shell.world.isHeld location = true

/-- Whether no path that a line names leads to where another path leads. -/
def Spares (shell : Shell) (line path : Text) : Prop :=
  ∀ named ∈ shell.namedPaths line, ∀ location,
    shell.world.tree.locate shell.world.start (Path.route named) = .ok location →
      shell.world.tree.locate shell.world.start (Path.route path) ≠ .ok location

namespace CopiesAt

variable {shell : Shell} {path : Text}

/-- The name stands for the same in every directory of a session. -/
theorem setDirectory (h : shell.CopiesAt path) (directory : Text) :
  (shell.setDirectory directory).CopiesAt path
  := ⟨h.program?_eq, h.isAbsolute, h.file, h.canPass, h.fits⟩

/-- The program is launched from any directory, unless its file is open for writing. -/
theorem launch?_eq (h : shell.CopiesAt path) (hn : ¬ shell.Holds path) (directory : Location) :
  shell.world.launch? (shell.world.wordRoom (Path.route path) (World.copyingStart directory))
      World.maxInterpreters (Path.route path) (World.copyingStart directory)
    = some (.copy, World.copyingStart directory)
  := by
  obtain ⟨mode, content, hl, hs, hp⟩ := h.file
  obtain ⟨location, hl, hf⟩ := FileTree.lookup_eq_some_iff.mp hl
  have hh : shell.world.isHeld location = false := by
    rw [Bool.eq_false_iff]
    intro hh
    exact hn ⟨location, hl, hh⟩
  obtain ⟨trail, ht, rfl⟩ := FileTree.locate_eq_ok_iff.mp hl
  have ha := Path.isAbsolute_route h.isAbsolute
  have hb : shell.world.launchable? directory (Path.route path) = some content := by
    rw [(FileTree.isIn_of_find ht).node?_location, Option.some_inj] at hf
    rw [World.launchable?, FileTree.find_of_isAbsolute _ ha directory shell.world.start, ht]
    dsimp only
    rw [hf]
    dsimp only
    rw [hs, hh]
    rfl
  have hr : ¬ shell.world.wordRoom (Path.route path) (World.copyingStart directory)
      < World.passedSizes (World.copyingStart directory).words := Nat.not_lt.mpr h.fits
  have hd : (World.copyingStart directory).directory = directory := rfl
  rw [World.launch?, if_neg hr, hd, hb, Option.bind_some, hp]

/-- The program is as it was after a line that writes nothing where it is. -/
theorem of_runLine (h : shell.CopiesAt path) {line : Text} {after : Shell} {exits : Bool}
    (hl : shell.runLine line = .ok (after, exits)) (hn : shell.Spares line path) :
  after.CopiesAt path ∧ ¬ after.Holds path
  := by
  have he := evolves_runLine hl Set.Subset.rfl
  have hc := he.confined
  obtain ⟨mode, content, hf, hs, hp⟩ := h.file
  obtain ⟨location, hf, hnode⟩ := FileTree.lookup_eq_some_iff.mp hf
  -- What a path leads to after the line it led to before, since the program was there.
  have hfree : location ∉ after.world.located (shell.namedPaths line) := by
    rintro ⟨named, hm, ha⟩
    rw [hc.start_eq] at ha
    apply hn named hm location (hc.edited.locate_of_exists ha hnode) hf
  have hout : location ∉ (shell.world.openPipes ((stages line).length - 1)).held
      ∪ after.world.located (shell.namedPaths line) := by
    rintro (⟨entry, hm, -⟩ | hm)
    · contradiction
    · apply hfree hm
  have hloc : after.world.tree.locate after.world.start (Path.route path) = .ok location := by
    rw [hc.start_eq]
    apply hc.edited.grows.locate hf
  have hv : after.world.passedVariables = shell.world.passedVariables := by
    rw [World.passedVariables, hc.environment_eq]
    rfl
  constructor
  · refine ⟨?_, h.isAbsolute, ⟨mode, content, ?_, hs, ?_⟩, ?_, ?_⟩
    · rw [program?, search_runLine hl, hc.start_eq, SearchPath.resolve_of_edited hc.edited]
      apply h.program?_eq
    · refine FileTree.lookup_eq_some_iff.mpr ⟨location, hloc, ?_⟩
      rw [← FileTree.item?_eq_file_iff, hc.edited.frame location hout]
      apply FileTree.item?_eq_file_iff.mpr hnode
    · rw [World.program?, he.image_eq]
      exact hp
    · rw [World.canPass, hv]
      exact h.canPass
    · rw [World.wordRoom, hv]
      exact h.fits
  · rintro ⟨found, ha, hh⟩
    rw [hloc] at ha
    obtain rfl := Except.ok.inj ha
    exact hout (hc.held_subset (World.held_of_isHeld hh))

end CopiesAt

open World

/-- A command that launches a program is that program's run. -/
theorem launch_eq {shell : Shell} {command : Command} {name path : Text} {directory : Location}
    {program : Program} {started : Start}
    (hd : shell.world.tree.locate shell.world.start (Path.route shell.session.directory)
      = .ok directory)
    (hp : shell.world.canPass ⟨Text.encode name, command.args.map Text.encode, directory⟩ = true)
    (hl : shell.world.launch?
        (shell.world.wordRoom (Path.route path)
          ⟨Text.encode name, command.args.map Text.encode, directory⟩)
        maxInterpreters (Path.route path)
        ⟨Text.encode name, command.args.map Text.encode, directory⟩
      = some (program, started)) :
  shell.launch command name path
    = shell.withWorld (program.run started command.input command.stream shell.world)
  := by
  rw [launch, hd]
  dsimp only
  rw [if_pos hp, hl]

theorem exists_locate_of_isDirectory {shell : Shell} {path : Text}
    (h : shell.isDirectory path = true) :
  ∃ location, shell.world.tree.locate shell.world.start (Path.route path) = .ok location
  := by
  rw [isDirectory, FileTree.isDirectory] at h
  cases hn : shell.world.tree.lookup shell.world.start (Path.route path) with
  | none =>
    rw [hn] at h
    contradiction
  | some node =>
    obtain ⟨location, hl, -⟩ := FileTree.lookup_eq_some_iff.mp hn
    exact ⟨location, hl⟩

section

variable {shell after : Shell} {number : Nat} {before : Sink} {path : Text}

/-- Where the output has been diverted, the copying command launches the program that copies. -/
theorem runCommand_copying (h : (diverting number before).RelShell shell after)
    (hp : shell.CopiesAt path) (hn : ¬ shell.Holds path)
    (hd : shell.isDirectory shell.session.directory = true) :
  ∃ directory, after.runCommand (Command.copying number)
    = (after.withWorld (Program.copy.run (copyingStart directory) (.pipeReader number)
      (Command.copying number).stream after.world), .proceed)
  := by
  obtain ⟨directory, hl⟩ := exists_locate_of_isDirectory hd
  use directory
  have hb : Builtin.ofName? "cat".toList = none := by decide
  have hu : unquote "cat".toList = "cat".toList := by decide
  have hm : (Command.copying number).name = "cat".toList := rfl
  have hr := hp.program?_eq
  rw [← h.program?_eq] at hr
  rw [← (diverting number before).tree_eq h.world, ← (diverting number before).start_eq h.world,
    ← h.session] at hl
  have hc : shell.world.canPass (copyingStart directory) = true := hp.canPass
  have hs := hp.launch?_eq hn directory
  rw [← Simulation.canPass_eq h.world] at hc
  rw [← Simulation.launch?_eq h.world, ← Simulation.wordRoom_eq h.world] at hs
  rw [runCommand, hm, hb]
  dsimp only
  rw [runProgram, hm, hu, hr]
  dsimp only
  rw [@launch_eq after (Command.copying number) "cat".toList path directory .copy
    (copyingStart directory) hl hc hs]
  rfl

/-- Where the output has been diverted, the copying command brings it back. -/
theorem runStage_copying (h : (diverting number before).RelShell shell after)
    (hp : shell.CopiesAt path) (hn : ¬ shell.Holds path)
    (hd : shell.isDirectory shell.session.directory = true) :
  let ran := after.runStage (some (Command.copying number))
  ran.2 = .proceed ∧ ran.1.session = shell.session
    ∧ ran.1.world = { shell.world with pipes := ran.1.world.pipes }
  := by
  obtain ⟨directory, hr⟩ := runCommand_copying h hp hn hd
  obtain ⟨pipe, hw⟩ := h.world
  obtain ⟨pipes, hc⟩ := hw.run_copy directory
  rw [hc] at hr
  rw [runStage, hr]
  exact ⟨rfl, h.session, rfl⟩

end

/-- The world in which the pipes of a line are made stands for the one in which one more is. -/
theorem isDiverted_openPipes (world : World) (count : Nat) :
  IsDiverted count world.output Pipe.new (world.openPipes count) (world.openPipes (count + 1))
  := by
  refine ⟨List.length_replicate, rfl, rfl, ?_⟩
  rw [openPipes, openPipes, List.replicate_succ']

theorem runStages_singleton (shell : Shell) (flow : Flow) (stage : Option Command) :
  shell.runStages flow [stage] = shell.runStage stage
  := rfl

/-- A line runs the commands that its stages are made. -/
theorem runLine_of_stages {shell : Shell} {line : Text} {pieces : List Text} {count : Nat}
    (hs : stages line = pieces) (hl : pieces.length = count + 1)
    (hr : count ≤ shell.world.pipeRoom) :
  let made := Pipeline.wire shell.session.directory 0 pieces (shell.world.openPipes count)
  shell.runLine line = .ok ((shell.withWorld made.2).runPipeline made.1)
  := by
  subst hs
  have hc : (stages line).length - 1 = count := by omega
  have hb := @Pipeline.build_eq_ok_iff shell.session.directory (stages line) shell.world
  rw [hc] at hb
  apply runLine_eq_ok_iff.mpr ⟨_, _, hb.mpr ⟨hr, rfl⟩, rfl⟩

/-- A line that ends outside of quotation marks, and not with a bar that cuts, does the same when it
is piped into a program that copies its input: the session is the same, and so is the world but for
the pipes.  It does not ask the shell to exit then. -/
theorem runLine_copied {shell : Shell} {line path : Text} (hs : stages line ≠ [])
    (hc : line.IsClosed) (hb : ∀ before : Text, before.IsClosed → line ≠ before ++ ['|'])
    (hr : (stages line).length ≤ shell.world.pipeRoom)
    (hd : shell.isDirectory shell.session.directory = true) (hp : shell.CopiesAt path)
    (hn : shell.Spares line path) :
  ∃ after exits other, shell.runLine line = .ok (after, exits)
    ∧ shell.runLine (line ++ " | cat".toList) = .ok (other, false)
    ∧ other.session = after.session
    ∧ other.world = { after.world with pipes := other.world.pipes }
  := by
  have hne : line ≠ [] := by
    rintro rfl
    apply hs rfl
  obtain ⟨init, last, hi, hl, hpiped⟩ := stages_piped hc hne hb
  obtain ⟨hw, hk, hrel⟩ := Pipeline.wire_diverting shell.session.directory init hl
    (Nat.zero_add _) ⟨Pipe.new, isDiverted_openPipes shell.world init.length⟩
  have hlen : (init ++ [last]).length = init.length + 1 := by simp
  have hlen' : (init ++ [last ++ [' '], copier]).length = init.length + 1 + 1 := by simp
  rw [hi, hlen] at hr
  have hrun := runLine_of_stages hi hlen (Nat.le_of_succ_le hr)
  have hrun' := runLine_of_stages hpiped hlen' hr
  dsimp only at hrun hrun'
  rw [hw] at hrun'
  generalize Pipeline.wire shell.session.directory 0 (init ++ [last])
    (shell.world.openPipes init.length) = made at hk hrel hrun hrun'
  generalize (Pipeline.wire shell.session.directory 0 (init ++ [last ++ [' '], copier])
    (shell.world.openPipes (init.length + 1))).2 = built at hrel hrun'
  -- The last stage takes the bytes from the pipe that all stages before have diverted them into.
  have hsim : (diverting init.length shell.world.output).RelShell (shell.withWorld made.2)
      (shell.withWorld built) := ⟨rfl, hrel⟩
  obtain ⟨-, hran⟩ := hsim.runStages .proceed hk
  obtain ⟨hp, hn⟩ := hp.of_runLine hrun hn
  obtain ⟨hf, hsession, hworld⟩ := runStage_copying hran hp hn (isDirectory_runLine hd hrun)
  refine ⟨_, _, _, hrun, ?_, hsession, hworld⟩
  rw [hrun', runPipeline, runStages_append, runStages_singleton]
  dsimp only
  rw [hf]
  rfl

/-- A line none of whose stages is called like the history names its targets only. -/
theorem exists_targetPaths_of_names {shell : Shell} {line path : Text}
    (hn : (stages line).all (fun stage =>
      (Call.ofStage? stage).all (·.name ≠ Builtin.history.name)) = true)
    (h : path ∈ shell.namedPaths line) :
  ∃ stage ∈ stages line, path ∈ Command.targetPaths shell.world.home shell.session.directory stage
  := by
  rcases h with h | ⟨index, stage, call, hs, hc, transfer, file, rfl, -, -⟩
  · exact h
  · have hn := List.all_eq_true.mp hn stage (List.mem_of_getElem? hs)
    rw [hc] at hn
    simp [Builtin.Transfer.call] at hn

theorem ne_concat_of_getLast? {text : Text} {c : Char} (h : text.getLast? ≠ some c)
    (before : Text) :
  text ≠ before ++ [c]
  := by
  rintro rfl
  apply h List.getLast?_concat

/-- A shell in a directory with the program that copies its input, where programs are found. -/
def supplied : Shell where
  session := { directory := "/d".toList, search := .ofText "/d".toList }
  world :=
    { within [(⟨Text.encode "cat".toList, by decide⟩, .file 0o755 (Program.image 0 .copy))] with
      image := Program.image 0
      pipeRoom := 4 }

theorem copiesAt_supplied :
  supplied.CopiesAt "/d/cat".toList
  := ⟨by decide +kernel, by decide, ⟨_, _, rfl, by decide, by decide⟩, by decide, by decide⟩

/-- A stage that changes the directory, one that cannot be run and one that is redirected do the
same where the line is piped into the program. -/
theorem runLine_copied_supplied :
  let line := "cd / | nope | echo a > f | pwd".toList
  ∃ after exits other, supplied.runLine line = .ok (after, exits)
    ∧ supplied.runLine (line ++ " | cat".toList) = .ok (other, false)
    ∧ other.session = after.session
    ∧ other.world = { after.world with pipes := other.world.pipes }
  := by
  intro line
  have hc : Text.IsClosed line := rfl
  have hb : ∀ before : Text, before.IsClosed → line ≠ before ++ ['|'] :=
    fun before _ => ne_concat_of_getLast? (by decide) before
  have hs : (stages line).map Token.ofStage
      = [[.word "cd".toList, .word ['/']], [.word "nope".toList],
        [.word "echo".toList, .word ['a'], .word ['1'], .operator .output, .word ['f']],
        [.word "pwd".toList]] := by decide
  have hn : supplied.Spares line "/d/cat".toList := by
    intro named hnamed location hl
    obtain ⟨stage, hm, selector, op, target, hi, -, -, rfl⟩ :=
      exists_targetPaths_of_names (by decide) hnamed
    have ht : target = ['f'] := by
      have hm : Token.ofStage stage ∈ (stages line).map Token.ofStage := List.mem_map_of_mem hm
      rw [hs] at hm
      simp only [List.mem_cons, List.not_mem_nil, or_false] at hm
      rcases hm with hm | hm | hm | hm <;> rw [hm] at hi <;>
        simp only [List.infix_cons_iff, List.cons_prefix_cons, List.infix_nil, List.prefix_nil,
          reduceCtorEq, Token.word.injEq, Token.operator.injEq, and_false, false_and, or_false,
          false_or] at hi
      exact hi.2.2.1
    subst ht
    cases hl
  apply runLine_copied (by decide) hc hb (by decide) (by decide) copiesAt_supplied hn

/-- A line whose stages have no room for a redirection, and none of which is called like the
history, spares every file. -/
theorem spares_of_short (shell : Shell) {line : Text} (path : Text)
    (hn : (stages line).all (fun stage =>
      (Call.ofStage? stage).all (·.name ≠ Builtin.history.name)) = true)
    (hs : (stages line).all (fun stage => (Token.ofStage stage).length < 3) = true) :
  shell.Spares line path
  := by
  intro named hm
  obtain ⟨stage, hm, selector, op, target, hi, -⟩ := exists_targetPaths_of_names hn hm
  have hs := List.all_eq_true.mp hs stage hm
  have hl := hi.length_le
  rw [decide_eq_true_eq] at hs
  rw [List.length_cons, List.length_cons, List.length_singleton] at hl
  omega

/-- What follows a bar at the end of a line is no stage, but before another bar it is one, which
passes nothing on; and a program cannot be started from a directory that does not exist. -/
theorem not_runLine_copied :
  (¬ ∀ (shell : Shell) (line path : Text), stages line ≠ [] → line.IsClosed →
    (stages line).length ≤ shell.world.pipeRoom →
      shell.isDirectory shell.session.directory = true → shell.CopiesAt path →
        shell.Spares line path →
          (shell.follow (line ++ " | cat".toList)).world.output = (shell.follow line).world.output)
    ∧ ¬ ∀ (shell : Shell) (line path : Text), stages line ≠ [] → line.IsClosed →
      (∀ before : Text, before.IsClosed → line ≠ before ++ ['|']) →
        (stages line).length ≤ shell.world.pipeRoom → shell.CopiesAt path →
          shell.Spares line path →
            (shell.follow (line ++ " | cat".toList)).world.output
              = (shell.follow line).world.output
  := by
  constructor
  · intro h
    have hn := h supplied "echo a |".toList "/d/cat".toList (by decide) rfl (by decide) (by decide)
      copiesAt_supplied (spares_of_short _ _ (by decide) (by decide))
    revert hn
    decide +kernel
  · intro h
    have hn := h (supplied.setDirectory "/e".toList) "echo a".toList "/d/cat".toList (by decide) rfl
      (fun before _ => ne_concat_of_getLast? (by decide) before) (by decide)
      (copiesAt_supplied.setDirectory _) (spares_of_short _ _ (by decide) (by decide))
    revert hn
    decide +kernel

end Shell

end CommandShell
