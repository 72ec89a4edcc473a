import CommandShell.Proofs.Call
import CommandShell.Proofs.Command
import CommandShell.Proofs.Edit

/-!
# Echoing into a file

A line that echoes texts into a file is written with each text and the target between apostrophes
(`Echo.line`).  Whatever they are, the line opens the target, writes the texts to it and changes
nothing else (`Shell.runLine_echo`).  So after any number of such lines the file has the texts from
the last one on that empties it (`Shell.runLines_echo`).
-/

namespace CommandShell

/-! ### The line -/

/-- What is echoed into a file, and what happens to the bytes that the file has. -/
structure Echo where
  args : List Text
  disposition : Disposition

namespace Echo

/-- The line that echoes into a target. -/
def line (target : Text) (echo : Echo) : Text :=
  ['e', 'c', 'h', 'o'] ++ echo.args.flatMap (fun arg => ' ' :: singleQuoted arg)
    ++ ' ' :: echo.disposition.operator.text ++ ' ' :: singleQuoted target

/-- The arguments with single spaces between them, and a line feed. -/
def bytes (echo : Echo) : Bytes :=
  Text.encode (Text.line (Text.join [' '] echo.args))

/-- The file that the target is opened as. -/
def file (location : Location) (echo : Echo) : OpenFile :=
  ⟨location, true, echo.disposition = .append, 0⟩

/-- A single space. -/
def gap : Gap :=
  ⟨[' '], by simp, by decide⟩

/-- The line as a written command. -/
def written (target : Text) (echo : Echo) : WrittenCommand where
  name :=
    ⟨[.bare 'e' (by decide), .bare 'c' (by decide), .bare 'h' (by decide), .bare 'o' (by decide)],
      by simp⟩
  items :=
    echo.args.map (fun arg => (gap, .argument (.apostrophed arg)))
      ++ [(gap, .redirection none echo.disposition gap (.apostrophed target))]

theorem raw_name (target : Text) (echo : Echo) :
  (echo.written target).name.raw = ['e', 'c', 'h', 'o']
  := rfl

theorem raw_written (target : Text) (echo : Echo) :
  (echo.written target).raw = echo.line target
  := by
  rw [WrittenCommand.raw, raw_name, line]
  simp [written, List.flatMap_map, WrittenItem.raw, WrittenItem.head, gap]

/-- A line that echoes is a single stage. -/
theorem stages_line (target : Text) (echo : Echo) :
  stages (echo.line target) = [echo.line target]
  := by
  rw [← raw_written]
  apply stages_of_isUncut (echo.written target).isWhole_raw.isUncut
  apply WrittenCommand.raw_ne_nil

theorem args_written (target : Text) (echo : Echo) :
  (echo.written target).args = echo.args
  := by
  simp [written, WrittenCommand.args, WrittenItem.argument?, List.filterMap_map, Function.comp_def]

/-- The only opening of a line that echoes is that of its target. -/
theorem openings_written (target : Text) (echo : Echo) :
  (echo.written target).openings = [⟨.output, echo.disposition, target⟩]
  := by
  simp [written, WrittenCommand.openings, WrittenItem.opening?, List.filterMap_map,
    Function.comp_def]

/-- The command of the line echoes the arguments, and its target is opened as its output. -/
theorem ofStage_line (directory target : Text) (echo : Echo) (input output : Stream)
    (world : World) :
  let state := Opening.attempt directory ⟨world, output, .stderr, []⟩
    ⟨.output, echo.disposition, target⟩
  Command.ofStage directory (echo.line target) input output world
    = (some ⟨Builtin.echo.name, echo.args, input, state.output, state.error⟩,
        Command.report state.error state.faults.reverse state.world)
  := by
  rw [← raw_written, Command.ofStage, WrittenCommand.ofStage_raw_tokens, Command.ofTokens,
    WrittenCommand.read_tokens, ← WrittenCommand.openings, openings_written, ← WrittenCommand.args,
    args_written]
  simp only [List.map_singleton, List.foldl_cons, List.foldl_nil, Opening.perform_redirection]
  rfl

end Echo

/-! ### Running the line -/

/-- The world with another tree while a line runs for which a single file has been opened. -/
def World.withSingle (world : World) (tree : FileTree) (files : List (Nat × OpenFile)) : World :=
  { world with tree, opened := 1, files, pipes := [] }

namespace Shell

/-- The route to a target in a shell. -/
def targetRoute (shell : Shell) (target : Text) : Bytes :=
  Path.route (Redirection.targetPath shell.world.home shell.session.directory target)

section

variable {shell : Shell} {target : Text} {echo : Echo} {opened : FileTree} {location : Location}

/-- The command of a line that echoes into a file. -/
def echoing (echo : Echo) : Command :=
  ⟨Builtin.echo.name, echo.args, .stdin, .file 0, .stderr⟩

/-- A line that echoes opens its target and makes the command that echoes into it. -/
theorem build_echo (h : shell.world.tree.openForWriting shell.world.start
    (shell.targetRoute target) echo.disposition newFileMode = .ok (opened, location)) :
  Pipeline.build shell.session.directory [echo.line target] shell.world
    = .ok ([some (echoing echo)], shell.world.withSingle opened [(0, echo.file location)])
  := by
  have ho : (shell.world.openPipes 0).openForWriting
      (Path.join shell.session.directory
        (Path.expandHome (shell.world.openPipes 0).home target)) echo.disposition newFileMode
      = .ok (((shell.world.openPipes 0).withTree opened).withFile (echo.file location)) := by
    rw [World.openForWriting]
    exact bind_eq_ok_iff.mpr ⟨(opened, location), h, rfl⟩
  have hs := Echo.ofStage_line shell.session.directory target echo .stdin .stdout
    (shell.world.openPipes 0)
  simp only [Opening.attempt, ho] at hs
  rw [Pipeline.build, if_neg (by simp), List.length_singleton, Nat.sub_self, Pipeline.wire,
    Pipeline.inputOf, Pipeline.outputOf, List.isEmpty_nil, if_pos rfl, hs]
  rfl

/-- Where opening has left the bytes that it should, writing adds others to them. -/
theorem write_echo (world : World) {old : Bytes}
    (h : opened.content location = echo.disposition.kept old) (bytes : Bytes) :
  ∃ file, (world.withSingle opened [(0, echo.file location)]).write (.file 0) bytes
    = .ok (world.withSingle (opened.extend location bytes) [(0, file)])
  := by
  obtain ⟨args, disposition⟩ := echo
  cases disposition with
  | append => exact ⟨_, rfl⟩
  | truncate =>
    rw [FileTree.extend, h]
    exact ⟨_, rfl⟩

/-- A line that echoes into a target that can be opened adds its bytes to what opening leaves of the
file, and changes nothing else. -/
theorem runLine_echo (h : shell.world.tree.openForWriting shell.world.start
    (shell.targetRoute target) echo.disposition newFileMode = .ok (opened, location)) :
  shell.runLine (echo.line target)
    = .ok (shell.withWorld (shell.world.withSingle (opened.extend location echo.bytes) []), false)
  := by
  obtain ⟨mode, hn⟩ := (FileTree.opens_of_openForWriting h).node?
  have hc : opened.content location
      = echo.disposition.kept (shell.world.tree.content location) := by
    rw [FileTree.content, hn]
  obtain ⟨file, hw⟩ := write_echo shell.world hc echo.bytes
  have hr : Builtin.echo.run (echoing echo)
      (shell.withWorld (shell.world.withSingle opened [(0, echo.file location)])) = _ :=
    Builtin.run_eq_of_write rfl hw
  have hname : Builtin.ofName? (echoing echo).name = some .echo :=
    Builtin.ofName?_eq_some_iff.mpr rfl
  rw [runLine, Echo.stages_line, build_echo h]
  change Except.ok (runPipeline _ _) = _
  rw [runPipeline, runStages, runStage, runCommand, hname]
  simp only [hr]
  rfl

end

end Shell

/-! ### Many lines -/

/-- The bytes of a file that had others before lines echo into it. -/
def Echo.contentAfter (old : Bytes) (echoes : List Echo) : Bytes :=
  echoes.foldl (fun content echo => echo.disposition.kept content ++ echo.bytes) old

namespace Echo

/-- Where no line empties the file, what it had stands before what they echo. -/
theorem contentAfter_of_append {echoes : List Echo}
    (h : ∀ echo ∈ echoes, echo.disposition = .append) (old : Bytes) :
  contentAfter old echoes = old ++ echoes.flatMap bytes
  := by
  induction echoes generalizing old with
  | nil => simp [contentAfter]
  | cons echo rest ih =>
    obtain ⟨he, hr⟩ := List.forall_mem_cons.mp h
    have hi := ih hr (echo.disposition.kept old ++ echo.bytes)
    rw [contentAfter] at hi ⊢
    rw [List.foldl_cons, hi, he, Disposition.kept, List.flatMap_cons, List.append_assoc]

/-- The file has what is echoed from the last line on that empties it. -/
theorem contentAfter_of_truncate (before : List Echo) {last : Echo} {appended : List Echo}
    (hl : last.disposition = .truncate) (ha : ∀ echo ∈ appended, echo.disposition = .append)
    (old : Bytes) :
  contentAfter old (before ++ last :: appended) = (last :: appended).flatMap bytes
  := by
  have hc := contentAfter_of_append ha last.bytes
  rw [contentAfter] at hc ⊢
  rw [List.foldl_append, List.foldl_cons, hl, Disposition.kept, List.nil_append, hc,
    List.flatMap_cons]

end Echo

namespace Shell

/-- What lines that echo into a target make of a shell. -/
structure Echoed (shell : Shell) (target : Text) (location : Location) (echoes : List Echo)
    (after : Shell) : Prop where
  session_eq : after.session = shell.session
  start_eq : after.world.start = shell.world.start
  environment_eq : after.world.environment = shell.world.environment
  output_eq : after.world.output = shell.world.output
  errors_eq : after.world.errors = shell.world.errors
  /-- Nothing is edited but the file. -/
  edited : FileTree.Edited {location} shell.world.tree after.world.tree
  /-- The file is where the target leads. -/
  located : echoes ≠ [] →
    after.world.tree.locate shell.world.start (shell.targetRoute target) = .ok location
  content_eq : after.world.tree.content location
    = Echo.contentAfter (shell.world.tree.content location) echoes

namespace Echoed

variable {shell after : Shell} {target : Text} {location : Location} {echoes : List Echo}

theorem refl (shell : Shell) (target : Text) (location : Location) :
  Echoed shell target location [] shell
  := ⟨rfl, rfl, rfl, rfl, rfl, .refl _ _, fun h => absurd rfl h, rfl⟩

theorem targetRoute_eq (h : Echoed shell target location echoes after) :
  after.targetRoute target = shell.targetRoute target
  := by
  rw [targetRoute, targetRoute, h.session_eq, World.home, World.home, h.environment_eq]

/-- Lines that echo after others have made of a shell what all of them make. -/
theorem trans {last : Shell} {others : List Echo} (h : Echoed shell target location echoes after)
    (h' : Echoed after target location others last) :
  Echoed shell target location (echoes ++ others) last
  := by
  have hl := h'.located
  rw [h.start_eq, h.targetRoute_eq] at hl
  constructor
  · rw [h'.session_eq, h.session_eq]
  · rw [h'.start_eq, h.start_eq]
  · rw [h'.environment_eq, h.environment_eq]
  · rw [h'.output_eq, h.output_eq]
  · rw [h'.errors_eq, h.errors_eq]
  · apply h.edited.trans h'.edited
  · intro hne
    by_cases ho : others = []
    · rw [ho, List.append_nil] at hne
      apply h'.edited.grows.locate (h.located hne)
    · apply hl ho
  · rw [h'.content_eq, h.content_eq, Echo.contentAfter, Echo.contentAfter, Echo.contentAfter,
      List.foldl_append]

/-- What can be opened can be opened again. -/
theorem openable (h : Echoed shell target location echoes after)
    (ho : shell.world.tree.Openable shell.world.start (shell.targetRoute target) location) :
  after.world.tree.Openable after.world.start (after.targetRoute target) location
  := by
  rw [h.start_eq, h.targetRoute_eq]
  apply h.edited.openable ho

end Echoed

/-- The shell after lines one after another, and whether one of them asks it to exit. -/
def runLines (shell : Shell) : List Text → Except PipelineError (Shell × Bool)
  | [] => .ok (shell, false)
  | line :: rest => do
    let (after, exits) ← shell.runLine line
    let (last, later) ← after.runLines rest
    .ok (last, exits || later)

section

variable {shell : Shell} {target : Text} {location : Location}

/-- A line that echoes runs, if its target can be opened. -/
theorem exists_echoed
    (h : shell.world.tree.Openable shell.world.start (shell.targetRoute target) location)
    (echo : Echo) :
  ∃ after, shell.runLine (echo.line target) = .ok (after, false)
    ∧ Echoed shell target location [echo] after
  := by
  obtain ⟨opened, h⟩ := (FileTree.openable_iff echo.disposition).mp h
  have ho := FileTree.opens_of_openForWriting h
  have he := FileTree.edited_extend opened location echo.bytes
  obtain ⟨mode, hn⟩ := ho.node?
  exact ⟨_, runLine_echo h, rfl, rfl, rfl, rfl, rfl, ho.edited.trans he,
    fun _ => he.grows.locate ho.locate, FileTree.content_extend hn echo.bytes⟩

/-- Lines that echo run one after another, if their target can be opened. -/
theorem exists_echoed_all
    (h : shell.world.tree.Openable shell.world.start (shell.targetRoute target) location)
    (echoes : List Echo) :
  ∃ after, shell.runLines (echoes.map (Echo.line target)) = .ok (after, false)
    ∧ Echoed shell target location echoes after
  := by
  induction echoes generalizing shell with
  | nil => exact ⟨shell, rfl, .refl shell target location⟩
  | cons echo rest ih =>
    obtain ⟨after, hf, ha⟩ := exists_echoed h echo
    obtain ⟨last, hr, hl⟩ := ih (ha.openable h)
    refine ⟨last, ?_, ha.trans hl⟩
    rw [List.map_cons, runLines, hf]
    change after.runLines _ >>= _ = _
    rw [hr]
    rfl

/-- Lines that echo into a target that can be opened ask for no exit.  They leave the session, the
output and the error stream of the shell, and every other file and directory as they were.  The
target leads to the file then, which has what is echoed from the last line on that empties it, or
what it had before and then all that is echoed where no line does. -/
theorem runLines_echo
    (h : shell.world.tree.Openable shell.world.start (shell.targetRoute target) location)
    (echoes : List Echo) :
  ∃ after, shell.runLines (echoes.map (Echo.line target)) = .ok (after, false)
    ∧ after.session = shell.session
    ∧ after.world.output = shell.world.output
    ∧ after.world.errors = shell.world.errors
    ∧ (∀ other, other ≠ location →
      after.world.tree.item? other = shell.world.tree.item? other)
    ∧ (echoes ≠ [] →
      after.world.tree.locate shell.world.start (shell.targetRoute target) = .ok location)
    ∧ ((∀ echo ∈ echoes, echo.disposition = .append) →
      after.world.tree.content location
        = shell.world.tree.content location ++ echoes.flatMap Echo.bytes)
    ∧ ∀ before last appended, echoes = before ++ last :: appended →
      last.disposition = .truncate → (∀ echo ∈ appended, echo.disposition = .append) →
        after.world.tree.content location = (last :: appended).flatMap Echo.bytes
  := by
  obtain ⟨after, hr, ha⟩ := exists_echoed_all h echoes
  refine ⟨after, hr, ha.session_eq, ha.output_eq, ha.errors_eq, ha.edited.frame, ha.located, ?_, ?_⟩
  · intro happ
    rw [ha.content_eq, Echo.contentAfter_of_append happ]
  · rintro before last appended rfl hl happ
    rw [ha.content_eq, Echo.contentAfter_of_truncate before hl happ]

end

/-- A shell in an empty file tree. -/
def bare : Shell where
  session := { directory := ['/'], search := .ofText [] }
  world := .still {} []

/-- In an empty tree lines echo into a file that they make. -/
theorem runLines_echo_bare :
  ∃ after, bare.runLines ["echo 'it'\\''s' '' > 't|'".toList, "echo >> 't|'".toList]
      = .ok (after, false)
    ∧ after.world.tree.content [⟨Text.encode "t|".toList, by decide⟩]
      = Text.encode "it's \n\n".toList
  := by
  have ho : bare.world.tree.Openable bare.world.start (bare.targetRoute "t|".toList)
      [⟨Text.encode "t|".toList, by decide⟩] := ⟨_, rfl⟩
  obtain ⟨after, hr, -, -, -, -, -, -, ht⟩ :=
    runLines_echo ho [⟨["it's".toList, []], .truncate⟩, ⟨[], .append⟩]
  refine ⟨after, hr, (ht [] _ [⟨[], .append⟩] rfl rfl (by simp)).trans ?_⟩
  decide

end Shell

end CommandShell
