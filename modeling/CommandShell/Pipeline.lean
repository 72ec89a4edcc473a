import CommandShell.Builtin
import CommandShell.Launch
import CommandShell.Stage

/-!
# Pipelines

The stages of a line make a pipeline: each stage reads from a pipe that the stage before it
writes to, the first reads the input of the shell and the last writes to its output.  All
pipes are made first, then every stage is made a command, and so every target is opened
before anything runs.  The stages then run in turn, and the last one decides whether the
shell goes on.
-/

namespace CommandShell

/-- The commands of the stages; a stage of blanks has none. -/
abbrev Pipeline := List (Option Command)

/-- A reason why a pipeline cannot be made. -/
inductive PipelineError where
  | tooManyPipes
  deriving DecidableEq, Repr

/-- The report of an error. -/
def PipelineError.message : PipelineError → Text
  | .tooManyPipes => "failed to create pipe: EMFILE: Too many open files".toList

namespace Pipeline

/-- The stream that a stage reads when no redirection says otherwise. -/
def inputOf : Nat → Stream
  | 0 => .stdin
  | number + 1 => .pipeReader number

/-- The stream that a stage writes when no redirection says otherwise. -/
def outputOf (number : Nat) (isLast : Bool) : Stream :=
  if isLast then .stdout else .pipeWriter number

/-- The commands of stages, the first of which has a number, and the world after their
redirections. -/
def wire (directory : Text) : Nat → List Text → World → Pipeline × World
  | _, [], world => ([], world)
  | number, stage :: rest, world =>
    let (command, wired) :=
      Command.ofStage directory stage (inputOf number) (outputOf number rest.isEmpty) world
    let (commands, complete) := wire directory (number + 1) rest wired
    (command :: commands, complete)

/-- The pipeline of stages and the world after it is made. -/
def build (directory : Text) (stages : List Text) (world : World) :
    Except PipelineError (Pipeline × World) :=
  if world.pipeRoom < stages.length - 1 then .error .tooManyPipes
  else .ok (wire directory 0 stages (world.openPipes (stages.length - 1)))

end Pipeline

namespace Shell

/-- The shell after a command, and the flow; a builtin that fails does not end the shell. -/
def runCommand (shell : Shell) (command : Command) : Shell × Flow :=
  match Builtin.ofName? command.name with
  | some builtin =>
    let ending := builtin.run command shell
    (ending.shell, ending.result.toOption.getD .proceed)
  | none => (shell.runProgram command, .proceed)

/-- The shell after the streams of a command are closed. -/
def release (shell : Shell) (command : Command) : Shell :=
  shell.withWorld (((shell.world.close command.input).close command.output).close command.error)

/-- The shell after a stage, and the flow. -/
def runStage (shell : Shell) (stage : Option Command) : Shell × Flow :=
  match stage with
  | some command =>
    let (changed, flow) := shell.runCommand command
    (changed.release command, flow)
  | none => (shell, .proceed)

/-- The shell after stages in turn, and the flow of the last of them. -/
def runStages (shell : Shell) : Flow → Pipeline → Shell × Flow
  | flow, [] => (shell, flow)
  | _, stage :: rest =>
    let (changed, flow) := shell.runStage stage
    changed.runStages flow rest

/-- The shell after a pipeline, and whether the pipeline asks it to exit. -/
def runPipeline (shell : Shell) (pipeline : Pipeline) : Shell × Bool :=
  let (changed, flow) := shell.runStages .proceed pipeline
  (changed, flow = .exit)

/-- The shell after a line, and whether the line asks it to exit, unless the pipeline cannot
be made. -/
def runLine (shell : Shell) (line : Text) : Except PipelineError (Shell × Bool) := do
  let (pipeline, world) ← Pipeline.build shell.session.directory (stages line) shell.world
  .ok ((shell.withWorld world).runPipeline pipeline)

end Shell

end CommandShell
