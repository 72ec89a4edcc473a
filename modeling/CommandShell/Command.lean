import CommandShell.Redirection

/-!
# Commands

A command is a name, kept as it was written, arguments, and three streams.  It is read
from the tokens of a stage; the faults of its redirections are then reported on its error
stream, which a redirection may have set.
-/

namespace CommandShell

/-- A command. -/
structure Command where
  name : Text
  args : List Text
  input : Stream
  output : Stream
  error : Stream
  deriving DecidableEq, Repr

namespace Command

/-- The stream of the command at an outlet. -/
def stream (command : Command) : Outlet → Stream
  | .output => command.output
  | .error => command.error

/-- The world after faults are reported on a stream. -/
def report (stream : Stream) (faults : List RedirectionFault) (world : World) : World :=
  world.tryWrite stream (faults.flatMap fun fault => Text.encode (Text.line fault.message))

/-- The command that tokens make, and the world after its redirections.  No tokens make no
command, and the streams meant for it are closed. -/
def ofTokens (directory : Text) (tokens : List Token) (input output : Stream) (world : World) :
    Option Command × World :=
  match tokens with
  | [] => (none, (world.close input).close output)
  | first :: rest =>
    let outline := Outline.read none rest
    let state := outline.redirections.foldl (Redirection.perform directory)
      ⟨world, output, .stderr, []⟩
    (some ⟨first.text, outline.args, input, state.output, state.error⟩,
      report state.error state.faults.reverse state.world)

/-- The command that a stage makes, and the world after its redirections. -/
def ofStage (directory stage : Text) (input output : Stream) (world : World) :
    Option Command × World :=
  ofTokens directory (Token.ofStage stage) input output world

end Command

end CommandShell
