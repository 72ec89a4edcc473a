import CommandShell.Session
import CommandShell.Token
import CommandShell.World

/-!
# Redirections

After the name, the tokens of a command are arguments and redirections.  The word before an
operator selects the stream and the word after it is the target; every other word is an
argument.  A redirection that cannot be carried out is a fault, and leaves the streams as
they were.
-/

namespace CommandShell

/-- An operator with the words that belong to it. -/
structure Redirection where
  selector : Option Text
  operator : Operator
  target : Option Text
  deriving DecidableEq, Repr

/-- The arguments and the redirections of a command. -/
structure Outline where
  args : List Text
  redirections : List Redirection
  deriving DecidableEq, Repr

namespace Outline

/-- The outline with an argument before its own, if there is one. -/
def withArg (arg : Option Text) (outline : Outline) : Outline :=
  { outline with args := arg.toList ++ outline.args }

/-- The outline with a redirection before its own. -/
def withRedirection (redirection : Redirection) (outline : Outline) : Outline :=
  { outline with redirections := redirection :: outline.redirections }

/-- The outline of tokens after a word that is an argument unless an operator follows. -/
def read : Option Text → List Token → Outline
  | held, [] => ⟨held.toList, []⟩
  | held, .word text :: rest => (read (some text) rest).withArg held
  | held, .operator op :: .word target :: rest =>
    (read none rest).withRedirection ⟨held, op, some target⟩
  | held, .operator op :: rest => (read none rest).withRedirection ⟨held, op, none⟩

end Outline

/-- A reason why a redirection is not carried out. -/
inductive RedirectionFault where
  | missingTarget (op : Operator)
  | inputUnsupported (op : Operator)
  | unknownSelector (selector : Text) (op : Operator)
  | cannotOpen (target : Text) (error : SystemError)
  deriving DecidableEq, Repr

/-- The report of a fault. -/
def RedirectionFault.message : RedirectionFault → Text
  | .missingTarget op => op.text ++ ": expected a filename after redirection operator".toList
  | .inputUnsupported op => op.text ++ ": input redirection is not supported".toList
  | .unknownSelector selector op =>
    selector ++ op.text ++ ": unrecognized stream selector".toList
  | .cannotOpen target error => target ++ ": ".toList ++ error.message

/-- What redirections have changed: the world, the two output streams, and the faults found,
the last first. -/
structure Redirected where
  world : World
  output : Stream
  error : Stream
  faults : List RedirectionFault

namespace Redirected

/-- The result with one more fault. -/
def fail (state : Redirected) (fault : RedirectionFault) : Redirected :=
  { state with faults := fault :: state.faults }

/-- The result with a new stream at an outlet, whose old stream is closed. -/
def attach (state : Redirected) (outlet : Outlet) (world : World) (stream : Stream) : Redirected :=
  match outlet with
  | .output => { state with world := world.close state.output, output := stream }
  | .error => { state with world := world.close state.error, error := stream }

end Redirected

namespace Redirection

/-- The stream that a selector names. -/
def outlet? (selector : Text) : Option Outlet :=
  if selector = ['1'] then some .output
  else if selector = ['2'] then some .error
  else none

/-- What the redirection asks for: a stream and a target. -/
def wanted (redirection : Redirection) : Except RedirectionFault (Outlet × Text) :=
  match redirection.target with
  | none => .error (.missingTarget redirection.operator)
  | some target =>
    if redirection.operator.isOutput then
      match outlet? (redirection.selector.getD []) with
      | some outlet => .ok (outlet, target)
      | none =>
        .error (.unknownSelector (redirection.selector.getD []) redirection.operator)
    else .error (.inputUnsupported redirection.operator)

/-- What an output operator does with the bytes of its target. -/
def disposition (op : Operator) : Disposition :=
  if op = .append then .append else .truncate

/-- The path of a target. -/
def targetPath (home : Option Text) (directory target : Text) : Text :=
  Path.join directory (Path.expandHome home target)

/-- The result after the redirection is carried out or its fault is noted. -/
def perform (directory : Text) (state : Redirected) (redirection : Redirection) : Redirected :=
  match redirection.wanted with
  | .error fault => state.fail fault
  | .ok (outlet, target) =>
    match state.world.openForWriting (targetPath state.world.home directory target)
        (disposition redirection.operator) newFileMode with
    | .error error => state.fail (.cannotOpen target error)
    | .ok (world, stream) => state.attach outlet world stream

end Redirection

end CommandShell
