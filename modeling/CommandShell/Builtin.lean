import CommandShell.Command
import CommandShell.Shell

/-!
# Builtins

The commands that a shell carries out itself.  Carrying one out changes the shell and gives
messages for the streams of the command; the messages are then written in order, and the
first that cannot be written ends the command.
-/

namespace CommandShell

/-- Whether a shell goes on after a stage. -/
inductive Flow where
  | proceed
  | exit
  deriving DecidableEq, Repr

/-- A command that the shell carries out itself. -/
inductive Builtin where
  | echo
  | type
  | pwd
  | cd
  | exit
  | history
  deriving DecidableEq, Repr

/-- What carrying out a builtin gives: the shell, the lines to write, and the flow. -/
structure Response where
  shell : Shell
  lines : List (Outlet × Text) := []
  flow : Flow := .proceed

/-- How a builtin has ended: the shell, and the flow unless a line could not be written. -/
structure Ending where
  shell : Shell
  result : Except SystemError Flow

namespace Builtin

/-- Every builtin. -/
def all : List Builtin :=
  [.echo, .type, .pwd, .cd, .exit, .history]

/-- The name of a builtin. -/
def name : Builtin → Text
  | .echo => "echo".toList
  | .type => "type".toList
  | .pwd => "pwd".toList
  | .cd => "cd".toList
  | .exit => "exit".toList
  | .history => "history".toList

/-- The builtin with a name. -/
def ofName? (text : Text) : Option Builtin :=
  all.find? (·.name = text)

/-- What running a name would do. -/
def verdict (shell : Shell) (text : Text) : Outlet × Text :=
  match ofName? text with
  | some _ => (.output, text ++ " is a shell builtin".toList)
  | none =>
    match shell.program? text with
    | some path => (.output, text ++ " is ".toList ++ path)
    | none => (.error, text ++ ": not found".toList)

/-- The response of `type`. -/
def describe (args : List Text) (shell : Shell) : Response :=
  if args = [] then ⟨shell, [(.error, "type: missing argument".toList)], .proceed⟩
  else ⟨shell, args.map (verdict shell), .proceed⟩

/-- The response of `cd` once its target is resolved. -/
def enter (target path : Text) (shell : Shell) : Response :=
  if shell.isDirectory path then { shell := shell.setDirectory path }
  else
    { shell
      lines := [(.error, "cd: ".toList ++ target ++ ": No such file or directory".toList)] }

/-- The response of `cd`. -/
def changeDirectory (args : List Text) (shell : Shell) : Response :=
  match args with
  | [target] => enter target (shell.resolve target) shell
  | _ => { shell, lines := [(.error, "cd: missing or too many arguments".toList)] }

/-- A way in which a history list meets a file. -/
inductive Transfer where
  | load
  | save
  | append
  deriving DecidableEq, Repr

/-- The transfer that a flag asks for. -/
def Transfer.ofFlag? (flag : Text) : Option Transfer :=
  if flag = ['-', 'r'] then some .load
  else if flag = ['-', 'w'] then some .save
  else if flag = ['-', 'a'] then some .append
  else none

/-- The shell after a transfer between its history and the file that a path names. -/
def Transfer.perform (transfer : Transfer) (path : Text) (shell : Shell) :
    Except SystemError Shell :=
  let history := shell.session.history
  let world := shell.world
  match transfer with
  | .load => do
    let (loaded, _) ← history.load world.tree world.start path
    .ok (shell.setHistory loaded)
  | .save => do
    let (saved, tree) ← history.save world.tree world.start path
    .ok ((shell.setHistory saved).withWorld (world.withTree tree))
  | .append => do
    let (appended, tree) ← history.appendNew world.tree world.start path
    .ok ((shell.setHistory appended).withWorld (world.withTree tree))

/-- The response of `history` to a transfer. -/
def transferHistory (transfer : Transfer) (file : Text) (shell : Shell) : Response :=
  match transfer.perform (shell.resolve file) shell with
  | .ok changed => { shell := changed }
  | .error error =>
    { shell, lines := [(.error, "history: ".toList ++ file ++ ": ".toList ++ error.message)] }

/-- The response of `history` that lists entries. -/
def listHistory (count : Option Nat) (shell : Shell) : Response :=
  { shell, lines := (shell.session.history.listing count).map (Outlet.output, ·) }

/-- The response of `history` to arguments that it has no meaning for. -/
def historyUsage (shell : Shell) : Response :=
  { shell, lines := [(.error, "history: usage: history [n] | history -r|-w|-a file".toList)] }

/-- The response of `history`. -/
def consult (args : List Text) (shell : Shell) : Response :=
  match args with
  | [] => listHistory none shell
  | [count] =>
    match Text.count? count with
    | some n => listHistory (some n) shell
    | none =>
      { shell
        lines :=
          [(.error, "history: ".toList ++ count ++ ": numeric argument required".toList)] }
  | [flag, file] =>
    match Transfer.ofFlag? flag with
    | some transfer => transferHistory transfer file shell
    | none => historyUsage shell
  | _ => historyUsage shell

/-- What a builtin does with its arguments. -/
def respond (builtin : Builtin) (args : List Text) (shell : Shell) : Response :=
  match builtin with
  | .echo => { shell, lines := [(.output, Text.join [' '] args)] }
  | .type => describe args shell
  | .pwd => { shell, lines := [(.output, shell.session.directory)] }
  | .cd => changeDirectory args shell
  | .exit => { shell, flow := .exit }
  | .history => consult args shell

/-- The lines of a response as bytes for the streams of a command. -/
def Response.messages (response : Response) : List (Outlet × Bytes) :=
  response.lines.map fun line => (line.1, Text.encode (Text.line line.2))

/-- How a builtin ends that is run as a command. -/
def run (builtin : Builtin) (command : Command) (shell : Shell) : Ending :=
  let response := builtin.respond command.args shell
  match response.shell.world.speak command.stream (Response.messages response) with
  | (world, none) => ⟨response.shell.withWorld world, .ok response.flow⟩
  | (world, some error) => ⟨response.shell.withWorld world, .error error⟩

end Builtin

end CommandShell
