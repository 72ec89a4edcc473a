import CommandShell.Completion
import CommandShell.LineReader
import CommandShell.Pipeline
import CommandShell.Settings
import CommandShell.Theme

/-!
# Interaction

A shell that is started reads the lines of its input one by one.  A line that is not blank
is recorded and then run, until one asks the shell to exit, one cannot be read, or there are
no more.  The history is loaded before the first line from its file, if that exists, and
saved to it at the end.  A shell whose line reader breaks down saves nothing.
-/

namespace CommandShell

namespace Shell

/-- What a shell shows to its user. -/
structure Looks where
  /-- What is written before a line is read. -/
  prompt : Text
  /-- The style for errors. -/
  style : Text → Text

/-- The looks that settings give.  The prompt is the matter of the terminal, unless that is a
simple one. -/
def Looks.ofSettings (settings : Settings) (coloursShown : Bool) : Looks :=
  let theme := Theme.ofName settings.theme
  { prompt := if settings.isSimple then theme.promptText coloursShown else []
    style := theme.styleError coloursShown }

/-- How a shell has come to its end. -/
structure Outcome where
  /-- The shell as it was then. -/
  shell : Shell
  /-- Whether it broke down on a line instead of coming to its end. -/
  broken : Bool

/-- The shell that settings start in a world, in the start directory of the world.  The directory of
a session is a text here, so it is the root if the path of the start directory is no text, where a
shell on a system keeps such a path as it is. -/
def begin (settings : Settings) (world : World) : Shell where
  session :=
    { directory := (Text.decode? world.start.route).getD ['/']
      search := .ofText settings.searchPath }
  world := world

/-- The names that a command can have: those of the builtins and of the programs. -/
def commandNames (shell : Shell) : List Text :=
  Builtin.all.map Builtin.name
    ++ shell.session.search.list shell.world.tree shell.world.start

/-- The completer for the names that a command can have. -/
def completer (shell : Shell) : Completer :=
  { trie := .ofDistinct shell.commandNames }

/-- The shell after the prompt is written. -/
def invite (looks : Looks) (shell : Shell) : Shell :=
  shell.withWorld (shell.world.tryWrite .stdout (Text.encode looks.prompt))

/-- The shell after an error that ends a line is reported in the style for errors. -/
def complain (looks : Looks) (message : Text) (shell : Shell) : Shell :=
  shell.withWorld (shell.world.tryWrite .stderr
    (Text.encode (Text.line (looks.style (Settings.programName ++ ": ".toList ++ message)))))

/-- The shell after a line is recorded. -/
def record (shell : Shell) (line : Text) : Shell :=
  shell.setHistory (shell.session.history.push line)

/-- The shell after a line, and whether the line asks it to exit. -/
def obey (looks : Looks) (shell : Shell) (line : Text) : Shell × Bool :=
  if line.isBlank then (shell, false)
  else
    match (shell.record line).runLine line with
    | .ok result => result
    | .error error => ((shell.record line).complain looks error.message, false)

/-- The outcome of a shell that reads lines one by one, a line that cannot be read ending
it. -/
def interact (looks : Looks) : List Reading → Shell → Outcome
  | [], shell => ⟨shell.invite looks, false⟩
  | .unreadable :: _, shell =>
    ⟨(shell.invite looks).complain looks SystemError.notText.message, false⟩
  | .broken :: _, shell => ⟨shell.invite looks, true⟩
  | .line line :: rest, shell =>
    match (shell.invite looks).obey looks line with
    | (after, true) => ⟨after, false⟩
    | (after, false) => interact looks rest after

/-- The shell after its history is loaded from a file, if that exists and can be read. -/
def loadHistory (file : Option Text) (shell : Shell) : Shell :=
  match file with
  | none => shell
  | some path =>
    if shell.world.tree.isFile shell.world.start (Path.route path) then
      match shell.session.history.load shell.world.tree shell.world.start path with
      | .ok (history, _) => shell.setHistory history
      | .error _ => shell
    else shell

/-- The shell after its history is saved to a file, if that can be written. -/
def saveHistory (file : Option Text) (shell : Shell) : Shell :=
  match file with
  | none => shell
  | some path =>
    match shell.session.history.save shell.world.tree shell.world.start path with
    | .ok (history, tree) => (shell.setHistory history).withWorld (shell.world.withTree tree)
    | .error _ => shell

/-- The outcome with the history saved, unless the shell broke down. -/
def Outcome.saved (file : Option Text) (outcome : Outcome) : Outcome :=
  if outcome.broken then outcome else { outcome with shell := outcome.shell.saveHistory file }

/-- The outcome of a shell that runs.  The whole input is read at once, so programs find none of
it left. -/
def run (settings : Settings) (coloursShown : Bool) (world : World) : Outcome :=
  let shell := (begin settings { world with input := [] }).loadHistory settings.historyFile
  (interact (.ofSettings settings coloursShown) (LineReader.lines world.input) shell).saved
    settings.historyFile

end Shell

/-- The outcome of a shell that is started in a world and runs.  It breaks down at once if
the variables of its environment file cannot be set. -/
def World.runShell (coloursShown : Bool) (world : World) : Shell.Outcome :=
  match world.configured with
  | some configured => Shell.run configured.settings coloursShown configured
  | none => ⟨Shell.begin world.settings world, true⟩

end CommandShell
