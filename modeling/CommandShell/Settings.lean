import CommandShell.EnvironmentFile
import CommandShell.World

/-!
# Settings

The settings of a shell come from variables of its environment; an empty value counts as
none.  Where the log is kept depends on the home directory, or on the directory for
temporary files if no variable names a home.
-/

namespace CommandShell

/-- The settings of a shell. -/
structure Settings where
  /-- The name of the program. -/
  name : Text
  theme : Text
  editor : Text
  historyFile : Option Text
  logLevel : Text
  logDirectory : Text
  searchPath : Text
  terminal : Text
  deriving DecidableEq, Repr

/-- A way to edit the line. -/
inductive EditMode where
  | emacs
  | vi
  deriving DecidableEq, Repr

namespace Settings

/-- The name of the program. -/
def programName : Text :=
  "pipesh".toList

/-- The directory for what the program keeps. -/
def directory (environment : Environment) : Text :=
  match environment.get? "HOME".toList with
  | some home => Path.join home (".config/".toList ++ programName)
  | none => Path.join ((environment.get? "TMPDIR".toList).getD "/tmp".toList) programName

/-- The settings in an environment. -/
def ofEnvironment (environment : Environment) : Settings :=
  let value (key : String) (otherwise : Text) : Text :=
    (environment.getNonempty? key.toList).getD otherwise
  { name := programName
    theme := value "PIPESH_THEME" "plain".toList
    editor := value "PIPESH_EDITOR" "emacs".toList
    historyFile := environment.getNonempty? "HISTFILE".toList
    logLevel := value "PIPESH_LOG_LEVEL" "warn".toList
    logDirectory := value "PIPESH_LOG_DIR" (Path.join (directory environment) "logs".toList)
    searchPath := value "PATH" []
    terminal := value "TERM" [] }

/-- The kinds of terminal on which a line cannot be edited. -/
def simpleTerminals : List Text :=
  ["dumb".toList, "cons25".toList, "emacs".toList]

/-- How the line is edited: the name `vi` counts in capital and small letters. -/
def editMode (settings : Settings) : EditMode :=
  if settings.editor.map Char.toLower = "vi".toList then .vi else .emacs

/-- Whether the terminal is of a kind on which a line cannot be edited; the name of the kind
counts in capital and small letters. -/
def isSimple (settings : Settings) : Bool :=
  simpleTerminals.contains (settings.terminal.map Char.toLower)

end Settings

namespace World

/-- The world with the variables of its environment file, unless they cannot be set. -/
def configured (world : World) : Option World :=
  (EnvironmentFile.extend world.tree world.start world.environment).map fun environment =>
    { world with environment }

/-- The settings in a world. -/
def settings (world : World) : Settings :=
  .ofEnvironment world.environment

end World

end CommandShell
