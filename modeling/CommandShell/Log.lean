import CommandShell.Settings

/-!
# The log

The log is a file with the date in its name, in a directory that is made if need be.  Where
it cannot be opened the error stream says so.
-/

namespace CommandShell

/-- How much is logged. -/
inductive LogLevel where
  | off
  | error
  | warn
  | info
  | debug
  | trace
  deriving DecidableEq, Repr

namespace LogLevel

/-- Every level. -/
def all : List LogLevel :=
  [.off, .error, .warn, .info, .debug, .trace]

/-- The name of a level. -/
def name : LogLevel → Text
  | .off => "off".toList
  | .error => "error".toList
  | .warn => "warn".toList
  | .info => "info".toList
  | .debug => "debug".toList
  | .trace => "trace".toList

/-- The level with a name in capital or small letters; other names stand for warnings. -/
def ofName (text : Text) : LogLevel :=
  (all.find? (·.name = text.map Char.toLower)).getD .warn

end LogLevel

namespace Log

/-- The mode of a log file. -/
def fileMode : Nat := 0o666

/-- The name of the log file of a day. -/
def fileName (name date : Text) : Text :=
  name ++ ['_'] ++ date ++ ".log".toList

/-- The tree after the log file of a day is opened, and the failure if there is one. -/
def openIn (tree : FileTree) (base : Location) (settings : Settings) (date : Text) :
    FileTree × Option SystemError :=
  match tree.makeDirectories base (Path.route settings.logDirectory) with
  | (made, some error) => (made, some error)
  | (made, none) =>
    match made.openForWriting base
        (Path.route (Path.join settings.logDirectory (fileName settings.name date)))
        .append fileMode with
    | .ok (opened, _) => (opened, none)
    | .error error => (made, some error)

/-- The report of a log file that cannot be opened. -/
def report (settings : Settings) (error : SystemError) : Text :=
  settings.name ++ ": cannot open log file in ".toList ++ settings.logDirectory
    ++ ": ".toList ++ error.message

/-- The world after the log file of a day is opened, or its failure is reported. -/
def start (settings : Settings) (date : Text) (world : World) : World :=
  match openIn world.tree world.start settings date with
  | (tree, none) => world.withTree tree
  | (tree, some error) =>
    (world.withTree tree).tryWrite .stderr (Text.encode (Text.line (report settings error)))

end Log

end CommandShell
