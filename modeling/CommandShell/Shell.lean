import CommandShell.Session
import CommandShell.World

/-!
# Shells

A shell is a session and the world it acts on.
-/

namespace CommandShell

/-- A session in a world. -/
structure Shell where
  session : Session
  world : World

namespace Shell

/-- The path that a text stands for. -/
def resolve (shell : Shell) (path : Text) : Text :=
  shell.session.resolve shell.world.home path

/-- Whether a path leads to a directory. -/
def isDirectory (shell : Shell) (path : Text) : Bool :=
  shell.world.tree.isDirectory shell.world.start (Path.route path)

/-- The path of the program with a name. -/
def program? (shell : Shell) (name : Text) : Option Text :=
  shell.session.search.resolve shell.world.tree shell.world.start name

/-- The shell with another session directory. -/
def setDirectory (shell : Shell) (directory : Text) : Shell :=
  { shell with session := { shell.session with directory } }

/-- The shell with another history. -/
def setHistory (shell : Shell) (history : History) : Shell :=
  { shell with session := { shell.session with history } }

/-- The shell with another world. -/
def withWorld (shell : Shell) (world : World) : Shell :=
  { shell with world }

end Shell

end CommandShell
