import CommandShell.History
import CommandShell.SearchPath

/-!
# Sessions

A session has a directory of its own, against which the paths of its commands are resolved,
a search path and a history list.  Resolving is done on the path alone: a step up drops
the name before it, whether or not that name exists.
-/

namespace CommandShell

/-- The state that the commands of a shell share. -/
structure Session where
  /-- The path of the directory. -/
  directory : Text
  search : SearchPath
  history : History := {}

namespace Session

/-- The path that a text stands for from a directory. -/
def resolveFrom (home : Option Text) (directory path : Text) : Text :=
  Path.normalize (Path.join directory (Path.expandHome home path))

/-- The path that a text stands for in the session. -/
def resolve (session : Session) (home : Option Text) (path : Text) : Text :=
  resolveFrom home session.directory path

end Session

end CommandShell
