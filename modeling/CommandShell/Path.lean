import CommandShell.Text

/-!
# Paths

A path is a text.  Cut at its slashes it is a list of pieces: one that is empty or a dot stays,
two dots go up, and any other goes down to a name.  Followed without a file tree the pieces
lead to a list of names; `Path.normalize` is the path that has these names as its pieces.
-/

namespace CommandShell.Path

/-- Whether a path starts at the root. -/
def isAbsolute (path : Text) : Bool :=
  path.head? = some '/'

/-- The path that follows one path from another. -/
def join (path other : Text) : Text :=
  if isAbsolute other then other
  else if path = [] ∨ path.getLast? = some '/' then path ++ other
  else path ++ '/' :: other

/-- The names on the way, the last first, after one more piece; where there is no name left
nothing is above. -/
def climb (names : List Text) (piece : Text) : List Text :=
  if piece = [] ∨ piece = ['.'] then names
  else if piece = ['.', '.'] then names.tail
  else piece :: names

/-- The names that a path leads to. -/
def names (path : Text) : List Text :=
  ((path.splitOn '/').foldl climb []).reverse

/-- The path without pieces that stay or go up. -/
def normalize (path : Text) : Text :=
  let relative := Text.join ['/'] (names path)
  if isAbsolute path then '/' :: relative else relative

/-- The path with the home directory in place of a leading tilde that a slash or nothing
follows. -/
def expandHome (home : Option Text) (path : Text) : Text :=
  match home, path with
  | some directory, '~' :: rest =>
    if rest = [] ∨ rest.head? = some '/' then directory ++ rest else path
  | _, _ => path

/-- The bytes of a path, by which a file tree knows it. -/
def route (path : Text) : Bytes :=
  Text.encode path

end CommandShell.Path
