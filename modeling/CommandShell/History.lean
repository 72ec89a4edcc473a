import CommandShell.FileTree.Access
import CommandShell.Path
import CommandShell.Text.Blank
import CommandShell.Text.Lines

/-!
# History lists

The lines that have been entered, and how many of them the history has already written to
its files.  A line of blanks is not entered, but a file may bring one in: loading leaves out
empty lines only.
-/

namespace CommandShell

/-- The mode of a file that the shell makes. -/
def newFileMode : Nat := 0o644

/-- A history list. -/
structure History where
  /-- The lines, the oldest first. -/
  entries : List Text := []
  /-- How many of them are not appended again. -/
  appended : Nat := 0
  deriving DecidableEq, Repr

namespace History

/-- The history after a line is entered. -/
def push (history : History) (line : Text) : History :=
  if line.isBlank then history else { history with entries := history.entries ++ [line] }

/-- The lines that a file with these bytes brings in. -/
def linesOf (content : Bytes) : Except SystemError (List Text) :=
  match Text.decode? content with
  | some text => .ok (text.lines.filter (fun line => !line.isEmpty))
  | none => .error .notText

/-- The history with the lines of a file after its own, and how many they are. -/
def load (history : History) (tree : FileTree) (base : Location) (path : Text) :
    Except SystemError (History × Nat) := do
  let content ← tree.read base (Path.route path)
  let lines ← linesOf content
  .ok ({ history with entries := history.entries ++ lines }, lines.length)

/-- The bytes of a file that holds lines. -/
def written (lines : List Text) : Bytes :=
  Text.encode (lines.flatMap Text.line)

/-- The history after all of it is written to a file, which is emptied before. -/
def save (history : History) (tree : FileTree) (base : Location) (path : Text) :
    Except SystemError (History × FileTree) := do
  let (opened, location) ← tree.openForWriting base (Path.route path) .truncate newFileMode
  .ok ({ history with appended := history.entries.length },
    opened.extend location (written history.entries))

/-- The history after the entries not yet appended are written to the end of a file. -/
def appendNew (history : History) (tree : FileTree) (base : Location) (path : Text) :
    Except SystemError (History × FileTree) := do
  let (opened, location) ← tree.openForWriting base (Path.route path) .append newFileMode
  .ok ({ history with appended := history.entries.length },
    opened.extend location (written (history.entries.drop history.appended)))

/-- An entry as it is listed under its number. -/
def listed (number : Nat) (entry : Text) : Text :=
  (Text.ofNat number).leftpad 5 ' ' ++ [' ', ' '] ++ entry

/-- The last `count` entries as they are listed, or all of them. -/
def listing (history : History) (count : Option Nat) : List Text :=
  let entries := history.entries.zipIdx 1
  (entries.drop (count.elim 0 (entries.length - ·))).map fun entry => listed entry.2 entry.1

end History

end CommandShell
