import CommandShell.Text.Cluster
import CommandShell.Text.Lines

/-!
# Reading lines

A line that is not typed at a terminal comes as bytes.  If they encode text, each backspace
in it removes the grapheme cluster before it, as far as there is one.  How many bytes that
is has been noted in a single byte, so of a cluster of 256 bytes or more too few are removed,
and the reader breaks down where that would leave a part of a character.
-/

namespace CommandShell

/-- What reading a line comes to. -/
inductive Reading where
  /-- A line. -/
  | line (text : Text)
  /-- Bytes that encode no text. -/
  | unreadable
  /-- A line of which a backspace would leave a part of a character. -/
  | broken
  deriving DecidableEq, Repr

/-- What is left of a line after some of its backspaces. -/
structure Draft where
  /-- Its characters, the last first. -/
  reversed : Text
  /-- How many bytes a backspace removes, for each cluster that is left, the last first. -/
  sizes : List UInt8
  deriving DecidableEq, Repr

namespace Draft

/-- The draft of an empty line. -/
def empty : Draft :=
  ⟨[], []⟩

/-- The draft without what a backspace removes, unless that leaves a part of a character. -/
def erase? (draft : Draft) : Option Draft :=
  match draft.sizes with
  | [] => some draft
  | size :: rest => (Text.dropBytes? size.toNat draft.reversed).map (⟨·, rest⟩)

/-- The draft with one more cluster. -/
def add (draft : Draft) (cluster : Text) : Draft :=
  ⟨cluster.reverse ++ draft.reversed, UInt8.ofNat (Text.size cluster) :: draft.sizes⟩

/-- The text that is left. -/
def text (draft : Draft) : Text :=
  draft.reversed.reverse

end Draft

namespace LineReader

/-- The character that removes what is before it. -/
def backspace : Char := '\x08'

/-- The draft after one more cluster, which may be a backspace. -/
def keep (draft : Draft) (cluster : Text) : Option Draft :=
  if cluster = [backspace] then draft.erase? else some (draft.add cluster)

/-- The text without its backspaces and what they remove, unless that leaves a part of a
character. -/
def applyBackspaces (text : Text) : Option Text :=
  (text.clusters.foldlM keep Draft.empty).map Draft.text

/-- What reading bytes as a line comes to. -/
def read (bytes : Bytes) : Reading :=
  match Text.decode? bytes with
  | none => .unreadable
  | some text =>
    match applyBackspaces text with
    | none => .broken
    | some line => .line line

/-- What reading the lines of an input comes to. -/
def lines (input : Bytes) : List Reading :=
  (Bytes.lines input).map read

end LineReader

end CommandShell
