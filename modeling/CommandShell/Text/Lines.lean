import CommandShell.Text

/-!
# Lines

A line ends at a line feed, which is not part of it; one carriage return before the line
feed is not part of it either.  What follows the last line feed is a line unless it is
empty, and keeps its carriage return.
-/

namespace CommandShell

/-- A list without its last element, if that is `a`. -/
def dropLastOf {α : Type} [DecidableEq α] (a : α) (elements : List α) : List α :=
  if elements.getLast? = some a then elements.dropLast else elements

/-- The lines of a list in which `feed` ends a line and `carriage` may stand before it. -/
def linesAt {α : Type} [DecidableEq α] (feed carriage : α) (elements : List α) :
    List (List α) :=
  let pieces := elements.splitOn feed
  pieces.dropLast.map (dropLastOf carriage) ++
    pieces.getLast?.toList.filter (fun piece => !piece.isEmpty)

/-- The lines of a text. -/
def Text.lines (text : Text) : List Text :=
  linesAt '\n' '\r' text

/-- The lines of encoded text, each still encoded. -/
def Bytes.lines (bytes : Bytes) : List Bytes :=
  linesAt 10 13 bytes

end CommandShell
