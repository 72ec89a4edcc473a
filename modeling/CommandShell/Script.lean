import CommandShell.Text

/-!
# Scripts

A script is a file that names its interpreter in its first line, after a number sign and an
exclamation mark.  Only the first 256 bytes are looked at, with zeros after those of a shorter
file.  What follows the name in the line is one argument.
-/

namespace CommandShell

/-- The interpreter of a script. -/
structure Interpreter where
  route : Bytes
  arg : Option Bytes
  deriving DecidableEq, Repr

namespace Interpreter

/-- How many bytes of a file are looked at. -/
def headSize : Nat := 256

/-- Whether a byte is a space or a tabulator. -/
def isSpace (byte : UInt8) : Bool :=
  byte = 32 || byte = 9

/-- Whether a byte ends the route of an interpreter. -/
def endsRoute (byte : UInt8) : Bool :=
  isSpace byte || byte = 0

/-- The first line of the bytes that are looked at.  Where they hold no end of a line, it may
go on after them; then the route at least has to end within them. -/
def firstLine (head : Bytes) : Option Bytes :=
  if head.contains 10 then some (head.takeWhile (· ≠ 10))
  else if ((head.drop 2).dropWhile isSpace).any endsRoute then some head.dropLast
  else none

/-- The interpreter that a line names after its first two bytes. -/
def ofLine (line : Bytes) : Option Interpreter :=
  let trimmed := (line.reverse.dropWhile isSpace).reverse
  let named := (trimmed.drop 2).dropWhile isSpace
  let route := named.takeWhile fun byte => !endsRoute byte
  let rest := named.drop route.length
  if named = [] then none
  else if rest.head?.any isSpace then
    some ⟨route, some ((rest.dropWhile isSpace).takeWhile (· ≠ 0))⟩
  else some ⟨route, none⟩

/-- The interpreter of a file with these bytes, if they are a script. -/
def ofContent (content : Bytes) : Option Interpreter :=
  let head := (content.take headSize).rightpad headSize 0
  if head.take 2 = [35, 33] then (firstLine head).bind ofLine else none

end Interpreter

end CommandShell
