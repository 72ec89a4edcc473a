import CommandShell.Text

/-!
# Redirection operators

One of the two angles, single or doubled.  Output operators are carried out; the others
are only recognised.
-/

namespace CommandShell

/-- A redirection operator. -/
inductive Operator where
  /-- From a file. -/
  | input
  /-- From the lines that follow. -/
  | hereDocument
  /-- To a file, emptied before. -/
  | output
  /-- To the end of a file. -/
  | append
  deriving DecidableEq, Repr

namespace Operator

/-- The operator that an angle makes when it is single or doubled. -/
def ofAngle (c : Char) (doubled : Bool) : Operator :=
  if c = '<' then (if doubled then .hereDocument else .input)
  else (if doubled then .append else .output)

/-- The operator as it is written. -/
def text : Operator → Text
  | .input => ['<']
  | .hereDocument => ['<', '<']
  | .output => ['>']
  | .append => ['>', '>']

/-- Whether the operator writes to its target. -/
def isOutput : Operator → Bool
  | .output | .append => true
  | .input | .hereDocument => false

end Operator

end CommandShell
