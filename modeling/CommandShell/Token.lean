import CommandShell.Operator
import CommandShell.Word

/-!
# Tokens

The tokens of a stage are words and redirection operators.  The first word is the name of
the command and is kept as it is written.  Another word is cut at its angles, two equal
ones side by side making one operator, and every operator is given the number of the
stream it redirects when the word does not.
-/

namespace CommandShell

/-- A part of a command. -/
inductive Token where
  | word (text : Text)
  | operator (op : Operator)
  deriving DecidableEq, Repr

namespace Token

/-- The text of a token. -/
def text : Token → Text
  | .word text => text
  | .operator op => op.text

/-- Whether a text numbers one of the two output streams. -/
def isSelector (text : Text) : Bool :=
  text = ['1'] || text = ['2']

/-- The word of a text that is not empty. -/
def ofPiece (piece : Text) : List Token :=
  if piece = [] then [] else [.word piece]

/-- What stands before an operator: the piece to its left, and the number of the first
output stream unless the piece is a number. -/
def beforeOperator (piece : Text) : List Token :=
  if isSelector piece then [.word piece] else ofPiece piece ++ [.word ['1']]

/-- What has been read of a text but is no token yet. -/
inductive Unfinished where
  /-- The characters since the last operator, the last first. -/
  | piece (reversed : Text)
  /-- An angle that the next character may double. -/
  | angle (c : Char)
  deriving DecidableEq, Repr

/-- The tokens of what has been read followed by characters marked as angles or not. -/
def cut : Unfinished → List (Char × Bool) → List Token
  | .piece reversed, [] => ofPiece reversed.reverse
  | .angle c, [] => [.operator (.ofAngle c false)]
  | .piece reversed, (c, false) :: rest => cut (.piece (c :: reversed)) rest
  | .piece reversed, (c, true) :: rest => beforeOperator reversed.reverse ++ cut (.angle c) rest
  | .angle c, (d, false) :: rest => .operator (.ofAngle c false) :: cut (.piece [d]) rest
  | .angle c, (d, true) :: rest =>
    if d = c then .operator (.ofAngle c true) :: cut (.piece []) rest
    else .operator (.ofAngle c false) :: beforeOperator [] ++ cut (.angle d) rest

/-- The tokens of a text in which every angle redirects. -/
def ofText (text : Text) : List Token :=
  cut (.piece []) (text.map fun c => (c, isAngle c))

/-- The tokens of a word that does not come first. -/
def ofWord (word : Word) : List Token :=
  if word.redirects then cut (.piece []) word.angles else [.word word.text]

/-- The tokens of a stage. -/
def ofStage (stage : Text) : List Token :=
  match words stage with
  | [] => []
  | first :: others => .word first.raw :: others.flatMap ofWord

end Token

end CommandShell
