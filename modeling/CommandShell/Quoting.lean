import CommandShell.Text.Blank

/-!
# Quoting

How a character is quoted depends on the characters before it.  `Quoting` is what they
leave behind, and there are two ways to move past a character.  `Quoting.read` is for the
words of a stage: it also says what role the character has, and looks at the character
after it.  `Quoting.pass` is for the bars of a line: it looks at no other character.
-/

namespace CommandShell

/-- How the next character is quoted. -/
inductive Quoting where
  /-- Not at all. -/
  | bare
  /-- Between apostrophes. -/
  | single
  /-- Between quotation marks. -/
  | double
  /-- By the backslash before it, which may stand between quotation marks. -/
  | escaped (inDouble : Bool)
  deriving DecidableEq, Repr

/-- What a character of a stage is there for. -/
inductive Role where
  /-- To separate words. -/
  | blank
  /-- To quote other characters. -/
  | mark
  /-- To redirect a stream. -/
  | angle
  /-- To stand for itself. -/
  | literal
  deriving DecidableEq, Repr

/-- Whether a character redirects when it is bare. -/
def isAngle (c : Char) : Bool :=
  c = '>' || c = '<'

/-- Whether a backslash between quotation marks quotes the character. -/
def isEscapable (c : Char) : Bool :=
  c = '$' || c = '"' || c = '\\' || c = '\n'

namespace Quoting

/-- What an escaped character leaves behind. -/
def afterEscape (inDouble : Bool) : Quoting :=
  if inDouble then .double else .bare

/-- The role of a character of a stage, given the one after it, and the quoting it leaves
behind. -/
def read (quoting : Quoting) (c : Char) (next : Option Char) : Role × Quoting :=
  match quoting with
  | .escaped inDouble => (.literal, afterEscape inDouble)
  | .single => if c = '\'' then (.mark, .bare) else (.literal, .single)
  | .double =>
    if c = '"' then (.mark, .bare)
    else if c = '\\' ∧ next.any isEscapable then (.mark, .escaped true)
    else (.literal, .double)
  | .bare =>
    if isBlank c then (.blank, .bare)
    else if c = '\\' ∧ next.isSome then (.mark, .escaped false)
    else if c = '\'' then (.mark, .single)
    else if c = '"' then (.mark, .double)
    else if isAngle c then (.angle, .bare)
    else (.literal, .bare)

/-- The quoting that a character of a line leaves behind. -/
def pass (quoting : Quoting) (c : Char) : Quoting :=
  match quoting with
  | .escaped inDouble => afterEscape inDouble
  | .single => if c = '\'' then .bare else .single
  | .double => if c = '"' then .bare else if c = '\\' then .escaped true else .double
  | .bare =>
    if c = '\\' then .escaped false
    else if c = '\'' then .single
    else if c = '"' then .double
    else .bare

end Quoting

end CommandShell
