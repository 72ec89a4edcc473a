import CommandShell.Text

/-!
# Themes

A theme has a prompt and a style for errors.  Coloured text stands between the escape
sequence of the colour and the one that ends all colours; the colour is taken up again
after each such end within the text.
-/

namespace CommandShell

/-- A bright colour. -/
inductive Colour where
  | red
  | cyan
  deriving DecidableEq, Repr

namespace Colour

/-- The escape sequence that starts a colour. -/
def start : Colour → Text
  | .red => "\x1b[91m".toList
  | .cyan => "\x1b[96m".toList

/-- The escape sequence that ends all colours. -/
def reset : Text :=
  ['\x1b', '[', '0', 'm']

/-- The text with the colour taken up again wherever it ends. -/
def resume (colour : Colour) : Text → Text
  | '\x1b' :: '[' :: '0' :: 'm' :: rest => reset ++ colour.start ++ resume colour rest
  | c :: rest => c :: resume colour rest
  | [] => []

/-- The text in a colour, if colours are shown. -/
def paint (colour : Colour) (shown : Bool) (text : Text) : Text :=
  if shown && !text.isEmpty then colour.start ++ colour.resume text ++ reset else text

end Colour

/-- The looks of a shell. -/
inductive Theme where
  | plain
  | coloured
  deriving DecidableEq, Repr

namespace Theme

/-- The theme with a name; names without one stand for the plain theme. -/
def ofName (name : Text) : Theme :=
  if name = "color".toList then .coloured else .plain

/-- The prompt of a theme, colours being shown or not. -/
def promptText (theme : Theme) (shown : Bool) : Text :=
  match theme with
  | .plain => "$ ".toList
  | .coloured => Colour.cyan.paint shown "$ ".toList

/-- A text in the style for errors. -/
def styleError (theme : Theme) (shown : Bool) (text : Text) : Text :=
  match theme with
  | .plain => text
  | .coloured => Colour.red.paint shown text

end Theme

end CommandShell
