import CommandShell.Trie

/-!
# Completion

What is typed of a command name is completed as far as the candidates agree.  When they
disagree at once the bell rings; a second attempt on the same line lists them.
-/

namespace CommandShell

/-- The answer to an attempt at completion. -/
inductive Completion where
  | bell
  | insert (text : Text)
  | list (names : List Text)
  deriving DecidableEq, Repr

/-- The command names, and what is remembered of the last attempt. -/
structure Completer where
  trie : Trie
  lastLine : Text := []
  /-- Whether another attempt on the last line lists the candidates. -/
  armed : Bool := false
  deriving DecidableEq, Repr

namespace Completer

/-- The part of a line before a position counted in bytes; all of it if no character starts
or ends there. -/
def typed (line : Text) (position : Nat) : Text :=
  (Text.takeBytes? position line).getD line

/-- Whether candidates may be listed at once for a line. -/
def armedFor (completer : Completer) (line : Text) : Bool :=
  completer.armed && (completer.lastLine.isEmpty || line = completer.lastLine)

/-- The answer for the candidates that begin with what is typed, and whether another attempt
then lists them. -/
def answer (trie : Trie) (armed : Bool) (typed : Text) : List Text → Completion × Bool
  | [] => (.bell, false)
  | [name] => (.insert (name.drop typed.length ++ [' ']), false)
  | first :: others =>
    let stem := trie.shared first (first :: others).length
    if typed.size < stem.size then (.insert (stem.drop typed.length), false)
    else if armed then (.list (first :: others), false)
    else (.bell, true)

/-- The answer to an attempt on a line at a position, and what is remembered of it. -/
def complete (completer : Completer) (line : Text) (position : Nat) : Completion × Completer :=
  let start := typed line position
  let (completion, armed) :=
    answer completer.trie (completer.armedFor line) start (completer.trie.matching start)
  (completion, { completer with lastLine := line, armed })

end Completer

/-- What an attempt shows: the text to insert, if there is one, and what is printed. -/
structure Shown where
  insertion : Option Text
  printed : Text
  deriving DecidableEq, Repr

namespace Completion

/-- What an answer shows to who sees a prompt and a line.  Names are listed below the line. -/
def shown (promptText line : Text) : Completion → Shown
  | .bell => ⟨none, ['\x07']⟩
  | .insert text => ⟨some text, []⟩
  | .list names =>
    ⟨none, '\r' :: (promptText ++ line).line ++ (Text.join [' ', ' '] names).line⟩

end Completion

end CommandShell
