import CommandShell.Location

/-!
# Programs

The programs that files can hold, and what each of them is known by and says.
-/

namespace CommandShell

/-- A program. -/
inductive Program where
  /-- Copies files, or its input, to its output. -/
  | copy
  /-- Writes its name, its arguments and its directory. -/
  | describe
  /-- Copies its input in capital letters. -/
  | capitalize
  /-- Writes to both streams. -/
  | speakTwice
  /-- Writes to its error stream. -/
  | complain
  /-- Does nothing. -/
  | idle
  deriving DecidableEq, Repr

/-- How a program is started. -/
structure Start where
  name : Bytes
  args : List Bytes
  directory : Location
  deriving DecidableEq, Repr

/-- What a program is given: its name and its arguments. -/
def Start.words (start : Start) : List Bytes :=
  start.name :: start.args

namespace Program

/-- Every program. -/
def all : List Program :=
  [.copy, .describe, .capitalize, .speakTwice, .complain, .idle]

/-- The name by which a program is known. -/
def kind : Program → Text
  | .copy => "cat".toList
  | .describe => "show".toList
  | .capitalize => "upper".toList
  | .speakTwice => "both".toList
  | .complain => "fail".toList
  | .idle => "none".toList

/-- The bytes of a file that holds a program: four that say so, the name of the program, and
some that stand in no text. -/
def image (fill : Nat) (program : Program) : Bytes :=
  [0x7F, 0x45, 0x4C, 0x46] ++ Text.encode program.kind ++ List.replicate (fill + 1) 0xFF

/-- A byte with a small letter made capital. -/
def capital (byte : UInt8) : UInt8 :=
  if 97 ≤ byte ∧ byte ≤ 122 then byte - 32 else byte

/-- What a program says about how it was started. -/
def description (start : Start) : Bytes :=
  (start.words.flatMap fun word => Text.encode ['['] ++ word ++ Text.encode [']'])
    ++ Text.encode " in ".toList ++ start.directory.route ++ Text.encode ['\n']

end Program

end CommandShell
