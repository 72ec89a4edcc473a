import CommandShell.Text

/-!
# Streams

What a command reads from or writes to: one of the three streams of the shell itself, a
file that was opened, or an end of a pipe.  Files and pipes are numbered in the order in
which they were opened.  One write to the output of the shell takes whole lines first, and
of the line after them only what there is room for.
-/

namespace CommandShell

/-- A stream. -/
inductive Stream where
  | stdin
  | stdout
  | stderr
  | file (number : Nat)
  | pipeReader (number : Nat)
  | pipeWriter (number : Nat)
  deriving DecidableEq, Repr

/-- One of the two streams that a command writes to. -/
inductive Outlet where
  | output
  | error
  deriving DecidableEq, Repr

namespace Stream

/-- The name of the kind of stream. -/
def name : Stream → Text
  | .stdin => "stdin".toList
  | .stdout => "stdout".toList
  | .stderr => "stderr".toList
  | .file _ => "file".toList
  | .pipeReader _ => "pipe reader".toList
  | .pipeWriter _ => "pipe writer".toList

/-- The name of the kind of stream as a description. -/
def describe (stream : Stream) : Text :=
  "Stream(".toList ++ stream.name ++ ")".toList

/-- Whether the stream is one of the shell itself, which is never closed. -/
def isInherited : Stream → Bool
  | .stdin | .stdout | .stderr => true
  | .file _ | .pipeReader _ | .pipeWriter _ => false

/-- The bytes of an unfinished line for which the output of the shell has no room. -/
def lineRoom : Nat := 1024

/-- How many of the bytes one write to the stream takes: all, but the output of the shell
leaves an unfinished line that follows whole ones if it has no room for it. -/
def accepted (stream : Stream) (bytes : Bytes) : Nat :=
  let unfinished := (bytes.reverse.takeWhile (· ≠ 10)).length
  if stream = .stdout ∧ unfinished < bytes.length ∧ lineRoom ≤ unfinished then
    bytes.length - unfinished
  else bytes.length

end Stream

end CommandShell
