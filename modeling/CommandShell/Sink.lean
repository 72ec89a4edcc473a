import CommandShell.Text

/-!
# Sinks

A sink receives bytes.  It keeps them with the last first, so that what it costs to write
does not depend on what has been written before.
-/

namespace CommandShell

/-- What bytes have been received. -/
structure Sink where
  reversed : Bytes := []
  deriving DecidableEq, Repr

namespace Sink

/-- The bytes in the order in which they were received. -/
def content (sink : Sink) : Bytes :=
  sink.reversed.reverse

/-- The sink after it has received bytes. -/
def write (sink : Sink) (bytes : Bytes) : Sink :=
  ⟨bytes.reverseAux sink.reversed⟩

@[simp]
theorem content_empty :
  content {} = []
  := rfl

@[simp]
theorem content_write (sink : Sink) (bytes : Bytes) :
  (sink.write bytes).content = sink.content ++ bytes
  := by
  simp [content, write, List.reverseAux_eq]

end Sink

end CommandShell
