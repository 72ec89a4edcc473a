import CommandShell.Interaction

/-!
# The command line

The program reads a script from its input, runs a shell on it in a world of its own, and
prints what the output and the error stream of the shell have received.  The world has
every program in one directory and an empty home directory.
-/

namespace CommandShell

/-- The location of a directory that a name leads to from the root. -/
def directoryNamed (text : Text) : Location :=
  [Step.ofPiece (Text.encode text)].filterMap Step.name?

/-- The tree with a file for a program. -/
def installProgram (tree : FileTree) (program : Program) : FileTree :=
  tree.put (directoryNamed "bin".toList ++ directoryNamed program.kind)
    (.file 0o755 (program.image 0))

/-- The world in which a script is run. -/
def World.ofScript (script : Bytes) : World where
  tree := (Program.all.foldl installProgram {}).put (directoryNamed "home".toList) (.directory [])
  start := directoryNamed "home".toList
  environment :=
    [Environment.entry "HOME".toList "/home".toList, Environment.entry "PATH".toList "/bin".toList]
  image := Program.image 0
  pipeRoom := 126
  opened := 0
  files := []
  pipes := []
  input := script
  output := {}
  errors := {}

/-- What is left of a stream of bytes. -/
partial def readToEnd (stream : IO.FS.Stream) (before : ByteArray) : IO ByteArray := do
  let chunk ← stream.read 4096
  if chunk.isEmpty then return before
  readToEnd stream (before ++ chunk)

end CommandShell

open CommandShell in
/-- Runs the script on the input. -/
def main : IO UInt32 := do
  let script ← readToEnd (← IO.getStdin) ByteArray.empty
  let outcome := (World.ofScript script.toList).runShell false
  (← IO.getStdout).write outcome.shell.world.output.content.toByteArray
  (← IO.getStderr).write outcome.shell.world.errors.content.toByteArray
  return if outcome.broken then 101 else 0
