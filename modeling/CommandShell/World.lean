import CommandShell.Environment
import CommandShell.FileTree.Access
import CommandShell.Path
import CommandShell.Program
import CommandShell.Sink
import CommandShell.Stream

/-!
# The world of a shell

What a shell acts on: the file tree, the files and pipes it has open, the bytes that its
input still yields and those that its output and error stream have received.  An open file
has an offset of its own, so two that are open at one location overwrite each other; one
opened for appending is always written at its end.
-/

namespace CommandShell

/-- A file that is open. -/
structure OpenFile where
  location : Location
  writable : Bool
  appends : Bool
  offset : Nat
  deriving DecidableEq, Repr

/-- A pipe: the bytes written and not yet read, and which of its ends are open. -/
structure Pipe where
  sink : Sink
  readerOpen : Bool
  writerOpen : Bool
  deriving DecidableEq, Repr

namespace Pipe

/-- A pipe that nothing has been written to. -/
def new : Pipe :=
  ⟨{}, true, true⟩

/-- The bytes written and not yet read. -/
def content (pipe : Pipe) : Bytes :=
  pipe.sink.content

end Pipe

/-- The state of everything outside a shell. -/
structure World where
  /-- The files and directories. -/
  tree : FileTree
  /-- The directory in which the shell was started. -/
  start : Location
  /-- The variables. -/
  environment : Environment
  /-- What a file that holds a program has for bytes. -/
  image : Program → Bytes
  /-- How many pipes can be open at once. -/
  pipeRoom : Nat
  /-- How many files have been opened for the line that runs. -/
  opened : Nat
  /-- Those of them that are open, with their numbers. -/
  files : List (Nat × OpenFile)
  /-- The pipes of the line that runs. -/
  pipes : List Pipe
  /-- What the input of the shell still yields. -/
  input : Bytes
  /-- What the output of the shell has received. -/
  output : Sink
  /-- What the error stream of the shell has received. -/
  errors : Sink

namespace World

/-- The world after its file tree has changed. -/
def withTree (world : World) (tree : FileTree) : World :=
  { world with tree }

/-- The home directory. -/
def home (world : World) : Option Text :=
  world.environment.home

/-- The world after an open file is written, and the file at its new offset. -/
def writeFile (world : World) (number : Nat) (file : OpenFile) (bytes : Bytes) : World :=
  let offset :=
    if file.appends then (world.tree.content file.location).length else file.offset
  { world with
    tree := world.tree.overwrite file.location offset bytes
    files := replace number { file with offset := offset + bytes.length } world.files }

/-- The world with another state of a pipe. -/
def setPipe (world : World) (number : Nat) (pipe : Pipe) : World :=
  { world with pipes := world.pipes.set number pipe }

/-- The world after bytes are written to a stream. -/
def write (world : World) (stream : Stream) (bytes : Bytes) : Except SystemError World :=
  match stream with
  | .stdout => .ok { world with output := world.output.write bytes }
  | .stderr => .ok { world with errors := world.errors.write bytes }
  | .file number =>
    match world.files.lookup number with
    | some file =>
      if file.writable then .ok (world.writeFile number file bytes) else .error .notOpenForWriting
    | none => .error .notOpenForWriting
  | .pipeWriter number =>
    match world.pipes[number]? with
    | some pipe =>
      if pipe.readerOpen || bytes.isEmpty then
        .ok (world.setPipe number { pipe with sink := pipe.sink.write bytes })
      else .error .brokenPipe
    | none => .error .notOpenForWriting
  | .stdin | .pipeReader _ => .error (.notWritable stream.name)

/-- How many of the bytes one write to a stream takes, and the world after it. -/
def writeOnce (world : World) (stream : Stream) (bytes : Bytes) :
    Except SystemError (Nat × World) :=
  let count := stream.accepted bytes
  (world.write stream (bytes.take count)).map (count, ·)

/-- The world after bytes are written to a stream; to write nothing never fails. -/
def writeAll (world : World) (stream : Stream) (bytes : Bytes) : Except SystemError World :=
  if bytes = [] then .ok world else world.write stream bytes

/-- The world after bytes are written to a stream, unless that fails. -/
def tryWrite (world : World) (stream : Stream) (bytes : Bytes) : World :=
  match world.writeAll stream bytes with
  | .ok written => written
  | .error _ => world

/-- The messages with those for one stream that follow each other made one. -/
def gather : List (Stream × Bytes) → List (Stream × Bytes)
  | [] => []
  | (stream, bytes) :: rest =>
    match gather rest with
    | [] => [(stream, bytes)]
    | (other, more) :: others =>
      if stream = other then (stream, bytes ++ more) :: others
      else (stream, bytes) :: (other, more) :: others

/-- The world after messages are written one by one, and the failure that kept the rest of
them from being written. -/
def deliver (world : World) : List (Stream × Bytes) → World × Option SystemError
  | [] => (world, none)
  | (stream, bytes) :: rest =>
    match world.writeAll stream bytes with
    | .ok written => written.deliver rest
    | .error error => (world, some error)

/-- The world after messages for two streams are written, and the failure that kept the rest
of them from being written. -/
def speak (world : World) (stream : Outlet → Stream) (messages : List (Outlet × Bytes)) :
    World × Option SystemError :=
  world.deliver (gather (messages.map fun message => (stream message.1, message.2)))

/-- What a stream yields up to its end, and the world after that. -/
def drain (world : World) (stream : Stream) : Bytes × World :=
  match stream with
  | .stdin => (world.input, { world with input := [] })
  | .pipeReader number =>
    match world.pipes[number]? with
    | some pipe => (pipe.content, world.setPipe number { pipe with sink := {} })
    | none => ([], world)
  | .stdout | .stderr | .file _ | .pipeWriter _ => ([], world)

/-- The world after a stream is closed. -/
def close (world : World) (stream : Stream) : World :=
  match stream with
  | .pipeReader number =>
    { world with pipes := world.pipes.modify number fun pipe => { pipe with readerOpen := false } }
  | .pipeWriter number =>
    { world with pipes := world.pipes.modify number fun pipe => { pipe with writerOpen := false } }
  | .file number => { world with files := world.files.filter (·.1 ≠ number) }
  | .stdin | .stdout | .stderr => world

/-- The world with new pipes, after the files and pipes of an earlier line are closed. -/
def openPipes (world : World) (count : Nat) : World :=
  { world with opened := 0, files := [], pipes := List.replicate count Pipe.new }

/-- The world with one more open file, and its stream. -/
def withFile (world : World) (file : OpenFile) : World × Stream :=
  ({ world with opened := world.opened + 1, files := (world.opened, file) :: world.files },
    .file world.opened)

/-- The world after the file that a path names is opened for writing, and its stream. -/
def openForWriting (world : World) (path : Text) (disposition : Disposition) (mode : Nat) :
    Except SystemError (World × Stream) := do
  let (tree, location) ← world.tree.openForWriting world.start (Path.route path) disposition mode
  .ok ((world.withTree tree).withFile ⟨location, true, disposition = .append, 0⟩)

/-- The world after the file that a path leads to is opened for reading, and its stream. -/
def openForReading (world : World) (path : Text) : Except SystemError (World × Stream) := do
  let trail ← world.tree.find world.start (Path.route path)
  if trail.node.isReadable then .ok (world.withFile ⟨trail.location, false, false, 0⟩)
  else .error .permissionDenied

/-- Whether a file is open for writing. -/
def isHeld (world : World) (location : Location) : Bool :=
  world.files.any fun entry => entry.2.writable && entry.2.location = location

/-- The program that a file with these bytes holds, whatever follows it. -/
def program? (world : World) (content : Bytes) : Option Program :=
  Program.all.find? fun program => (world.image program).isPrefixOf content

end World

end CommandShell
