import CommandShell.Command
import CommandShell.Script
import CommandShell.Shell

/-!
# Launching programs

A command that is no builtin launches a program.  The program reads the input of the command
and writes to its two output streams; when it cannot write it stops.  A file can be launched
if its owner may start it, nobody has it open for writing, and it holds a program or is a
script whose interpreter can be launched.  What the program is given, its name, its arguments
and the variables, has to fit into the room for it.
-/

namespace CommandShell

namespace Program

/-- The message that copies a named file, or says that it cannot be read. -/
def copied (world : World) (directory : Location) (route : Bytes) : Outlet × Bytes :=
  match world.tree.read directory route with
  | .ok bytes => (.output, bytes)
  | .error _ =>
    (.error, Text.encode "cat: ".toList ++ route ++ Text.encode ": cannot read\n".toList)

/-- The world after named files are copied one after another. -/
def copyAll (stream : Outlet → Stream) (directory : Location) : List Bytes → World → World
  | [], world => world
  | route :: rest, world =>
    match world.speak stream [copied world directory route] with
    | (written, none) => copyAll stream directory rest written
    | (stopped, some _) => stopped

/-- The world after the program has run. -/
def run (program : Program) (start : Start) (input : Stream) (stream : Outlet → Stream)
    (world : World) : World :=
  match program with
  | .copy =>
    if start.args = [] then
      let (bytes, drained) := world.drain input
      (drained.speak stream [(.output, bytes)]).1
    else copyAll stream start.directory start.args world
  | .capitalize =>
    let (bytes, drained) := world.drain input
    (drained.speak stream [(.output, bytes.map capital)]).1
  | .describe => (world.speak stream [(.output, description start)]).1
  | .speakTwice =>
    (world.speak stream
      [(.output, Text.encode "out\n".toList), (.error, Text.encode "err\n".toList)]).1
  | .complain => (world.speak stream [(.error, Text.encode "fail\n".toList)]).1
  | .idle => world

end Program

namespace World

/-- How many interpreters there can be on the way from a script to a program. -/
def maxInterpreters : Nat := 5

/-- The most bytes that a word or a variable passed to a program takes. -/
def maxPassedSize : Nat := 131072

/-- The most bytes that all that is passed to a program takes. -/
def passedRoom : Nat := 2097152

/-- The bytes that a word takes which is passed to a program: its own and one to end it. -/
def passedSize (word : Bytes) : Nat :=
  word.length + 1

/-- The bytes that words take which are passed to a program. -/
def passedSizes : List Bytes → Nat
  | [] => 0
  | word :: rest => passedSize word + passedSizes rest

/-- The variables as they are passed to a program. -/
def passedVariables (world : World) : List Bytes :=
  world.environment.map Text.encode

/-- The room for the words of a start: what the route to the program, the variables and a
reference of eight bytes to each word and variable leave. -/
def wordRoom (world : World) (route : Bytes) (start : Start) : Nat :=
  passedRoom - 8 * (start.words.length + world.passedVariables.length)
    - passedSizes (route :: world.passedVariables)

/-- Whether each word and each variable can be passed to a program. -/
def canPass (world : World) (start : Start) : Bool :=
  !start.words.any (·.contains 0)
    && (start.words ++ world.passedVariables).all (passedSize · ≤ maxPassedSize)

/-- The bytes of the file that a route leads to, if it can be launched. -/
def launchable? (world : World) (directory : Location) (route : Bytes) : Option Bytes :=
  match world.tree.find directory route with
  | .ok trail =>
    match trail.node with
    | .file mode content =>
      if (Node.file mode content).isStartable && !world.isHeld trail.location then some content
      else none
    | .directory _ => none
  | .error _ => none

/-- How the interpreter of the script that a route leads to is started: by its own route, with
its argument, the route of the script and the arguments of the script. -/
def interpreted (interpreter : Interpreter) (route : Bytes) (start : Start) : Start :=
  ⟨interpreter.route, interpreter.arg.toList ++ route :: start.args, start.directory⟩

/-- The program that a route leads to, through so many interpreters at most, and how it is
started; the words of every start on the way have to fit into a room. -/
def launch? (world : World) (room interpreters : Nat) (route : Bytes) (start : Start) :
    Option (Program × Start) :=
  if room < passedSizes start.words then none
  else
    (world.launchable? start.directory route).bind fun content =>
      match world.program? content with
      | some program => some (program, start)
      | none =>
        match interpreters with
        | 0 => none
        | interpreters + 1 =>
          (Interpreter.ofContent content).bind fun interpreter =>
            world.launch? room interpreters interpreter.route
              (interpreted interpreter route start)

end World

namespace Shell

/-- The shell after the program at a path is launched for a command, or has failed to be.  It
is launched in the session directory, from which a relative path is followed. -/
def launch (shell : Shell) (command : Command) (name path : Text) : Shell :=
  let world := shell.world
  match world.tree.locate world.start (Path.route shell.session.directory) with
  | .error _ => shell
  | .ok directory =>
    let route := Path.route path
    let start : Start := ⟨Text.encode name, command.args.map Text.encode, directory⟩
    if world.canPass start then
      match world.launch? (world.wordRoom route start) World.maxInterpreters route start with
      | none => shell
      | some (program, start) =>
        shell.withWorld (program.run start command.input command.stream world)
    else shell

/-- The shell after a command that is no builtin. -/
def runProgram (shell : Shell) (command : Command) : Shell :=
  let name := unquote command.name
  match shell.program? name with
  | some path => shell.launch command name path
  | none =>
    shell.withWorld (shell.world.tryWrite command.error
      (Text.encode (Text.line (command.name ++ ": command not found".toList))))

end Shell

end CommandShell
