import CommandShell.Environment
import CommandShell.FileTree.Access
import CommandShell.Text.Blank
import CommandShell.Text.LetterOrNumber
import CommandShell.Text.Lines

/-!
# Environment files

An environment file gives values to variables that have none, one to a line: a name, an
equals sign and a value, which a comment may follow.  A blank ends a value that is not in
quotes; a dollar sign with a name stands for the value of that variable, but in single
quotes for itself.  The file is looked for in the directory of the shell and in those above
it, and is read up to the first line that is none of these, blank or a comment.
-/

namespace CommandShell.EnvironmentFile

/-- The name of an environment file. -/
def fileName : Name :=
  ⟨Text.encode ".env.development".toList, by decide⟩

/-- Whether a character can start the name of a variable. -/
def startsKey (c : Char) : Bool :=
  c.isAlpha || c = '_'

/-- Whether a character can go on in the name of a variable. -/
def isInKey (c : Char) : Bool :=
  c.isAlphanum || c = '_' || c = '.'

/-- Whether nothing but a comment is left of a line. -/
def isOver (text : Text) : Bool :=
  text.isEmpty || text.head? = some '#'

/-- Where in a value a character stands. -/
inductive Place where
  /-- Outside quotes. -/
  | bare
  /-- In single quotes. -/
  | single
  /-- In double quotes. -/
  | double
  /-- After a backslash, in double quotes or not. -/
  | escaped (quoted : Bool)
  /-- After a dollar sign and a part of a name, the last character of it first, in double quotes
  or not. -/
  | named (quoted : Bool) (reversed : Text)
  /-- In braces after a dollar sign, after a part of a name, the last character of it first, in
  double quotes or not. -/
  | braced (quoted : Bool) (reversed : Text)
  /-- After the value. -/
  | over
  /-- In the comment after the value. -/
  | comment
  deriving DecidableEq, Repr

namespace Place

/-- The place in double quotes or outside quotes. -/
def inside (quoted : Bool) : Place :=
  if quoted then .double else .bare

/-- The character that a backslash and the given one stand for, if they stand for one. -/
def escape? (c : Char) : Option Char :=
  if c = 'n' then some '\n'
  else if "\\'\"$ ".toList.contains c then some c
  else none

/-- The place after one more character of a value and what the character adds to the value,
unless it cannot stand there. -/
def step? (valueOf : Text → Text) (place : Place) (c : Char) : Option (Place × Text) :=
  match place with
  | .bare =>
    if c = '$' then some (.named false [], [])
    else if c = '\'' then some (.single, [])
    else if c = '"' then some (.double, [])
    else if c = '\\' then some (.escaped false, [])
    else if c = ' ' ∨ c = '\t' then some (.over, [])
    else some (.bare, [c])
  | .single => some (if c = '\'' then (.bare, []) else (.single, [c]))
  | .double =>
    if c = '$' then some (.named true [], [])
    else if c = '"' then some (.bare, [])
    else if c = '\\' then some (.escaped true, [])
    else some (.double, [c])
  | .escaped quoted => (escape? c).map fun char => (inside quoted, [char])
  | .named quoted reversed =>
    if isLetterOrNumber c then some (.named quoted (c :: reversed), [])
    else if c = '{' ∧ reversed = [] then some (.braced quoted [], [])
    else if c = '$' then some (.named quoted [], valueOf reversed.reverse)
    else some (inside quoted, valueOf reversed.reverse ++ [c])
  | .braced quoted reversed =>
    if c = '}' then some (inside quoted, valueOf reversed.reverse)
    else some (.braced quoted (c :: reversed), [])
  | .over =>
    if c = ' ' ∨ c = '\t' then some (.over, [])
    else if c = '#' then some (.comment, [])
    else none
  | .comment => some (.comment, [])

/-- What the end of the line adds to a value, unless something is left open there. -/
def finish? (valueOf : Text → Text) : Place → Option Text
  | .bare | .over | .comment | .escaped false => some []
  | .named false reversed => some (valueOf reversed.reverse)
  | .single | .double | .escaped true | .named true _ | .braced _ _ => none

end Place

/-- The value that a text writes from a place in it on. -/
def readValue? (valueOf : Text → Text) (place : Place) : Text → Option Text
  | [] => place.finish? valueOf
  | c :: rest =>
    (place.step? valueOf c).bind fun (next, added) =>
      (readValue? valueOf next rest).map (added ++ ·)

/-- The value that the rest of a line gives. -/
def value? (valueOf : Text → Text) (text : Text) : Option Text :=
  if isOver text then some [] else readValue? valueOf .bare text

/-- The name at the start of a text and what follows it and blanks. -/
def key? (text : Text) : Option (Text × Text) :=
  let key := text.takeWhile isInKey
  if key.head?.any startsKey then some (key, (text.drop key.length).dropWhile isBlank) else none

/-- The variable and the value of a line that starts with a name, or with `export` and a
name. -/
def entry? (valueOf : Text → Text) (text : Text) : Option (Text × Text) :=
  match key? text with
  | some (key, '=' :: rest) => (value? valueOf (rest.dropWhile isBlank)).map (key, ·)
  | some (prefixed, rest) =>
    if prefixed = "export".toList then
      match key? rest with
      | some (key, '=' :: rest) => (value? valueOf (rest.dropWhile isBlank)).map (key, ·)
      | _ => none
    else none
  | none => none

/-- The environment after the lines of a file, unless a variable without a value is to get one
that no variable can have. -/
def load : List Bytes → Environment → Option Environment
  | [], environment => some environment
  | line :: rest, environment =>
    match Text.decode? line with
    | none => some environment
    | some text =>
      let trimmed := ((text.dropWhile isBlank).reverse.dropWhile isBlank).reverse
      if isOver trimmed then load rest environment
      else
        match entry? (fun name => (environment.get? name).getD []) trimmed with
        | some (key, value) => (environment.setDefault? key value).bind (load rest)
        | none => some environment

/-- The directories from a location up to the root. -/
def upward (location : Location) : List Location :=
  (List.range (location.length + 1)).reverse.map location.take

/-- The bytes of the environment file in the first of some directories that has one.  One that
is there and cannot be read ends the search, and so does a route that cannot be followed. -/
def nearest? (tree : FileTree) : List Location → Option Bytes
  | [] => none
  | directory :: others =>
    match tree.read [] (Location.route (directory ++ [fileName])) with
    | .ok content => some content
    | .error .notFound | .error .isDirectory => nearest? tree others
    | .error _ => none

/-- The environment after the nearest environment file, if there is one. -/
def extend (tree : FileTree) (start : Location) (environment : Environment) :
    Option Environment :=
  match nearest? tree (upward start) with
  | none => some environment
  | some content => load (Bytes.lines content) environment

end CommandShell.EnvironmentFile
