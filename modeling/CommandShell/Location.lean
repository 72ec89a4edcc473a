import CommandShell.Text

/-!
# Locations

A name in a directory is a list of bytes, which need not be the encoding of a text.  The names
on the way from the root make a location.  A route is a path in bytes; cut at its slashes it is
a list of steps: one stays, one goes up, one goes down to a name.
-/

namespace CommandShell

/-- The byte that a route is cut at. -/
def slash : UInt8 := 47

/-- The byte that alone, or twice, is no name. -/
def dot : UInt8 := 46

/-- Whether bytes can name something in a directory. -/
def isProperName (bytes : Bytes) : Bool :=
  !bytes.isEmpty && bytes ≠ [dot] && bytes ≠ [dot, dot] && !bytes.contains slash

/-- A name in a directory. -/
structure Name where
  bytes : Bytes
  proper : isProperName bytes = true
  deriving DecidableEq, Repr

/-- The text of a name, if it is one. -/
def Name.text? (name : Name) : Option Text :=
  Text.decode? name.bytes

/-- The names on the way from the root. -/
abbrev Location := List Name

/-- The route from the root to a location. -/
def Location.route (location : Location) : Bytes :=
  slash :: [slash].intercalate (location.map Name.bytes)

/-- A part of a route. -/
inductive Step where
  | stay
  | up
  | down (name : Name)
  deriving DecidableEq, Repr

namespace Step

/-- The step that the bytes between slashes stand for. -/
def ofPiece (piece : Bytes) : Step :=
  if h : isProperName piece = true then .down ⟨piece, h⟩
  else if piece = [dot, dot] then .up
  else .stay

/-- The name that a step goes down to. -/
def name? : Step → Option Name
  | .down name => some name
  | .stay | .up => none

end Step

namespace Route

/-- Whether a route starts at the root. -/
def isAbsolute (route : Bytes) : Bool :=
  route.head? = some slash

/-- The location where a route starts. -/
def origin (base : Location) (route : Bytes) : Location :=
  if isAbsolute route then [] else base

/-- The steps of a route. -/
def steps (route : Bytes) : List Step :=
  (route.splitOn slash).map Step.ofPiece

/-- The route without the slashes at its end. -/
def trimSlashes (route : Bytes) : Bytes :=
  (route.reverse.dropWhile (· = slash)).reverse

/-- The steps to the directory that holds what a route names. -/
def parentSteps (route : Bytes) : List Step :=
  (steps (trimSlashes route)).dropLast

/-- The name of what a route names, unless it is only reached by staying or going up. -/
def name? (route : Bytes) : Option Name :=
  (steps (trimSlashes route)).getLast?.bind Step.name?

/-- The routes to what contains the thing that a route names, from the inside out, without the
directory where the route starts. -/
def parents (route : Bytes) : List Bytes :=
  let pieces := (runs (· = slash) route).filter (· ≠ [dot])
  (List.range pieces.length).reverse.dropLast.map fun count =>
    (if isAbsolute route then [slash] else []) ++ [slash].intercalate (pieces.take count)

end Route

end CommandShell
