import CommandShell.FileTree
import CommandShell.SystemError

/-!
# Walking a file tree

A route is followed one step at a time, and each step is taken in a directory: what a route
leads through has to exist, also where the route goes up again.  A relative route starts at
a given location.  On the way a trail is kept, so that a step up finds the directory above.
-/

namespace CommandShell

/-- The most bytes that a name has. -/
def maxNameSize : Nat := 255

/-- The most bytes that a route has. -/
def maxRouteSize : Nat := 4095

/-- The reason why a route cannot be followed anywhere, if there is one. -/
def Route.check (route : Bytes) : Except SystemError Unit :=
  if route.contains 0 then .error .nulInPath
  else if route = [] then .error .notFound
  else if maxRouteSize < route.length then .error .nameTooLong
  else .ok ()

/-- A node and the directories on the way to it. -/
structure Trail where
  node : Node
  /-- The directories above the node, the nearest first, each with the name that leads on from
  it. -/
  above : List (Name × Node)

namespace Trail

/-- The location of the node. -/
def location (trail : Trail) : Location :=
  (trail.above.map Prod.fst).reverse

/-- The trail one step up; the root has nothing above it. -/
def up (trail : Trail) : Trail :=
  match trail.above with
  | [] => trail
  | (_, node) :: above => ⟨node, above⟩

/-- The trail one step down to a name. -/
def down (trail : Trail) (name : Name) : Except SystemError Trail :=
  if maxNameSize < name.bytes.length then .error .nameTooLong
  else
    match trail.node.child? name with
    | some node => .ok ⟨node, (name, trail.node) :: trail.above⟩
    | none => .error .notFound

/-- The trail after a step. -/
def step (trail : Trail) (step : Step) : Except SystemError Trail :=
  if trail.node.isDirectory then
    match step with
    | .stay => .ok trail
    | .up => .ok trail.up
    | .down name => trail.down name
  else .error .notDirectory

/-- The trail after steps. -/
def walk (trail : Trail) : List Step → Except SystemError Trail
  | [] => .ok trail
  | step :: rest => do
    let next ← trail.step step
    next.walk rest

end Trail

namespace FileTree

/-- The trail that ends at the root. -/
def trail (tree : FileTree) : Trail :=
  ⟨tree.root, []⟩

/-- The trail that steps leave behind after those to a location. -/
def walk (tree : FileTree) (here : Location) (steps : List Step) : Except SystemError Trail :=
  tree.trail.walk (here.map Step.down ++ steps)

/-- The trail to what a route leads to. -/
def find (tree : FileTree) (base : Location) (route : Bytes) : Except SystemError Trail := do
  Route.check route
  tree.walk (Route.origin base route) (Route.steps route)

/-- The location that a route leads to. -/
def locate (tree : FileTree) (base : Location) (route : Bytes) : Except SystemError Location :=
  (tree.find base route).map Trail.location

/-- What there is where a route leads to. -/
def lookup (tree : FileTree) (base : Location) (route : Bytes) : Option Node :=
  (tree.find base route).toOption.map Trail.node

/-- Whether a route leads to a directory. -/
def isDirectory (tree : FileTree) (base : Location) (route : Bytes) : Bool :=
  (tree.lookup base route).any Node.isDirectory

/-- Whether a route leads to a file. -/
def isFile (tree : FileTree) (base : Location) (route : Bytes) : Bool :=
  (tree.lookup base route).any Node.isFile

/-- Whether a route leads to a file with an execute bit. -/
def isExecutable (tree : FileTree) (base : Location) (route : Bytes) : Bool :=
  (tree.lookup base route).any Node.isExecutable

/-- The trail to the directory in which a route names something. -/
def findParent (tree : FileTree) (base : Location) (route : Bytes) : Except SystemError Trail := do
  Route.check route
  let parent ← tree.walk (Route.origin base route) (Route.parentSteps route)
  if parent.node.isDirectory then .ok parent else .error .notDirectory

end FileTree

end CommandShell
