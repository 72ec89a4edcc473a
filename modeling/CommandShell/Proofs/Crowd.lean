import CommandShell.Proofs.Resolving
import CommandShell.Proofs.Target

/-!
# Calls of `cd` at once

The stages of a line share one session.  A call of `cd` reads the session directory to resolve its
target, tests the path that it has resolved, and sets the directory: three actions, between which
others may act (`Crowd.Step`).  A call is pending if it is going to enter a directory that it has
found from the session directory; a step is orderly if it does not change the directory while a call
is pending (`Crowd.OrderlyStep`).

A call is settled when it sets the directory, or when it has resolved its target to no directory.
After orderly steps the calls that are settled have done what they do one after another in the order
in which they were settled (`Crowd.Follows.step`), and so have all calls when they are over
(`Crowd.serializes_of_run`).  All steps are orderly if no target is relative
(`Crowd.orderly_of_absolute`) or there is a single call (`Crowd.orderly_of_single`).
-/

namespace CommandShell

/-! ### Worlds with the same directories -/

/-- Whether two worlds have the same home and the same directories. -/
structure World.SameDirectories (before after : World) : Prop where
  home_eq : after.home = before.home
  isDirectory_eq : ∀ route,
    after.tree.isDirectory after.start route = before.tree.isDirectory before.start route

theorem World.SameDirectories.symm {before after : World} (h : before.SameDirectories after) :
  after.SameDirectories before
  := ⟨h.home_eq.symm, fun route => (h.isDirectory_eq route).symm⟩

theorem World.SameDirectories.trans {first second third : World}
    (h : first.SameDirectories second) (h' : second.SameDirectories third) :
  first.SameDirectories third
  := by
  constructor
  · rw [h'.home_eq, h.home_eq]
  · intro route
    rw [h'.isDirectory_eq, h.isDirectory_eq]

theorem World.Evolves.sameDirectories {before after : World} {scope : World.Scope}
    (h : before.Evolves scope after) :
  before.SameDirectories after
  := by
  constructor
  · apply h.confined.home_eq
  · intro route
    rw [h.confined.start_eq, h.confined.edited.isDirectory_eq]

namespace Shell

section

variable {before after : Shell}

theorem isDirectory_of_same (h : before.world.SameDirectories after.world) (path : Text) :
  after.isDirectory path = before.isDirectory path
  := h.isDirectory_eq _

theorem resolve_of_same (h : before.world.SameDirectories after.world)
    (hd : after.session.directory = before.session.directory) (target : Text) :
  after.resolve target = before.resolve target
  := by
  rw [resolve, resolve, Session.resolve, Session.resolve, hd, h.home_eq]

/-- A call enters the same directories where the session directory and all directories are the
same. -/
theorem enters_iff_of_same (h : before.world.SameDirectories after.world)
    (hd : after.session.directory = before.session.directory) {call : Call} {path : Text} :
  after.Enters call path ↔ before.Enters call path
  := by
  simp only [Enters, resolve_of_same h hd, isDirectory_of_same h]

/-- `cd` does the same where the session directory and all directories are the same. -/
theorem respond_cd_of_same (h : before.world.SameDirectories after.world)
    (hd : after.session.directory = before.session.directory) {args : List Text}
    {moved : Shell} {lines : List (Outlet × Text)}
    (hr : Builtin.cd.respond args before = ⟨moved, lines, .proceed⟩) :
  Builtin.cd.respond args after
    = ⟨after.setDirectory moved.session.directory, lines, .proceed⟩
  := by
  by_cases he : ∃ path, before.Enters ⟨Builtin.cd.name, args⟩ path
  · obtain ⟨path, he⟩ := he
    rw [Builtin.respond_cd_of_enters he] at hr
    obtain ⟨rfl, rfl, -⟩ := Response.mk.inj hr
    apply Builtin.respond_cd_of_enters ((enters_iff_of_same h hd).mpr he)
  · rw [not_exists] at he
    rw [Builtin.respond_cd_of_not_enters he] at hr
    obtain ⟨rfl, rfl, -⟩ := Response.mk.inj hr
    rw [← hd]
    apply Builtin.respond_cd_of_not_enters
    intro path hp
    apply he path ((enters_iff_of_same h hd).mp hp)

/-- `cd` changes nothing but the directory. -/
theorem shell_respond_cd (args : List Text) (shell : Shell) :
  (Builtin.cd.respond args shell).shell
    = shell.setDirectory (Builtin.cd.respond args shell).shell.session.directory
  := by
  by_cases he : ∃ path, shell.Enters ⟨Builtin.cd.name, args⟩ path
  · obtain ⟨path, he⟩ := he
    rw [Builtin.respond_cd_of_enters he]
    rfl
  · rw [not_exists] at he
    rw [Builtin.respond_cd_of_not_enters he]
    rfl

theorem world_respond_cd (args : List Text) (shell : Shell) :
  (Builtin.cd.respond args shell).shell.world = shell.world
  := by
  rw [shell_respond_cd]
  rfl

end

/-- Nothing is read of the directory to resolve a target that is not relative. -/
theorem resolve_of_isAbsolute {shell : Shell} {target : Text}
    (h : Path.isAbsolute (Path.expandHome shell.world.home target) = true) :
  shell.resolve target = Path.normalize (Path.expandHome shell.world.home target)
  := by
  rw [resolve, Session.resolve, Session.resolveFrom, Path.join, if_pos h]

/-! ### Calls one after another -/

/-- The shell after calls of `cd` with some arguments, one after another, and what they report. -/
def inTurn (shell : Shell) : List (List Text) → Shell × List (Outlet × Text)
  | [] => (shell, [])
  | args :: rest =>
    let response := Builtin.cd.respond args shell
    let (last, lines) := response.shell.inTurn rest
    (last, response.lines ++ lines)

theorem inTurn_concat (shell : Shell) (order : List (List Text)) (args : List Text) :
  let (last, lines) := shell.inTurn order
  let response := Builtin.cd.respond args last
  shell.inTurn (order ++ [args]) = (response.shell, lines ++ response.lines)
  := by
  induction order generalizing shell with
  | nil => simp [inTurn]
  | cons first rest ih =>
    dsimp only at ih ⊢
    rw [List.cons_append, inTurn, ih]
    simp [inTurn]

/-- Whether calls of `cd` leave a directory and report lines, in any order, when they run one after
another in some order. -/
def Serializes (shell : Shell) (calls : List (List Text)) (directory : Text)
    (lines : List (Outlet × Text)) : Prop :=
  ∃ order : List (List Text), order.Perm calls
    ∧ (shell.inTurn order).1.session.directory = directory
    ∧ (shell.inTurn order).2.Perm lines

end Shell

/-! ### Actions -/

/-- The arguments of a call of `cd`. -/
def Call.cdArgs? (call : Call) : Option (List Text) :=
  if call.name = Builtin.cd.name then some call.args else none

/-- The arguments of the calls of `cd` among the calls of stages. -/
def Call.cdArgs (calls : List (Option Call)) : List (List Text) :=
  calls.filterMap (·.bind Call.cdArgs?)

/-- How far a call of `cd` is. -/
inductive Progress where
  | waiting
  /-- It has resolved its target. -/
  | resolved (path : Text)
  /-- It has found a directory at the path. -/
  | found (path : Text)
  | entered
  | refused
  deriving DecidableEq, Repr

/-- A call of `cd` that is under way. -/
structure Move where
  args : List Text
  progress : Progress
  deriving DecidableEq, Repr

namespace Move

/-- The single actions of a call in the shell that it shares. -/
inductive Acts (shell : Shell) : Move → Shell → Move → Prop where
  | read (target : Text) :
      Acts shell ⟨[target], .waiting⟩ shell ⟨[target], .resolved (shell.resolve target)⟩
  | balk {args : List Text} (h : ∀ target, args ≠ [target]) :
      Acts shell ⟨args, .waiting⟩ shell ⟨args, .refused⟩
  | accept {args : List Text} {path : Text} (h : shell.isDirectory path = true) :
      Acts shell ⟨args, .resolved path⟩ shell ⟨args, .found path⟩
  | refuse {args : List Text} {path : Text} (h : shell.isDirectory path = false) :
      Acts shell ⟨args, .resolved path⟩ shell ⟨args, .refused⟩
  | enter (args : List Text) (path : Text) :
      Acts shell ⟨args, .found path⟩ (shell.setDirectory path) ⟨args, .entered⟩

/-- Whether a call is over. -/
def IsDone (move : Move) : Prop :=
  move.progress = .entered ∨ move.progress = .refused

/-- Whether a call has not begun or is over. -/
def IsIdle (move : Move) : Prop :=
  move.progress = .waiting ∨ move.IsDone

/-- What a call has reported. -/
def lines (move : Move) : List (Outlet × Text) :=
  if move.progress = .refused then [(.error, Builtin.refusal move.args)] else []

/-- Whether a call is going to enter a path. -/
def HeadsFor (move : Move) (shell : Shell) (path : Text) : Prop :=
  move.progress = .found path ∨ move.progress = .resolved path ∧ shell.isDirectory path = true

/-- Whether a call is going to enter a path that it has found from the session directory. -/
def IsPending (move : Move) (shell : Shell) : Prop :=
  ∃ target path, move.args = [target]
    ∧ Path.isAbsolute (Path.expandHome shell.world.home target) = false
    ∧ move.HeadsFor shell path

/-- The arguments and the reports of a call that is over or is going to enter no path. -/
def settled? (move : Move) (shell : Shell) : Option (List Text × List (Outlet × Text)) :=
  match move.progress with
  | .waiting | .found _ => none
  | .resolved path =>
    if shell.isDirectory path then none
    else some (move.args, [(.error, Builtin.refusal move.args)])
  | .entered => some (move.args, [])
  | .refused => some (move.args, [(.error, Builtin.refusal move.args)])

section

variable {move : Move}

theorem IsIdle.not_headsFor (h : move.IsIdle) (shell : Shell) (path : Text) :
  ¬ move.HeadsFor shell path
  := by
  obtain ⟨args, progress⟩ := move
  rcases h with rfl | rfl | rfl <;> rintro (hp | ⟨hp, -⟩) <;> contradiction

theorem IsIdle.not_isPending (h : move.IsIdle) (shell : Shell) :
  ¬ move.IsPending shell
  := by
  rintro ⟨_, path, -, -, hp⟩
  apply h.not_headsFor shell path hp

theorem headsFor_resolved_iff {shell : Shell} {args : List Text} {found path : Text} :
  HeadsFor ⟨args, .resolved found⟩ shell path ↔ found = path ∧ shell.isDirectory found = true
  := by
  simp only [HeadsFor, Progress.resolved.injEq, reduceCtorEq, false_or]
  constructor <;> rintro ⟨rfl, hd⟩ <;> exact ⟨rfl, hd⟩

theorem headsFor_found_iff {shell : Shell} {args : List Text} {found path : Text} :
  HeadsFor ⟨args, .found found⟩ shell path ↔ found = path
  := by
  simp [HeadsFor]

/-- A call that is over is settled with what it has reported. -/
theorem IsDone.settled?_eq (h : move.IsDone) (shell : Shell) :
  move.settled? shell = some (move.args, move.lines)
  := by
  obtain ⟨args, progress⟩ := move
  rcases h with rfl | rfl <;> rfl

variable {before after : Shell}

theorem settled?_of_same (h : before.world.SameDirectories after.world) (move : Move) :
  move.settled? after = move.settled? before
  := by
  simp only [settled?, Shell.isDirectory_of_same h]

theorem headsFor_iff_of_same (h : before.world.SameDirectories after.world) {path : Text} :
  move.HeadsFor after path ↔ move.HeadsFor before path
  := by
  simp only [HeadsFor, Shell.isDirectory_of_same h]

end

end Move

/-- A shell and the calls of `cd` that are under way in it. -/
structure Crowd where
  shell : Shell
  moves : List Move

namespace Crowd

/-- The crowds that one action leads to: one of a call, or one of something else that leaves the
directory. -/
inductive Step : Crowd → Crowd → Prop where
  | act {shell after : Shell} {move moved : Move} (earlier later : List Move)
      (h : move.Acts shell after moved) :
      Step ⟨shell, earlier ++ move :: later⟩ ⟨after, earlier ++ moved :: later⟩
  | other {shell after : Shell} {scope : World.Scope} (moves : List Move)
      (he : shell.world.Evolves scope after.world)
      (hd : after.session.directory = shell.session.directory) :
      Step ⟨shell, moves⟩ ⟨after, moves⟩

/-- A step that sets the directory to another one only if no call is pending. -/
structure OrderlyStep (before after : Crowd) : Prop where
  step : before.Step after
  directory_eq : ∀ move ∈ after.moves, move.IsPending after.shell →
    after.shell.session.directory = before.shell.session.directory

/-- The calls of `cd` with some arguments before they begin. -/
def waiting (shell : Shell) (calls : List (List Text)) : Crowd :=
  ⟨shell, calls.map (⟨·, .waiting⟩)⟩

theorem map_args_waiting (shell : Shell) (calls : List (List Text)) :
  (waiting shell calls).moves.map Move.args = calls
  := by
  simp [waiting, Function.comp_def]

/-- Whether all calls are over. -/
def IsDone (crowd : Crowd) : Prop :=
  ∀ move ∈ crowd.moves, move.IsDone

/-- What the calls have reported. -/
def lines (crowd : Crowd) : List (Outlet × Text) :=
  crowd.moves.flatMap Move.lines

/-- The calls that are settled. -/
def settled (crowd : Crowd) : List (List Text × List (Outlet × Text)) :=
  crowd.moves.filterMap (·.settled? crowd.shell)

/-! ### The order in which calls are settled -/

/-- Whether calls that run one after another, in an order and from a shell, do what the calls of a
crowd have done that are settled, and the others are going to enter what their targets stand for. -/
structure Follows (start : Shell) (order : List (List Text)) (crowd : Crowd) : Prop where
  same : start.world.SameDirectories crowd.shell.world
  order_perm : order.Perm (crowd.settled.map Prod.fst)
  lines_perm : (start.inTurn order).2.Perm (crowd.settled.flatMap Prod.snd)
  shell_inTurn : (start.inTurn order).1 = start.setDirectory crowd.shell.session.directory
  enters : ∀ move ∈ crowd.moves, ∀ path, move.HeadsFor crowd.shell path →
    crowd.shell.Enters ⟨Builtin.cd.name, move.args⟩ path

theorem follows_waiting {start shell : Shell} (h : start.world.SameDirectories shell.world)
    (hd : shell.session.directory = start.session.directory) (calls : List (List Text)) :
  Follows start [] (waiting shell calls)
  := by
  have hs : (waiting shell calls).settled = [] := by
    simp [settled, waiting, List.filterMap_map, Move.settled?]
  refine ⟨h, by simp [hs], by simp [hs, Shell.inTurn], ?_, ?_⟩
  · rw [waiting, hd]
    rfl
  · intro move hm path hp
    obtain ⟨args, -, rfl⟩ := List.mem_map.mp hm
    exact absurd hp (Move.IsIdle.not_headsFor (.inl rfl) _ _)

section

variable {start shell after : Shell} {order : List (List Text)} {move moved : Move}
  {earlier later : List Move}

/-- A call that goes on and is not settled by it leaves the order. -/
theorem Follows.go_on (h : Follows start order ⟨shell, earlier ++ move :: later⟩)
    (hs : moved.settled? shell = move.settled? shell)
    (he : ∀ path, moved.HeadsFor shell path →
      shell.Enters ⟨Builtin.cd.name, moved.args⟩ path) :
  Follows start order ⟨shell, earlier ++ moved :: later⟩
  := by
  have hm : settled ⟨shell, earlier ++ moved :: later⟩
      = settled ⟨shell, earlier ++ move :: later⟩ := by
    simp [settled, List.filterMap_cons, hs]
  obtain ⟨hw, hp, hl, ht, ha⟩ := h
  refine ⟨hw, hm ▸ hp, hm ▸ hl, ht, ?_⟩
  rw [List.forall_mem_append, List.forall_mem_cons] at ha ⊢
  exact ⟨ha.1, he, ha.2.2⟩

/-- A call that is settled by an action is the next in the order if the action does what the call
does by itself. -/
theorem Follows.settle {lines : List (Outlet × Text)}
    (h : Follows start order ⟨shell, earlier ++ move :: later⟩)
    (hs : move.settled? shell = none) (hs' : moved.settled? shell = some (move.args, lines))
    (hr : Builtin.cd.respond move.args shell = ⟨after, lines, .proceed⟩)
    (he : ∀ other ∈ earlier ++ moved :: later, ∀ path, other.HeadsFor after path →
      after.Enters ⟨Builtin.cd.name, other.args⟩ path) :
  Follows start (order ++ [move.args]) ⟨after, earlier ++ moved :: later⟩
  := by
  have hd := Shell.shell_respond_cd move.args shell
  rw [hr] at hd
  obtain ⟨directory, rfl⟩ : ∃ directory, after = shell.setDirectory directory := ⟨_, hd⟩
  have hp : (settled ⟨shell.setDirectory directory, earlier ++ moved :: later⟩).Perm
      (settled ⟨shell, earlier ++ move :: later⟩ ++ [(move.args, lines)]) := by
    have hs'' : moved.settled? (shell.setDirectory directory) = some (move.args, lines) := hs'
    simp only [settled, List.filterMap_append, List.filterMap_cons, hs, hs'', List.append_assoc]
    apply List.Perm.append_left
    apply (List.perm_append_singleton _ _).symm
  have ht : start.inTurn (order ++ [move.args])
      = (start.setDirectory directory, (start.inTurn order).2 ++ lines) := by
    have hw : shell.world.SameDirectories (start.setDirectory shell.session.directory).world :=
      h.same.symm
    rw [Shell.inTurn_concat, h.shell_inTurn]
    dsimp only
    rw [Shell.respond_cd_of_same hw rfl hr]
    rfl
  refine ⟨h.same, ?_, ?_, congrArg Prod.fst ht, he⟩
  · have hm := hp.map Prod.fst
    rw [List.map_append] at hm
    apply (h.order_perm.append_right _).trans hm.symm
  · have hm := hp.flatMap_right Prod.snd
    rw [List.flatMap_append, List.flatMap_singleton] at hm
    rw [ht]
    apply (h.lines_perm.append_right _).trans hm.symm

/-- A call that enters nothing is the next in the order when that is settled. -/
theorem Follows.refuse (h : Follows start order ⟨shell, earlier ++ move :: later⟩)
    (hs : move.settled? shell = none)
    (hs' : moved.settled? shell = some (move.args, [(.error, Builtin.refusal move.args)]))
    (hn : ∀ path, ¬ shell.Enters ⟨Builtin.cd.name, move.args⟩ path)
    (hm : ∀ path, ¬ moved.HeadsFor shell path) :
  Follows start (order ++ [move.args]) ⟨shell, earlier ++ moved :: later⟩
  := by
  apply h.settle hs hs' (Builtin.respond_cd_of_not_enters hn)
  have ha := h.enters
  rw [List.forall_mem_append, List.forall_mem_cons] at ha ⊢
  exact ⟨ha.1, fun path hp => absurd hp (hm path), ha.2.2⟩

/-- A call that is left to enter a path after an orderly step that sets the directory enters what
its target stands for then. -/
theorem enters_of_orderly {directory path : Text}
    (h : shell.Enters ⟨Builtin.cd.name, move.args⟩ path) (hp : move.HeadsFor shell path)
    (ho : move.IsPending (shell.setDirectory directory) → directory = shell.session.directory) :
  (shell.setDirectory directory).Enters ⟨Builtin.cd.name, move.args⟩ path
  := by
  obtain ⟨target, hc, hr, hd⟩ := h
  refine ⟨target, hc, ?_, hd⟩
  rw [← hr]
  cases ha : Path.isAbsolute (Path.expandHome shell.world.home target) with
  | true =>
    have ha' : Path.isAbsolute (Path.expandHome (shell.setDirectory directory).world.home target)
      = true := ha
    rw [Shell.resolve_of_isAbsolute ha, Shell.resolve_of_isAbsolute ha']
    rfl
  | false =>
    rw [ho ⟨target, path, (Call.mk.inj hc).2, ha, hp⟩]
    rfl

/-- A call that enters a directory in an orderly step is the next in the order. -/
theorem Follows.enter {args : List Text} {path : Text}
    (h : Follows start order ⟨shell, earlier ++ ⟨args, .found path⟩ :: later⟩)
    (ho : ∀ other ∈ earlier ++ ⟨args, .entered⟩ :: later,
      other.IsPending (shell.setDirectory path) → path = shell.session.directory) :
  Follows start (order ++ [args]) ⟨shell.setDirectory path, earlier ++ ⟨args, .entered⟩ :: later⟩
  := by
  have ha := h.enters
  rw [List.forall_mem_append, List.forall_mem_cons] at ha ho
  apply h.settle rfl rfl (Builtin.respond_cd_of_enters (ha.2.1 path (.inl rfl)))
  rw [List.forall_mem_append, List.forall_mem_cons]
  refine ⟨?_, ?_, ?_⟩
  · intro other hm found hf
    apply enters_of_orderly (ha.1 other hm found hf) hf (ho.1 other hm)
  · exact fun found hf => absurd hf (Move.IsIdle.not_headsFor (.inr (.inl rfl)) _ _)
  · intro other hm found hf
    apply enters_of_orderly (ha.2.2 other hm found hf) hf (ho.2.2 other hm)

/-- What is done by something else leaves the order. -/
theorem Follows.other {moves : List Move} (h : Follows start order ⟨shell, moves⟩)
    (hw : shell.world.SameDirectories after.world)
    (hd : after.session.directory = shell.session.directory) :
  Follows start order ⟨after, moves⟩
  := by
  have hm : settled ⟨after, moves⟩ = settled ⟨shell, moves⟩ := by
    simp only [settled, Move.settled?_of_same hw]
  obtain ⟨hs, hp, hl, ht, ha⟩ := h
  refine ⟨hs.trans hw, hm ▸ hp, hm ▸ hl, ?_, ?_⟩
  · rw [ht]
    dsimp only
    rw [hd]
  · intro move hmem path hp
    rw [Move.headsFor_iff_of_same hw] at hp
    apply (Shell.enters_iff_of_same hw hd).mpr (ha move hmem path hp)

/-- An orderly step settles at most one call, which is the next in the order. -/
theorem Follows.step {before after : Crowd} (h : Follows start order before)
    (hs : before.OrderlyStep after) :
  ∃ next, Follows start next after
  := by
  obtain ⟨hs, ho⟩ := hs
  cases hs with
  | other moves he hd => exact ⟨_, h.other he.sameDirectories hd⟩
  | @act shell after move moved earlier later ha =>
    cases ha with
    | read target =>
      cases hd : shell.isDirectory (shell.resolve target) with
      | true =>
        refine ⟨_, h.go_on (by simp [Move.settled?, hd]) ?_⟩
        intro path hp
        obtain ⟨rfl, -⟩ := Move.headsFor_resolved_iff.mp hp
        exact ⟨target, rfl, rfl, hd⟩
      | false =>
        refine ⟨_, h.refuse rfl (by simp [Move.settled?, hd]) ?_ ?_⟩
        · rintro path ⟨other, hc, rfl, hp⟩
          obtain ⟨-, hc⟩ := Call.mk.inj hc
          obtain rfl := (List.cons.inj hc).1
          exact absurd (hd.symm.trans hp) nofun
        · intro path hp
          obtain ⟨rfl, hd'⟩ := Move.headsFor_resolved_iff.mp hp
          exact absurd (hd.symm.trans hd') nofun
    | balk hn =>
      refine ⟨_, h.refuse rfl rfl ?_ (Move.IsIdle.not_headsFor (.inr (.inr rfl)) _)⟩
      rintro path ⟨target, hc, -, -⟩
      exact hn target (Call.mk.inj hc).2
    | @accept args path hd =>
      refine ⟨_, h.go_on (by simp [Move.settled?, hd]) ?_⟩
      intro found hp
      obtain rfl := Move.headsFor_found_iff.mp hp
      apply h.enters ⟨args, .resolved path⟩ (by simp) path (.inr ⟨rfl, hd⟩)
    | refuse hd =>
      refine ⟨_, h.go_on (by simp [Move.settled?, hd]) ?_⟩
      exact fun path hp => absurd hp (Move.IsIdle.not_headsFor (.inr (.inr rfl)) _ _)
    | enter args path => exact ⟨_, h.enter ho⟩

theorem Follows.run {before after : Crowd} (h : Follows start order before)
    (hr : Relation.ReflTransGen OrderlyStep before after) :
  ∃ next, Follows start next after
  := by
  induction hr with
  | refl => exact ⟨order, h⟩
  | tail _ hs ih =>
    obtain ⟨next, h⟩ := ih
    apply h.step hs

/-- The calls keep their arguments, and the home stays. -/
theorem Step.args_home_eq {before after : Crowd} (h : before.Step after) :
  after.moves.map Move.args = before.moves.map Move.args
    ∧ after.shell.world.home = before.shell.world.home
  := by
  cases h with
  | other moves he hd => exact ⟨rfl, he.confined.home_eq⟩
  | act earlier later ha => cases ha <;> exact ⟨by simp, rfl⟩

theorem args_home_eq_of_run {before after : Crowd}
    (hr : Relation.ReflTransGen Step before after) :
  after.moves.map Move.args = before.moves.map Move.args
    ∧ after.shell.world.home = before.shell.world.home
  := by
  induction hr with
  | refl => exact ⟨rfl, rfl⟩
  | tail _ hs ih => exact ⟨hs.args_home_eq.1.trans ih.1, hs.args_home_eq.2.trans ih.2⟩

theorem run_of_orderly {before after : Crowd}
    (h : Relation.ReflTransGen OrderlyStep before after) :
  Relation.ReflTransGen Step before after
  := Relation.ReflTransGen.mono (fun _ _ => OrderlyStep.step) _ _ h

/-- When all calls are over they have done what they do one after another in the order in which they
were settled. -/
theorem Follows.serializes {crowd : Crowd} (h : Follows start order crowd) (hd : crowd.IsDone) :
  start.Serializes (crowd.moves.map Move.args) crowd.shell.session.directory crowd.lines
  := by
  have hs : crowd.settled = crowd.moves.map fun move => (move.args, move.lines) := by
    rw [settled, ← List.filterMap_eq_map]
    apply List.filterMap_congr
    intro move hm
    apply (hd move hm).settled?_eq
  refine ⟨order, ?_, ?_, ?_⟩
  · have hp := h.order_perm
    rw [hs, List.map_map] at hp
    exact hp
  · rw [h.shell_inTurn]
    rfl
  · have hp := h.lines_perm
    rw [hs, List.flatMap_map] at hp
    exact hp

/-- After orderly steps calls have done what they do one after another. -/
theorem serializes_of_run {calls : List (List Text)} {crowd : Crowd}
    (h : start.world.SameDirectories shell.world)
    (hd : shell.session.directory = start.session.directory)
    (hr : Relation.ReflTransGen OrderlyStep (waiting shell calls) crowd) (hdone : crowd.IsDone) :
  start.Serializes calls crowd.shell.session.directory crowd.lines
  := by
  obtain ⟨order, hf⟩ := (follows_waiting h hd calls).run hr
  have ha := (args_home_eq_of_run (run_of_orderly hr)).1
  rw [map_args_waiting] at ha
  have hs := hf.serializes hdone
  rw [ha] at hs
  exact hs

/-! ### Steps that are always orderly -/

/-- No step disturbs calls whose targets are not relative. -/
theorem orderly_of_absolute {before after : Crowd} (hr : Relation.ReflTransGen Step before after)
    (ha : ∀ target, [target] ∈ before.moves.map Move.args →
      Path.isAbsolute (Path.expandHome before.shell.world.home target) = true) :
  Relation.ReflTransGen OrderlyStep before after
  := by
  induction hr with
  | refl => exact .refl
  | @tail middle last hr hs ih =>
    apply ih.tail
    obtain ⟨hargs, hhome⟩ := args_home_eq_of_run (hr.tail hs)
    refine ⟨hs, ?_⟩
    rintro move hm ⟨target, path, ht, hrel, -⟩
    have htm : [target] ∈ last.moves.map Move.args := ht ▸ List.mem_map_of_mem hm
    rw [hhome, ha target (hargs ▸ htm)] at hrel
    contradiction

/-- No step disturbs a single call. -/
theorem orderly_of_single {before after : Crowd} (hr : Relation.ReflTransGen Step before after)
    (hl : before.moves.length ≤ 1) :
  Relation.ReflTransGen OrderlyStep before after
  := by
  induction hr with
  | refl => exact .refl
  | @tail middle last hr hs ih =>
    apply ih.tail
    have hlast := congrArg List.length (args_home_eq_of_run hr).1
    rw [List.length_map, List.length_map] at hlast
    refine ⟨hs, ?_⟩
    cases hs with
    | other moves he hd => exact fun _ _ _ => hd
    | act earlier later ha =>
      cases ha with
      | enter args path =>
        intro move hm hp
        have he : earlier = [] ∧ later = [] := by
          simp only [List.length_append, List.length_cons] at hlast
          constructor <;> apply List.eq_nil_of_length_eq_zero <;> omega
        obtain ⟨rfl, rfl⟩ := he
        obtain rfl := List.mem_singleton.mp hm
        exact absurd hp (Move.IsIdle.not_isPending (.inr (.inl rfl)) _)
      | _ => exact fun _ _ _ => rfl

end

end Crowd

end CommandShell
