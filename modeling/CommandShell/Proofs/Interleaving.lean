import CommandShell.Proofs.Crowd
import Mathlib.Data.List.Permutation

/-!
# Interleaved stages

Stages that run in turn take orderly steps (`Shell.exists_run_runLine`), and whenever the stages of
a line take orderly steps its calls of `cd` leave the directory and report what they do one after
another in some order (`Shell.serializes_of_orderly`).  Two calls that read the directory before
either sets it need not take orderly steps (`Crowd.exists_run_at_once`), and may do together what
they do in no order (`Shell.not_serializes`).
-/

namespace CommandShell

namespace Crowd

/-! ### Stages in turn -/

section

variable {earlier later : List Move}

theorem orderlyStep_of_acts (earlier later : List Move) {shell : Shell} {move moved : Move}
    (h : move.Acts shell shell moved) :
  OrderlyStep ⟨shell, earlier ++ move :: later⟩ ⟨shell, earlier ++ moved :: later⟩
  := ⟨.act earlier later h, fun _ _ _ => rfl⟩

/-- A call that runs while no other is under way takes orderly steps, and does what it does by
itself. -/
theorem exists_run_call (shell : Shell) (args : List Text)
    (hi : ∀ move ∈ earlier ++ later, move.IsIdle) :
  ∃ moved : Move, moved.IsDone
    ∧ Relation.ReflTransGen OrderlyStep ⟨shell, earlier ++ ⟨args, .waiting⟩ :: later⟩
        ⟨(Builtin.cd.respond args shell).shell, earlier ++ moved :: later⟩
  := by
  by_cases he : ∃ path, shell.Enters ⟨Builtin.cd.name, args⟩ path
  · obtain ⟨path, he⟩ := he
    rw [Builtin.respond_cd_of_enters he]
    obtain ⟨target, hc, rfl, hd⟩ := he
    obtain ⟨-, rfl⟩ := Call.mk.inj hc
    have hlast : OrderlyStep
        ⟨shell, earlier ++ ⟨[target], .found (shell.resolve target)⟩ :: later⟩
        ⟨shell.setDirectory (shell.resolve target), earlier ++ ⟨[target], .entered⟩ :: later⟩ := by
      refine ⟨.act earlier later (.enter _ _), ?_⟩
      rw [List.forall_mem_append] at hi
      rw [List.forall_mem_append, List.forall_mem_cons]
      refine ⟨?_, ?_, ?_⟩
      · exact fun move hm hp => absurd hp ((hi.1 move hm).not_isPending _)
      · exact fun hp => absurd hp (Move.IsIdle.not_isPending (.inr (.inl rfl)) _)
      · exact fun move hm hp => absurd hp ((hi.2 move hm).not_isPending _)
    refine ⟨⟨[target], .entered⟩, .inl rfl, ?_⟩
    apply Relation.ReflTransGen.head (orderlyStep_of_acts _ _ (.read target))
    apply Relation.ReflTransGen.head (orderlyStep_of_acts _ _ (.accept hd))
    apply Relation.ReflTransGen.single hlast
  · rw [not_exists] at he
    rw [Builtin.respond_cd_of_not_enters he]
    refine ⟨⟨args, .refused⟩, .inr rfl, ?_⟩
    by_cases ht : ∃ target, args = [target]
    · obtain ⟨target, rfl⟩ := ht
      have hd : shell.isDirectory (shell.resolve target) = false := by
        rw [← Bool.not_eq_true]
        exact fun hd => he _ ⟨target, rfl, rfl, hd⟩
      apply Relation.ReflTransGen.head (orderlyStep_of_acts _ _ (.read target))
      apply Relation.ReflTransGen.single (orderlyStep_of_acts _ _ (.refuse hd))
    · rw [not_exists] at ht
      apply Relation.ReflTransGen.single (orderlyStep_of_acts _ _ (.balk ht))

/-- A stage that runs while no call is under way takes orderly steps. -/
theorem exists_run_runStage (shell : Shell) (stage : Option Command)
    (hi : ∀ move ∈ earlier ++ later, move.IsIdle) :
  ∃ moved : List Move, (∀ move ∈ moved, move.IsDone)
    ∧ Relation.ReflTransGen OrderlyStep
        ⟨shell, earlier ++
          ((Call.cdArgs [stage.map Command.call]).map (⟨·, .waiting⟩) ++ later)⟩
        ⟨(shell.runStage stage).1, earlier ++ (moved ++ later)⟩
  := by
  have hs := shell.evolves_stage stage
  cases stage with
  | none => exact ⟨[], nofun, .refl⟩
  | some command =>
    by_cases hn : command.name = Builtin.cd.name
    · have hc : Call.cdArgs [(some command).map Command.call] = [command.args] := by
        simp [Call.cdArgs, Call.cdArgs?, Command.call, hn]
      obtain ⟨moved, hd, hr⟩ := exists_run_call shell command.args hi
      refine ⟨[moved], by simpa using hd, ?_⟩
      rw [hc]
      apply Relation.ReflTransGen.tail hr
      -- What is left is to write the report and to close the streams.
      have hdir : (shell.runStage (some command)).1.session.directory
          = (Builtin.cd.respond command.args shell).shell.session.directory := by
        rw [← Builtin.session_run, ← Shell.runCommand_cd hn]
        rfl
      have hs' : (Builtin.cd.respond command.args shell).shell.world.Evolves (.line Set.univ)
          (shell.runStage (some command)).1.world := by
        rw [Shell.world_respond_cd]
        exact hs
      exact ⟨.other _ hs' hdir, fun _ _ _ => hdir⟩
    · have hc : Call.cdArgs [(some command).map Command.call] = [] := by
        simp [Call.cdArgs, Call.cdArgs?, Command.call, hn]
      have hdir : (shell.runStage (some command)).1.session.directory
          = shell.session.directory := by
        apply (shell.directory_runCommand command).2
        rintro path ⟨target, ht, -, -⟩
        exact hn (Call.mk.inj ht).1
      refine ⟨[], nofun, ?_⟩
      rw [hc]
      apply Relation.ReflTransGen.single ⟨.other _ hs hdir, fun _ _ _ => hdir⟩

/-- Stages that run in turn take orderly steps. -/
theorem exists_run_runStages (shell : Shell) (flow : Flow) (pipeline : Pipeline)
    (hd : ∀ move ∈ earlier, move.IsDone) :
  ∃ moves : List Move, (∀ move ∈ moves, move.IsDone)
    ∧ Relation.ReflTransGen OrderlyStep
        ⟨shell, earlier ++
          (Call.cdArgs (pipeline.map (Option.map Command.call))).map (⟨·, .waiting⟩)⟩
        ⟨(shell.runStages flow pipeline).1, moves⟩
  := by
  induction pipeline generalizing shell flow earlier with
  | nil =>
    refine ⟨earlier, hd, ?_⟩
    rw [List.map_nil, Call.cdArgs, List.filterMap_nil, List.map_nil, List.append_nil]
    exact .refl
  | cons stage rest ih =>
    have hc : Call.cdArgs ((stage :: rest).map (Option.map Command.call))
        = Call.cdArgs [stage.map Command.call]
          ++ Call.cdArgs (rest.map (Option.map Command.call)) := by
      rw [Call.cdArgs, Call.cdArgs, Call.cdArgs, ← List.filterMap_append]
      rfl
    have hi : ∀ move ∈ earlier
        ++ (Call.cdArgs (rest.map (Option.map Command.call))).map (⟨·, .waiting⟩),
        move.IsIdle := by
      intro move hm
      rcases List.mem_append.mp hm with hm | hm
      · exact .inr (hd move hm)
      · obtain ⟨args, -, rfl⟩ := List.mem_map.mp hm
        exact .inl rfl
    obtain ⟨moved, hm, hr⟩ := exists_run_runStage shell stage hi
    have hdone : ∀ move ∈ earlier ++ moved, move.IsDone :=
      List.forall_mem_append.mpr ⟨hd, hm⟩
    obtain ⟨moves, hmoves, hrest⟩ := ih (shell.runStage stage).1 (shell.runStage stage).2 hdone
    refine ⟨moves, hmoves, ?_⟩
    rw [hc, List.map_append]
    rw [List.append_assoc] at hrest
    apply hr.trans hrest

end

/-! ### Two calls at once -/

/-- Two calls may both read the directory before either sets it, and then the first that does is
lost.  These steps are orderly if the target of the second is not relative. -/
theorem exists_run_at_once {start shell : Shell} (h : start.world.SameDirectories shell.world)
    (hd : shell.session.directory = start.session.directory) {first second : Text}
    (hf : start.isDirectory (start.resolve first) = true)
    (hs : start.isDirectory (start.resolve second) = true) :
  ∃ crowd : Crowd, crowd.IsDone
    ∧ crowd.shell.session.directory = start.resolve second
    ∧ crowd.lines = []
    ∧ Relation.ReflTransGen Step (waiting shell [[first], [second]]) crowd
    ∧ (Path.isAbsolute (Path.expandHome start.world.home second) = true →
      Relation.ReflTransGen OrderlyStep (waiting shell [[first], [second]]) crowd)
  := by
  rw [← Shell.resolve_of_same h hd, ← Shell.isDirectory_of_same h] at hf hs
  have hr : Relation.ReflTransGen OrderlyStep (waiting shell [[first], [second]])
      ⟨shell, [⟨[first], .found (shell.resolve first)⟩, ⟨[second], .found (shell.resolve second)⟩]⟩
      := by
    apply Relation.ReflTransGen.head (orderlyStep_of_acts [] _ (.read first))
    apply Relation.ReflTransGen.head (orderlyStep_of_acts [_] [] (.read second))
    apply Relation.ReflTransGen.head (orderlyStep_of_acts [] _ (.accept hf))
    apply Relation.ReflTransGen.single (orderlyStep_of_acts [_] [] (.accept hs))
  have hf' : Step _ ⟨shell.setDirectory (shell.resolve first),
      [⟨[first], .entered⟩, ⟨[second], .found (shell.resolve second)⟩]⟩ :=
    .act [] _ (.enter [first] (shell.resolve first))
  have hs' : Step ⟨shell.setDirectory (shell.resolve first),
        [⟨[first], .entered⟩, ⟨[second], .found (shell.resolve second)⟩]⟩
      ⟨shell.setDirectory (shell.resolve second), [⟨[first], .entered⟩, ⟨[second], .entered⟩]⟩ :=
    .act [_] [] (.enter [second] (shell.resolve second))
  refine ⟨⟨shell.setDirectory (shell.resolve second), [⟨[first], .entered⟩, ⟨[second], .entered⟩]⟩,
    by simp [IsDone, Move.IsDone], Shell.resolve_of_same h hd second, rfl, ?_, ?_⟩
  · apply ((run_of_orderly hr).tail hf').tail hs'
  · intro ha
    rw [← h.home_eq] at ha
    have hfo : ∀ move ∈ ([⟨[first], .entered⟩, ⟨[second], .found (shell.resolve second)⟩] :
        List Move), ¬ move.IsPending (shell.setDirectory (shell.resolve first)) := by
      intro move hm
      rcases List.mem_pair.mp hm with rfl | rfl
      · apply Move.IsIdle.not_isPending (.inr (.inl rfl))
      · rintro ⟨target, path, ht, hrel, -⟩
        obtain rfl := (List.cons.inj ht).1
        exact absurd (hrel.symm.trans ha) nofun
    have hso : ∀ move ∈ ([⟨[first], .entered⟩, ⟨[second], .entered⟩] : List Move),
        ¬ move.IsPending (shell.setDirectory (shell.resolve second)) := by
      intro move hm
      apply Move.IsIdle.not_isPending (.inr (.inl _))
      rcases List.mem_pair.mp hm with rfl | rfl <;> rfl
    exact (hr.tail ⟨hf', fun move hm hp => absurd hp (hfo move hm)⟩).tail
      ⟨hs', fun move hm hp => absurd hp (hso move hm)⟩

end Crowd

/-! ### Lines -/

namespace Shell

/-- The arguments of the calls of `cd` in a line. -/
def cdCalls (line : Text) : List (List Text) :=
  Call.cdArgs ((stages line).map Call.ofStage?)

section

variable {shell after : Shell} {line : Text} {pipeline : Pipeline} {built : World} {exits : Bool}

theorem sameDirectories_of_build
    (h : Pipeline.build shell.session.directory (stages line) shell.world = .ok (pipeline, built)) :
  shell.world.SameDirectories (shell.withWorld built).world
  := (evolves_of_build h).sameDirectories

/-- A line that runs its stages in turn takes orderly steps. -/
theorem exists_run_runLine (h : shell.runLine line = .ok (after, exits)) :
  ∃ pipeline built moves,
    Pipeline.build shell.session.directory (stages line) shell.world = .ok (pipeline, built)
      ∧ Crowd.IsDone ⟨after, moves⟩
      ∧ Relation.ReflTransGen Crowd.OrderlyStep
          (.waiting (shell.withWorld built) (cdCalls line)) ⟨after, moves⟩
  := by
  obtain ⟨pipeline, built, hb, h⟩ := runLine_eq_ok_iff.mp h
  obtain ⟨rfl, -⟩ := Prod.mk.inj h
  have hn : ∀ move ∈ ([] : List Move), move.IsDone := nofun
  obtain ⟨moves, hd, hr⟩ :=
    Crowd.exists_run_runStages (shell.withWorld built) .proceed pipeline hn
  rw [Pipeline.calls_build hb] at hr
  exact ⟨pipeline, built, moves, hb, hd, hr⟩

/-- The calls of `cd` in a line whose pipeline can be made leave the directory and report what they
do one after another in some order, if no call sets the directory to another one while a call is
left to enter a directory that it has found from the one before.  So they do however they are
interleaved, if no target is relative or there is a single call. -/
theorem serializes_of_orderly
    (h : Pipeline.build shell.session.directory (stages line) shell.world = .ok (pipeline, built)) :
  let start := Crowd.waiting (shell.withWorld built) (cdCalls line)
  (∀ crowd : Crowd, Relation.ReflTransGen Crowd.OrderlyStep start crowd → crowd.IsDone →
      shell.Serializes (cdCalls line) crowd.shell.session.directory crowd.lines)
    ∧ ((∀ target, [target] ∈ cdCalls line →
          Path.isAbsolute (Path.expandHome shell.world.home target) = true)
        ∨ (cdCalls line).length ≤ 1 →
      ∀ crowd : Crowd, Relation.ReflTransGen Crowd.Step start crowd → crowd.IsDone →
        shell.Serializes (cdCalls line) crowd.shell.session.directory crowd.lines)
  := by
  dsimp only
  have hw := sameDirectories_of_build h
  have hs : (shell.withWorld built).session.directory = shell.session.directory := rfl
  have ho : ∀ crowd : Crowd,
      Relation.ReflTransGen Crowd.OrderlyStep
          (.waiting (shell.withWorld built) (cdCalls line)) crowd →
        crowd.IsDone →
          shell.Serializes (cdCalls line) crowd.shell.session.directory crowd.lines :=
    fun crowd hr hd => Crowd.serializes_of_run hw hs hr hd
  refine ⟨ho, ?_⟩
  rintro (ha | hl) crowd hr
  · apply ho crowd (Crowd.orderly_of_absolute hr _)
    intro target ht
    rw [Crowd.map_args_waiting] at ht
    have hh : (shell.withWorld built).world.home = shell.world.home := hw.home_eq
    rw [Crowd.waiting, hh]
    apply ha target ht
  · apply ho crowd (Crowd.orderly_of_single hr _)
    rw [← List.length_map Move.args, Crowd.map_args_waiting]
    exact hl

end

/-- A shell in a directory with two others, with room for some pipes. -/
def forked (room : Nat) : Shell where
  session := nested.session
  world :=
    { World.within [(⟨Text.encode ['a'], by decide⟩, .directory []),
        (⟨Text.encode ['b'], by decide⟩, .directory [])] with
      pipeRoom := room }

/-- A call that goes down to a directory while another goes to one from the root, and enters it
first. -/
theorem serializes_of_orderly_forked :
  ∃ pipeline built crowd,
    Pipeline.build (forked 1).session.directory (stages "cd a | cd /d/b".toList) (forked 1).world
        = .ok (pipeline, built)
      ∧ Relation.ReflTransGen Crowd.OrderlyStep
          (.waiting ((forked 1).withWorld built) (cdCalls "cd a | cd /d/b".toList)) crowd
      ∧ crowd.IsDone
      ∧ (forked 1).Serializes [["a".toList], ["/d/b".toList]] "/d/b".toList []
  := by
  obtain ⟨pipeline, built, hb⟩ : ∃ pipeline built,
      Pipeline.build (forked 1).session.directory (stages "cd a | cd /d/b".toList) (forked 1).world
        = .ok (pipeline, built) := ⟨_, _, rfl⟩
  have hc : cdCalls "cd a | cd /d/b".toList = [["a".toList], ["/d/b".toList]] := by decide
  have hfirst : (forked 1).isDirectory ((forked 1).resolve "a".toList) = true := by decide
  have hsecond : (forked 1).isDirectory ((forked 1).resolve "/d/b".toList) = true := by decide
  obtain ⟨crowd, hdone, hd, hl, -, hr⟩ :=
    Crowd.exists_run_at_once (sameDirectories_of_build hb) rfl hfirst hsecond
  have hr := hr (by decide)
  rw [← hc] at hr
  have hs := (serializes_of_orderly hb).1 crowd hr hdone
  rw [hc, hd, hl] at hs
  exact ⟨pipeline, built, crowd, hb, hr, hdone, hs⟩

/-- Calls of `cd` do not always leave the directory and report what they do one after another: of
two calls that both read the directory before either sets it, neither is refused, and a line whose
pipeline cannot be made runs none. -/
theorem not_serializes :
  (¬ ∀ (shell : Shell) (line : Text) (pipeline : Pipeline) (built : World) (crowd : Crowd),
    Pipeline.build shell.session.directory (stages line) shell.world = .ok (pipeline, built) →
      Relation.ReflTransGen Crowd.Step (.waiting (shell.withWorld built) (cdCalls line)) crowd →
        crowd.IsDone →
          shell.Serializes (cdCalls line) crowd.shell.session.directory crowd.lines)
    ∧ ¬ ∀ (shell : Shell) (line : Text) (error : PipelineError),
      shell.runLine line = .error error →
        shell.Serializes (cdCalls line) shell.session.directory []
  := by
  have hc : cdCalls "cd a | cd b".toList = [["a".toList], ["b".toList]] := by decide
  constructor
  · intro h
    obtain ⟨pipeline, built, hb⟩ : ∃ pipeline built,
        Pipeline.build (forked 1).session.directory (stages "cd a | cd b".toList) (forked 1).world
          = .ok (pipeline, built) := ⟨_, _, rfl⟩
    have hfirst : (forked 1).isDirectory ((forked 1).resolve "a".toList) = true := by decide
    have hsecond : (forked 1).isDirectory ((forked 1).resolve "b".toList) = true := by decide
    obtain ⟨crowd, hdone, -, hl, hr, -⟩ :=
      Crowd.exists_run_at_once (sameDirectories_of_build hb) rfl hfirst hsecond
    rw [← hc] at hr
    obtain ⟨order, hp, -, hlines⟩ := h (forked 1) _ pipeline built crowd hb hr hdone
    rw [hl] at hlines
    rw [hc, List.perm_pair] at hp
    -- In either order the second call is refused.
    rcases hp with rfl | rfl
    · exact absurd hlines.eq_nil (by decide)
    · exact absurd hlines.eq_nil (by decide)
  · intro h
    obtain ⟨order, hp, hd, -⟩ := h (forked 0) "cd a | cd b".toList .tooManyPipes rfl
    rw [hc, List.perm_pair] at hp
    rcases hp with rfl | rfl
    · exact absurd hd (by decide)
    · exact absurd hd (by decide)

end Shell

end CommandShell
