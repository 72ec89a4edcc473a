import CommandShell.Pipeline
import CommandShell.Proofs.Command
import CommandShell.Proofs.Redirection

/-!
# The wiring of pipelines

A stage is made a command with the input and the output that are given for it, and what the command
does not hold of these is closed (`Command.made_ofStage`).  The stages of a pipeline are made
commands one by one, each in the world that the one before it leaves (`Pipeline.worldAt`).  What a
stage opens stays open while the others are made commands (`Pipeline.lookup_worldAt`), and each
closes no ends of pipes but the two that were made for it (`Pipeline.pipes_worldAt`).
-/

namespace CommandShell

/-! ### Blank stages -/

/-- A stage that is read as blanks only is one of blanks. -/
theorem isBlank_of_read {stage : Text}
    (h : ∀ glyph ∈ Glyph.read .bare stage, glyph.role = .blank) :
  stage.isBlank = true
  := by
  induction stage with
  | nil => rfl
  | cons c rest ih =>
    rw [Glyph.read] at h
    have hc : isBlank c = true := by
      have hr := h _ List.mem_cons_self
      simp only [Quoting.read] at hr
      split at hr
      · assumption
      · split_ifs at hr
    have hr : Quoting.read .bare c rest.head? = (.blank, .bare) := by simp [Quoting.read, hc]
    rw [hr] at h
    rw [Text.isBlank, List.all_cons, hc, Bool.true_and]
    apply ih
    intro glyph hg
    apply h glyph (List.mem_cons_of_mem _ hg)

/-- A stage without words is one of blanks. -/
theorem words_eq_nil_iff {stage : Text} :
  words stage = [] ↔ stage.isBlank = true
  := by
  constructor
  · intro h
    apply isBlank_of_read
    rw [words, List.map_eq_nil_iff] at h
    have hf := flatten_runs (·.role = .blank) (Glyph.read .bare stage)
    rw [h, List.flatten_nil, eq_comm, List.filter_eq_nil_iff] at hf
    intro glyph hg
    simpa using hf glyph hg
  · intro h
    have hw := words_blank_append h []
    rwa [List.append_nil] at hw

/-! ### Stages -/

namespace Command

/-- The targets that the redirections of a stage open in turn, each with the number of its file. -/
def targets (directory stage : Text) (output : Stream) (world : World) : List (Nat × Opened) :=
  Redirection.openings directory (.start world output)
    (Outline.read none (Token.ofStage stage).tail).redirections

/-- What is made of a stage whose input and output are given for it. -/
structure Made (directory stage : Text) (input output : Stream) (world : World)
    (command : Option Command) (after : World) : Prop where
  none_iff : command = none ↔ stage.isBlank = true
  input_eq : ∀ made ∈ command, made.input = input
  output_eq : ∀ made ∈ command, made.output
    = ((lastOpened .output (targets directory stage output world)).map (.file ·.1)).getD output
  error_eq : ∀ made ∈ command, made.error = .stderr ∨ ∃ number, made.error = .file number
  opened_le : world.opened ≤ after.opened
  /-- A file that is the output or the error stream has been opened for the stage, for writing. -/
  takes : ∀ made ∈ command, ∀ outlet number, made.stream outlet = .file number →
    world.opened ≤ number ∧ number < after.opened ∧ after.Takes number
  number_lt : ∀ made ∈ command, ∀ number opened,
    lastOpened .output (targets directory stage output world) = some (number, opened) →
      number < after.opened ∧ after.files.lookup number = some opened.file
  lookup_before : ∀ number < world.opened,
    after.files.lookup number = world.files.lookup number
  /-- Of the input and the output that are given, what the command does not hold is closed. -/
  pipes_eq : after.pipes = output.closeUnless (command.any (·.output = output))
    (input.closeUnless command.isSome world.pipes)

/-- What the redirections of a stage change follows the targets that they open. -/
theorem tracks_performed (directory stage : Text) {output : Stream}
    (hf : ∀ number, output ≠ .file number) (world : World) :
  Redirected.Tracks world output (targets directory stage output world)
    ((Outline.read none (Token.ofStage stage).tail).performed directory output world)
  := (Redirected.Tracks.start world output).foldl_perform hf directory _

/-- A stage without words makes no command, and the streams that are given for it are closed. -/
theorem made_none {stage : Text} (h : words stage = []) (directory : Text) {input output : Stream}
    (hi : ∀ number, input ≠ .file number) (hf : ∀ number, output ≠ .file number) (world : World) :
  Made directory stage input output world none ((world.close input).close output)
  := by
  constructor
  · simp [words_eq_nil_iff.mp h]
  · nofun
  · nofun
  · nofun
  · simp
  · nofun
  · nofun
  · intro number hn
    rw [World.lookup_files_close _ (hf number), World.lookup_files_close _ (hi number)]
  · simp [Stream.closeUnless]

/-- A stage with words makes a command, whose streams are as its redirections leave them. -/
theorem made_some {stage : Text} {first : Word} {others : List Word}
    (h : words stage = first :: others) (directory : Text) {input output : Stream}
    (hf : ∀ number, output ≠ .file number) (world : World) :
  let result := ofOutline directory first.raw (Outline.read none (Token.ofStage stage).tail) input
    output world
  Made directory stage input output world result.1 result.2
  := by
  have ht := tracks_performed directory stage hf world
  simp only [ofOutline]
  generalize (Outline.read none (Token.ofStage stage).tail).performed directory output world
    = state at ht
  have he : state.error = .stderr ∨ ∃ number, state.error = .file number := by
    have hs : state.error = _ := ht.stream_eq .error
    cases hl : lastOpened .error (targets directory stage output world) with
    | none => simp [hs, hl, Redirected.start, Redirected.stream]
    | some last => simp [hs, hl]
  have ho : state.output = output
      ↔ lastOpened .output (targets directory stage output world) = none := by
    have hs : state.output = _ := ht.stream_eq .output
    cases hl : lastOpened .output (targets directory stage output world) with
    | none => simp [hs, hl, Redirected.start, Redirected.stream]
    | some last => simpa [hs, hl] using (hf last.1).symm
  constructor
  · simp [← words_eq_nil_iff, h]
  · rintro made ⟨⟩
    rfl
  · rintro made ⟨⟩
    apply ht.stream_eq .output
  · rintro made ⟨⟩
    apply he
  · rw [report, World.opened_tryWrite, ht.opened_eq]
    omega
  · rintro made ⟨⟩ outlet number hs
    have hs : state.stream outlet = .file number := by cases outlet <;> exact hs
    obtain ⟨opened, hl⟩ := ht.lastOpened_of_stream hf hs
    have hm := (mem_of_lastOpened hl).1
    rw [report, World.opened_tryWrite]
    refine ⟨(ht.number_lt hm).1, (ht.number_lt hm).2, World.takes_tryWrite _ _ _ ?_⟩
    exact ⟨_, ht.lookup_last _ _ _ hl, Redirection.writable_of_mem_openings _ hm⟩
  · rintro made ⟨⟩ number opened hl
    rw [report, World.opened_tryWrite, World.lookup_files_tryWrite]
    · exact ⟨(ht.number_lt (mem_of_lastOpened hl).1).2, ht.lookup_last _ _ _ hl⟩
    · have hs : state.stream .error ≠ .file number :=
        ht.stream_ne_of_lastOpened hf (by simp) hl
      apply hs
  · intro number hn
    rw [report, World.lookup_files_tryWrite, ht.lookup_before number hn]
    apply ht.stream_ne_of_lt hf hn .error
  · rw [report, World.pipes_tryWrite, ht.pipes_eq]
    · simp [Stream.closeUnless, ho]
    · intro number
      rcases he with he | ⟨other, he⟩ <;> simp [he]

/-- A command is made of a stage with the input and the output that are given for it. -/
theorem made_ofStage (directory stage : Text) {input output : Stream}
    (hi : ∀ number, input ≠ .file number) (hf : ∀ number, output ≠ .file number) (world : World) :
  Made directory stage input output world (ofStage directory stage input output world).1
    (ofStage directory stage input output world).2
  := by
  cases h : words stage with
  | nil =>
    rw [ofStage, Token.ofStage, h]
    apply made_none h directory hi hf
  | cons first others =>
    rw [ofStage_eq h]
    apply made_some h directory hf

end Command

/-! ### Wiring -/

namespace Pipeline

/-- The world in which a stage with an index is made a command, where the first stage has a
number. -/
def worldAt (directory : Text) : Nat → List Text → World → Nat → World
  | _, _, world, 0 => world
  | _, [], world, _ + 1 => world
  | number, stage :: rest, world, index + 1 =>
    worldAt directory (number + 1) rest
      (Command.ofStage directory stage (inputOf number) (outputOf number rest.isEmpty) world).2
      index

/-- The stage with an index is made a command in its world, and leaves the world of the next. -/
theorem getElem?_wire (directory : Text) (number : Nat) (stages : List Text) (world : World)
    {index : Nat} {stage : Text} (h : stages[index]? = some stage) :
  let made := Command.ofStage directory stage (inputOf (number + index))
    (outputOf (number + index) (index + 1 = stages.length))
    (worldAt directory number stages world index)
  (wire directory number stages world).1[index]? = some made.1
    ∧ worldAt directory number stages world (index + 1) = made.2
  := by
  induction stages generalizing number world index with
  | nil => simp at h
  | cons first rest ih =>
    cases index with
    | zero =>
      obtain rfl : first = stage := by simpa using h
      cases rest <;> simp [wire, worldAt]
    | succ index =>
      rw [List.getElem?_cons_succ] at h
      have hw := ih (number + 1)
        (Command.ofStage directory first (inputOf number) (outputOf number rest.isEmpty) world).2 h
      simpa [wire, worldAt, Nat.add_assoc, Nat.add_comm 1] using hw

theorem length_wire (directory : Text) (number : Nat) (stages : List Text) (world : World) :
  (wire directory number stages world).1.length = stages.length
  := by
  induction stages generalizing number world with
  | nil => rfl
  | cons first rest ih => simp [wire, ih]

/-- The world after all stages are made commands is that of the next one. -/
theorem wire_snd (directory : Text) (number : Nat) (stages : List Text) (world : World) :
  (wire directory number stages world).2 = worldAt directory number stages world stages.length
  := by
  induction stages generalizing number world with
  | nil => rfl
  | cons first rest ih => simp [wire, worldAt, ih]

theorem inputOf_ne_file (index number : Nat) :
  inputOf index ≠ .file number
  := by
  cases index <;> simp [inputOf]

theorem outputOf_ne_file (index : Nat) (isLast : Bool) (number : Nat) :
  outputOf index isLast ≠ .file number
  := by
  cases isLast <;> simp [outputOf]

/-- Only the stage after a pipe is given the pipe to read from. -/
theorem inputOf_eq_iff (index number : Nat) :
  inputOf index = .pipeReader number ↔ index = number + 1
  := by
  cases index <;> simp [inputOf]

/-- Only the stage before a pipe is given the pipe to write to. -/
theorem outputOf_eq_iff (index : Nat) (isLast : Bool) (number : Nat) :
  outputOf index isLast = .pipeWriter number ↔ index = number ∧ isLast = false
  := by
  cases isLast <;> simp [outputOf]

theorem inputOf_ne_pipeWriter (index number : Nat) :
  inputOf index ≠ .pipeWriter number
  := by
  cases index <;> simp [inputOf]

theorem outputOf_ne_pipeReader (index : Nat) (isLast : Bool) (number : Nat) :
  outputOf index isLast ≠ .pipeReader number
  := by
  cases isLast <;> simp [outputOf]

section

variable (directory : Text) (stages : List Text) (world : World)

/-- The command of the stage with an index, if it has one. -/
def commandAt (index : Nat) : Option Command :=
  ((wire directory 0 stages world).1[index]?).join

/-- What is made of the stage with an index. -/
theorem made_commandAt {index : Nat} {stage : Text} (h : stages[index]? = some stage) :
  Command.Made directory stage (inputOf index) (outputOf index (index + 1 = stages.length))
    (worldAt directory 0 stages world index) (commandAt directory stages world index)
    (worldAt directory 0 stages world (index + 1))
  := by
  obtain ⟨hc, hw⟩ := getElem?_wire directory 0 stages world h
  rw [hw, commandAt, hc, Nat.zero_add]
  apply Command.made_ofStage
  · apply inputOf_ne_file
  · apply outputOf_ne_file

/-- Before the stage with an index is made a command an end of a pipe is open unless the stage that
it was given for has let it go. -/
theorem pipes_worldAt {index number : Nat} (hi : index ≤ stages.length)
    (hn : number + 1 < stages.length)
    (hp : world.pipes[number]? = some Pipe.new) :
  (worldAt directory 0 stages world index).pipes[number]?
    = some ⟨{}, decide (index ≤ number + 1) || (commandAt directory stages world (number + 1)).isSome,
        decide (index ≤ number)
          || (commandAt directory stages world number).any (·.output = .pipeWriter number)⟩
  := by
  induction index with
  | zero => simpa [worldAt, Pipe.new] using hp
  | succ index ih =>
    have hs : stages[index]? = some stages[index] := List.getElem?_eq_getElem hi
    have hm := made_commandAt directory stages world hs
    rw [hm.pipes_eq, Stream.getElem?_closeUnless, Stream.getElem?_closeUnless,
      ih (Nat.le_of_succ_le hi)]
    simp only [Option.map_some, ne_eq, inputOf_eq_iff, outputOf_eq_iff, inputOf_ne_pipeWriter,
      outputOf_ne_pipeReader, not_false_eq_true, decide_true, Bool.or_true, Bool.and_true,
      Option.some_inj, Pipe.mk.injEq, true_and]
    constructor
    · by_cases hk : index = number + 1
      · have hb : decide (index ≤ number + 1) = true := decide_eq_true (by omega)
        have ha : decide (index + 1 ≤ number + 1) = false := decide_eq_false (by omega)
        rw [hb, ha]
        simp [hk]
      · have hl : index ≤ number + 1 ↔ index + 1 ≤ number + 1 := by omega
        simp [hk, hl]
    · by_cases hk : index = number
      · have hb : decide (index ≤ number) = true := decide_eq_true (by omega)
        have ha : decide (index + 1 ≤ number) = false := decide_eq_false (by omega)
        have hl : number + 1 ≠ stages.length := by omega
        rw [hb, ha]
        simp [hk, hl, outputOf]
      · have hl : index ≤ number ↔ index + 1 ≤ number := by omega
        simp [hk, hl]

theorem length_pipes_worldAt {index : Nat} (hi : index ≤ stages.length) :
  (worldAt directory 0 stages world index).pipes.length = world.pipes.length
  := by
  induction index with
  | zero => simp [worldAt]
  | succ index ih =>
    have hs : stages[index]? = some stages[index] := List.getElem?_eq_getElem hi
    rw [(made_commandAt directory stages world hs).pipes_eq, Stream.length_closeUnless,
      Stream.length_closeUnless, ih (Nat.le_of_succ_le hi)]

/-- A file that is open before a stage is made a command is open as it was after all that follow. -/
theorem lookup_worldAt {index later : Nat} (h : index ≤ later) (hl : later ≤ stages.length) :
  (worldAt directory 0 stages world index).opened
      ≤ (worldAt directory 0 stages world later).opened
    ∧ ∀ number < (worldAt directory 0 stages world index).opened,
      (worldAt directory 0 stages world later).files.lookup number
        = (worldAt directory 0 stages world index).files.lookup number
  := by
  induction later with
  | zero =>
    obtain rfl : index = 0 := by omega
    exact ⟨Nat.le_refl _, fun _ _ => rfl⟩
  | succ later ih =>
    by_cases he : index = later + 1
    · subst he
      exact ⟨Nat.le_refl _, fun _ _ => rfl⟩
    · have hs : stages[later]? = some stages[later] := List.getElem?_eq_getElem hl
      have hm := made_commandAt directory stages world hs
      obtain ⟨ho, hf⟩ := ih (by omega) (by omega)
      refine ⟨Nat.le_trans ho hm.opened_le, ?_⟩
      intro number hn
      rw [hm.lookup_before number (Nat.lt_of_lt_of_le hn ho), hf number hn]

end

end Pipeline

end CommandShell
