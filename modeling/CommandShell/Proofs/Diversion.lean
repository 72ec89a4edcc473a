import CommandShell.Proofs.Simulation
import CommandShell.Proofs.Stage

/-!
# Output that is diverted into a pipe

Where one more pipe takes what the output of the shell would receive, commands do the same
(`World.diverting`).  The stages of a line are made commands that differ in nothing else when one
more stage follows them (`Pipeline.wire_diverting`).
-/

namespace CommandShell

/-! ### Lists with one more element -/

section

variable {α : Type} {elements : List α} {a : α} {index : Nat}

theorem getElem?_concat_of_ne (h : index ≠ elements.length) :
  (elements ++ [a])[index]? = elements[index]?
  := by
  rcases Nat.lt_or_gt_of_ne h with hl | hg
  · apply List.getElem?_append_left hl
  · have he : elements[index]? = none := List.getElem?_eq_none (Nat.le_of_lt hg)
    have ha : (elements ++ [a])[index]? = none := by
      apply List.getElem?_eq_none
      rw [List.length_append, List.length_singleton]
      omega
    rw [ha, he]

theorem modify_concat_length (f : α → α) :
  (elements ++ [a]).modify elements.length f = elements ++ [f a]
  := by
  induction elements with
  | nil => rfl
  | cons first rest ih => simp [ih]

theorem modify_concat_of_ne (h : index ≠ elements.length) (f : α → α) :
  (elements ++ [a]).modify index f = elements.modify index f ++ [a]
  := by
  induction elements generalizing index with
  | nil =>
    cases index with
    | zero => contradiction
    | succ index => simp
  | cons first rest ih =>
    cases index with
    | zero => simp
    | succ index =>
      have hr : index ≠ rest.length := by
        rintro rfl
        apply h rfl
      simp [ih hr]

end

namespace World

/-- The stream that stands for a stream where a pipe takes what the output receives. -/
def diverted (number : Nat) : Stream → Stream
  | .stdout => .pipeWriter number
  | source => source

/-- A world is another one with one more pipe, which holds what the output of the other one has
received after some bytes. -/
structure IsDiverted (number : Nat) (before : Sink) (pipe : Pipe) (world other : World) : Prop where
  length_pipes : world.pipes.length = number
  readerOpen : pipe.readerOpen = true
  reversed_eq : world.output.reversed = pipe.sink.reversed ++ before.reversed
  eq_diverted : other = { world with output := before, pipes := world.pipes ++ [pipe] }

namespace IsDiverted

variable {number : Nat} {before : Sink} {pipe : Pipe} {world other : World} {source : Stream}

/-- Bytes are written to both worlds or to neither, into the pipe in the place of the output. -/
theorem write (h : IsDiverted number before pipe world other)
    (hs : source ≠ .pipeWriter number) (bytes : Bytes) :
  Alike (fun first second => ∃ pipe, IsDiverted number before pipe first second)
    (world.write source bytes) (other.write (diverted number source) bytes)
  := by
  obtain ⟨rfl, hr, hb, rfl⟩ := h
  cases source with
  | stdout =>
    have ho : (World.write { world with output := before, pipes := world.pipes ++ [pipe] }
        (.pipeWriter world.pipes.length) bytes)
        = .ok { world with
          output := before
          pipes := world.pipes ++ [{ pipe with sink := pipe.sink.write bytes }] } := by
      dsimp only [World.write]
      rw [List.getElem?_concat_length]
      dsimp only [World.setPipe]
      rw [hr, Bool.true_or, if_pos rfl, List.set_append_right _ _ (Nat.le_refl _), Nat.sub_self]
      rfl
    rw [diverted, ho]
    refine .ok ⟨{ pipe with sink := pipe.sink.write bytes }, rfl, hr, ?_, rfl⟩
    dsimp only [Sink.write]
    rw [hb, List.reverseAux_eq, List.reverseAux_eq, List.append_assoc]
  | stderr => exact .ok ⟨pipe, rfl, hr, hb, rfl⟩
  | file index =>
    dsimp only [World.write, diverted]
    cases world.files.lookup index with
    | none => exact .error _
    | some file =>
      dsimp only
      split
      · exact .ok ⟨pipe, rfl, hr, hb, rfl⟩
      · exact .error _
  | pipeWriter index =>
    have hi : index ≠ world.pipes.length := by
      rintro rfl
      contradiction
    dsimp only [World.write, diverted]
    rw [getElem?_concat_of_ne hi]
    cases hp : world.pipes[index]? with
    | none => exact .error _
    | some held =>
      have hl := (List.getElem?_eq_some_iff.mp hp).1
      dsimp only
      split
      · refine .ok ⟨pipe, ?_, hr, hb, ?_⟩
        · simp [World.setPipe]
        · dsimp only [World.setPipe]
          rw [List.set_append_left _ _ hl]
      · exact .error _
  | stdin => exact .error _
  | pipeReader index => exact .error _

/-- The same is taken from a stream of both worlds, if that is not the new pipe. -/
theorem drain (h : IsDiverted number before pipe world other)
    (hs : source ≠ .pipeReader number) :
  (other.drain (diverted number source)).1 = (world.drain source).1
    ∧ IsDiverted number before pipe (world.drain source).2
      (other.drain (diverted number source)).2
  := by
  obtain ⟨rfl, hr, hb, rfl⟩ := h
  cases source with
  | pipeReader index =>
    have hi : index ≠ world.pipes.length := by
      rintro rfl
      contradiction
    dsimp only [World.drain, diverted]
    rw [getElem?_concat_of_ne hi]
    cases hp : world.pipes[index]? with
    | none => exact ⟨rfl, rfl, hr, hb, rfl⟩
    | some held =>
      have hl := (List.getElem?_eq_some_iff.mp hp).1
      refine ⟨rfl, ?_, hr, hb, ?_⟩
      · simp [World.setPipe]
      · dsimp only [World.setPipe]
        rw [List.set_append_left _ _ hl]
  | _ => exact ⟨rfl, rfl, hr, hb, rfl⟩

/-- A stream is closed in both worlds, the new pipe in the place of the output. -/
theorem close (h : IsDiverted number before pipe world other)
    (hr : source ≠ .pipeReader number) (hw : source ≠ .pipeWriter number) :
  ∃ pipe, IsDiverted number before pipe (world.close source)
    (other.close (diverted number source))
  := by
  obtain ⟨rfl, ho, hb, rfl⟩ := h
  cases source with
  | stdout =>
    refine ⟨{ pipe with writerOpen := false }, rfl, ho, hb, ?_⟩
    dsimp only [World.close, diverted]
    rw [modify_concat_length]
  | pipeReader index =>
    have hi : index ≠ world.pipes.length := by
      rintro rfl
      contradiction
    refine ⟨pipe, ?_, ho, hb, ?_⟩
    · simp [World.close]
    · dsimp only [World.close, diverted]
      rw [modify_concat_of_ne hi]
  | pipeWriter index =>
    have hi : index ≠ world.pipes.length := by
      rintro rfl
      contradiction
    refine ⟨pipe, ?_, ho, hb, ?_⟩
    · simp [World.close]
    · dsimp only [World.close, diverted]
      rw [modify_concat_of_ne hi]
  | _ => exact ⟨pipe, rfl, ho, hb, rfl⟩

end IsDiverted

/-- Commands that do not have the pipe that the output is diverted into do the same. -/
def diverting (number : Nat) (before : Sink) : Simulation where
  Rel world other := ∃ pipe, IsDiverted number before pipe world other
  stream := diverted number
  Known source := source ≠ .pipeReader number ∧ source ≠ .pipeWriter number
  agree := by
    rintro world other ⟨pipe, h⟩
    exact ⟨_, _, _, _, h.eq_diverted⟩
  touch := by
    rintro world other ⟨pipe, h⟩ tree opened files
    refine ⟨pipe, h.length_pipes, h.readerOpen, h.reversed_eq, ?_⟩
    rw [h.eq_diverted]
  known_file _ := ⟨nofun, nofun⟩
  known_stderr := ⟨nofun, nofun⟩
  stream_file _ := rfl
  stream_stderr := rfl
  injective := by
    rintro first second ⟨-, hf⟩ ⟨-, hs⟩ he
    cases first <;> cases second <;> simp_all [diverted]
  write := by
    rintro world other source ⟨pipe, h⟩ ⟨-, hw⟩ bytes
    apply h.write hw
  drain := by
    rintro world other source ⟨pipe, h⟩ ⟨hr, -⟩
    obtain ⟨hd, h⟩ := h.drain hr
    exact ⟨hd, pipe, h⟩
  close := by
    rintro world other source ⟨pipe, h⟩ ⟨hr, hw⟩
    apply h.close hr hw

end World

open World

/-! ### Pipelines -/

/-- The stage that pipes into a program that copies its input. -/
def copier : Text := " cat".toList

/-- A line that is piped into the program has the stages that it has without it, with a blank after
the last, and one more. -/
theorem stages_piped {line : Text} (hc : line.IsClosed) (hne : line ≠ [])
    (hb : ∀ before : Text, before.IsClosed → line ≠ before ++ ['|']) :
  ∃ (init : List Text) (last : Text), stages line = init ++ [last] ∧ last.IsClosed
    ∧ stages (line ++ " | cat".toList) = init ++ [last ++ [' '], copier]
  := by
  obtain ⟨init, last, hi, hl, ha⟩ := stages_append_blank hc hne hb
  refine ⟨init, last, hi, hl, ?_⟩
  have he : line ++ " | cat".toList = (line ++ [' ']) ++ '|' :: copier := by
    rw [List.append_assoc]
    rfl
  have hblank : Text.IsClosed [' '] := rfl
  have hcopier : stages copier = [copier] := by decide
  rw [he, stages_append_bar (hc.append hblank), ha, hcopier, List.append_assoc]
  rfl

/-- The command of the stage, which reads a pipe. -/
def Command.copying (number : Nat) : Command :=
  ⟨"cat".toList, [], .pipeReader number, .stdout, .stderr⟩

/-- The stage that copies makes a command that takes its input from the new pipe. -/
theorem Command.ofStage_copier (directory : Text) (number : Nat) (world : World) :
  ofStage directory copier (Pipeline.inputOf (number + 1)) .stdout world
    = (some (copying number), world)
  := by
  have ht : Token.ofStage copier = [.word "cat".toList] := by decide
  rw [ofStage, ht]
  rfl

/-- Blanks after a stage do not change its command. -/
theorem Command.ofStage_append_blank (directory : Text) {stage : Text} (h : stage.IsClosed)
    (input output : Stream) (world : World) :
  ofStage directory (stage ++ [' ']) input output world
    = ofStage directory stage input output world
  := by
  have hw : words (stage ++ [' ']) = words stage := by
    rw [words_append_blank h (by decide), words_nil, List.append_nil]
  rw [ofStage, ofStage, Token.ofStage, hw, ← Token.ofStage]

namespace Pipeline

variable {number : Nat} {before : Sink} {world other : World}

/-- The input of a stage before the new pipe is not diverted. -/
theorem known_inputOf {index : Nat} (h : index ≤ number) :
  (diverting number before).Known (inputOf index)
    ∧ (diverting number before).stream (inputOf index) = inputOf index
  := by
  cases index with
  | zero => exact ⟨⟨nofun, nofun⟩, rfl⟩
  | succ index =>
    refine ⟨⟨?_, nofun⟩, rfl⟩
    intro he
    have hi := Stream.pipeReader.inj he
    omega

/-- The last stage is given the output of the shell. -/
theorem wire_singleton (directory : Text) (index : Nat) (stage : Text) (world : World) :
  wire directory index [stage] world
    = ([(Command.ofStage directory stage (inputOf index) .stdout world).1],
      (Command.ofStage directory stage (inputOf index) .stdout world).2)
  := rfl

/-- A stage that others follow writes to a pipe. -/
theorem wire_cons (directory : Text) (index : Nat) (stage : Text) {rest : List Text}
    (h : rest ≠ []) (world : World) :
  wire directory index (stage :: rest) world
    = ((Command.ofStage directory stage (inputOf index) (.pipeWriter index) world).1
        :: (wire directory (index + 1) rest
          (Command.ofStage directory stage (inputOf index) (.pipeWriter index) world).2).1,
      (wire directory (index + 1) rest
        (Command.ofStage directory stage (inputOf index) (.pipeWriter index) world).2).2)
  := by
  cases rest with
  | nil => contradiction
  | cons next others => rfl

/-- The stages of a line that is piped into a program that copies its input are made the commands
that they are made without it, but for the output. -/
theorem wire_diverting (directory : Text) (init : List Text) {last : Text} (hl : last.IsClosed)
    {index : Nat} (hi : index + init.length = number)
    (h : (diverting number before).Rel world other) :
  let made := wire directory index (init ++ [last]) world
  let after := wire directory index (init ++ [last ++ [' '], copier]) other
  after.1 = made.1.map (Option.map (diverting number before).command)
      ++ [some (Command.copying number)]
    ∧ (∀ stage ∈ made.1, ∀ command ∈ stage, (diverting number before).KnownCommand command)
    ∧ (diverting number before).Rel made.2 after.2
  := by
  induction init generalizing index world other with
  | nil =>
    obtain rfl : index = number := hi
    obtain ⟨hk, he⟩ := @known_inputOf index before index (Nat.le_refl _)
    have hs := @Simulation.ofStage (diverting index before) world other directory
      (inputOf index) .stdout h last hk ⟨nofun, nofun⟩
    rw [he] at hs
    obtain ⟨hc, hk, hw⟩ := hs
    rw [List.nil_append, List.nil_append, wire_cons _ _ _ (List.cons_ne_nil _ _), wire_singleton,
      wire_singleton, Command.ofStage_append_blank directory hl, Command.ofStage_copier]
    refine ⟨?_, ?_, ?_⟩
    · exact congrArg (· :: [some (Command.copying index)]) hc
    · rw [List.forall_mem_singleton]
      exact hk
    · exact hw
  | cons stage rest ih =>
    have hn : index + 1 + rest.length = number := by
      rw [← hi, List.length_cons]
      omega
    obtain ⟨hk, he⟩ := @known_inputOf number before index (by omega)
    have ho : (diverting number before).Known (.pipeWriter index) := by
      refine ⟨nofun, ?_⟩
      intro hw
      have hi := Stream.pipeWriter.inj hw
      omega
    have hs := @Simulation.ofStage (diverting number before) world other directory
      (inputOf index) (.pipeWriter index) h stage hk ho
    rw [he] at hs
    obtain ⟨hc, hk, hw⟩ := hs
    obtain ⟨hr, hks, hw⟩ := ih hn hw
    rw [List.cons_append, List.cons_append, wire_cons _ _ _ (by simp), wire_cons _ _ _ (by simp)]
    refine ⟨?_, ?_, hw⟩
    · exact congr (congrArg List.cons hc) hr
    · apply List.forall_mem_cons.mpr ⟨hk, hks⟩

end Pipeline

end CommandShell
