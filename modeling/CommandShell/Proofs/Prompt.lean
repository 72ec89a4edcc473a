import CommandShell.Proofs.Simulation

/-!
# Prompts

Where a shell writes a prompt before it reads a line, its output gets more bytes than that of a
shell that writes none.  Nothing else depends on them: a world whose output has received prompts
stands for one whose output has not (`World.prompting`), and so a shell comes to the same end with a
prompt and without one (`Shell.interact_prompting`).
-/

namespace CommandShell

/-- Whether bytes are others into which prompts have been put. -/
inductive Prompted (prompt : Bytes) : Bytes → Bytes → Prop where
  | same (bytes : Bytes) : Prompted prompt bytes bytes
  | write {plain prompted : Bytes} (h : Prompted prompt plain prompted) (bytes : Bytes) :
      Prompted prompt (plain ++ bytes) (prompted ++ bytes)
  | prompt {plain prompted : Bytes} (h : Prompted prompt plain prompted) :
      Prompted prompt plain (prompted ++ prompt)

/-- Prompts without bytes change nothing. -/
theorem Prompted.eq_of_nil {plain prompted : Bytes} (h : Prompted [] plain prompted) :
  prompted = plain
  := by
  induction h with
  | same bytes => rfl
  | write _ bytes ih => rw [ih]
  | prompt _ ih => rw [ih, List.append_nil]

namespace World

/-- Only what is written to the output of the shell depends on what that has received. -/
theorem write_withOutput (world : World) (output : Sink) {source : Stream}
    (h : source ≠ .stdout) (bytes : Bytes) :
  (world.withOutput output).write source bytes
    = (world.write source bytes).map (·.withOutput output)
  := by
  cases source with
  | stdout => contradiction
  | stderr => rfl
  | file number =>
    dsimp only [write, withOutput]
    cases world.files.lookup number with
    | none => rfl
    | some file =>
      dsimp only
      split <;> rfl
  | pipeWriter number =>
    dsimp only [write, withOutput]
    cases world.pipes[number]? with
    | none => rfl
    | some pipe =>
      dsimp only
      split <;> rfl
  | stdin => rfl
  | pipeReader number => rfl

/-- What is taken from a stream does not depend on what the output has received. -/
theorem drain_withOutput (world : World) (output : Sink) (source : Stream) :
  (world.withOutput output).drain source
    = ((world.drain source).1, (world.drain source).2.withOutput output)
  := by
  cases source with
  | pipeReader number =>
    dsimp only [drain, withOutput]
    cases world.pipes[number]? <;> rfl
  | _ => rfl

/-- Closing a stream does not depend on what the output has received. -/
theorem close_withOutput (world : World) (output : Sink) (source : Stream) :
  (world.withOutput output).close source = (world.close source).withOutput output
  := by
  cases source <;> rfl

theorem output_drain (world : World) (source : Stream) :
  (world.drain source).2.output = world.output
  := by
  cases source with
  | pipeReader number =>
    rw [drain]
    cases world.pipes[number]? <;> rfl
  | _ => rfl

theorem output_close (world : World) (source : Stream) :
  (world.close source).output = world.output
  := by
  cases source <;> rfl

/-- The output of a world is that of another one with prompts put in, and all else is the same. -/
structure IsPrompted (prompt : Bytes) (world other : World) : Prop where
  output : Prompted prompt world.output.content other.output.content
  eq_withOutput : other = world.withOutput other.output

namespace IsPrompted

variable {prompt : Bytes} {world other : World}

theorem refl (prompt : Bytes) (world : World) :
  IsPrompted prompt world world
  := ⟨.same _, rfl⟩

/-- Another output with prompts put in makes a world whose output has them. -/
theorem of_withOutput {output : Sink}
    (h : Prompted prompt world.output.content output.content) :
  IsPrompted prompt world (world.withOutput output)
  := ⟨h, rfl⟩

/-- Bytes are written to both worlds or to neither, behind the prompts if to the output. -/
theorem write (h : IsPrompted prompt world other) (source : Stream) (bytes : Bytes) :
  Alike (IsPrompted prompt) (world.write source bytes) (other.write source bytes)
  := by
  by_cases hs : source = .stdout
  · subst hs
    refine .ok ⟨?_, ?_⟩
    · rw [Sink.content_write, Sink.content_write]
      apply h.output.write
    · rw [h.eq_withOutput]
      rfl
  · have ho := h.output
    rw [h.eq_withOutput, write_withOutput _ _ hs]
    cases hw : world.write source bytes with
    | error error => exact .error error
    | ok written =>
      refine .ok (of_withOutput ?_)
      rw [(written_of_write hw).output_eq hs]
      exact ho

/-- The same is taken from a stream whether or not prompts have been written. -/
theorem drain (h : IsPrompted prompt world other) (source : Stream) :
  (other.drain source).1 = (world.drain source).1
    ∧ IsPrompted prompt (world.drain source).2 (other.drain source).2
  := by
  have ho := h.output
  rw [h.eq_withOutput, drain_withOutput]
  refine ⟨rfl, of_withOutput ?_⟩
  rw [output_drain]
  exact ho

theorem close (h : IsPrompted prompt world other) (source : Stream) :
  IsPrompted prompt (world.close source) (other.close source)
  := by
  have ho := h.output
  rw [h.eq_withOutput, close_withOutput]
  apply of_withOutput
  rw [output_close]
  exact ho

/-- Pipes are opened beside the output, which keeps its prompts. -/
theorem openPipes (h : IsPrompted prompt world other) (count : Nat) :
  IsPrompted prompt (world.openPipes count) (other.openPipes count)
  := by
  refine ⟨h.output, ?_⟩
  rw [h.eq_withOutput]
  rfl

/-- Prompts without bytes change nothing of a world. -/
theorem eq_of_nil (h : IsPrompted [] world other) :
  other = world
  := by
  have hc := h.output.eq_of_nil
  rw [Sink.content, Sink.content, List.reverse_inj] at hc
  have ho : other.output = world.output := congrArg Sink.mk hc
  have hw := h.eq_withOutput
  rwa [ho] at hw

end IsPrompted

/-- Prompts put into the output change nothing else. -/
def prompting (prompt : Bytes) : Simulation where
  Rel := IsPrompted prompt
  stream := id
  Known _ := True
  agree h := ⟨_, _, _, _, h.eq_withOutput⟩
  touch h _ _ _ := by
    refine ⟨h.output, ?_⟩
    rw [h.eq_withOutput]
    rfl
  known_file _ := trivial
  known_stderr := trivial
  stream_file _ := rfl
  stream_stderr := rfl
  injective _ _ h := h
  write h _ := h.write _
  drain h _ := h.drain _
  close h _ := h.close _

end World

open World

variable {prompt : Bytes}

/-- Each stream stands for itself, and so does each command. -/
theorem command_prompting :
  (prompting prompt).command = id
  := rfl

/-- Every command has streams that commands can have. -/
theorem knownCommand_prompting (command : Command) :
  (prompting prompt).KnownCommand command
  := ⟨trivial, trivial, trivial⟩

namespace Pipeline

variable {world other : World}

/-- Stages make the same commands whether or not prompts have been written. -/
theorem wire_prompting (h : IsPrompted prompt world other) (directory : Text) (number : Nat)
    (stages : List Text) :
  (wire directory number stages other).1 = (wire directory number stages world).1
    ∧ IsPrompted prompt (wire directory number stages world).2
      (wire directory number stages other).2
  := by
  induction stages generalizing number world other with
  | nil => exact ⟨rfl, h⟩
  | cons stage rest ih =>
    have hs := @Simulation.ofStage (prompting prompt) world other directory (inputOf number)
      (outputOf number rest.isEmpty) h stage trivial trivial
    rw [command_prompting, Option.map_id_fun] at hs
    obtain ⟨hc, -, hw⟩ := hs
    obtain ⟨hr, hw⟩ := ih hw (number + 1)
    rw [wire, wire]
    dsimp only
    rw [← hr]
    exact ⟨congrArg (· :: _) hc, hw⟩

/-- The same pipeline is made whether or not prompts have been written, or there are too many pipes
in both cases. -/
theorem build_prompting (h : IsPrompted prompt world other) (directory : Text)
    (stages : List Text) :
  Alike (fun first second => second.1 = first.1 ∧ IsPrompted prompt first.2 second.2)
    (build directory stages world) (build directory stages other)
  := by
  have hr : other.pipeRoom = world.pipeRoom := by
    rw [h.eq_withOutput]
    rfl
  rw [build, build, hr]
  split
  · exact .error _
  · exact .ok (wire_prompting (h.openPipes _) directory 0 stages)

end Pipeline

namespace Shell

variable {shell after : Shell}

/-- A line does the same whether or not prompts have been written. -/
theorem runLine_prompting (h : (prompting prompt).RelShell shell after) (line : Text) :
  Alike (fun first second => (prompting prompt).RelShell first.1 second.1 ∧ second.2 = first.2)
    (shell.runLine line) (after.runLine line)
  := by
  rw [runLine, runLine, h.session]
  rcases (Pipeline.build_prompting h.world shell.session.directory (stages line)).ok_or_error with
    ⟨⟨_, _⟩, ⟨pipeline, _⟩, hf, hs, rfl, hw⟩ | ⟨error, hf, hs⟩
  · have hk : ∀ stage ∈ pipeline, ∀ command ∈ stage, (prompting prompt).KnownCommand command :=
      fun _ _ command _ => knownCommand_prompting command
    have hr := (h.withWorld hw).runStages .proceed hk
    rw [command_prompting, Option.map_id_fun, List.map_id] at hr
    rw [hf, hs]
    refine .ok ⟨hr.2, ?_⟩
    dsimp only [runPipeline]
    rw [hr.1]
  · rw [hf, hs]
    exact .error error

/-- A line that is obeyed does the same whether or not prompts have been written, and asks both
shells to exit or neither. -/
theorem obey_prompting (h : (prompting prompt).RelShell shell after) {looks others : Looks}
    (hl : others.style = looks.style) (line : Text) :
  (prompting prompt).RelShell (shell.obey looks line).1 (after.obey others line).1
    ∧ (after.obey others line).2 = (shell.obey looks line).2
  := by
  rw [obey, obey]
  split
  · exact ⟨h, rfl⟩
  · have hr : (prompting prompt).RelShell (shell.record line) (after.record line) := by
      rw [record, record, h.session]
      apply h.setHistory
    rcases (runLine_prompting hr line).ok_or_error with ⟨_, _, hf, hs, hr⟩ | ⟨_, hf, hs⟩
    · rw [hf, hs]
      exact hr
    · rw [hf, hs]
      refine ⟨?_, rfl⟩
      dsimp only [complain]
      rw [hl]
      apply hr.withWorld ((prompting prompt).tryWrite hr.world trivial _)

theorem complain_prompting (h : (prompting prompt).RelShell shell after) {looks others : Looks}
    (hl : others.style = looks.style) (message : Text) :
  (prompting prompt).RelShell (shell.complain looks message) (after.complain others message)
  := by
  rw [complain, complain, hl]
  apply h.withWorld ((prompting prompt).tryWrite h.world trivial _)

/-- The history is saved alike, since no file depends on the output. -/
theorem saveHistory_prompting (h : (prompting prompt).RelShell shell after)
    (file : Option Text) :
  (prompting prompt).RelShell (shell.saveHistory file) (after.saveHistory file)
  := by
  cases file with
  | none => exact h
  | some path =>
    rw [saveHistory, saveHistory, h.session, (prompting prompt).tree_eq h.world,
      (prompting prompt).start_eq h.world]
    split
    · rename_i history tree _
      apply (h.setHistory history).withWorld ((prompting prompt).withTree h.world tree)
    · exact h

/-- The looks without a prompt. -/
def Looks.quiet (looks : Looks) : Looks :=
  { looks with prompt := [] }

/-- Without a prompt nothing is written before a line is read. -/
theorem invite_quiet (looks : Looks) (shell : Shell) :
  shell.invite looks.quiet = shell
  := rfl

/-- A prompt that is written is put into the output. -/
theorem invite_prompting {looks : Looks}
    (h : (prompting (Text.encode looks.prompt)).RelShell shell after) :
  (prompting (Text.encode looks.prompt)).RelShell shell (after.invite looks)
  := by
  refine ⟨h.session, ?_⟩
  have ho := h.world.output
  rw [invite, tryWrite_stdout]
  refine ⟨?_, ?_⟩
  · dsimp only [withWorld, withOutput]
    rw [Sink.content_write]
    apply ho.prompt
  · dsimp only [withWorld]
    rw [h.world.eq_withOutput]
    rfl

/-- An outcome is that of a shell whose output has no prompts, with prompts put in. -/
structure Outcome.IsPrompted (prompt : Bytes) (outcome other : Outcome) : Prop where
  shell : (prompting prompt).RelShell outcome.shell other.shell
  broken : other.broken = outcome.broken

/-- Prompts without bytes change nothing of an outcome. -/
theorem Outcome.IsPrompted.eq_of_nil {outcome other : Outcome} (h : outcome.IsPrompted [] other) :
  other = outcome
  := by
  have hw := h.shell.world.eq_of_nil
  have hs := h.shell.session
  have hb := h.broken
  obtain ⟨⟨session, world⟩, broken⟩ := outcome
  obtain ⟨⟨_, _⟩, _⟩ := other
  dsimp only at hw hs hb
  subst hw hs hb
  rfl

/-- A shell that writes a prompt before each line comes to the same as one that does not, but for the
prompts in its output. -/
theorem interact_prompting {looks : Looks}
    (h : (prompting (Text.encode looks.prompt)).RelShell shell after) (readings : List Reading) :
  Outcome.IsPrompted (Text.encode looks.prompt) (interact looks.quiet readings shell)
    (interact looks readings after)
  := by
  induction readings generalizing shell after with
  | nil => exact ⟨invite_prompting h, rfl⟩
  | cons reading rest ih =>
    have hi := invite_prompting h
    cases reading with
    | unreadable => exact ⟨complain_prompting hi rfl _, rfl⟩
    | broken => exact ⟨hi, rfl⟩
    | line line =>
      obtain ⟨ho, hs⟩ := @obey_prompting _ _ _ hi looks.quiet looks rfl line
      rw [interact, interact, invite_quiet]
      generalize (after.invite looks).obey looks line = second at ho hs
      generalize shell.obey looks.quiet line = first at ho hs
      obtain ⟨obeyed, exits⟩ := first
      obtain ⟨reobeyed, reexits⟩ := second
      obtain rfl : reexits = exits := hs
      cases reexits with
      | true => exact ⟨ho, rfl⟩
      | false => apply ih ho

theorem Outcome.IsPrompted.saved {outcome other : Outcome}
    (h : outcome.IsPrompted prompt other) (file : Option Text) :
  (outcome.saved file).IsPrompted prompt (other.saved file)
  := by
  rw [Outcome.saved, Outcome.saved, h.broken]
  split
  · exact h
  · exact ⟨saveHistory_prompting h.shell file, rfl⟩

end Shell

end CommandShell
