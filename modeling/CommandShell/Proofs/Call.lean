import CommandShell.Pipeline
import CommandShell.Proofs.Growth
import CommandShell.Proofs.World

/-!
# Calls

What a stage calls is a name, as it is written, with arguments.  The commands of a pipeline call
what its stages call (`Pipeline.calls_build`).  A session changes only when a builtin responds to a
call (`Shell.session_runCommand`): the directory when the call is one of `cd` that enters a
directory, and the entries of the history when it loads a file.
-/

namespace CommandShell

/-- A name as it is written, with arguments. -/
structure Call where
  name : Text
  args : List Text
  deriving DecidableEq, Repr

namespace Call

/-- What tokens call; no tokens call nothing. -/
def ofTokens? : List Token → Option Call
  | [] => none
  | first :: rest => some ⟨first.text, (Outline.read none rest).args⟩

/-- What a stage calls. -/
def ofStage? (stage : Text) : Option Call :=
  ofTokens? (Token.ofStage stage)

end Call

/-- What a command calls. -/
def Command.call (command : Command) : Call :=
  ⟨command.name, command.args⟩

/-- The command of a stage calls what the stage calls. -/
theorem Command.call_ofStage (directory stage : Text) (input output : Stream) (world : World) :
  (ofStage directory stage input output world).1.map call = Call.ofStage? stage
  := by
  rw [ofStage, Call.ofStage?]
  cases Token.ofStage stage <;> rfl

namespace Pipeline

theorem calls_wire (directory : Text) (number : Nat) (stages : List Text) (world : World) :
  (wire directory number stages world).1.map (Option.map Command.call)
    = stages.map Call.ofStage?
  := by
  induction stages generalizing number world with
  | nil => rfl
  | cons stage rest ih =>
    rw [wire, List.map_cons, List.map_cons, ih, Command.call_ofStage]

/-- A pipeline is made if there is room for its pipes. -/
theorem build_eq_ok_iff {directory : Text} {stages : List Text} {world after : World}
    {pipeline : Pipeline} :
  build directory stages world = .ok (pipeline, after)
    ↔ stages.length - 1 ≤ world.pipeRoom
      ∧ wire directory 0 stages (world.openPipes (stages.length - 1)) = (pipeline, after)
  := by
  rw [build]
  split
  · rename_i h
    simp [Nat.not_le.mpr h]
  · rename_i h
    simp [Nat.le_of_not_lt h]

/-- The commands of a pipeline call what its stages call. -/
theorem calls_build {directory : Text} {stages : List Text} {world after : World}
    {pipeline : Pipeline} (h : build directory stages world = .ok (pipeline, after)) :
  pipeline.map (Option.map Command.call) = stages.map Call.ofStage?
  := by
  obtain ⟨-, hw⟩ := build_eq_ok_iff.mp h
  have hc := calls_wire directory 0 stages (world.openPipes (stages.length - 1))
  rw [hw] at hc
  exact hc

end Pipeline

/-! ### Builtins -/

namespace Builtin

theorem ofName?_eq_some_iff {text : Text} {builtin : Builtin} :
  ofName? text = some builtin ↔ text = builtin.name
  := by
  constructor
  · intro h
    have hn := List.find?_some h
    exact (of_decide_eq_true hn).symm
  · rintro rfl
    cases builtin <;> decide

/-- The flag that asks for a transfer. -/
def Transfer.flag : Transfer → Text
  | .load => ['-', 'r']
  | .save => ['-', 'w']
  | .append => ['-', 'a']

theorem Transfer.ofFlag?_eq_some_iff {flag : Text} {transfer : Transfer} :
  ofFlag? flag = some transfer ↔ flag = transfer.flag
  := by
  constructor
  · intro h
    rw [ofFlag?] at h
    split at h
    · obtain rfl := Option.some_inj.mp h
      assumption
    · split at h
      · obtain rfl := Option.some_inj.mp h
        assumption
      · split at h
        · obtain rfl := Option.some_inj.mp h
          assumption
        · contradiction
  · rintro rfl
    cases transfer <;> decide

/-- The call that asks for a transfer between the history and a file. -/
def Transfer.call (transfer : Transfer) (file : Text) : Call :=
  ⟨Builtin.history.name, [transfer.flag, file]⟩

/-- A transfer loads entries, or it writes bytes to a file that it opens and leaves the entries. -/
theorem Transfer.perform_cases {transfer : Transfer} {path : Text} {shell after : Shell}
    (h : transfer.perform path shell = .ok after) :
  (transfer = .load ∧ ∃ history, after = shell.setHistory history)
    ∨ (transfer ≠ .load ∧ ∃ (disposition : Disposition) (opened : FileTree)
        (location : Location) (bytes : Bytes),
      shell.world.tree.openForWriting shell.world.start (Path.route path) disposition newFileMode
          = .ok (opened, location)
        ∧ after
          = (shell.setHistory
              { shell.session.history with
                appended := shell.session.history.entries.length }).withWorld
              (shell.world.withTree (opened.extend location bytes)))
  := by
  cases transfer with
  | load =>
    obtain ⟨loaded, -, h⟩ := bind_eq_ok_iff.mp h
    obtain rfl := Except.ok.inj h
    exact .inl ⟨rfl, _, rfl⟩
  | save =>
    obtain ⟨saved, hs, h⟩ := bind_eq_ok_iff.mp h
    obtain rfl := Except.ok.inj h
    obtain ⟨⟨opened, location⟩, ho, hs⟩ := bind_eq_ok_iff.mp hs
    obtain rfl := Except.ok.inj hs
    exact .inr ⟨nofun, .truncate, opened, location, _, ho, rfl⟩
  | append =>
    obtain ⟨appended, hs, h⟩ := bind_eq_ok_iff.mp h
    obtain rfl := Except.ok.inj h
    obtain ⟨⟨opened, location⟩, ho, hs⟩ := bind_eq_ok_iff.mp hs
    obtain rfl := Except.ok.inj hs
    exact .inr ⟨nofun, .append, opened, location, _, ho, rfl⟩

/-- A transfer leaves the directory, and the entries unless it loads some. -/
theorem Transfer.session_perform {transfer : Transfer} {path : Text} {shell after : Shell}
    (h : transfer.perform path shell = .ok after) :
  after.session.directory = shell.session.directory
    ∧ (transfer ≠ .load → after.session.history.entries = shell.session.history.entries)
  := by
  rcases perform_cases h with ⟨hl, history, rfl⟩ | ⟨-, _, _, _, _, -, rfl⟩
  · exact ⟨rfl, fun hn => absurd hl hn⟩
  · exact ⟨rfl, fun _ => rfl⟩

/-- What `history` does with arguments that ask for no transfer leaves the shell as it was. -/
theorem shell_consult (args : List Text) (shell : Shell) :
  (consult args shell).shell = shell
    ∨ ∃ transfer file, args = [Transfer.flag transfer, file]
      ∧ transfer.perform (shell.resolve file) shell = .ok (consult args shell).shell
  := by
  match args with
  | [] => exact .inl rfl
  | [count] =>
    left
    rw [consult]
    split <;> rfl
  | [flag, file] =>
    rw [consult]
    split
    · rename_i transfer hf
      rw [transferHistory]
      split
      · rename_i changed h
        exact .inr ⟨transfer, file, by rw [Transfer.ofFlag?_eq_some_iff.mp hf], h⟩
      · exact .inl rfl
    · exact .inl rfl
  | _ :: _ :: _ :: _ => exact .inl rfl

/-- A builtin leaves the shell as it was, unless it enters a directory or asks for a transfer of the
history. -/
theorem shell_respond (builtin : Builtin) (args : List Text) (shell : Shell) :
  (builtin.respond args shell).shell = shell
    ∨ (builtin = .cd ∧ ∃ target, args = [target] ∧ shell.isDirectory (shell.resolve target) = true
      ∧ (builtin.respond args shell).shell = shell.setDirectory (shell.resolve target))
    ∨ ∃ transfer file, (⟨builtin.name, args⟩ : Call) = Transfer.call transfer file
      ∧ transfer.perform (shell.resolve file) shell = .ok (builtin.respond args shell).shell
  := by
  cases builtin with
  | echo => exact .inl rfl
  | type =>
    left
    rw [respond, describe]
    split <;> rfl
  | pwd => exact .inl rfl
  | cd =>
    match args with
    | [] => exact .inl rfl
    | [target] =>
      rw [respond, changeDirectory, enter]
      split
      · rename_i hd
        exact .inr (.inl ⟨rfl, target, rfl, hd, rfl⟩)
      · exact .inl rfl
    | _ :: _ :: _ => exact .inl rfl
  | exit => exact .inl rfl
  | history =>
    rcases shell_consult args shell with h | ⟨transfer, file, ha, h⟩
    · exact .inl h
    · exact .inr (.inr ⟨transfer, file, by rw [ha]; rfl, h⟩)

/-- What is written changes nothing of a session. -/
theorem session_run (builtin : Builtin) (command : Command) (shell : Shell) :
  (builtin.run command shell).shell.session
    = (builtin.respond command.args shell).shell.session
  := by
  rw [run]
  split <;> rfl

theorem encode_line_ne_nil (text : Text) :
  Text.encode (Text.line text) ≠ []
  := by
  have hn : Text.encode ['\n'] ≠ [] := by decide
  simp [Text.line, hn]

section

variable {builtin : Builtin} {command : Command} {shell after : Shell} {outlet : Outlet}
  {line : Text} {flow : Flow}
  (hr : builtin.respond command.args shell = ⟨after, [(outlet, line)], flow⟩)

include hr

/-- A builtin that responds with a single line writes that. -/
theorem run_eq_of_line :
  builtin.run command shell
    = match after.world.write (command.stream outlet) (Text.encode (Text.line line)) with
      | .ok written => ⟨after.withWorld written, .ok flow⟩
      | .error error => ⟨after, .error error⟩
  := by
  have hs := after.world.speak_singleton command.stream outlet (encode_line_ne_nil line)
  rw [run, hr]
  simp only [Response.messages, List.map_singleton, hs]
  cases after.world.write (command.stream outlet) (Text.encode (Text.line line)) <;> rfl

/-- A builtin that responds with a single line, which can be written, writes that. -/
theorem run_eq_of_write {written : World}
    (hw : after.world.write (command.stream outlet) (Text.encode (Text.line line))
      = .ok written) :
  builtin.run command shell = ⟨after.withWorld written, .ok flow⟩
  := by
  rw [run_eq_of_line hr, hw]

end

end Builtin

/-! ### Sessions -/

namespace Shell

theorem session_runProgram (shell : Shell) (command : Command) :
  (shell.runProgram command).session = shell.session
  := by
  rw [runProgram]
  split
  · rw [launch]
    split
    · rfl
    · dsimp only
      split
      · split <;> rfl
      · rfl
  · rfl

/-- A command leaves the session as it was, unless it enters a directory or asks for a transfer of
the history. -/
theorem session_runCommand (shell : Shell) (command : Command) :
  (shell.runCommand command).1.session = shell.session
    ∨ (∃ target, command.call = ⟨Builtin.cd.name, [target]⟩
      ∧ shell.isDirectory (shell.resolve target) = true
      ∧ (shell.runCommand command).1.session
        = (shell.setDirectory (shell.resolve target)).session)
    ∨ ∃ transfer file changed, command.call = Builtin.Transfer.call transfer file
      ∧ transfer.perform (shell.resolve file) shell = .ok changed
      ∧ (shell.runCommand command).1.session = changed.session
  := by
  rw [runCommand]
  split
  · rename_i builtin hb
    have hn := Builtin.ofName?_eq_some_iff.mp hb
    dsimp only
    rw [builtin.session_run, Command.call, hn]
    rcases builtin.shell_respond command.args shell with
      h | ⟨rfl, target, ha, hd, h⟩ | ⟨transfer, file, hc, h⟩
    · rw [h]
      exact .inl rfl
    · rw [h]
      exact .inr (.inl ⟨target, by rw [ha], hd, rfl⟩)
    · exact .inr (.inr ⟨transfer, file, _, hc, h, rfl⟩)
  · exact .inl (shell.session_runProgram command)

/-- A command leaves the search path. -/
theorem search_runCommand (shell : Shell) (command : Command) :
  (shell.runCommand command).1.session.search = shell.session.search
  := by
  rcases shell.session_runCommand command with
    hs | ⟨target, -, -, hs⟩ | ⟨transfer, file, changed, -, hp, hs⟩
  · rw [hs]
  · rw [hs]
    rfl
  · rw [hs]
    rcases Builtin.Transfer.perform_cases hp with ⟨-, history, rfl⟩ | ⟨-, _, _, _, _, -, rfl⟩
    · rfl
    · rfl

theorem search_runStages (shell : Shell) (flow : Flow) (pipeline : Pipeline) :
  (shell.runStages flow pipeline).1.session.search = shell.session.search
  := by
  induction pipeline generalizing shell flow with
  | nil => rfl
  | cons stage rest ih =>
    rw [runStages, ih]
    cases stage with
    | none => rfl
    | some command => apply shell.search_runCommand

/-- A line runs if its pipeline can be made. -/
theorem runLine_eq_ok_iff {shell : Shell} {line : Text} {result : Shell × Bool} :
  shell.runLine line = .ok result
    ↔ ∃ pipeline built, Pipeline.build shell.session.directory (stages line) shell.world
        = .ok (pipeline, built)
      ∧ (shell.withWorld built).runPipeline pipeline = result
  := by
  rw [runLine, bind_eq_ok_iff]
  simp

/-- A line runs only if there is room for its pipes. -/
theorem room_of_runLine {shell : Shell} {line : Text} {result : Shell × Bool}
    (h : shell.runLine line = .ok result) :
  (stages line).length - 1 ≤ shell.world.pipeRoom
  := by
  obtain ⟨pipeline, built, hb, -⟩ := runLine_eq_ok_iff.mp h
  apply (Pipeline.build_eq_ok_iff.mp hb).1

/-- A line runs if there is room for its pipes. -/
theorem exists_runLine {shell : Shell} {line : Text}
    (h : (stages line).length - 1 ≤ shell.world.pipeRoom) :
  ∃ result, shell.runLine line = .ok result
  := ⟨_, runLine_eq_ok_iff.mpr ⟨_, _, Pipeline.build_eq_ok_iff.mpr ⟨h, rfl⟩, rfl⟩⟩

/-- A line leaves the search path. -/
theorem search_runLine {shell after : Shell} {line : Text} {exits : Bool}
    (h : shell.runLine line = .ok (after, exits)) :
  after.session.search = shell.session.search
  := by
  obtain ⟨pipeline, built, -, h⟩ := runLine_eq_ok_iff.mp h
  obtain ⟨rfl, -⟩ := Prod.mk.inj h
  apply search_runStages (shell.withWorld built)

theorem runStages_append (shell : Shell) (flow : Flow) (first second : Pipeline) :
  shell.runStages flow (first ++ second)
    = (shell.runStages flow first).1.runStages (shell.runStages flow first).2 second
  := by
  induction first generalizing shell flow with
  | nil => rfl
  | cons stage rest ih => apply ih

/-- The shell that has made the pipeline of a line and run so many stages of it. -/
def midway (shell : Shell) (line : Text) (count : Nat) : Shell :=
  match Pipeline.build shell.session.directory (stages line) shell.world with
  | .ok (pipeline, world) =>
    ((shell.withWorld world).runStages .proceed (pipeline.take count)).1
  | .error _ => shell

end Shell

end CommandShell
