import CommandShell.Proofs.Evolution
import CommandShell.Proofs.Prompt
import CommandShell.Proofs.Wiring

/-!
# When a shell stops

A line stops a shell exactly if there is room for its pipes and the name of its last stage, as it is
written, is that of `exit` (`Shell.obey_snd_iff`).  Which lines of a script are run is thus told from
the lines alone (`Course.of`), and the shell comes to what these lines lead to
(`Shell.interact_quiet`).  So lines of blanks do not matter, and neither does what follows the line
that stops the shell (`Shell.run_of_isVariant`), but for the prompts that are written before each
line on a terminal on which lines cannot be edited.
-/

namespace CommandShell

/-- Whether a line stops a shell that has room for so many pipes: the pipes can be made, and the
first word of the last stage, as it is written, is `exit`. -/
def Stops (room : Nat) (line : Text) : Prop :=
  (stages line).length - 1 ≤ room
    ∧ ((stages line).getLast?.bind fun stage => (words stage).head?.map Word.raw)
      = some Builtin.exit.name

instance (room : Nat) (line : Text) : Decidable (Stops room line) :=
  inferInstanceAs (Decidable (_ ∧ _))

theorem mem_of_mem_stages {line stage : Text} (h : stage ∈ stages line) {c : Char}
    (hc : c ∈ stage) :
  c ∈ line
  := by
  obtain ⟨piece, hp, rfl⟩ := List.mem_map.mp h
  obtain ⟨entry, he, rfl⟩ := List.mem_map.mp hc
  have hf : entry ∈ (runs Prod.snd (barred .bare line)).flatten := List.mem_flatten_of_mem hp he
  rw [flatten_runs] at hf
  rw [← map_fst_barred .bare line]
  apply List.mem_map_of_mem (List.mem_filter.mp hf).1

/-- A line of blanks stops no shell. -/
theorem not_stops_of_isBlank {room : Nat} {line : Text} (h : line.isBlank = true) :
  ¬ Stops room line
  := by
  rintro ⟨-, hn⟩
  obtain ⟨stage, hs, hn⟩ := Option.bind_eq_some_iff.mp hn
  have hb : stage.isBlank = true := by
    apply List.all_eq_true.mpr
    intro c hc
    apply List.all_eq_true.mp h c (mem_of_mem_stages (List.mem_of_getLast? hs) hc)
  rw [words_eq_nil_iff.mpr hb] at hn
  contradiction

/-! ### Flows -/

theorem Call.name_ofStage? (stage : Text) :
  (ofStage? stage).map Call.name = (words stage).head?.map Word.raw
  := by
  rw [ofStage?, Token.ofStage]
  cases words stage <;> rfl

namespace Builtin

theorem flow_consult (args : List Text) (shell : Shell) :
  (consult args shell).flow = .proceed
  := by
  match args with
  | [] => rfl
  | [count] =>
    rw [consult]
    split <;> rfl
  | [flag, file] =>
    rw [consult]
    split
    · rw [transferHistory]
      split <;> rfl
    · rfl
  | _ :: _ :: _ :: _ => rfl

/-- A builtin asks a shell to stop exactly if it is `exit`. -/
theorem flow_respond_iff (builtin : Builtin) (args : List Text) (shell : Shell) :
  (builtin.respond args shell).flow = .exit ↔ builtin = .exit
  := by
  cases builtin with
  | echo => simp [respond]
  | type =>
    rw [respond, describe]
    split <;> simp
  | pwd => simp [respond]
  | cd =>
    rw [respond, changeDirectory.eq_def]
    split
    · rw [enter]
      split <;> simp
    · simp
  | exit => simp [respond]
  | history => simp [respond, flow_consult]

/-- Whatever cannot be written, `exit` asks a shell to stop, and no other builtin does. -/
theorem flow_run_iff (builtin : Builtin) (command : Command) (shell : Shell) :
  (builtin.run command shell).result.toOption.getD .proceed = .exit ↔ builtin = .exit
  := by
  by_cases he : builtin = .exit
  · subst he
    exact iff_of_true rfl rfl
  · rw [run]
    split
    · apply flow_respond_iff
    · refine iff_of_false ?_ he
      rintro ⟨⟩

end Builtin

namespace Shell

/-- A command asks a shell to stop exactly if its name, as it is written, is that of `exit`. -/
theorem runCommand_snd_iff (shell : Shell) (command : Command) :
  (shell.runCommand command).2 = .exit ↔ command.name = Builtin.exit.name
  := by
  rw [runCommand]
  cases hb : Builtin.ofName? command.name with
  | none =>
    simp only [reduceCtorEq, false_iff]
    intro hn
    rw [Builtin.ofName?_eq_some_iff.mpr hn] at hb
    contradiction
  | some builtin =>
    rw [Builtin.ofName?_eq_some_iff.mp hb]
    dsimp only
    rw [Builtin.flow_run_iff]
    constructor
    · rintro rfl
      rfl
    · intro hn
      cases builtin with
      | exit => rfl
      | _ => contradiction

/-- The flow of a pipeline is that of its last stage. -/
theorem runStages_snd_iff (shell : Shell) (pipeline : Pipeline) :
  (shell.runStages .proceed pipeline).2 = .exit
    ↔ (pipeline.getLast?.bind fun stage => stage.map Command.name) = some Builtin.exit.name
  := by
  rcases List.eq_nil_or_concat pipeline with rfl | ⟨before, last, rfl⟩
  · simp [runStages]
  · rw [List.concat_eq_append, runStages_append, List.getLast?_concat]
    cases last with
    | none => simp [runStages, runStage]
    | some command =>
      rw [Option.bind_some, Option.map_some, Option.some_inj]
      apply runCommand_snd_iff

/-- A line that runs asks a shell to stop exactly if the name of its last stage is that of
`exit`. -/
theorem runLine_exits_iff {shell after : Shell} {line : Text} {exits : Bool}
    (h : shell.runLine line = .ok (after, exits)) :
  exits = true ↔ ((stages line).getLast?.bind fun stage => (words stage).head?.map Word.raw)
    = some Builtin.exit.name
  := by
  obtain ⟨pipeline, built, hb, h⟩ := runLine_eq_ok_iff.mp h
  obtain ⟨-, rfl⟩ := Prod.mk.inj h
  have hc : pipeline.map (Option.map Command.call) = (stages line).map Call.ofStage? :=
    Pipeline.calls_build hb
  have hl : (pipeline.getLast?.bind fun stage => stage.map Command.name)
      = (stages line).getLast?.bind fun stage => (words stage).head?.map Word.raw := by
    have hl := congrArg (fun calls => calls.getLast?.bind (Option.map Call.name)) hc
    simp only [List.getLast?_map, Option.bind_map, Function.comp_def, Option.map_map,
      Call.name_ofStage?] at hl
    exact hl
  rw [decide_eq_true_eq, runStages_snd_iff, hl]

/-- A line stops a shell exactly if there is room for its pipes and its last stage is named
`exit`. -/
theorem obey_snd_iff (looks : Looks) (shell : Shell) (line : Text) :
  (shell.obey looks line).2 = true ↔ Stops shell.world.pipeRoom line
  := by
  rw [obey]
  split
  · rename_i hb
    exact iff_of_false Bool.false_ne_true (not_stops_of_isBlank hb)
  · split
    · rename_i result h
      have hr : (stages line).length - 1 ≤ shell.world.pipeRoom :=
        @room_of_runLine (shell.record line) line result h
      rw [runLine_exits_iff h, Stops, and_iff_right hr]
    · rename_i error h
      refine iff_of_false Bool.false_ne_true ?_
      rintro ⟨hr, -⟩
      obtain ⟨result, hl⟩ := @exists_runLine (shell.record line) line hr
      rw [hl] at h
      contradiction

end Shell

/-! ### The course of a script -/

/-- How a script ends for a shell. -/
inductive Halt where
  /-- With a line that stops the shell. -/
  | stop
  /-- With its last line. -/
  | over
  /-- With a line that is no text. -/
  | unreadable
  /-- With a line on which the reader breaks down. -/
  | broken
  deriving DecidableEq, Repr

/-- The lines of a script that a shell runs, and how it ends. -/
structure Course where
  lines : List Text
  halt : Halt
  deriving DecidableEq, Repr

namespace Course

/-- The course of a script for a shell with room for so many pipes: the lines that are not blank, up
to and with the first that stops the shell. -/
def of (room : Nat) : List Reading → Course
  | [] => ⟨[], .over⟩
  | .unreadable :: _ => ⟨[], .unreadable⟩
  | .broken :: _ => ⟨[], .broken⟩
  | .line line :: rest =>
    if line.isBlank then of room rest
    else if Stops room line then ⟨[line], .stop⟩
    else { of room rest with lines := line :: (of room rest).lines }

/-- What a shell comes to that runs the lines of a course in order. -/
def outcome (looks : Shell.Looks) (course : Course) (shell : Shell) : Shell.Outcome :=
  let shell := course.lines.foldl (fun shell line => (shell.obey looks line).1) shell
  match course.halt with
  | .stop | .over => ⟨shell, false⟩
  | .unreadable => ⟨shell.complain looks SystemError.notText.message, false⟩
  | .broken => ⟨shell, true⟩

end Course

namespace Shell

/-- A shell that writes no prompt comes to what the lines of the script lead to. -/
theorem interact_quiet (looks : Looks) (readings : List Reading) (shell : Shell) :
  interact looks.quiet readings shell
    = (Course.of shell.world.pipeRoom readings).outcome looks shell
  := by
  induction readings generalizing shell with
  | nil => rfl
  | cons reading rest ih =>
    cases reading with
    | unreadable => rfl
    | broken => rfl
    | line line =>
      have ho : shell.obey looks.quiet line = shell.obey looks line := rfl
      have hs := shell.obey_snd_iff looks line
      have hr := (evolves_obey looks shell line).confined.pipeRoom_eq
      rw [interact, invite_quiet, Course.of, ho]
      by_cases hb : line.isBlank = true
      · have hn : shell.obey looks line = (shell, false) := if_pos hb
        rw [hn, if_pos hb]
        apply ih
      rw [if_neg hb]
      by_cases hx : Stops shell.world.pipeRoom line
      · have hp : shell.obey looks line = ((shell.obey looks line).1, true) :=
          Prod.ext rfl (hs.mpr hx)
        rw [if_pos hx, hp]
        rfl
      · have hp : shell.obey looks line = ((shell.obey looks line).1, false) :=
          Prod.ext rfl (Bool.eq_false_iff.mpr (mt hs.mp hx))
        rw [if_neg hx, hp]
        dsimp only
        rw [ih, hr]
        rfl

end Shell

/-! ### Scripts that differ in what does not matter -/

/-- Whether scripts differ only in lines of blanks, and in what follows a line that stops a shell
with room for so many pipes. -/
inductive IsVariant (room : Nat) : List Bytes → List Bytes → Prop where
  | nil : IsVariant room [] []
  | cons (bytes : Bytes) {first second : List Bytes} (h : IsVariant room first second) :
      IsVariant room (bytes :: first) (bytes :: second)
  | blank_left {blank : Text} (hb : blank.isBlank = true) {first second : List Bytes}
      (h : IsVariant room first second) : IsVariant room (Text.encode blank :: first) second
  | blank_right {blank : Text} (hb : blank.isBlank = true) {first second : List Bytes}
      (h : IsVariant room first second) : IsVariant room first (Text.encode blank :: second)
  | stop {bytes : Bytes} {line : Text} (hr : LineReader.read bytes = .line line)
      (hs : Stops room line) (first second : List Bytes) :
      IsVariant room (bytes :: first) (bytes :: second)

namespace LineReader

theorem exists_foldlM_keep {clusters : List Text} (h : [backspace] ∉ clusters)
    (draft : Draft) :
  ∃ sizes, clusters.foldlM keep draft
    = some ⟨clusters.flatten.reverse ++ draft.reversed, sizes⟩
  := by
  induction clusters generalizing draft with
  | nil => exact ⟨draft.sizes, rfl⟩
  | cons cluster rest ih =>
    obtain ⟨hc, hr⟩ := List.ne_and_not_mem_of_not_mem_cons h
    obtain ⟨sizes, hk⟩ := ih hr (draft.add cluster)
    use sizes
    have ha : keep draft cluster = some (draft.add cluster) := if_neg (Ne.symm hc)
    rw [List.foldlM_cons, ha]
    refine hk.trans ?_
    simp [Draft.add]

/-- A text without a backspace is read as it is. -/
theorem read_encode {text : Text} (h : backspace ∉ text) :
  read (Text.encode text) = .line text
  := by
  have hc : [backspace] ∉ text.clusters := by
    intro hc
    apply h
    rw [← Text.flatten_clusters text]
    apply List.mem_flatten_of_mem hc (List.mem_singleton_self _)
  obtain ⟨sizes, hk⟩ := exists_foldlM_keep hc Draft.empty
  rw [read, Text.decode?_encode]
  dsimp only
  rw [applyBackspaces, hk]
  simp [Draft.text, Draft.empty, Text.flatten_clusters]

/-- A line of blanks is read as it is. -/
theorem read_encode_of_isBlank {blank : Text} (h : blank.isBlank = true) :
  read (Text.encode blank) = .line blank
  := by
  apply read_encode
  intro hm
  have hb := List.all_eq_true.mp h backspace hm
  contradiction

end LineReader

/-- Scripts that differ only in what does not matter have one course. -/
theorem IsVariant.course_eq {room : Nat} {first second : List Bytes}
    (h : IsVariant room first second) :
  Course.of room (second.map LineReader.read) = Course.of room (first.map LineReader.read)
  := by
  induction h with
  | nil => rfl
  | cons bytes h ih =>
    rw [List.map_cons, List.map_cons]
    cases LineReader.read bytes with
    | line line => rw [Course.of, Course.of, ih]
    | unreadable => rfl
    | broken => rfl
  | blank_left hb h ih =>
    rw [ih, List.map_cons, LineReader.read_encode_of_isBlank hb, Course.of, if_pos hb]
  | blank_right hb h ih =>
    rw [← ih, List.map_cons, LineReader.read_encode_of_isBlank hb, Course.of, if_pos hb]
  | @stop bytes line hr hs first second =>
    have hb : ¬ line.isBlank = true := fun hb => not_stops_of_isBlank hb hs
    rw [List.map_cons, List.map_cons, hr, Course.of, Course.of, if_neg hb, if_neg hb,
      if_pos hs, if_pos hs]

/-! ### Runs -/

namespace Shell

/-- The shell that settings start in a world, before it reads its first line. -/
def begun (settings : Settings) (world : World) : Shell :=
  (begin settings { world with input := [] }).loadHistory settings.historyFile

/-- What the lines of a script lead to for a shell that settings start in a world. -/
def enacted (settings : Settings) (coloursShown : Bool) (world : World) (script : Bytes) : Outcome :=
  ((Course.of world.pipeRoom (LineReader.lines script)).outcome
    (.ofSettings settings coloursShown) (begun settings world)).saved settings.historyFile

variable (settings : Settings) (coloursShown : Bool) (world : World)

theorem pipeRoom_begun :
  (begun settings world).world.pipeRoom = world.pipeRoom
  := by
  rw [begun]
  cases settings.historyFile with
  | none => rfl
  | some path =>
    rw [loadHistory]
    split
    · split <;> rfl
    · rfl

theorem isPrompted_run (script : Bytes) :
  (enacted settings coloursShown world script).IsPrompted
    (Text.encode (Looks.ofSettings settings coloursShown).prompt)
    (run settings coloursShown { world with input := script })
  := by
  have hi := @interact_prompting _ _ (.ofSettings settings coloursShown)
    ⟨rfl, .refl _ (begun settings world).world⟩ (LineReader.lines script)
  rw [interact_quiet, pipeRoom_begun] at hi
  exact hi.saved settings.historyFile

/-- A shell runs the lines of a script that are not blank, in order and up to the first that stops
it, and comes to what they lead to.  So lines of blanks, and what follows the line that stops it,
change nothing of its session, its files and what it reports, and nothing of its output but the
prompts that it writes where lines cannot be edited. -/
theorem run_of_isVariant (script : Bytes) :
  let prompt := Text.encode (Looks.ofSettings settings coloursShown).prompt
  let outcome := run settings coloursShown { world with input := script }
  (enacted settings coloursShown world script).IsPrompted prompt outcome
    ∧ (settings.isSimple = false → outcome = enacted settings coloursShown world script)
    ∧ ∀ other, IsVariant world.pipeRoom (Bytes.lines script) (Bytes.lines other) →
      let changed := run settings coloursShown { world with input := other }
      (enacted settings coloursShown world script).IsPrompted prompt changed
        ∧ changed.broken = outcome.broken
        ∧ changed.shell.session = outcome.shell.session
        ∧ changed.shell.world = outcome.shell.world.withOutput changed.shell.world.output
        ∧ (settings.isSimple = false → changed = outcome)
  := by
  intro prompt outcome
  have ho : (enacted settings coloursShown world script).IsPrompted prompt outcome :=
    isPrompted_run settings coloursShown world script
  have hq : settings.isSimple = false → prompt = [] := by
    intro hn
    dsimp only [prompt, Looks.ofSettings]
    rw [hn]
    rfl
  refine ⟨ho, ?_, ?_⟩
  · intro hn
    rw [hq hn] at ho
    apply ho.eq_of_nil
  intro other h changed
  have hc : (enacted settings coloursShown world script).IsPrompted prompt changed := by
    rw [enacted, LineReader.lines, ← h.course_eq, ← LineReader.lines, ← enacted]
    apply isPrompted_run
  refine ⟨hc, hc.broken.trans ho.broken.symm, hc.shell.session.trans ho.shell.session.symm, ?_, ?_⟩
  · rw [ho.shell.world.eq_withOutput]
    apply hc.shell.world.eq_withOutput
  · intro hn
    rw [hq hn] at hc ho
    rw [hc.eq_of_nil, ho.eq_of_nil]

end Shell

/-- A world with nothing in it but one directory, and with a terminal of some kind. -/
def World.attached (terminal : Text) : World :=
  { within [] with environment := ["HISTFILE=h".toList, "TERM=".toList ++ terminal] }

namespace Shell

/-- Where lines can be edited, neither lines of blanks nor bytes that are no text after the line that
stops a shell change anything; a line that there is no room for the pipes of does not stop it, and
neither does a quoted name. -/
theorem run_of_isVariant_attached :
  let world := World.attached "xterm".toList
  let script := Text.encode "pwd | exit\n'exit'\nexit 1 > f".toList
  let other := Text.encode "\npwd | exit\n\t \n'exit'\nexit 1 > f\n".toList ++ [255, 10, 254]
  Course.of world.pipeRoom (LineReader.lines script)
      = ⟨["pwd | exit".toList, "'exit'".toList, "exit 1 > f".toList], .stop⟩
    ∧ run world.settings false { world with input := other }
      = run world.settings false { world with input := script }
  := by
  intro world script other
  refine ⟨by decide +kernel, ?_⟩
  have hf : Bytes.lines script = [Text.encode "pwd | exit".toList, Text.encode "'exit'".toList,
      Text.encode "exit 1 > f".toList] := by decide +kernel
  have hs : Bytes.lines other = [Text.encode [], Text.encode "pwd | exit".toList,
      Text.encode "\t ".toList, Text.encode "'exit'".toList, Text.encode "exit 1 > f".toList,
      [255], [254]] := by decide +kernel
  have hv : IsVariant world.pipeRoom (Bytes.lines script) (Bytes.lines other) := by
    rw [hf, hs]
    apply IsVariant.blank_right rfl
    apply IsVariant.cons
    apply IsVariant.blank_right (by decide)
    apply IsVariant.cons
    apply @IsVariant.stop _ _ "exit 1 > f".toList (by decide +kernel) (by decide +kernel)
  have hr := run_of_isVariant world.settings false world script
  exact (hr.2.2 other hv).2.2.2.2 (by decide)

/-- On a terminal on which lines cannot be edited, a line of blanks adds a prompt to the output. -/
theorem not_run_of_isVariant :
  ¬ ∀ (settings : Settings) (coloursShown : Bool) (world : World) (script other : Bytes),
    IsVariant world.pipeRoom (Bytes.lines script) (Bytes.lines other) →
      (run settings coloursShown { world with input := other }).shell.world.output
        = (run settings coloursShown { world with input := script }).shell.world.output
  := by
  intro h
  have hv : IsVariant 0 (Bytes.lines (Text.encode "exit\n".toList))
      (Bytes.lines (Text.encode "\nexit\n".toList)) := by
    have hf : Bytes.lines (Text.encode "exit\n".toList) = [Text.encode "exit".toList] := by
      decide +kernel
    have hs : Bytes.lines (Text.encode "\nexit\n".toList)
        = [Text.encode [], Text.encode "exit".toList] := by decide +kernel
    rw [hf, hs]
    apply IsVariant.blank_right rfl
    apply IsVariant.cons _ .nil
  have hn := h (World.attached "dumb".toList).settings false (World.attached "dumb".toList) _ _ hv
  revert hn
  decide +kernel

end Shell

end CommandShell
