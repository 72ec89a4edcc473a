import CommandShell.Proofs.Evolution
import CommandShell.Proofs.Reloading

/-!
# What a shell keeps of its lines

Before its first line a shell has the lines that its history file tells, if the file can be read,
and none otherwise (`Shell.loadHistory_eq`).  Each line that is read adds itself unless it is one of
blanks, whatever it does and whether or not it can be run, where no stage of it loads a file
(`Shell.entries_obey`).  Whatever the lines do, the file can be opened again at the end, and the
history is what it has then.  So the lines that it told are kept exactly if they could be read, or
there were none (`Shell.kept_run_iff`): those of a file that can only be written are lost
(`Shell.guarded_history_lost`).
-/

namespace CommandShell

/-- Whether a route tells a text: it leads to a file that has the text, or to nothing, and then the
text is empty. -/
inductive FileTree.Tells (tree : FileTree) (base : Location) (route : Bytes) : Text → Prop where
  | absent (h : tree.lookup base route = none) : Tells tree base route []
  | present {mode : Nat} {content : Bytes} {text : Text}
      (hl : tree.lookup base route = some (.file mode content))
      (hd : Text.decode? content = some text) : Tells tree base route text

/-- Whether what a route leads to can be read, if it leads anywhere. -/
def FileTree.isReadable (tree : FileTree) (base : Location) (route : Bytes) : Bool :=
  (tree.lookup base route).all Node.isReadable

/-- Whether no stage of a line loads a file into the history. -/
def LoadsNothing (line : Text) : Prop :=
  ∀ stage ∈ stages line, ∀ file, Call.ofStage? stage ≠ some (Builtin.Transfer.load.call file)

theorem loadsNothing_of_names {line : Text}
    (h : (stages line).all (fun stage =>
      (Call.ofStage? stage).all (·.name ≠ Builtin.history.name)) = true) :
  LoadsNothing line
  := by
  intro stage hs file hc
  have hn := List.all_eq_true.mp h stage hs
  rw [hc] at hn
  simp [Builtin.Transfer.call] at hn

/-- The lines of a text that are not empty. -/
def Text.filled (text : Text) : List Text :=
  text.lines.filter fun line => !line.isEmpty

/-- Lines that are written make no bytes only if there are none. -/
theorem History.written_eq_nil_iff {lines : List Text} :
  History.written lines = [] ↔ lines = []
  := by
  cases lines with
  | nil => simp [written, Text.encode]
  | cons line rest => simp [written, Builtin.encode_line_ne_nil]

/-- Lines that are written before others can be told from none. -/
theorem History.written_eq_written_append_iff {first second : List Text} :
  History.written second = History.written (first ++ second) ↔ first = []
  := by
  rw [Archive.written_append, List.self_eq_append_left, written_eq_nil_iff]

namespace FileTree

variable {tree : FileTree} {base : Location} {route : Bytes} {location : Location}

/-- A file is read if its mode lets it. -/
theorem read_eq_of_lookup {mode : Nat} {content : Bytes}
    (h : tree.lookup base route = some (.file mode content)) :
  tree.read base route
    = if tree.isReadable base route then .ok content else .error .permissionDenied
  := by
  rw [isReadable, h, Option.all_some]
  cases hf : tree.find base route with
  | error error =>
    rw [lookup, hf] at h
    contradiction
  | ok trail =>
    rw [lookup, hf] at h
    obtain ⟨node, above⟩ := trail
    obtain rfl : node = .file mode content := Option.some_inj.mp h
    rw [read, hf]
    rfl

/-- What can be opened for writing can be read if the route leads to nothing that cannot. -/
theorem Openable.isLegible_of_isReadable (ho : tree.Openable base route location)
    (h : tree.isReadable base route = true) :
  Item.isLegible (tree.item? location) = true
  := by
  apply ho.isLegible
  intro node hl
  rw [isReadable, hl] at h
  exact h

end FileTree

namespace Shell

/-! ### Loading and saving -/

/-- A shell has the lines that a file tells after its own once it has loaded its history from there,
if the file can be read, and only its own otherwise. -/
theorem loadHistory_eq (shell : Shell) {path text : Text}
    (h : shell.world.tree.Tells shell.world.start (Path.route path) text) :
  ∃ history : History, shell.loadHistory (some path) = shell.setHistory history
    ∧ history.entries = shell.session.history.entries
      ++ if shell.world.tree.isReadable shell.world.start (Path.route path) then text.filled else []
  := by
  cases h with
  | absent h =>
    refine ⟨shell.session.history, ?_, ?_⟩
    · rw [loadHistory, FileTree.isFile, h]
      rfl
    · rw [FileTree.isReadable, h]
      exact (List.append_nil _).symm
  | @present mode content text hl hd =>
    have hf : shell.world.tree.isFile shell.world.start (Path.route path) = true := by
      rw [FileTree.isFile, hl]
      rfl
    have hr := FileTree.read_eq_of_lookup hl
    rw [loadHistory]
    simp only [hf, if_true]
    cases hm : shell.world.tree.isReadable shell.world.start (Path.route path) with
    | false =>
      rw [hm] at hr
      refine ⟨shell.session.history, ?_, (List.append_nil _).symm⟩
      rw [History.load, hr]
      rfl
    | true =>
      rw [hm] at hr
      have hlines : History.linesOf content = .ok text.filled := by
        rw [History.linesOf, hd]
        rfl
      rw [History.load_eq hr hlines]
      exact ⟨_, rfl, rfl⟩

/-- The history is what its file has after it is saved. -/
theorem lookup_saveHistory {shell : Shell} {path : Text} {location : Location}
    (ho : shell.world.tree.Openable shell.world.start (Path.route path) location) :
  ∃ mode, (shell.saveHistory (some path)).world.tree.lookup shell.world.start (Path.route path)
    = some (.file mode (History.written shell.session.history.entries))
  := by
  obtain ⟨opened, h⟩ := ho
  rw [saveHistory, History.save, h]
  apply FileTree.lookup_extend h

/-- The history file can be read after the history is saved if what was there could. -/
theorem read_saveHistory {shell : Shell} {path : Text} {location : Location}
    (ho : shell.world.tree.Openable shell.world.start (Path.route path) location)
    (hi : Item.isLegible (shell.world.tree.item? location) = true) :
  (shell.saveHistory (some path)).world.tree.read shell.world.start (Path.route path)
    = .ok (History.written shell.session.history.entries)
  := by
  obtain ⟨opened, h⟩ := ho
  rw [saveHistory, History.save, h]
  apply FileTree.read_extend h hi

/-! ### Lines -/

/-- A command that loads no file leaves the entries as they were. -/
theorem entries_runCommand (shell : Shell) {command : Command}
    (h : ∀ file, command.call ≠ Builtin.Transfer.load.call file) :
  (shell.runCommand command).1.session.history.entries = shell.session.history.entries
  := by
  rcases shell.session_runCommand command with
    hs | ⟨target, -, -, hs⟩ | ⟨transfer, file, changed, hc, hp, hs⟩
  · rw [hs]
  · rw [hs]
    rfl
  · rw [hs]
    apply (Builtin.Transfer.session_perform hp).2
    rintro rfl
    apply h file hc

theorem entries_runStages (shell : Shell) (flow : Flow) {pipeline : Pipeline}
    (h : ∀ command : Command, some command ∈ pipeline →
      ∀ file, command.call ≠ Builtin.Transfer.load.call file) :
  (shell.runStages flow pipeline).1.session.history.entries = shell.session.history.entries
  := by
  induction pipeline generalizing shell flow with
  | nil => rfl
  | cons stage rest ih =>
    have hr := fun command hm => h command (List.mem_cons_of_mem _ hm)
    rw [runStages, ih _ _ hr]
    cases stage with
    | none => rfl
    | some command => apply shell.entries_runCommand (h command List.mem_cons_self)

theorem entries_runLine {shell after : Shell} {line : Text} {exits : Bool}
    (h : shell.runLine line = .ok (after, exits)) (hl : LoadsNothing line) :
  after.session.history.entries = shell.session.history.entries
  := by
  obtain ⟨pipeline, built, hb, h⟩ := runLine_eq_ok_iff.mp h
  obtain ⟨rfl, -⟩ := Prod.mk.inj h
  apply entries_runStages (shell.withWorld built)
  intro command hm file hc
  have hm : some command.call ∈ pipeline.map (Option.map Command.call) :=
    List.mem_map.mpr ⟨_, hm, rfl⟩
  rw [Pipeline.calls_build hb] at hm
  obtain ⟨stage, hs, hm⟩ := List.mem_map.mp hm
  apply hl stage hs file
  rw [hm, hc]

/-- A line is an entry at the end unless it is one of blanks, whether or not it can be run. -/
theorem entries_obey (looks : Looks) {shell : Shell} {line : Text}
    (h : (stages line).length - 1 ≤ shell.world.pipeRoom → LoadsNothing line) :
  (shell.obey looks line).1.session.history.entries
    = shell.session.history.entries ++ [line].filter fun line => !line.isBlank
  := by
  rw [obey]
  cases hb : line.isBlank with
  | true => simp [hb]
  | false =>
    have hr : (shell.record line).session.history.entries
        = shell.session.history.entries ++ [line] := by
      simp [record, setHistory, History.push, hb]
    simp only [hb, Bool.not_false, List.filter_cons_of_pos, List.filter_nil, ← hr]
    cases hl : (shell.record line).runLine line with
    | error error => rfl
    | ok result =>
      have hr := room_of_runLine hl
      exact entries_runLine hl (h hr)

/-- The lines that a shell reads, up to the one that ends it. -/
def linesRead (looks : Looks) : List Reading → Shell → List Text
  | .line line :: rest, shell =>
    let (after, exits) := (shell.invite looks).obey looks line
    line :: if exits then [] else linesRead looks rest after
  | .unreadable :: _, _ => []
  | .broken :: _, _ => []
  | [], _ => []

/-- The lines that are read are entries at the end but for those of blanks. -/
theorem entries_interact (looks : Looks) {readings : List Reading} {shell : Shell}
    (h : ∀ line ∈ linesRead looks readings shell,
      (stages line).length - 1 ≤ shell.world.pipeRoom → LoadsNothing line) :
  (interact looks readings shell).shell.session.history.entries
    = shell.session.history.entries
      ++ (linesRead looks readings shell).filter fun line => !line.isBlank
  := by
  induction readings generalizing shell with
  | nil => simp [interact, linesRead, invite, withWorld]
  | cons reading rest ih =>
    cases reading with
    | unreadable => simp [interact, linesRead, invite, complain, withWorld]
    | broken => simp [interact, linesRead, invite, withWorld]
    | line line =>
      have hi : shell.world.Evolves (.line Set.univ) (shell.invite looks).world :=
        World.evolves_tryWrite _ _ (Set.mem_univ _)
      have he := hi.trans (evolves_obey looks (shell.invite looks) line)
      have hn : ((stages line).length - 1 ≤ shell.world.pipeRoom → LoadsNothing line) →
          ((shell.invite looks).obey looks line).1.session.history.entries
            = shell.session.history.entries ++ [line].filter fun line => !line.isBlank := by
        intro hl
        apply entries_obey
        rw [hi.confined.pipeRoom_eq]
        exact hl
      rw [linesRead] at h ⊢
      rw [interact]
      rcases ho : (shell.invite looks).obey looks line with ⟨after, exits⟩
      rw [ho] at h hn he
      obtain ⟨hl, hr⟩ := List.forall_mem_cons.mp h
      cases exits with
      | true => exact hn hl
      | false =>
        have hp := World.Evolves.confined he
        rw [← hp.pipeRoom_eq] at hr
        dsimp only
        rw [ih hr, hn hl, List.append_assoc, ← List.filter_append]
        rfl

/-! ### Runs -/

@[simp]
theorem Outcome.broken_saved (file : Option Text) (outcome : Outcome) :
  (outcome.saved file).broken = outcome.broken
  := by
  rw [saved]
  split <;> rfl

/-- The history file at the end of an interaction that loads no files has the entries from before
and the lines that are read but for those of blanks, and it can be read if what was there could. -/
theorem lookup_interact (shell : Shell) {looks : Looks} {readings : List Reading} {path : Text}
    {location : Location}
    (ho : shell.world.tree.Openable shell.world.start (Path.route path) location)
    (hl : ∀ line ∈ linesRead looks readings shell,
      (stages line).length - 1 ≤ shell.world.pipeRoom → LoadsNothing line)
    (hb : (interact looks readings shell).broken = false) :
  let after := ((interact looks readings shell).saved (some path)).shell.world.tree
  let content := History.written (shell.session.history.entries
    ++ (linesRead looks readings shell).filter fun line => !line.isBlank)
  (∃ mode, after.lookup shell.world.start (Path.route path) = some (.file mode content))
    ∧ (Item.isLegible (shell.world.tree.item? location) = true →
      after.read shell.world.start (Path.route path) = .ok content)
  := by
  have hc := (evolves_interact looks readings shell).confined
  have ho := hc.edited.openable ho
  rw [← hc.start_eq] at ho ⊢
  dsimp only
  rw [Outcome.saved, hb, ← entries_interact looks hl]
  refine ⟨lookup_saveHistory ho, ?_⟩
  intro hi
  apply read_saveHistory ho ((hc.edited.edit location).isLegible hi)

section

variable (settings : Settings) (coloursShown : Bool) (world : World)

/-- The lines that a shell reads when it runs. -/
def linesOfRun : List Text :=
  linesRead (.ofSettings settings coloursShown) (LineReader.lines world.input)
    ((begin settings { world with input := [] }).loadHistory settings.historyFile)

variable {settings coloursShown world}

/-- What the history file has when a shell comes to its end whose lines have loaded no file: the
lines that have been loaded, and those that the shell has read but for those of blanks. -/
theorem lookup_run {path text : Text} {location : Location} (hp : settings.historyFile = some path)
    (ho : world.tree.Openable world.start (Path.route path) location)
    (ht : world.tree.Tells world.start (Path.route path) text)
    (hl : ∀ line ∈ linesOfRun settings coloursShown world,
      (stages line).length - 1 ≤ world.pipeRoom → LoadsNothing line)
    (hb : (run settings coloursShown world).broken = false) :
  let isReadable := world.tree.isReadable world.start (Path.route path)
  let after := (run settings coloursShown world).shell.world.tree
  let content := History.written ((if isReadable then text.filled else [])
    ++ (linesOfRun settings coloursShown world).filter fun line => !line.isBlank)
  (∃ mode, after.lookup world.start (Path.route path) = some (.file mode content))
    ∧ (isReadable = true → after.read world.start (Path.route path) = .ok content)
  := by
  obtain ⟨history, hs, he⟩ := loadHistory_eq (begin settings { world with input := [] }) ht
  rw [run, Outcome.broken_saved] at hb
  rw [run]
  rw [linesOfRun] at hl ⊢
  rw [hp, hs] at hl hb ⊢
  have h := lookup_interact ((begin settings { world with input := [] }).setHistory history) ho hl hb
  rw [setHistory, he] at h
  exact ⟨h.1, fun hm => h.2 (ho.isLegible_of_isReadable hm)⟩

/-- When a shell comes to its end its history file is there, whatever its lines did if they loaded
no file.  It has the lines that it told before but for the empty ones, and then those that the shell
has read but for those of blanks, exactly if it could be read before, or told no line that is not
empty.  A file that could be read before can be read then; one that could not has only the lines
that the shell has read. -/
theorem kept_run_iff {path text : Text} {location : Location}
    (hp : settings.historyFile = some path)
    (ho : world.tree.Openable world.start (Path.route path) location)
    (ht : world.tree.Tells world.start (Path.route path) text)
    (hl : ∀ line ∈ linesOfRun settings coloursShown world,
      (stages line).length - 1 ≤ world.pipeRoom → LoadsNothing line)
    (hb : (run settings coloursShown world).broken = false) :
  let isReadable := world.tree.isReadable world.start (Path.route path)
  let after := (run settings coloursShown world).shell.world.tree
  let entered := (linesOfRun settings coloursShown world).filter fun line => !line.isBlank
  ∃ mode content, after.lookup world.start (Path.route path) = some (.file mode content)
    ∧ (content = History.written (text.filled ++ entered)
      ↔ isReadable = true ∨ text.filled = [])
    ∧ (isReadable = true → after.read world.start (Path.route path) = .ok content)
    ∧ (isReadable = false → content = History.written entered)
  := by
  obtain ⟨⟨mode, hn⟩, hr⟩ := lookup_run hp ho ht hl hb
  dsimp only
  cases hm : world.tree.isReadable world.start (Path.route path) with
  | true =>
    rw [hm] at hn hr
    exact ⟨mode, _, hn, by simp, hr, nofun⟩
  | false =>
    rw [hm] at hn
    refine ⟨mode, _, hn, ?_, nofun, fun _ => rfl⟩
    rw [if_neg Bool.false_ne_true, List.nil_append, History.written_eq_written_append_iff]
    simp

end

end Shell

namespace World

/-- The name of the history file of a noted world. -/
def notes : Name :=
  ⟨Text.encode ['n'], by decide⟩

/-- A world with a history file, whose input has a line that there is no room for the pipes of, a
line of blanks and a line after the one that ends the shell. -/
def noted : World :=
  { within [(notes, .file 0o644 (Text.encode "a\n\nb".toList))] with
    environment := ["HISTFILE=/d/n".toList]
    input := Text.encode "c | d\n \nexit\ne".toList }

/-- A world with a history file that can only be written. -/
def guarded : World :=
  { within [(notes, .file 0o200 (Text.encode "a\n".toList))] with
    environment := ["HISTFILE=/d/n".toList]
    input := Text.encode "exit\n".toList }

end World

namespace Shell

/-- In a noted world the history file has the lines of the file and of the shell at the end. -/
theorem kept_run_noted :
  (run World.noted.settings false World.noted).shell.world.tree.read World.noted.start
      (Path.route "/d/n".toList)
    = .ok (Text.encode "a\nb\nc | d\nexit\n".toList)
  := by
  have hp : World.noted.settings.historyFile = some "/d/n".toList := by decide
  have ho : World.noted.tree.Openable World.noted.start (Path.route "/d/n".toList)
      [World.folder, World.notes] := ⟨_, rfl⟩
  have ht : World.noted.tree.Tells World.noted.start (Path.route "/d/n".toList)
      "a\n\nb".toList := .present rfl (by decide)
  have hr : linesOfRun World.noted.settings false World.noted
      = ["c | d".toList, [' '], "exit".toList] := by decide +kernel
  have hl : ∀ line ∈ linesOfRun World.noted.settings false World.noted,
      (stages line).length - 1 ≤ World.noted.pipeRoom → LoadsNothing line := by
    rw [hr]
    intro line hm hroom
    simp only [List.mem_cons, List.not_mem_nil, or_false] at hm
    rcases hm with rfl | rfl | rfl
    · exact absurd hroom (by decide)
    · apply loadsNothing_of_names
      decide
    · apply loadsNothing_of_names
      decide
  have hb : (run World.noted.settings false World.noted).broken = false := by decide +kernel
  obtain ⟨mode, content, -, hc, hread, -⟩ := kept_run_iff hp ho ht hl hb
  rw [hread rfl, hc.mpr (.inl rfl), hr]
  decide

/-- In a guarded world the line of the history file is lost: the file can be opened for writing and
holds a text, no line loads a file, the shell does not break down, and at the end the file has only
the line that was read. -/
theorem guarded_history_lost :
  let world := World.guarded
  let lines := linesOfRun world.settings false world
  let after := (run world.settings false world).shell.world.tree
  world.settings.historyFile = some "/d/n".toList
    ∧ world.tree.Openable world.start (Path.route "/d/n".toList) [World.folder, World.notes]
    ∧ world.tree.Tells world.start (Path.route "/d/n".toList) "a\n".toList
    ∧ lines = ["exit".toList]
    ∧ (∀ line ∈ lines, LoadsNothing line)
    ∧ (run world.settings false world).broken = false
    ∧ after.item? [World.folder, World.notes]
        = some (.file 0o200 (Text.encode "exit\n".toList))
    ∧ Text.encode "exit\n".toList ≠ History.written (Text.filled "a\n".toList ++ lines)
  := by
  have hlines : linesOfRun World.guarded.settings false World.guarded = ["exit".toList] := by
    decide +kernel
  dsimp only
  refine ⟨by decide, ⟨_, rfl⟩, .present rfl (by decide), hlines, ?_, by decide +kernel,
    by decide +kernel, ?_⟩
  · rw [hlines]
    intro line hm
    obtain rfl := List.mem_singleton.mp hm
    apply loadsNothing_of_names
    decide
  · rw [hlines]
    decide

end Shell

end CommandShell
