import CommandShell.Proofs.Evolution

/-!
# What becomes of a history file

A shell whose history file holds no text starts with an empty history and saves its history there at
the end all the same.  What the file held is lost then, unless the shell breaks down, the file
cannot be written, or what is written begins with the same bytes (`Shell.content_run`).
-/

namespace CommandShell

namespace Shell

/-- The bytes of a history file after the history is saved to it. -/
theorem content_saveHistory {shell : Shell} {path : Text} {trail : Trail} {mode : Nat}
    {content : Bytes}
    (hf : shell.world.tree.find shell.world.start (Path.route path) = .ok trail)
    (hn : trail.node = .file mode content) :
  (shell.saveHistory (some path)).world.tree.content trail.location
    = if (Node.file mode content).isWritable then
        History.written shell.session.history.entries
      else content
  := by
  have hl := (FileTree.isIn_of_find hf).node?_location
  rw [hn] at hl
  have hne : trail.location ≠ [] := by
    intro he
    rw [he, FileTree.node?_nil, Option.some_inj] at hl
    contradiction
  have ho := FileTree.openForWriting_of_find hf (by rw [hn]; rfl) .truncate newFileMode
  rw [hn, FileTree.openExisting_file] at ho
  rw [saveHistory, History.save, ho]
  cases (Node.file mode content).isWritable with
  | true =>
    have hp := shell.world.tree.node?_put_self (.file (changedMode mode) []) hl hne
    apply FileTree.content_extend hp
  | false =>
    change shell.world.tree.content trail.location = content
    rw [FileTree.content, hl]

/-- A history file that holds no text is not loaded. -/
theorem loadHistory_of_not_text (shell : Shell) {path : Text} {trail : Trail} {mode : Nat}
    {content : Bytes}
    (hf : shell.world.tree.find shell.world.start (Path.route path) = .ok trail)
    (hn : trail.node = .file mode content) (hd : Text.decode? content = none) :
  shell.loadHistory (some path) = shell
  := by
  obtain ⟨node, above⟩ := trail
  obtain rfl : node = .file mode content := hn
  have hl : ∃ error, shell.session.history.load shell.world.tree shell.world.start path
      = .error error := by
    rw [History.load, FileTree.read, hf]
    cases hr : (Node.file mode content).isReadable <;>
      simp [bind, Except.bind, hr, History.linesOf, hd]
  obtain ⟨error, hl⟩ := hl
  rw [loadHistory, hl]
  simp

section

variable (settings : Settings) (coloursShown : Bool) (world : World)

/-- The outcome of a shell that loads no history, before it saves one. -/
def played : Outcome :=
  interact (.ofSettings settings coloursShown) (LineReader.lines world.input)
    (begin settings { world with input := [] })

variable {settings coloursShown world} {path : Text} {trail : Trail} {mode : Nat} {content : Bytes}

/-- Whatever is played the history file stays where it is. -/
theorem find_played (hf : world.tree.find world.start (Path.route path) = .ok trail)
    (hk : (played settings coloursShown world).shell.world.tree.node? trail.location
      = some (.file mode content)) :
  let ended := (played settings coloursShown world).shell.world
  ∃ grown, ended.tree.find ended.start (Path.route path) = .ok grown
    ∧ grown.location = trail.location ∧ grown.node = .file mode content
  := by
  have he : (begin settings { world with input := [] }).world.Evolves (.line Set.univ)
      (played settings coloursShown world).shell.world := evolves_interact _ _ _
  obtain ⟨grown, hg, hl⟩ := he.confined.edited.grows.find hf
  dsimp only
  rw [he.confined.start_eq]
  refine ⟨grown, hg, hl, ?_⟩
  rw [← hl, (FileTree.isIn_of_find hg).node?_location, Option.some_inj] at hk
  apply hk

/-- The bytes of a history file that holds no text after a shell has run that does not write it
before its end. -/
theorem content_run (hp : settings.historyFile = some path)
    (hf : world.tree.find world.start (Path.route path) = .ok trail)
    (hn : trail.node = .file mode content) (hd : Text.decode? content = none)
    (hk : (played settings coloursShown world).shell.world.tree.node? trail.location
      = some (.file mode content)) :
  let ended := played settings coloursShown world
  (run settings coloursShown world).shell.world.tree.content trail.location
    = if ended.broken = false ∧ (Node.file mode content).isWritable = true then
        History.written ended.shell.session.history.entries
      else content
  := by
  have hb := loadHistory_of_not_text (begin settings { world with input := [] }) hf hn hd
  obtain ⟨grown, hg, hl, hn'⟩ := find_played hf hk
  dsimp only
  rw [run, hp]
  simp only [hb]
  rw [← played, Outcome.saved]
  generalize played settings coloursShown world = ended at hk hg
  cases hbr : ended.broken with
  | true => simp [FileTree.content, hk]
  | false =>
    have hs := content_saveHistory hg hn'
    rw [hl] at hs
    simpa [hbr] using hs

/-- A history file that holds no text, and that no command of the lines writes, still begins with its
bytes after the shell has run exactly if the shell has broken down, the file cannot be written, or
the lines that have been entered begin with these bytes. -/
theorem prefix_content_run_iff (hp : settings.historyFile = some path)
    (hf : world.tree.find world.start (Path.route path) = .ok trail)
    (hn : trail.node = .file mode content) (hd : Text.decode? content = none)
    (hk : (played settings coloursShown world).shell.world.tree.node? trail.location
      = some (.file mode content)) :
  let ended := played settings coloursShown world
  content <+: (run settings coloursShown world).shell.world.tree.content trail.location
    ↔ ended.broken = true ∨ (Node.file mode content).isWritable = false
      ∨ content <+: History.written ended.shell.session.history.entries
  := by
  dsimp only
  rw [content_run hp hf hn hd hk]
  cases (played settings coloursShown world).broken with
  | true => simp
  | false => cases (Node.file mode content).isWritable <;> simp

end

end Shell

namespace World

/-- The name of the directory of a spoiled world. -/
def spoiledDirectory : Name :=
  ⟨Text.encode ['w'], by decide⟩

/-- The name of the history file of a spoiled world. -/
def spoiledFile : Name :=
  ⟨Text.encode ['h'], by decide⟩

/-- A world whose history file holds a single byte, which is no text, and whose input is empty. -/
def spoiled : World where
  tree := ⟨[(spoiledDirectory, .directory [(spoiledFile, .file 0o644 [0xFF])])]⟩
  start := [spoiledDirectory]
  environment := ["HISTFILE=/w/h".toList]
  image := fun _ => []
  pipeRoom := 0
  opened := 0
  files := []
  pipes := []
  input := []
  output := {}
  errors := {}

end World

namespace Shell

/-- In a spoiled world the shell does not break down, the file can be written, and no line is entered,
so the history file does not begin with its byte at the end. -/
theorem not_prefix_content_run_spoiled :
  ¬ [0xFF] <+: (run World.spoiled.settings false World.spoiled).shell.world.tree.content
      [World.spoiledDirectory, World.spoiledFile]
  := by
  have hp : World.spoiled.settings.historyFile = some "/w/h".toList := by decide
  have hf : World.spoiled.tree.find World.spoiled.start (Path.route "/w/h".toList)
      = .ok ⟨.file 0o644 [0xFF],
          [(World.spoiledFile, .directory [(World.spoiledFile, .file 0o644 [0xFF])]),
            (World.spoiledDirectory, World.spoiled.tree.root)]⟩ := rfl
  have hd : Text.decode? [0xFF] = none := by decide
  have hk : (played World.spoiled.settings false World.spoiled).shell.world.tree.node?
      [World.spoiledDirectory, World.spoiledFile] = some (.file 0o644 [0xFF]) := rfl
  intro h
  have hc := (prefix_content_run_iff hp hf rfl hd hk).mp h
  revert hc
  decide

/-- The byte of the history file of a spoiled world is lost. -/
theorem spoiled_history_lost :
  World.spoiled.tree.content [World.spoiledDirectory, World.spoiledFile] = [0xFF]
    ∧ Text.decode? [0xFF] = none
    ∧ (World.spoiled.runShell false).broken = false
    ∧ (World.spoiled.runShell false).shell.world.tree.content
        [World.spoiledDirectory, World.spoiledFile] = []
  := by decide

end Shell

end CommandShell
