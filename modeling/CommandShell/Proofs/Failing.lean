import CommandShell.Proofs.Archive
import CommandShell.Proofs.Outcome
import CommandShell.Proofs.Target

/-!
# Calls of `history` that fail

Loading, saving and appending are each a few steps on the history and on the files.  A step that
fails takes nothing back that was done before it (`Archive.Steps`).  As it is, a file is asked for
and decoded before anything is changed, and nothing after that can fail: steps that fail leave the
archive as it was (`Archive.eq_of_run_steps`).

A call of `history` fails in the ways of `Builtin.HistoryFails`, and in no others.  It then says so
in one line on its error stream, and all else is as before (`Builtin.only_says_of_fails`).
-/

namespace CommandShell

/-! ### Transfers in steps -/

namespace Archive

/-- Something that is done with an archive in steps.  Where one fails what has been done before
stays. -/
abbrev Steps := ExceptT SystemError (StateM Archive)

namespace Steps

/-- How the steps end, and the archive after them. -/
def run {α : Type} (steps : Steps α) (archive : Archive) : Except SystemError α × Archive :=
  (ExceptT.run steps).run archive

/-- To read the file that a path leads to. -/
def read (base : Location) (path : Text) : Steps Bytes := do
  let archive ← get
  MonadExcept.ofExcept (archive.tree.read base (Path.route path))

/-- To add entries to the history. -/
def addEntries (lines : List Text) : Steps Unit :=
  modify fun archive =>
    { archive with
      history := { archive.history with entries := archive.history.entries ++ lines } }

/-- To load the file that a path leads to; what is returned is how many entries there are more. -/
def load (base : Location) (path : Text) : Steps Nat := do
  let content ← read base path
  let lines ← MonadExcept.ofExcept (History.linesOf content)
  let before ← get
  addEntries lines
  let after ← get
  return after.history.entries.length - before.history.entries.length

/-- To open the file that a path names for writing. -/
def openFile (base : Location) (path : Text) (disposition : Disposition) : Steps Location := do
  let archive ← get
  let (tree, location) ← MonadExcept.ofExcept
    (archive.tree.openForWriting base (Path.route path) disposition newFileMode)
  set { archive with tree }
  return location

/-- To write an entry to the end of a file. -/
def writeEntry (location : Location) (entry : Text) : Steps Unit :=
  modify fun archive =>
    { archive with tree := archive.tree.extend location (Text.encode (Text.line entry)) }

/-- To count all entries as appended. -/
def countAll : Steps Unit :=
  modify fun archive =>
    { archive with
      history := { archive.history with appended := archive.history.entries.length } }

/-- To write entries of the history one by one to the file that a path names. -/
def write (base : Location) (path : Text) (disposition : Disposition)
    (choose : History → List Text) : Steps Unit := do
  let location ← openFile base path disposition
  let archive ← get
  (choose archive.history).forM (writeEntry location)
  countAll

section

variable {α β : Type} (archive : Archive)

theorem run_bind (steps : Steps α) (next : α → Steps β) :
  (steps >>= next).run archive
    = match steps.run archive with
      | (.ok value, after) => (next value).run after
      | (.error error, after) => (.error error, after)
  := by
  rw [run, ExceptT.run_bind, StateT.run_bind, run]
  rcases (ExceptT.run steps).run archive with ⟨_ | _, _⟩ <;> rfl

theorem run_ofExcept (result : Except SystemError α) :
  (MonadExcept.ofExcept result : Steps α).run archive = (result, archive)
  := by
  cases result <;> rfl

theorem run_read (base : Location) (path : Text) :
  (read base path).run archive = (archive.tree.read base (Path.route path), archive)
  := by
  apply run_ofExcept

/-- To load in steps is to load. -/
theorem run_load (base : Location) (path : Text) :
  (load base path).run archive
    = match archive.history.load archive.tree base path with
      | .ok (history, count) => (.ok count, { archive with history })
      | .error error => (.error error, archive)
  := by
  rw [load, run_bind, run_read, History.load]
  cases hr : archive.tree.read base (Path.route path) with
  | error error => rfl
  | ok content =>
    dsimp only
    rw [run_bind, run_ofExcept]
    cases hl : History.linesOf content with
    | error error => simp [bind, Except.bind, hl]
    | ok lines =>
      have hc : (archive.history.entries ++ lines).length - archive.history.entries.length
          = lines.length := by
        rw [List.length_append, Nat.add_sub_cancel_left]
      simp only [bind, Except.bind, hl]
      rw [← hc]
      rfl

theorem run_openFile (base : Location) (path : Text) (disposition : Disposition) :
  (openFile base path disposition).run archive
    = match archive.tree.openForWriting base (Path.route path) disposition newFileMode with
      | .ok (tree, location) => (.ok location, { archive with tree })
      | .error error => (.error error, archive)
  := by
  change Steps.run (MonadExcept.ofExcept _ >>= _) archive = _
  rw [run_bind, run_ofExcept]
  cases archive.tree.openForWriting base (Path.route path) disposition newFileMode <;> rfl

/-- To write entries one by one is to write them at once. -/
theorem run_forM_writeEntry (location : Location) (entries : List Text) :
  (entries.forM (writeEntry location)).run archive
    = (.ok (), { archive with tree := archive.tree.extend location (History.written entries) })
  := by
  induction entries generalizing archive with
  | nil => rfl
  | cons entry rest ih =>
    have hw : History.written (entry :: rest)
        = Text.encode (Text.line entry) ++ History.written rest := by
      simp [History.written]
    rw [hw, FileTree.extend_append]
    -- The rest is written to the archive that the first entry leaves.
    exact ih _

/-- To write in steps is to open a file and to write to it, and whatever fails is the opening. -/
theorem run_write (base : Location) (path : Text) (disposition : Disposition)
    (choose : History → List Text) :
  (write base path disposition choose).run archive
    = match archive.tree.openForWriting base (Path.route path) disposition newFileMode with
      | .ok (opened, location) =>
        (.ok (),
          { history := { archive.history with appended := archive.history.entries.length }
            tree := opened.extend location (History.written (choose archive.history)) })
      | .error error => (.error error, archive)
  := by
  rw [write, run_bind, run_openFile]
  cases archive.tree.openForWriting base (Path.route path) disposition newFileMode with
  | error error => rfl
  | ok result =>
    obtain ⟨opened, location⟩ := result
    change Steps.run (List.forM _ _ >>= _) _ = _
    rw [run_bind, run_forM_writeEntry]
    rfl

end

end Steps

/-- The steps of an operation. -/
def Operation.steps (base : Location) : Operation → Steps Unit
  | .push line => modify fun archive => { archive with history := archive.history.push line }
  | .load path => do
    let _ ← Steps.load base path
    return
  | .save path => Steps.write base path .truncate fun history => history.entries
  | .append path =>
    Steps.write base path .append fun history => history.entries.drop history.appended

/-- To take the steps of an operation is to perform it, and the archive is as before where they
fail. -/
theorem run_steps (base : Location) (operation : Operation) (archive : Archive) :
  (operation.steps base).run archive
    = match archive.perform base operation with
      | .ok after => (.ok (), after)
      | .error error => (.error error, archive)
  := by
  cases operation with
  | push line => rfl
  | load path =>
    rw [Operation.steps, Steps.run_bind, Steps.run_load, perform]
    cases archive.history.load archive.tree base path <;> rfl
  | save path =>
    rw [Operation.steps, Steps.run_write, perform, History.save]
    cases archive.tree.openForWriting base (Path.route path) .truncate newFileMode <;> rfl
  | append path =>
    rw [Operation.steps, Steps.run_write, perform, History.appendNew]
    cases archive.tree.openForWriting base (Path.route path) .append newFileMode <;> rfl

/-- Steps that fail leave the archive as it was. -/
theorem eq_of_run_steps {base : Location} {operation : Operation} {archive after : Archive}
    {error : SystemError} (h : (operation.steps base).run archive = (.error error, after)) :
  after = archive
  := by
  rw [run_steps] at h
  split at h
  · simp at h
  · exact (Prod.mk.inj h).2.symm

end Archive

/-- What is tried to be written to a stream changes no file but the one that the stream is. -/
theorem World.tree_tryWrite (world : World) (stream : Stream) (bytes : Bytes) :
  (world.tryWrite stream bytes).tree = world.tree
    ∨ ∃ number file, stream = .file number ∧ world.files.lookup number = some file
      ∧ FileTree.Edited {file.location} world.tree (world.tryWrite stream bytes).tree
  := by
  rcases world.tryWrite_eq_or_written stream bytes with h | h
  · left
    rw [h]
  · generalize world.tryWrite stream bytes = after at h
    cases h with
    | file hs hl => exact .inr ⟨_, _, hs, hl, FileTree.edited_overwrite _ _ _ _⟩
    | _ => exact .inl rfl

/-- The history of a shell and its files. -/
def Shell.archive (shell : Shell) : Archive :=
  ⟨shell.session.history, shell.world.tree⟩

/-- The shell with another history and other files. -/
def Shell.withArchive (shell : Shell) (archive : Archive) : Shell :=
  (shell.setHistory archive.history).withWorld (shell.world.withTree archive.tree)

namespace Builtin

namespace Transfer

/-- The operation that a transfer is. -/
def operation (path : Text) : Transfer → Archive.Operation
  | .load => .load path
  | .save => .save path
  | .append => .append path

/-- A transfer performs its operation on the history of the shell and its files. -/
theorem perform_eq (transfer : Transfer) (path : Text) (shell : Shell) :
  transfer.perform path shell
    = (shell.archive.perform shell.world.start (transfer.operation path)).map shell.withArchive
  := by
  cases transfer with
  | load =>
    rw [perform, operation, Archive.perform, Shell.archive]
    cases shell.session.history.load shell.world.tree shell.world.start path <;> rfl
  | save =>
    rw [perform, operation, Archive.perform, Shell.archive]
    cases shell.session.history.save shell.world.tree shell.world.start path <;> rfl
  | append =>
    rw [perform, operation, Archive.perform, Shell.archive]
    cases shell.session.history.appendNew shell.world.tree shell.world.start path <;> rfl

/-- What opening the file of a transfer for writing does with its bytes; to load opens none so. -/
def disposition? : Transfer → Option Disposition
  | .load => none
  | .save => some .truncate
  | .append => some .append

/-- A transfer fails if its file cannot be read or opened for writing, or holds no text to be
loaded. -/
theorem perform_eq_error_iff {transfer : Transfer} {path : Text} {shell : Shell}
    {error : SystemError} :
  transfer.perform path shell = .error error
    ↔ (transfer = .load
        ∧ (shell.world.tree.read shell.world.start (Path.route path) = .error error
          ∨ ∃ content,
            shell.world.tree.read shell.world.start (Path.route path) = .ok content
              ∧ Text.decode? content = none ∧ error = .notText))
      ∨ ∃ disposition, transfer.disposition? = some disposition
        ∧ shell.world.tree.openForWriting shell.world.start (Path.route path) disposition
          newFileMode = .error error
  := by
  cases transfer with
  | load =>
    rw [perform, History.load]
    cases shell.world.tree.read shell.world.start (Path.route path) with
    | error other => simp [disposition?, bind, Except.bind]
    | ok content =>
      cases hd : Text.decode? content <;>
        simp [disposition?, bind, Except.bind, History.linesOf, hd, eq_comm]
  | save =>
    rw [perform, History.save]
    cases ho : shell.world.tree.openForWriting shell.world.start (Path.route path) .truncate
      newFileMode <;> simp [disposition?, bind, Except.bind, ho]
  | append =>
    rw [perform, History.appendNew]
    cases ho : shell.world.tree.openForWriting shell.world.start (Path.route path) .append
      newFileMode <;> simp [disposition?, bind, Except.bind, ho]

end Transfer

/-- The shell after a call that asks for a transfer is what its steps make of it, whether they
succeed or not. -/
theorem shell_respond_transfer (transfer : Transfer) (file : Text) (shell : Shell) :
  (history.respond [transfer.flag, file] shell).shell
    = shell.withArchive (((transfer.operation (shell.resolve file)).steps shell.world.start).run
        shell.archive).2
  := by
  rw [respond_history, transferHistory, Transfer.perform_eq, Archive.run_steps]
  cases shell.archive.perform shell.world.start (transfer.operation (shell.resolve file)) <;> rfl

/-! ### Calls that fail -/

/-- The ways in which a call of `history` fails, and what it says after its own name. -/
inductive HistoryFails (shell : Shell) : List Text → Text → Prop where
  /-- Its arguments have no meaning. -/
  | usage {args : List Text} (hl : 2 ≤ args.length)
      (hn : ∀ (transfer : Transfer) file, args ≠ [transfer.flag, file]) :
      HistoryFails shell args "usage: history [n] | history -r|-w|-a file".toList
  /-- Its only argument is no number, or too large. -/
  | count {count : Text} (h : Text.count? count = none) :
      HistoryFails shell [count] (count ++ ": numeric argument required".toList)
  /-- The file to be loaded cannot be read. -/
  | unread {file : Text} {error : SystemError}
      (h : shell.world.tree.read shell.world.start (Path.route (shell.resolve file))
        = .error error) :
      HistoryFails shell [Transfer.load.flag, file] (file ++ ": ".toList ++ error.message)
  /-- The file to be loaded holds no text. -/
  | undecoded {file : Text} {content : Bytes}
      (h : shell.world.tree.read shell.world.start (Path.route (shell.resolve file))
        = .ok content) (hd : Text.decode? content = none) :
      HistoryFails shell [Transfer.load.flag, file]
        (file ++ ": ".toList ++ SystemError.notText.message)
  /-- The file to be written cannot be opened. -/
  | unopened {transfer : Transfer} {disposition : Disposition} {file : Text} {error : SystemError}
      (hd : transfer.disposition? = some disposition)
      (h : shell.world.tree.openForWriting shell.world.start (Path.route (shell.resolve file))
        disposition newFileMode = .error error) :
      HistoryFails shell [transfer.flag, file] (file ++ ": ".toList ++ error.message)

section

variable {shell : Shell} {args : List Text}

theorem respond_history_of_perform {transfer : Transfer} {file : Text} {error : SystemError}
    (h : transfer.perform (shell.resolve file) shell = .error error) :
  history.respond [transfer.flag, file] shell
    = ⟨shell, [(.error, "history: ".toList ++ (file ++ ": ".toList ++ error.message))], .proceed⟩
  := by
  rw [respond_history, transferHistory, h]
  simp only [List.append_assoc]

/-- Arguments that have no meaning are answered with the usage. -/
theorem consult_of_ne_flag (hl : 2 ≤ args.length)
    (hn : ∀ (transfer : Transfer) file, args ≠ [transfer.flag, file]) :
  consult args shell = historyUsage shell
  := by
  match args with
  | [] => contradiction
  | [_] => simp at hl
  | [flag, file] =>
    rw [consult]
    split
    · rename_i transfer hf
      rw [Transfer.ofFlag?_eq_some_iff.mp hf] at hn
      exact absurd rfl (hn transfer file)
    · rfl
  | _ :: _ :: _ :: _ => rfl

/-- A call that fails leaves the shell as it is and says one thing. -/
theorem HistoryFails.respond_eq {message : Text} (h : HistoryFails shell args message) :
  history.respond args shell
    = ⟨shell, [(.error, "history: ".toList ++ message)], .proceed⟩
  := by
  cases h with
  | usage hl hn =>
    rw [respond, consult_of_ne_flag hl hn]
    rfl
  | count h =>
    rw [respond, consult, h]
    simp only [List.append_assoc]
  | unread h =>
    apply respond_history_of_perform (Transfer.perform_eq_error_iff.mpr (.inl ⟨rfl, .inl h⟩))
  | undecoded h hd =>
    apply respond_history_of_perform
    apply Transfer.perform_eq_error_iff.mpr (.inl ⟨rfl, .inr ⟨_, h, hd, rfl⟩⟩)
  | unopened hd h =>
    apply respond_history_of_perform (Transfer.perform_eq_error_iff.mpr (.inr ⟨_, hd, h⟩))

/-- A transfer fails because of its file. -/
theorem historyFails_of_perform {transfer : Transfer} {file : Text} {error : SystemError}
    (h : transfer.perform (shell.resolve file) shell = .error error) :
  HistoryFails shell [transfer.flag, file] (file ++ ": ".toList ++ error.message)
  := by
  rcases Transfer.perform_eq_error_iff.mp h with
    ⟨rfl, hr | ⟨content, hr, hd, rfl⟩⟩ | ⟨disposition, hd, ho⟩
  · exact .unread hr
  · exact .undecoded hr hd
  · exact .unopened hd ho

theorem error_not_mem_listHistory (count : Option Nat) (line : Text) :
  (Outlet.error, line) ∉ (listHistory count shell).lines
  := by
  simp [listHistory]

/-- A call that says something on its error stream has failed in one of these ways. -/
theorem exists_historyFails {line : Text}
    (h : (Outlet.error, line) ∈ (history.respond args shell).lines) :
  ∃ message, HistoryFails shell args message
  := by
  match args with
  | [] => exact absurd h (error_not_mem_listHistory none line)
  | [count] =>
    cases hc : Text.count? count with
    | none => exact ⟨_, .count hc⟩
    | some n =>
      rw [respond, consult, hc] at h
      exact absurd h (error_not_mem_listHistory (some n) line)
  | [flag, file] =>
    cases hf : Transfer.ofFlag? flag with
    | none =>
      refine ⟨_, .usage (Nat.le_refl 2) fun transfer other he => ?_⟩
      obtain ⟨rfl, -⟩ := List.cons.inj he
      rw [Transfer.ofFlag?_eq_some_iff.mpr rfl] at hf
      contradiction
    | some transfer =>
      obtain rfl := Transfer.ofFlag?_eq_some_iff.mp hf
      rw [respond_history, transferHistory] at h
      cases hp : transfer.perform (shell.resolve file) shell with
      | error error => exact ⟨_, historyFails_of_perform hp⟩
      | ok changed =>
        rw [hp] at h
        contradiction
  | _ :: _ :: _ :: _ => exact ⟨_, .usage (by simp) (by simp)⟩

end

/-! ### What a call that fails leaves -/

/-- Whether all that a command has done is to say a line on its error stream, if that can be
written. -/
structure OnlySays (shell : Shell) (command : Command) (line : Text) (ending : Ending) : Prop where
  /-- The line is written once, and then the shell goes on. -/
  written : ∀ world, shell.world.write command.error (Text.encode (Text.line line)) = .ok world →
    ending = ⟨shell.withWorld world, .ok .proceed⟩
  /-- If the line cannot be written then nothing is. -/
  unwritten : ∀ error,
    shell.world.write command.error (Text.encode (Text.line line)) = .error error →
      ending = ⟨shell, .error error⟩
  session_eq : ending.shell.session = shell.session
  tree_eq : (∀ number, command.error ≠ .file number) → ending.shell.world.tree = shell.world.tree
  /-- Where the error stream is a file, no other is edited, and the line is added to what is written
  at its end. -/
  edited : ∀ number file, command.error = .file number →
    shell.world.files.lookup number = some file →
      FileTree.Edited {file.location} shell.world.tree ending.shell.world.tree
        ∧ (file.writable = true →
          file.appends = true ∨ file.offset = (shell.world.tree.content file.location).length →
            ending.shell.world.tree
              = shell.world.tree.extend file.location (Text.encode (Text.line line)))
  /-- The file that a text stands for can be opened if it could be opened before. -/
  openable : ∀ file location,
    shell.world.tree.Openable shell.world.start (Path.route (shell.resolve file)) location →
      ending.shell.world.tree.Openable ending.shell.world.start
        (Path.route (ending.shell.resolve file)) location
  /-- Whatever the world is then, the entries that are appended to a file are those that would have
  been before. -/
  appends : ∀ world file location,
    world.tree.Openable world.start (Path.route ((shell.withWorld world).resolve file)) location →
      ∃ appended,
        history.respond [Transfer.append.flag, file] (ending.shell.withWorld world)
            = { shell := appended }
          ∧ appended.world.tree.content location
            = world.tree.content location ++ History.written shell.archive.untaken
          ∧ FileTree.Edited {location} world.tree appended.world.tree

/-- A builtin that responds with a single error and leaves the shell as it is only says that. -/
theorem onlySays_of_respond {builtin : Builtin} {command : Command} {shell : Shell} {line : Text}
    (hr : builtin.respond command.args shell = ⟨shell, [(.error, line)], .proceed⟩) :
  OnlySays shell command line (builtin.run command shell)
  := by
  have he := run_eq_of_line hr
  rw [Command.stream] at he
  have hs : (builtin.run command shell).shell
      = shell.withWorld (shell.world.tryWrite command.error (Text.encode (Text.line line))) := by
    rw [he, World.tryWrite, World.writeAll, if_neg (encode_line_ne_nil line)]
    cases shell.world.write command.error (Text.encode (Text.line line)) <;> rfl
  have ht := shell.world.tree_tryWrite command.error (Text.encode (Text.line line))
  constructor
  case written =>
    intro world hw
    rw [he, hw]
  case unwritten =>
    intro error hw
    rw [he, hw]
  case session_eq =>
    rw [hs]
    rfl
  case tree_eq =>
    intro hn
    rw [hs]
    apply ht.resolve_right
    rintro ⟨number, file, hf, -⟩
    apply hn number hf
  case edited =>
    intro number file hf hl
    rw [hs]
    constructor
    · rcases ht with ht | ⟨other, found, hf', hl', ht⟩
      · exact ht.symm ▸ FileTree.Edited.refl _ _
      · obtain rfl := Stream.file.inj (hf.symm.trans hf')
        obtain rfl := Option.some_inj.mp (hl.symm.trans hl')
        exact ht
    · intro hw hend
      rw [hf]
      apply (World.tryWrite_file hl hw hend _).2
  case openable =>
    intro file location ho
    have hv : shell.world.Evolves (.line ∅) (builtin.run command shell).shell.world := by
      rw [hs]
      apply World.evolves_tryWrite _ _ (Set.mem_univ command.error)
    have hd : (builtin.run command shell).shell.session.directory = shell.session.directory := by
      rw [hs]
      rfl
    rw [Shell.resolve_of_evolves hv hd, hv.confined.start_eq]
    apply hv.confined.edited.openable ho
  case appends =>
    intro world file location ho
    rw [hs]
    apply (Shell.consultsAt_of_openable ho).append

/-- A call of `history` says something on its error stream where it fails, and it fails if its
arguments have no meaning, if a count is no number or too large, or if a file cannot be read or
opened, or holds no text.  It then says that in one line after its name and leaves the session and
all files as they were, but for that line where the error stream is a file.  So what is appended
afterwards is what would have been appended before.  Where it is a stage of a line that line is
always written.  A transfer takes the steps of its operation, which leave the history and the files
as they were where any of them fails. -/
theorem only_says_of_fails (shell : Shell) (command : Command) :
  ((∃ line, (Outlet.error, line) ∈ (history.respond command.args shell).lines)
      ↔ ∃ message, HistoryFails shell command.args message)
    ∧ (∀ message, HistoryFails shell command.args message →
      OnlySays shell command ("history: ".toList ++ message) (history.run command shell))
    ∧ (∀ line pipeline built,
      Pipeline.build shell.session.directory (stages line) shell.world = .ok (pipeline, built) →
        ∀ index stage message, pipeline[index]? = some (some stage) →
          let here := shell.midway line index
          HistoryFails here stage.args message → ∃ written,
            here.world.write stage.error (Text.encode (Text.line ("history: ".toList ++ message)))
                = .ok written
              ∧ history.run stage here = ⟨here.withWorld written, .ok .proceed⟩)
    ∧ (∀ (transfer : Transfer) (file : Text), command.args = [transfer.flag, file] →
      (history.respond command.args shell).shell
        = shell.withArchive (((transfer.operation (shell.resolve file)).steps
            shell.world.start).run shell.archive).2)
    ∧ ∀ (base : Location) (operation : Archive.Operation) (archive after : Archive)
      (error : SystemError), (operation.steps base).run archive = (.error error, after) →
        after = archive
  := by
  refine ⟨⟨?_, ?_⟩, ?_, ?_, ?_, ?_⟩
  · rintro ⟨line, hl⟩
    apply exists_historyFails hl
  · rintro ⟨message, h⟩
    rw [h.respond_eq]
    exact ⟨_, List.mem_singleton_self _⟩
  · intro message h
    apply onlySays_of_respond h.respond_eq
  · intro line pipeline built hb index stage message hs here h
    obtain ⟨written, hw⟩ := Shell.exists_write_error hb hs
      (Text.encode (Text.line ("history: ".toList ++ message)))
    exact ⟨written, hw, (onlySays_of_respond h.respond_eq).written written hw⟩
  · intro transfer file ha
    rw [ha]
    apply shell_respond_transfer
  · intro base operation archive after error h
    apply Archive.eq_of_run_steps h

end Builtin

/-- The name of a file that takes messages. -/
def World.messages : Name :=
  ⟨Text.encode ['m'], by decide⟩

/-- A shell with two entries, of which one counts as appended, in a directory with a directory and a
file that is open. -/
def Shell.hindered : Shell where
  session :=
    { directory := "/d".toList
      search := .ofText []
      history := ⟨[['a'], ['b']], 1⟩ }
  world :=
    { World.within [(World.folder, .directory []),
        (World.messages, .file 0o644 (Text.encode "old\n".toList))] with
      opened := 1
      files := [(0, ⟨[World.folder, World.messages], true, true, 0⟩)] }

/-- To save the history where there is a directory says so in the file that is open, and the second
entry is appended to a new file afterwards. -/
theorem Builtin.only_says_of_fails_directory :
  let command : Command := ⟨history.name, ["-w".toList, ['d']], .stdin, .stdout, .file 0⟩
  let ending := history.run command .hindered
  ending.shell.session = Shell.hindered.session
    ∧ ending.shell.world.tree
      = Shell.hindered.world.tree.extend [World.folder, World.messages]
        (Text.encode "history: d: Is a directory (os error 21)\n".toList)
    ∧ ∃ appended, history.respond ["-a".toList, ['n']] ending.shell = { shell := appended }
      ∧ ∃ location, appended.world.tree.content location = Text.encode "b\n".toList
  := by
  intro command ending
  obtain ⟨-, hf, -⟩ := only_says_of_fails .hindered command
  have hd : Transfer.save.disposition? = some .truncate := rfl
  have hs := hf _ (.unopened hd rfl)
  obtain ⟨hm, ht⟩ : ending.shell.session = Shell.hindered.session ∧ ending.shell.world.tree = _ :=
    ⟨hs.session_eq, (hs.edited 0 _ rfl rfl).2 rfl (.inl rfl)⟩
  refine ⟨hm, ht, ?_⟩
  have ho := hs.openable ['n'] [World.folder, ⟨Text.encode ['n'], by decide⟩] ⟨_, rfl⟩
  obtain ⟨appended, ha, hc, -⟩ := hs.appends ending.shell.world ['n'] _ ho
  refine ⟨appended, ha, _, hc.trans ?_⟩
  rw [ht]
  rfl

end CommandShell
