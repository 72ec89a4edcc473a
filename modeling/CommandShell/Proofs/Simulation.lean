import CommandShell.Interaction
import CommandShell.Proofs.Call

/-!
# Worlds that stand for each other

A world stands for another one, and each stream of it for a stream there, where writing, reading and
closing do the same to both (`Simulation`).  Then so does whatever reaches the world through its
streams: redirections, commands and pipelines.  The sessions, the trees and the faults that are
reported are the same, and the worlds stand for each other afterwards
(`Simulation.runStages`).
-/

namespace CommandShell

/-- Whether two computations fail alike or give values that are related. -/
inductive Alike {ε α β : Type} (rel : α → β → Prop) : Except ε α → Except ε β → Prop where
  | ok {a : α} {b : β} (h : rel a b) : Alike rel (.ok a) (.ok b)
  | error (e : ε) : Alike rel (.error e) (.error e)

/-- Of two computations that are alike both give values or both fail. -/
theorem Alike.ok_or_error {ε α β : Type} {rel : α → β → Prop} {first : Except ε α}
    {second : Except ε β} (h : Alike rel first second) :
  (∃ a b, first = .ok a ∧ second = .ok b ∧ rel a b)
    ∨ ∃ e, first = .error e ∧ second = .error e
  := by
  cases h with
  | ok h => exact .inl ⟨_, _, rfl, rfl, h⟩
  | error e => exact .inr ⟨e, rfl, rfl⟩

/-- A way in which worlds stand for worlds, and streams for streams. -/
structure Simulation where
  /-- Whether the second world stands for the first. -/
  Rel : World → World → Prop
  /-- The stream that stands for a stream. -/
  stream : Stream → Stream
  /-- Whether a command can have a stream. -/
  Known : Stream → Prop
  /-- The worlds have the same but for what is on its way. -/
  agree : ∀ {world other}, Rel world other →
    ∃ pipes input output errors, other = { world with pipes, input, output, errors }
  touch : ∀ {world other}, Rel world other → ∀ tree opened files,
    Rel { world with tree, opened, files } { other with tree, opened, files }
  known_file : ∀ number, Known (.file number)
  known_stderr : Known .stderr
  stream_file : ∀ number, stream (.file number) = .file number
  stream_stderr : stream .stderr = .stderr
  injective : ∀ {first second}, Known first → Known second →
    stream first = stream second → first = second
  write : ∀ {world other source}, Rel world other → Known source → ∀ bytes,
    Alike Rel (world.write source bytes) (other.write (stream source) bytes)
  drain : ∀ {world other source}, Rel world other → Known source →
    (other.drain (stream source)).1 = (world.drain source).1
      ∧ Rel (world.drain source).2 (other.drain (stream source)).2
  close : ∀ {world other source}, Rel world other → Known source →
    Rel (world.close source) (other.close (stream source))

namespace Simulation

variable (sim : Simulation) {world other : World}

theorem tree_eq (h : sim.Rel world other) :
  other.tree = world.tree
  := by
  obtain ⟨_, _, _, _, rfl⟩ := sim.agree h
  rfl

theorem start_eq (h : sim.Rel world other) :
  other.start = world.start
  := by
  obtain ⟨_, _, _, _, rfl⟩ := sim.agree h
  rfl

theorem home_eq (h : sim.Rel world other) :
  other.home = world.home
  := by
  obtain ⟨_, _, _, _, rfl⟩ := sim.agree h
  rfl

/-- Worlds stand for each other with the same tree in the place of theirs. -/
theorem withTree (h : sim.Rel world other) (tree : FileTree) :
  sim.Rel (world.withTree tree) (other.withTree tree)
  := by
  have ht := sim.touch h tree world.opened world.files
  obtain ⟨_, _, _, _, rfl⟩ := sim.agree h
  exact ht

/-! ### Writing -/

section

variable {source : Stream}

/-- All bytes can be written to both worlds or to neither. -/
theorem writeAll (h : sim.Rel world other) (hs : sim.Known source) (bytes : Bytes) :
  Alike sim.Rel (world.writeAll source bytes) (other.writeAll (sim.stream source) bytes)
  := by
  rw [World.writeAll, World.writeAll]
  split
  · exact .ok h
  · apply sim.write h hs

/-- Bytes that are written if they can be are written to both worlds or to neither. -/
theorem tryWrite (h : sim.Rel world other) (hs : sim.Known source) (bytes : Bytes) :
  sim.Rel (world.tryWrite source bytes) (other.tryWrite (sim.stream source) bytes)
  := by
  rw [World.tryWrite, World.tryWrite]
  rcases (sim.writeAll h hs bytes).ok_or_error with ⟨_, _, hf, hs, hr⟩ | ⟨_, hf, hs⟩
  · rw [hf, hs]
    exact hr
  · rw [hf, hs]
    exact h

end

/-- Messages are delivered to both worlds up to the same one, and stop there with the same fault. -/
theorem deliver (h : sim.Rel world other) {messages : List (Stream × Bytes)}
    (hs : ∀ message ∈ messages, sim.Known message.1) :
  (other.deliver (messages.map (Prod.map sim.stream id))).2 = (world.deliver messages).2
    ∧ sim.Rel (world.deliver messages).1
      (other.deliver (messages.map (Prod.map sim.stream id))).1
  := by
  induction messages generalizing world other with
  | nil => exact ⟨rfl, h⟩
  | cons message rest ih =>
    obtain ⟨source, bytes⟩ := message
    obtain ⟨hm, hr⟩ := List.forall_mem_cons.mp hs
    rw [List.map_cons, Prod.map_apply, id, World.deliver, World.deliver]
    rcases (sim.writeAll h hm bytes).ok_or_error with ⟨_, _, hf, hs, hw⟩ | ⟨_, hf, hs⟩
    · rw [hf, hs]
      apply ih hw hr
    · rw [hf, hs]
      exact ⟨rfl, h⟩

/-- Messages for streams are made one where those for the streams that stand for them are. -/
theorem gather {messages : List (Stream × Bytes)}
    (hs : ∀ message ∈ messages, sim.Known message.1) :
  (∀ message ∈ World.gather messages, sim.Known message.1)
    ∧ World.gather (messages.map (Prod.map sim.stream id))
      = (World.gather messages).map (Prod.map sim.stream id)
  := by
  induction messages with
  | nil => exact ⟨hs, rfl⟩
  | cons message rest ih =>
    obtain ⟨source, bytes⟩ := message
    obtain ⟨hm, hr⟩ := List.forall_mem_cons.mp hs
    obtain ⟨hk, hg⟩ := ih hr
    rw [List.map_cons, Prod.map_apply, id, World.gather, World.gather, hg]
    generalize World.gather rest = gathered at hk
    cases gathered with
    | nil => exact ⟨List.forall_mem_cons.mpr ⟨hm, List.forall_mem_nil _⟩, rfl⟩
    | cons next others =>
      obtain ⟨following, more⟩ := next
      obtain ⟨hn, ho⟩ := List.forall_mem_cons.mp hk
      simp only [List.map_cons, Prod.map_apply, id]
      by_cases he : source = following
      · subst he
        rw [if_pos rfl, if_pos rfl]
        exact ⟨List.forall_mem_cons.mpr ⟨hm, ho⟩, rfl⟩
      · -- Messages that are not made one must not become one.
        have hne : sim.stream source ≠ sim.stream following := by
          intro hs
          apply he (sim.injective hm hn hs)
        rw [if_neg he, if_neg hne]
        exact ⟨List.forall_mem_cons.mpr ⟨hm, hk⟩, rfl⟩

/-- What is said on outlets is said alike on the streams that stand for theirs. -/
theorem speak (h : sim.Rel world other) {streams : Outlet → Stream}
    (hs : ∀ outlet, sim.Known (streams outlet)) (messages : List (Outlet × Bytes)) :
  (other.speak (sim.stream ∘ streams) messages).2 = (world.speak streams messages).2
    ∧ sim.Rel (world.speak streams messages).1
      (other.speak (sim.stream ∘ streams) messages).1
  := by
  have hm : ∀ message ∈ messages.map fun message => (streams message.1, message.2),
      sim.Known message.1 := by
    rw [List.forall_mem_map]
    intro message _
    apply hs
  obtain ⟨hk, hg⟩ := sim.gather hm
  have he : (messages.map fun message => ((sim.stream ∘ streams) message.1, message.2))
      = (messages.map fun message => (streams message.1, message.2)).map
        (Prod.map sim.stream id) := by
    simp
  rw [World.speak, World.speak, he, hg]
  apply sim.deliver h hk

/-! ### Commands -/

/-- The command whose streams stand for those of a command. -/
def command (command : Command) : Command :=
  { command with
    input := sim.stream command.input
    output := sim.stream command.output
    error := sim.stream command.error }

/-- Whether a command has streams that commands can have. -/
structure KnownCommand (command : Command) : Prop where
  input : sim.Known command.input
  output : sim.Known command.output
  error : sim.Known command.error

/-- Whether what redirections have changed stands for the like. -/
structure RelRedirected (state after : Redirected) : Prop where
  world : sim.Rel state.world after.world
  known_output : sim.Known state.output
  known_error : sim.Known state.error
  output : after.output = sim.stream state.output
  error : after.error = sim.stream state.error
  faults : after.faults = state.faults

section

variable {sim} {state after : Redirected}

theorem KnownCommand.stream {command : Command} (h : sim.KnownCommand command)
    (outlet : Outlet) :
  sim.Known (command.stream outlet)
  := by
  cases outlet with
  | output => exact h.output
  | error => exact h.error

/-- The streams of the command that stands for another stand for the streams of that. -/
theorem stream_command (command : Command) :
  (sim.command command).stream = sim.stream ∘ command.stream
  := by
  funext outlet
  cases outlet <;> rfl

/-- A file that is opened gets the same number in both worlds, or it can be opened in neither. -/
theorem openForWriting (h : sim.Rel world other) (path : Text) (disposition : Disposition)
    (mode : Nat) :
  Alike (fun first second => sim.Rel first.1 second.1
      ∧ ∃ number, first.2 = .file number ∧ second.2 = .file number)
    (world.openForWriting path disposition mode) (other.openForWriting path disposition mode)
  := by
  obtain ⟨pipes, input, output, errors, rfl⟩ := sim.agree h
  rw [World.openForWriting, World.openForWriting]
  dsimp only
  cases world.tree.openForWriting world.start (Path.route path) disposition mode with
  | error error => exact .error error
  | ok opened => exact .ok ⟨sim.touch h _ _ _, world.opened, rfl, rfl⟩

namespace RelRedirected

/-- A fault is noted in both. -/
theorem fail (h : sim.RelRedirected state after) (fault : RedirectionFault) :
  sim.RelRedirected (state.fail fault) (after.fail fault)
  := { h with faults := congrArg (fault :: ·) h.faults }

/-- The stream that an outlet had is closed in both when a file is attached to the outlet. -/
theorem attach (h : sim.RelRedirected state after) (outlet : Outlet)
    (hw : sim.Rel world other) (number : Nat) :
  sim.RelRedirected (state.attach outlet world (.file number))
    (after.attach outlet other (.file number))
  := by
  cases outlet with
  | output =>
    refine ⟨?_, sim.known_file number, h.known_error, (sim.stream_file number).symm, h.error,
      h.faults⟩
    dsimp only [Redirected.attach]
    rw [h.output]
    apply sim.close hw h.known_output
  | error =>
    refine ⟨?_, h.known_output, sim.known_file number, h.output, (sim.stream_file number).symm,
      h.faults⟩
    dsimp only [Redirected.attach]
    rw [h.error]
    apply sim.close hw h.known_error

/-- A redirection attaches the same file in both, or notes the same fault. -/
theorem perform (h : sim.RelRedirected state after) (directory : Text)
    (redirection : Redirection) :
  sim.RelRedirected (redirection.perform directory state) (redirection.perform directory after)
  := by
  rw [Redirection.perform, Redirection.perform, sim.home_eq h.world]
  cases redirection.wanted with
  | error fault => apply h.fail
  | ok wanted =>
    obtain ⟨outlet, target⟩ := wanted
    dsimp only
    rcases (openForWriting h.world (Redirection.targetPath state.world.home directory target)
      (Redirection.disposition redirection.operator) newFileMode).ok_or_error with
      ⟨⟨_, _⟩, ⟨_, _⟩, hf, hs, hw, number, rfl, rfl⟩ | ⟨error, hf, hs⟩
    · rw [hf, hs]
      apply h.attach outlet hw
    · rw [hf, hs]
      apply h.fail

theorem foldl_perform (h : sim.RelRedirected state after) (directory : Text)
    (redirections : List Redirection) :
  sim.RelRedirected (redirections.foldl (Redirection.perform directory) state)
    (redirections.foldl (Redirection.perform directory) after)
  := by
  induction redirections generalizing state after with
  | nil => exact h
  | cons redirection rest ih => apply ih (h.perform directory redirection)

end RelRedirected

variable (directory : Text) {input output : Stream}

/-- What tokens make in worlds that stand for each other, from streams that do. -/
theorem ofTokens (h : sim.Rel world other) (tokens : List Token) (hi : sim.Known input)
    (ho : sim.Known output) :
  let made := Command.ofTokens directory tokens input output world
  let after := Command.ofTokens directory tokens (sim.stream input) (sim.stream output) other
  after.1 = made.1.map sim.command
    ∧ (∀ command ∈ made.1, sim.KnownCommand command)
    ∧ sim.Rel made.2 after.2
  := by
  cases tokens with
  | nil =>
    refine ⟨rfl, ?_, ?_⟩
    · intro command hc
      contradiction
    · apply sim.close (sim.close h hi) ho
  | cons first rest =>
    have hs : sim.RelRedirected ⟨world, output, .stderr, []⟩
        ⟨other, sim.stream output, .stderr, []⟩ :=
      ⟨h, ho, sim.known_stderr, rfl, sim.stream_stderr.symm, rfl⟩
    have hr := hs.foldl_perform directory (Outline.read none rest).redirections
    dsimp only [Command.ofTokens]
    refine ⟨?_, ?_, ?_⟩
    · rw [hr.output, hr.error]
      rfl
    · intro command hc
      obtain rfl := Option.some_inj.mp hc
      exact ⟨hi, hr.known_output, hr.known_error⟩
    · rw [hr.error, hr.faults]
      apply sim.tryWrite hr.world hr.known_error

/-- What a stage makes in worlds that stand for each other, from streams that do. -/
theorem ofStage (h : sim.Rel world other) (stage : Text) (hi : sim.Known input)
    (ho : sim.Known output) :
  let made := Command.ofStage directory stage input output world
  let after := Command.ofStage directory stage (sim.stream input) (sim.stream output) other
  after.1 = made.1.map sim.command
    ∧ (∀ command ∈ made.1, sim.KnownCommand command)
    ∧ sim.Rel made.2 after.2
  := ofTokens directory h (Token.ofStage stage) hi ho

end

/-! ### Shells -/

/-- Whether a shell is the same session in a world that stands for another. -/
structure RelShell (shell after : Shell) : Prop where
  session : after.session = shell.session
  world : sim.Rel shell.world after.world

/-- Whether a response says the same in a shell that stands for another. -/
structure RelResponse (response after : Response) : Prop where
  shell : sim.RelShell response.shell after.shell
  lines : after.lines = response.lines
  flow : after.flow = response.flow

namespace RelShell

variable {sim} {shell after : Shell}

theorem withWorld (h : sim.RelShell shell after) (hw : sim.Rel world other) :
  sim.RelShell (shell.withWorld world) (after.withWorld other)
  := ⟨h.session, hw⟩

theorem setHistory (h : sim.RelShell shell after) (history : History) :
  sim.RelShell (shell.setHistory history) (after.setHistory history)
  := by
  refine ⟨?_, h.world⟩
  dsimp only [Shell.setHistory]
  rw [h.session]

theorem setDirectory (h : sim.RelShell shell after) (directory : Text) :
  sim.RelShell (shell.setDirectory directory) (after.setDirectory directory)
  := by
  refine ⟨?_, h.world⟩
  dsimp only [Shell.setDirectory]
  rw [h.session]

/-- A transfer of the history moves the same lines in both shells, or fails alike. -/
theorem perform (h : sim.RelShell shell after) (transfer : Builtin.Transfer) (path : Text) :
  Alike sim.RelShell (transfer.perform path shell) (transfer.perform path after)
  := by
  cases transfer with
  | load =>
    dsimp only [Builtin.Transfer.perform]
    rw [h.session, sim.tree_eq h.world, sim.start_eq h.world]
    cases shell.session.history.load shell.world.tree shell.world.start path with
    | error error => exact .error error
    | ok loaded => exact .ok (h.setHistory loaded.1)
  | save =>
    dsimp only [Builtin.Transfer.perform]
    rw [h.session, sim.tree_eq h.world, sim.start_eq h.world]
    cases shell.session.history.save shell.world.tree shell.world.start path with
    | error error => exact .error error
    | ok saved => exact .ok ((h.setHistory saved.1).withWorld (sim.withTree h.world saved.2))
  | append =>
    dsimp only [Builtin.Transfer.perform]
    rw [h.session, sim.tree_eq h.world, sim.start_eq h.world]
    cases shell.session.history.appendNew shell.world.tree shell.world.start path with
    | error error => exact .error error
    | ok appended =>
      exact .ok ((h.setHistory appended.1).withWorld (sim.withTree h.world appended.2))

theorem resolve_eq (h : sim.RelShell shell after) (path : Text) :
  after.resolve path = shell.resolve path
  := by
  rw [Shell.resolve, Shell.resolve, h.session, sim.home_eq h.world]

theorem isDirectory_eq (h : sim.RelShell shell after) (path : Text) :
  after.isDirectory path = shell.isDirectory path
  := by
  rw [Shell.isDirectory, Shell.isDirectory, sim.tree_eq h.world, sim.start_eq h.world]

theorem program?_eq (h : sim.RelShell shell after) (name : Text) :
  after.program? name = shell.program? name
  := by
  rw [Shell.program?, Shell.program?, h.session, sim.tree_eq h.world, sim.start_eq h.world]

theorem verdict_eq (h : sim.RelShell shell after) :
  Builtin.verdict after = Builtin.verdict shell
  := by
  funext text
  rw [Builtin.verdict, Builtin.verdict, h.program?_eq]

/-- The calls of `history` respond alike in shells that stand for each other. -/
theorem consult (h : sim.RelShell shell after) (args : List Text) :
  sim.RelResponse (Builtin.consult args shell) (Builtin.consult args after)
  := by
  have hl : ∀ count, sim.RelResponse (Builtin.listHistory count shell)
      (Builtin.listHistory count after) := by
    intro count
    refine ⟨h, ?_, rfl⟩
    rw [Builtin.listHistory, h.session]
    rfl
  match args with
  | [] => apply hl
  | [count] =>
    rw [Builtin.consult, Builtin.consult]
    split
    · apply hl
    · exact ⟨h, rfl, rfl⟩
  | [flag, file] =>
    rw [Builtin.consult, Builtin.consult]
    split
    · rename_i transfer _
      rw [Builtin.transferHistory, Builtin.transferHistory, h.resolve_eq]
      rcases (h.perform transfer (shell.resolve file)).ok_or_error with
        ⟨_, _, hf, hs, hr⟩ | ⟨_, hf, hs⟩
      · rw [hf, hs]
        exact ⟨hr, rfl, rfl⟩
      · rw [hf, hs]
        exact ⟨h, rfl, rfl⟩
    · exact ⟨h, rfl, rfl⟩
  | _ :: _ :: _ :: _ => exact ⟨h, rfl, rfl⟩

/-- A builtin responds alike in shells that stand for each other. -/
theorem respond (h : sim.RelShell shell after) (builtin : Builtin) (args : List Text) :
  sim.RelResponse (builtin.respond args shell) (builtin.respond args after)
  := by
  cases builtin with
  | echo => exact ⟨h, rfl, rfl⟩
  | type =>
    dsimp only [Builtin.respond, Builtin.describe]
    rw [h.verdict_eq]
    split
    · exact ⟨h, rfl, rfl⟩
    · exact ⟨h, rfl, rfl⟩
  | pwd =>
    refine ⟨h, ?_, rfl⟩
    dsimp only [Builtin.respond]
    rw [h.session]
  | cd =>
    match args with
    | [] => exact ⟨h, rfl, rfl⟩
    | [target] =>
      dsimp only [Builtin.respond, Builtin.changeDirectory, Builtin.enter]
      rw [h.resolve_eq, h.isDirectory_eq]
      split
      · exact ⟨h.setDirectory _, rfl, rfl⟩
      · exact ⟨h, rfl, rfl⟩
    | _ :: _ :: _ => exact ⟨h, rfl, rfl⟩
  | exit => exact ⟨h, rfl, rfl⟩
  | history => apply h.consult args

/-- A builtin ends alike in shells that stand for each other. -/
theorem run (h : sim.RelShell shell after) (builtin : Builtin) {command : Command}
    (hc : sim.KnownCommand command) :
  (builtin.run (sim.command command) after).result = (builtin.run command shell).result
    ∧ sim.RelShell (builtin.run command shell).shell
      (builtin.run (sim.command command) after).shell
  := by
  have hr := h.respond builtin command.args
  obtain ⟨he, hw⟩ := sim.speak hr.shell.world hc.stream
    (Builtin.Response.messages (builtin.respond command.args shell))
  have ha : (sim.command command).args = command.args := rfl
  have hm : Builtin.Response.messages (builtin.respond command.args after)
      = Builtin.Response.messages (builtin.respond command.args shell) := by
    rw [Builtin.Response.messages, hr.lines]
    rfl
  rw [Builtin.run, Builtin.run, ha, hm, stream_command]
  -- The same messages are written, so either both can be or neither can.
  generalize (builtin.respond command.args after).shell.world.speak _ _ = second at he hw
  generalize (builtin.respond command.args shell).shell.world.speak _ _ = first at he hw
  obtain ⟨written, failed⟩ := first
  obtain ⟨rewritten, refailed⟩ := second
  obtain rfl : refailed = failed := he
  cases refailed with
  | none => exact ⟨congrArg Except.ok hr.flow, hr.shell.withWorld hw⟩
  | some error => exact ⟨rfl, hr.shell.withWorld hw⟩

/-! ### Programs -/

end RelShell

section

variable {sim} {streams : Outlet → Stream}

/-- The same files are copied to both worlds, up to one that cannot be written. -/
theorem copyAll (h : sim.Rel world other) (hs : ∀ outlet, sim.Known (streams outlet))
    (directory : Location) (routes : List Bytes) :
  sim.Rel (Program.copyAll streams directory routes world)
    (Program.copyAll (sim.stream ∘ streams) directory routes other)
  := by
  induction routes generalizing world other with
  | nil => exact h
  | cons route rest ih =>
    have hc : Program.copied other directory route = Program.copied world directory route := by
      rw [Program.copied, Program.copied, sim.tree_eq h]
    obtain ⟨he, hw⟩ := sim.speak h hs [Program.copied world directory route]
    rw [Program.copyAll, Program.copyAll, hc]
    generalize other.speak _ _ = second at he hw
    generalize world.speak _ _ = first at he hw
    obtain ⟨written, failed⟩ := first
    obtain ⟨rewritten, refailed⟩ := second
    obtain rfl : refailed = failed := he
    cases refailed with
    | none => apply ih hw
    | some error => exact hw

/-- A program takes the same from its input and says the same in worlds that stand for each other.
-/
theorem run (h : sim.Rel world other) (hs : ∀ outlet, sim.Known (streams outlet))
    {input : Stream} (hi : sim.Known input) (program : Program) (start : Start) :
  sim.Rel (program.run start input streams world)
    (program.run start (sim.stream input) (sim.stream ∘ streams) other)
  := by
  obtain ⟨hb, hd⟩ := sim.drain h hi
  cases program with
  | copy =>
    rw [Program.run, Program.run]
    split
    · dsimp only
      rw [hb]
      apply (sim.speak hd hs _).2
    · apply copyAll h hs
  | capitalize =>
    dsimp only [Program.run]
    rw [hb]
    apply (sim.speak hd hs _).2
  | describe => apply (sim.speak h hs _).2
  | speakTwice => apply (sim.speak h hs _).2
  | complain => apply (sim.speak h hs _).2
  | idle => exact h

theorem canPass_eq (h : sim.Rel world other) :
  other.canPass = world.canPass
  := by
  obtain ⟨_, _, _, _, rfl⟩ := sim.agree h
  rfl

theorem wordRoom_eq (h : sim.Rel world other) :
  other.wordRoom = world.wordRoom
  := by
  obtain ⟨_, _, _, _, rfl⟩ := sim.agree h
  rfl

/-- The same program is started, if any, since it is found in the tree. -/
theorem launch?_eq (h : sim.Rel world other) (room interpreters : Nat) (route : Bytes)
    (start : Start) :
  other.launch? room interpreters route start = world.launch? room interpreters route start
  := by
  have hl : other.launchable? = world.launchable? := by
    obtain ⟨_, _, _, _, rfl⟩ := sim.agree h
    rfl
  have hp : other.program? = world.program? := by
    obtain ⟨_, _, _, _, rfl⟩ := sim.agree h
    rfl
  induction interpreters generalizing route start with
  | zero => rw [World.launch?, World.launch?, hl, hp]
  | succ interpreters ih =>
    rw [World.launch?, World.launch?, hl, hp]
    simp only [ih]

end

namespace RelShell

variable {sim} {shell after : Shell} {command : Command}

/-- A command starts the same program in both shells, or none, and that runs alike. -/
theorem launch (h : sim.RelShell shell after) (hc : sim.KnownCommand command)
    (name path : Text) :
  sim.RelShell (shell.launch command name path) (after.launch (sim.command command) name path)
  := by
  have ha : (sim.command command).args = command.args := rfl
  rw [Shell.launch, Shell.launch, sim.tree_eq h.world, sim.start_eq h.world, h.session, ha,
    canPass_eq h.world, wordRoom_eq h.world]
  cases shell.world.tree.locate shell.world.start (Path.route shell.session.directory) with
  | error error => exact h
  | ok directory =>
    dsimp only
    rw [launch?_eq h.world, stream_command]
    split
    · split
      · exact h
      · rename_i program start _
        apply h.withWorld (Simulation.run h.world hc.stream hc.input program start)
    · exact h

/-- A command that is no builtin runs alike: a program is started, or it is reported that there is
none. -/
theorem runProgram (h : sim.RelShell shell after) (hc : sim.KnownCommand command) :
  sim.RelShell (shell.runProgram command) (after.runProgram (sim.command command))
  := by
  have hn : (sim.command command).name = command.name := rfl
  rw [Shell.runProgram, Shell.runProgram, hn, h.program?_eq]
  split
  · apply h.launch hc
  · apply h.withWorld (sim.tryWrite h.world hc.error _)

/-- A command runs alike in shells that stand for each other. -/
theorem runCommand (h : sim.RelShell shell after) (hc : sim.KnownCommand command) :
  (after.runCommand (sim.command command)).2 = (shell.runCommand command).2
    ∧ sim.RelShell (shell.runCommand command).1 (after.runCommand (sim.command command)).1
  := by
  have hn : (sim.command command).name = command.name := rfl
  rw [Shell.runCommand, Shell.runCommand, hn]
  split
  · rename_i builtin _
    obtain ⟨hr, hs⟩ := h.run builtin hc
    dsimp only
    rw [hr]
    exact ⟨rfl, hs⟩
  · exact ⟨rfl, h.runProgram hc⟩

/-- The three streams of a command are closed in both. -/
theorem release (h : sim.RelShell shell after) (hc : sim.KnownCommand command) :
  sim.RelShell (shell.release command) (after.release (sim.command command))
  := by
  apply h.withWorld
  apply sim.close (sim.close (sim.close h.world hc.input) hc.output) hc.error

/-- A stage runs alike in shells that stand for each other, and its streams are closed then. -/
theorem runStage (h : sim.RelShell shell after) {stage : Option Command}
    (hs : ∀ command ∈ stage, sim.KnownCommand command) :
  (after.runStage (stage.map sim.command)).2 = (shell.runStage stage).2
    ∧ sim.RelShell (shell.runStage stage).1 (after.runStage (stage.map sim.command)).1
  := by
  cases stage with
  | none => exact ⟨rfl, h⟩
  | some command =>
    have hc := hs command rfl
    obtain ⟨hf, hr⟩ := h.runCommand hc
    exact ⟨hf, hr.release hc⟩

/-- A pipeline runs alike in shells that stand for each other. -/
theorem runStages (h : sim.RelShell shell after) (flow : Flow) {pipeline : Pipeline}
    (hp : ∀ stage ∈ pipeline, ∀ command ∈ stage, sim.KnownCommand command) :
  (after.runStages flow (pipeline.map (Option.map sim.command))).2
      = (shell.runStages flow pipeline).2
    ∧ sim.RelShell (shell.runStages flow pipeline).1
      (after.runStages flow (pipeline.map (Option.map sim.command))).1
  := by
  induction pipeline generalizing shell after flow with
  | nil => exact ⟨rfl, h⟩
  | cons stage rest ih =>
    obtain ⟨hs, hr⟩ := List.forall_mem_cons.mp hp
    obtain ⟨hf, hs⟩ := h.runStage hs
    rw [List.map_cons, Shell.runStages, Shell.runStages]
    dsimp only
    rw [hf]
    apply ih hs _ hr

end RelShell

end Simulation

end CommandShell
