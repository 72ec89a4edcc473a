import CommandShell.Proofs.Evolution
import CommandShell.Proofs.Unmarked

/-!
# What running a name does

The name of a command, as it is written, is dispatched to a builtin, to a program at a path or to
nothing, and the command is carried out accordingly (`Shell.runCommand_eq`).  `type` looks names up
without reading them.  For a name that reads as it is written, it tells what the name is dispatched
to (`Shell.type_tells_dispatch`).
-/

namespace CommandShell

/-! ### What the streams of a shell receive -/

namespace World

/-- The bytes of the messages for one place, one after another. -/
def bytesFor {α : Type} [DecidableEq α] (place : α) (messages : List (α × Bytes)) : Bytes :=
  (messages.filter (·.1 = place)).flatMap Prod.snd

section

variable {α : Type} [DecidableEq α] (place : α)

theorem bytesFor_cons (message : α × Bytes) (rest : List (α × Bytes)) :
  bytesFor place (message :: rest)
    = (if message.1 = place then message.2 else []) ++ bytesFor place rest
  := by
  rw [bytesFor, List.filter_cons]
  split <;> rename_i h <;> rw [decide_eq_true_eq] at h <;> simp [h, bytesFor]

theorem bytesFor_append (before after : List (α × Bytes)) :
  bytesFor place (before ++ after) = bytesFor place before ++ bytesFor place after
  := by
  rw [bytesFor, List.filter_append, List.flatMap_append]
  rfl

/-- Messages that take other places are for those places. -/
theorem bytesFor_map {β : Type} [DecidableEq β] {f : α → β} (hf : f.Injective)
    (messages : List (α × Bytes)) :
  bytesFor (f place) (messages.map fun message => (f message.1, message.2))
    = bytesFor place messages
  := by
  induction messages with
  | nil => rfl
  | cons message rest ih =>
    rw [List.map_cons, bytesFor_cons, bytesFor_cons, ih]
    simp only [hf.eq_iff]

end

/-- Messages that are gathered are the same bytes for each stream. -/
theorem bytesFor_gather (stream : Stream) (messages : List (Stream × Bytes)) :
  bytesFor stream (gather messages) = bytesFor stream messages
  := by
  induction messages with
  | nil => rfl
  | cons message rest ih =>
    obtain ⟨here, bytes⟩ := message
    rw [bytesFor_cons, ← ih, gather]
    cases gather rest with
    | nil => rw [bytesFor_cons]
    | cons next others =>
      obtain ⟨there, more⟩ := next
      dsimp only
      split
      · rename_i h
        subst h
        rw [bytesFor_cons, bytesFor_cons]
        split <;> simp
      · rw [bytesFor_cons]

/-- The world after the output and the error stream of the shell have received bytes. -/
def received (world : World) (output errors : Bytes) : World :=
  { world with output := world.output.write output, errors := world.errors.write errors }

theorem received_received (world : World) (output errors output' errors' : Bytes) :
  (world.received output errors).received output' errors'
    = world.received (output ++ output') (errors ++ errors')
  := by
  simp [received, Sink.write, List.reverseAux_eq]

/-- The streams of the shell receive all messages for them. -/
theorem deliver_of_inherited (world : World) {messages : List (Stream × Bytes)}
    (h : ∀ message ∈ messages, message.1 = .stdout ∨ message.1 = .stderr) :
  world.deliver messages
    = (world.received (bytesFor .stdout messages) (bytesFor .stderr messages), none)
  := by
  induction messages generalizing world with
  | nil => rfl
  | cons message rest ih =>
    obtain ⟨stream, bytes⟩ := message
    obtain ⟨hs, hr⟩ := List.forall_mem_cons.mp h
    have hw : world.writeAll stream bytes
        = .ok (world.received (if stream = .stdout then bytes else [])
            (if stream = .stderr then bytes else [])) := by
      rcases hs with hs | hs <;> dsimp only at hs <;> subst hs <;> cases bytes <;> rfl
    rw [deliver, hw, bytesFor_cons, bytesFor_cons, ← received_received]
    apply ih _ hr

end World

namespace Builtin

/-- The bytes of a response for an outlet. -/
def Response.bytes (response : Response) (outlet : Outlet) : Bytes :=
  World.bytesFor outlet (Response.messages response)

/-- A builtin that writes to the streams of the shell writes all its lines. -/
theorem run_of_inherited (builtin : Builtin) {command : Command} (ho : command.output = .stdout)
    (he : command.error = .stderr) (shell : Shell) :
  let response := builtin.respond command.args shell
  builtin.run command shell
    = ⟨response.shell.withWorld
        (response.shell.world.received (Response.bytes response .output)
          (Response.bytes response .error)),
      .ok response.flow⟩
  := by
  dsimp only
  have hf : command.stream.Injective := by
    intro outlet other h
    cases outlet <;> cases other <;> simp_all [Command.stream]
  have hs : ∀ message ∈ (Response.messages (builtin.respond command.args shell)).map
      fun message => (command.stream message.1, message.2),
      message.1 ∈ {stream | stream = Stream.stdout ∨ stream = Stream.stderr} := by
    rw [List.forall_mem_map]
    rintro ⟨outlet, bytes⟩ -
    cases outlet with
    | output => exact .inl ho
    | error => exact .inr he
  have hd := (builtin.respond command.args shell).shell.world.deliver_of_inherited
    (World.fst_mem_of_mem_gather hs)
  have hout := World.bytesFor_map .output hf
    (Response.messages (builtin.respond command.args shell))
  have herr := World.bytesFor_map .error hf
    (Response.messages (builtin.respond command.args shell))
  rw [show command.stream .output = .stdout from ho] at hout
  rw [show command.stream .error = .stderr from he] at herr
  rw [World.bytesFor_gather, World.bytesFor_gather, hout, herr] at hd
  rw [run, World.speak, hd]
  rfl

end Builtin

/-! ### Dispatch -/

/-- What a name is dispatched to. -/
inductive Dispatch where
  | builtin (builtin : Builtin)
  /-- The program at a path, which is told a name. -/
  | program (name path : Text)
  | missing
  deriving DecidableEq, Repr

/-- What `type` says of a name that is dispatched. -/
def Dispatch.verdict (name : Text) : Dispatch → Outlet × Text
  | .builtin _ => (.output, name ++ " is a shell builtin".toList)
  | .program _ path => (.output, name ++ " is ".toList ++ path)
  | .missing => (.error, name ++ ": not found".toList)

namespace Shell

/-- What the name of a command, as it is written, is dispatched to. -/
def dispatch (shell : Shell) (written : Text) : Dispatch :=
  match Builtin.ofName? written with
  | some builtin => .builtin builtin
  | none =>
    match shell.program? (unquote written) with
    | some path => .program (unquote written) path
    | none => .missing

/-- The shell after a command is carried out by what its name is dispatched to, and the flow.  Where
that is nothing, nothing is started and only a message is written. -/
def carryOut (shell : Shell) (command : Command) : Dispatch → Shell × Flow
  | .builtin builtin =>
    ((builtin.run command shell).shell, (builtin.run command shell).result.toOption.getD .proceed)
  | .program name path => (shell.launch command name path, .proceed)
  | .missing =>
    (shell.withWorld (shell.world.tryWrite command.error
      (Text.encode (Text.line (command.name ++ ": command not found".toList)))), .proceed)

/-- A command is carried out by what its name is dispatched to. -/
theorem runCommand_eq (shell : Shell) (command : Command) :
  shell.runCommand command = shell.carryOut command (shell.dispatch command.name)
  := by
  rw [runCommand, dispatch]
  cases Builtin.ofName? command.name with
  | some builtin => rfl
  | none =>
    rw [runProgram]
    cases shell.program? (unquote command.name) <;> rfl

end Shell

namespace Builtin

/-- `type` tells what a name is dispatched to that reads as it is written. -/
theorem verdict_eq {name : Text} (h : unquote name = name) (shell : Shell) :
  verdict shell name = (shell.dispatch name).verdict name
  := by
  rw [verdict, Shell.dispatch, h]
  cases ofName? name with
  | some builtin => rfl
  | none => cases shell.program? name <;> rfl

theorem respond_type_singleton (name : Text) (shell : Shell) :
  type.respond [name] shell = ⟨shell, [verdict shell name], .proceed⟩
  := rfl

/-- What `type` says of arguments is what it says of each of them. -/
theorem respond_type {args : List Text} (h : args ≠ []) (shell : Shell) :
  type.respond args shell
    = ⟨shell, args.flatMap fun arg => (type.respond [arg] shell).lines, .proceed⟩
  := by
  rw [respond, describe, if_neg h, List.map_eq_flatMap]
  rfl

/-- The bytes of what `type` says of arguments are those of what it says of each of them. -/
theorem bytes_respond_type {args : List Text} (h : args ≠ []) (shell : Shell) (outlet : Outlet) :
  Response.bytes (type.respond args shell) outlet
    = args.flatMap fun arg => Response.bytes (type.respond [arg] shell) outlet
  := by
  rw [respond_type h, Response.bytes, Response.messages]
  clear h
  induction args with
  | nil => rfl
  | cons arg rest ih =>
    rw [List.flatMap_cons, List.map_append, World.bytesFor_append, ih]
    rfl

end Builtin

/-! ### Paths of programs -/

/-- The path of a program is none of the words with blanks but without slashes. -/
theorem Path.join_ne {directory name text : Text} (hn : ' ' ∉ name) (hb : ' ' ∈ text)
    (hs : '/' ∉ text) :
  join directory name ≠ text
  := by
  rintro rfl
  rw [join] at hb hs
  split at hb
  · exact hn hb
  · rename_i ha
    rw [if_neg ha] at hs
    split at hb
    · rename_i hd
      rw [if_pos hd] at hs
      rcases hd with rfl | hd
      · exact hn hb
      · exact hs (List.mem_append_left _ (List.mem_of_getLast? hd))
    · rename_i hd
      rw [if_neg hd] at hs
      simp at hs

theorem Shell.exists_join_of_program? {shell : Shell} {name path : Text}
    (h : shell.program? name = some path) :
  '/' ∉ name
    ∧ ∃ directory ∈ shell.session.search.directories, path = Path.join directory name
  := by
  rw [program?, SearchPath.resolve] at h
  split at h
  · contradiction
  · rename_i hn
    rw [Bool.or_eq_true, List.contains_iff_mem, not_or] at hn
    obtain ⟨directory, hd, rfl⟩ := List.mem_map.mp (List.mem_of_find?_eq_some h)
    exact ⟨hn.2, directory, hd, rfl⟩

/-- A name without blanks that reads as it is written is dispatched to the builtin with that name,
to a program, which is told the name and whose path is none of the words of `type`, or to nothing. -/
theorem Shell.dispatch_cases {name : Text} (hq : unquote name = name) (hb : ' ' ∉ name)
    (shell : Shell) :
  (∃ builtin : Builtin, builtin.name = name ∧ shell.dispatch name = .builtin builtin)
    ∨ (∃ path, path ≠ "a shell builtin".toList ∧ shell.dispatch name = .program name path)
    ∨ shell.dispatch name = .missing
  := by
  rw [dispatch, hq]
  cases hn : Builtin.ofName? name with
  | some builtin => exact .inl ⟨builtin, (Builtin.ofName?_eq_some_iff.mp hn).symm, rfl⟩
  | none =>
    cases hp : shell.program? name with
    | none => exact .inr (.inr rfl)
    | some path =>
      obtain ⟨-, directory, -, rfl⟩ := exists_join_of_program? hp
      exact .inr (.inl ⟨_, Path.join_ne hb (by decide) (by decide), rfl⟩)

/-- What `type` says of such a name differs for all that it can be dispatched to. -/
theorem Shell.verdict_dispatch_iff {name : Text} (hq : unquote name = name) (hb : ' ' ∉ name)
    (shell : Shell) :
  let verdict := (shell.dispatch name).verdict name
  (verdict = (.output, name ++ " is a shell builtin".toList)
      ↔ ∃ builtin : Builtin, builtin.name = name ∧ shell.dispatch name = .builtin builtin)
    ∧ (∀ path, verdict = (.output, name ++ " is ".toList ++ path)
        ∧ path ≠ "a shell builtin".toList
      ↔ shell.dispatch name = .program name path)
    ∧ (verdict = (.error, name ++ ": not found".toList) ↔ shell.dispatch name = .missing)
  := by
  dsimp only
  rcases shell.dispatch_cases hq hb with ⟨builtin, hn, hd⟩ | ⟨found, hp, hd⟩ | hd
  · rw [hd]
    refine ⟨by simp [Dispatch.verdict, hn], fun path => ?_, by simp [Dispatch.verdict]⟩
    have hw : "a shell builtin".toList = path → path = "a shell builtin".toList := Eq.symm
    simpa [Dispatch.verdict] using hw
  · rw [hd]
    refine ⟨by simpa [Dispatch.verdict] using hp, fun path => ?_, by simp [Dispatch.verdict]⟩
    have hw : found = path → path ≠ "a shell builtin".toList := fun he => he ▸ hp
    simpa [Dispatch.verdict] using hw
  · rw [hd]
    simp [Dispatch.verdict]

/-- `type` tells what a name does that is not empty and has no white space, no quotation mark, no
backslash and no bar.  A stage that is such a name is a call of it, and the command is carried out
by what the name is dispatched to.  `type` says that the name is a builtin, that it is a path, which
no path of a program can be mistaken for, or that it is not found, exactly if the name is dispatched
to that builtin, to the program at that path, which is told the name, or to nothing.  What it says
of several arguments is what it says of each of them, one after another on each stream. -/
theorem Shell.type_tells_dispatch {name : Text} (hne : name ≠ []) (hu : name.isUnmarked = true)
    (shell : Shell) :
  let tells (line : Outlet × Text) := Builtin.type.respond [name] shell = ⟨shell, [line], .proceed⟩
  Call.ofStage? name = some ⟨name, []⟩
    ∧ (∀ command : Command, command.name = name →
      shell.runCommand command = shell.carryOut command (shell.dispatch name))
    ∧ (tells (.output, name ++ " is a shell builtin".toList)
      ↔ ∃ builtin : Builtin, builtin.name = name ∧ shell.dispatch name = .builtin builtin)
    ∧ (∀ path, tells (.output, name ++ " is ".toList ++ path) ∧ path ≠ "a shell builtin".toList
      ↔ shell.dispatch name = .program name path)
    ∧ (tells (.error, name ++ ": not found".toList) ↔ shell.dispatch name = .missing)
    ∧ ∀ command : Command, command.args ≠ [] →
      (Builtin.type.respond command.args shell).lines
          = command.args.flatMap (fun arg => (Builtin.type.respond [arg] shell).lines)
        ∧ (command.output = .stdout → command.error = .stderr →
          let received (outlet : Outlet) := command.args.flatMap fun arg =>
            Builtin.Response.bytes (Builtin.type.respond [arg] shell) outlet
          Builtin.type.run command shell
            = ⟨shell.withWorld (shell.world.received (received .output) (received .error)),
              .ok .proceed⟩)
  := by
  have hq := Text.unquote_of_isUnmarked hu
  have hb : ' ' ∉ name := by
    intro hm
    exact absurd (List.all_eq_true.mp hu _ hm) (by decide)
  have htells : ∀ line : Outlet × Text,
      Builtin.type.respond [name] shell = ⟨shell, [line], .proceed⟩
        ↔ (shell.dispatch name).verdict name = line := by
    intro line
    rw [Builtin.respond_type_singleton, Builtin.verdict_eq hq]
    simp
  obtain ⟨hbuiltin, hprogram, hmissing⟩ := shell.verdict_dispatch_iff hq hb
  dsimp only
  simp only [htells]
  refine ⟨?_, ?_, hbuiltin, hprogram, hmissing, ?_⟩
  · have ht : Token.ofStage (name ++ []) = [.word name] := Text.ofStage_of_isUnmarked hu hne rfl
    rw [List.append_nil] at ht
    rw [Call.ofStage?, ht]
    rfl
  · rintro command rfl
    apply shell.runCommand_eq
  · intro command hargs
    rw [Builtin.respond_type hargs]
    refine ⟨rfl, fun ho he => ?_⟩
    rw [Builtin.run_of_inherited _ ho he, Builtin.bytes_respond_type hargs,
      Builtin.bytes_respond_type hargs, Builtin.respond_type hargs]

/-- A shell with a program whose name has an angle. -/
def Shell.stocked : Shell where
  session := { directory := "/d".toList, search := .ofText "/d".toList }
  world := .within [(⟨Text.encode "a>b".toList, by decide⟩, .file 0o755 [])]

/-- `type` tells that the name with an angle starts the program. -/
theorem Shell.type_tells_dispatch_stocked :
  Builtin.type.respond ["a>b".toList] stocked
      = ⟨stocked, [(.output, "a>b is /d/a>b".toList)], .proceed⟩
    ∧ stocked.dispatch "a>b".toList = .program "a>b".toList "/d/a>b".toList
  := by
  have hd : stocked.dispatch "a>b".toList = .program "a>b".toList "/d/a>b".toList := by decide
  have hne : "a>b".toList ≠ [] := by decide
  obtain ⟨-, -, -, hp, -⟩ := type_tells_dispatch hne (by decide) stocked
  exact ⟨((hp "/d/a>b".toList).mpr hd).1, hd⟩

end CommandShell
