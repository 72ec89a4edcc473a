import CommandShell.Command
import CommandShell.Proofs.World
import Mathlib.Data.List.Nodup

/-!
# Redirections that open their targets

A redirection is a fault, or it opens a target for one of the two output streams
(`Redirection.perform_eq`).  Redirections that are performed in turn open some targets in turn.
The stream at an outlet is then the last that was opened for it, or the one that was there, and
the file of the last target is open (`Redirected.Tracks.run`).
-/

namespace CommandShell

/-- A target that has been opened: the outlet it is for, the tree after that, and the file. -/
structure Opened where
  outlet : Outlet
  tree : FileTree
  file : OpenFile

/-- The stream at an outlet. -/
def Redirected.stream (state : Redirected) : Outlet → Stream
  | .output => state.output
  | .error => state.error

/-- The result of no redirections. -/
def Redirected.start (world : World) (output : Stream) : Redirected :=
  ⟨world, output, .stderr, []⟩

/-- The result with an opened target at its outlet. -/
def Redirected.accept (state : Redirected) (opened : Opened) : Redirected :=
  state.attach opened.outlet ((state.world.withTree opened.tree).withFile opened.file).1
    (.file state.world.opened)

namespace Redirection

/-- What opening the target of a redirection in a world comes to. -/
def opened (directory : Text) (world : World) (redirection : Redirection) :
    Except RedirectionFault Opened :=
  match redirection.wanted with
  | .error fault => .error fault
  | .ok (outlet, target) =>
    match world.tree.openForWriting world.start
        (Path.route (targetPath world.home directory target)) (disposition redirection.operator)
        newFileMode with
    | .error error => .error (.cannotOpen target error)
    | .ok (tree, location) =>
      .ok ⟨outlet, tree, ⟨location, true, disposition redirection.operator = .append, 0⟩⟩

/-- To perform a redirection is to note its fault or to accept its target. -/
theorem perform_eq (directory : Text) (state : Redirected) (redirection : Redirection) :
  perform directory state redirection =
    match redirection.opened directory state.world with
    | .error fault => state.fail fault
    | .ok opened => state.accept opened
  := by
  rw [perform, opened]
  cases redirection.wanted with
  | error fault => rfl
  | ok wanted =>
    obtain ⟨outlet, target⟩ := wanted
    simp only [World.openForWriting]
    cases state.world.tree.openForWriting state.world.start
      (Path.route (targetPath state.world.home directory target))
      (disposition redirection.operator) newFileMode with
    | error error => rfl
    | ok result => rfl

/-- The target that a redirection opens, if it opens one, with the number of its file. -/
def opening (directory : Text) (state : Redirected) (redirection : Redirection) :
    List (Nat × Opened) :=
  match redirection.opened directory state.world with
  | .error _ => []
  | .ok opened => [(state.world.opened, opened)]

/-- The targets that redirections open in turn. -/
def openings (directory : Text) : Redirected → List Redirection → List (Nat × Opened)
  | _, [] => []
  | state, redirection :: rest =>
    opening directory state redirection
      ++ openings directory (perform directory state redirection) rest

/-- The target of a redirection is opened for writing. -/
theorem writable_opened {directory : Text} {world : World} {redirection : Redirection}
    {target : Opened} (h : redirection.opened directory world = .ok target) :
  target.file.writable = true
  := by
  rw [opened] at h
  split at h
  · contradiction
  · split at h
    · contradiction
    · obtain rfl := Except.ok.inj h
      rfl

/-- What redirections open is open for writing. -/
theorem writable_of_mem_openings {directory : Text} {state : Redirected}
    {redirections : List Redirection} :
  ∀ target ∈ openings directory state redirections, target.2.file.writable = true
  := by
  induction redirections generalizing state with
  | nil => nofun
  | cons redirection rest ih =>
    intro target ht
    rcases List.mem_append.mp ht with ht | ht
    · rw [opening] at ht
      split at ht
      · contradiction
      · rename_i opened ho
        obtain rfl := List.mem_singleton.mp ht
        apply writable_opened ho
    · apply ih target ht

end Redirection

/-- What the redirections of an outline change. -/
def Outline.performed (directory : Text) (output : Stream) (world : World) (outline : Outline) :
    Redirected :=
  outline.redirections.foldl (Redirection.perform directory) (.start world output)

namespace Command

/-- The command that a name and an outline make, and the world after its redirections. -/
def ofOutline (directory name : Text) (outline : Outline) (input output : Stream)
    (world : World) : Option Command × World :=
  let state := outline.performed directory output world
  (some ⟨name, outline.args, input, state.output, state.error⟩,
    report state.error state.faults.reverse state.world)

/-- The command of a stage is that of the outline that is read after its name. -/
theorem ofStage_eq {stage : Text} {first : Word} {others : List Word}
    (h : words stage = first :: others) (directory : Text) (input output : Stream)
    (world : World) :
  ofStage directory stage input output world
    = ofOutline directory first.raw (Outline.read none (Token.ofStage stage).tail) input output
        world
  := by
  rw [ofStage, Token.ofStage, h]
  rfl

end Command

/-- The last of some targets that is for an outlet. -/
def lastOpened (outlet : Outlet) (targets : List (Nat × Opened)) : Option (Nat × Opened) :=
  (targets.filter (·.2.outlet = outlet)).getLast?

theorem lastOpened_append_self (targets : List (Nat × Opened)) (number : Nat) (opened : Opened) :
  lastOpened opened.outlet (targets ++ [(number, opened)]) = some (number, opened)
  := by
  simp [lastOpened]

theorem lastOpened_append_of_ne {outlet : Outlet} (targets : List (Nat × Opened)) (number : Nat)
    {opened : Opened} (h : opened.outlet ≠ outlet) :
  lastOpened outlet (targets ++ [(number, opened)]) = lastOpened outlet targets
  := by
  simp [lastOpened, h]

/-- The last target for an outlet is one of the targets, and is for the outlet. -/
theorem mem_of_lastOpened {outlet : Outlet} {targets : List (Nat × Opened)}
    {target : Nat × Opened} (h : lastOpened outlet targets = some target) :
  target ∈ targets ∧ target.2.outlet = outlet
  := by
  simpa using List.mem_filter.mp (List.mem_of_getLast? h)

namespace Redirected

/-- A target that is opened becomes the stream of its outlet. -/
theorem stream_accept (state : Redirected) (opened : Opened) (outlet : Outlet) :
  (state.accept opened).stream outlet
    = if opened.outlet = outlet then .file state.world.opened else state.stream outlet
  := by
  obtain ⟨_ | _, tree, file⟩ := opened <;> cases outlet <;> rfl

/-- The stream that the outlet of a target had is closed when the target is opened. -/
theorem world_accept (state : Redirected) (opened : Opened) :
  (state.accept opened).world
    = (((state.world.withTree opened.tree).withFile opened.file).1).close
        (state.stream opened.outlet)
  := by
  obtain ⟨_ | _, tree, file⟩ := opened <;> rfl

theorem lookup_accept {state : Redirected} {opened : Opened} {number : Nat}
    (h : state.stream opened.outlet ≠ .file number) :
  (state.accept opened).world.files.lookup number
    = if number = state.world.opened then some opened.file
      else state.world.files.lookup number
  := by
  rw [world_accept, World.lookup_files_close _ h, World.lookup_files_withFile]
  rfl

/-- What redirections have changed that have opened targets in turn, where the output that was
given for them is no file. -/
structure Tracks (world : World) (output : Stream) (targets : List (Nat × Opened))
    (state : Redirected) : Prop where
  stream_eq : ∀ outlet, state.stream outlet
    = ((lastOpened outlet targets).map (.file ·.1)).getD ((start world output).stream outlet)
  /-- The numbers of the targets are new, one after another. -/
  numbers : targets.map Prod.fst = List.range' world.opened targets.length
  opened_eq : state.world.opened = world.opened + targets.length
  /-- The file of the last target for an outlet is open. -/
  lookup_last : ∀ outlet number opened, lastOpened outlet targets = some (number, opened) →
    state.world.files.lookup number = some opened.file
  /-- The files that were open before stay as they were. -/
  lookup_before : ∀ number < world.opened,
    state.world.files.lookup number = world.files.lookup number
  /-- The output that was given is closed when a target is opened for it. -/
  pipes_eq : state.world.pipes =
    if lastOpened .output targets = none then world.pipes else output.closeEnd world.pipes

namespace Tracks

variable {world : World} {output : Stream} {targets : List (Nat × Opened)} {state : Redirected}

/-- The numbers of the targets are those that have been given out since. -/
theorem number_lt (h : Tracks world output targets state) {target : Nat × Opened}
    (ht : target ∈ targets) :
  world.opened ≤ target.1 ∧ target.1 < state.world.opened
  := by
  have hm : target.1 ∈ targets.map Prod.fst := List.mem_map_of_mem ht
  rw [h.numbers, List.mem_range'_1] at hm
  rw [h.opened_eq]
  apply hm

/-- Targets with the same number are the same. -/
theorem eq_of_number (h : Tracks world output targets state) {target other : Nat × Opened}
    (ht : target ∈ targets) (ho : other ∈ targets) (hn : target.1 = other.1) :
  target = other
  := by
  apply List.inj_on_of_nodup_map _ ht ho hn
  rw [h.numbers]
  exact List.nodup_range'

/-- The stream at an outlet is a file only if that is the last target for it. -/
theorem lastOpened_of_stream (h : Tracks world output targets state)
    (hf : ∀ number, output ≠ .file number) {outlet : Outlet} {number : Nat}
    (hs : state.stream outlet = .file number) :
  ∃ opened, lastOpened outlet targets = some (number, opened)
  := by
  rw [h.stream_eq] at hs
  cases hl : lastOpened outlet targets with
  | none =>
    rw [hl] at hs
    cases outlet with
    | output => apply absurd hs (hf number)
    | error => contradiction
  | some last =>
    rw [hl] at hs
    obtain rfl : last.1 = number := by simpa using hs
    use last.2

theorem stream_ne_of_lt (h : Tracks world output targets state)
    (hf : ∀ number, output ≠ .file number) {number : Nat} (hn : number < world.opened)
    (outlet : Outlet) :
  state.stream outlet ≠ .file number
  := by
  intro hs
  obtain ⟨opened, hl⟩ := h.lastOpened_of_stream hf hs
  have hb := (h.number_lt (mem_of_lastOpened hl).1).1
  omega

/-- The stream at an outlet is not the last target for another one. -/
theorem stream_ne_of_lastOpened (h : Tracks world output targets state)
    (hf : ∀ number, output ≠ .file number) {outlet other : Outlet} (hne : outlet ≠ other)
    {number : Nat} {opened : Opened} (hl : lastOpened other targets = some (number, opened)) :
  state.stream outlet ≠ .file number
  := by
  intro hs
  obtain ⟨same, hs⟩ := h.lastOpened_of_stream hf hs
  obtain ⟨hm, ho⟩ := mem_of_lastOpened hl
  obtain ⟨hm', ho'⟩ := mem_of_lastOpened hs
  rw [h.eq_of_number hm' hm rfl] at ho'
  apply hne (ho'.symm.trans ho)

/-- A redirection that fails opens no target. -/
theorem fail (h : Tracks world output targets state) (fault : RedirectionFault) :
  Tracks world output targets (state.fail fault)
  := ⟨h.stream_eq, h.numbers, h.opened_eq, h.lookup_last, h.lookup_before, h.pipes_eq⟩

/-- A redirection that opens its target adds it to the targets. -/
theorem accept (h : Tracks world output targets state) (hf : ∀ number, output ≠ .file number)
    (opened : Opened) :
  Tracks world output (targets ++ [(state.world.opened, opened)]) (state.accept opened)
  := by
  constructor
  · intro outlet
    rw [stream_accept]
    split
    · rename_i ho
      subst ho
      rw [lastOpened_append_self]
      rfl
    · rename_i ho
      rw [lastOpened_append_of_ne _ _ ho, h.stream_eq]
  · rw [List.map_append, h.numbers, List.length_append, h.opened_eq]
    apply List.range'_1_concat.symm
  · rw [world_accept, World.opened_close, List.length_append, ← Nat.add_assoc, ← h.opened_eq]
    rfl
  · intro outlet number other hl
    by_cases ho : opened.outlet = outlet
    · subst ho
      rw [lastOpened_append_self, Option.some_inj, Prod.mk.injEq] at hl
      obtain ⟨rfl, rfl⟩ := hl
      rw [lookup_accept, if_pos rfl]
      intro hs
      obtain ⟨other, hl⟩ := h.lastOpened_of_stream hf hs
      apply Nat.lt_irrefl _ (h.number_lt (mem_of_lastOpened hl).1).2
    · rw [lastOpened_append_of_ne _ _ ho] at hl
      rw [lookup_accept (h.stream_ne_of_lastOpened hf ho hl),
        if_neg (Nat.ne_of_lt (h.number_lt (mem_of_lastOpened hl).1).2), h.lookup_last _ _ _ hl]
  · intro number hn
    rw [lookup_accept (h.stream_ne_of_lt hf hn _), if_neg, h.lookup_before _ hn]
    rw [h.opened_eq]
    omega
  · have hp : (state.accept opened).world.pipes
        = (state.stream opened.outlet).closeEnd state.world.pipes := by
      rw [world_accept, World.pipes_close]
      rfl
    rw [hp, h.stream_eq, h.pipes_eq]
    cases ho : opened.outlet with
    | output =>
      rw [← ho, lastOpened_append_self, ho]
      cases lastOpened .output targets <;> simp [start, stream, Stream.closeEnd]
    | error =>
      rw [lastOpened_append_of_ne _ _ (by simp [ho])]
      cases lastOpened .error targets <;> rfl

/-- A redirection that is performed adds the target that it opens, if it opens one. -/
theorem perform (h : Tracks world output targets state) (hf : ∀ number, output ≠ .file number)
    (directory : Text) (redirection : Redirection) :
  Tracks world output (targets ++ redirection.opening directory state)
    (redirection.perform directory state)
  := by
  rw [Redirection.perform_eq, Redirection.opening]
  cases redirection.opened directory state.world with
  | error fault =>
    rw [List.append_nil]
    apply h.fail
  | ok opened => apply h.accept hf

/-- Redirections that are performed in turn add the targets that they open. -/
theorem foldl_perform (h : Tracks world output targets state)
    (hf : ∀ number, output ≠ .file number) (directory : Text) (redirections : List Redirection) :
  Tracks world output (targets ++ Redirection.openings directory state redirections)
    (redirections.foldl (Redirection.perform directory) state)
  := by
  induction redirections generalizing targets state with
  | nil =>
    rw [Redirection.openings, List.append_nil]
    apply h
  | cons redirection rest ih =>
    rw [Redirection.openings, ← List.append_assoc]
    apply ih (h.perform hf directory redirection)

theorem start (world : World) (output : Stream) :
  Tracks world output [] (Redirected.start world output)
  := ⟨fun _ => rfl, rfl, rfl, nofun, fun _ _ => rfl, rfl⟩

end Tracks

end Redirected

end CommandShell
