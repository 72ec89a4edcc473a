import CommandShell.Proofs.Edit
import CommandShell.Proofs.Redirection
import CommandShell.Proofs.Scanning

/-!
# What redirections come to

Redirections that are carried out in turn have outcomes: each of them is a fault, or it opens its
target in the tree that those before it leave (`Redirection.outcomes`).  Every target that is opened
is made, emptied or kept (`FileTree.Changes`), and the last one for a stream is the stream, whatever
faults there are (`Redirected.Settled`).  The faults are reported in their order on the error stream
that all the redirections leave (`Redirected.Settled.reports`).  So the command that tokens make
accounts for each of them (`Command.ofTokens_accounts`).
-/

namespace CommandShell

/-! ### Outcomes -/

/-- What a redirection comes to: a fault, or a target that has been opened. -/
abbrev Outcome := Except RedirectionFault Opened

namespace Outcome

/-- The fault that an outcome is. -/
def fault? : Outcome → Option RedirectionFault
  | .error fault => some fault
  | .ok _ => none

/-- The tree after an outcome. -/
def treeAfter (tree : FileTree) : Outcome → FileTree
  | .error _ => tree
  | .ok opened => opened.tree

/-- The faults among outcomes, in their order. -/
def faults (outcomes : List Outcome) : List RedirectionFault :=
  outcomes.filterMap fault?

/-- The targets among outcomes, in their order. -/
def targets (outcomes : List Outcome) : List Opened :=
  outcomes.filterMap Except.toOption

/-- The reports of the faults among outcomes, each on a line of its own. -/
def messages (outcomes : List Outcome) : Bytes :=
  (faults outcomes).flatMap fun fault => Text.encode (Text.line fault.message)

/-- The last target for an outlet among outcomes. -/
def last (outlet : Outlet) (outcomes : List Outcome) : Option Opened :=
  ((targets outcomes).filter (·.outlet = outlet)).getLast?

/-- Whether the file at a location is emptied by one of the outcomes. -/
def empties (outcomes : List Outcome) (location : Location) : Bool :=
  (targets outcomes).any fun opened =>
    opened.file.location = location && !opened.file.appends

/-- The locations of the targets among outcomes. -/
def places (outcomes : List Outcome) : Set Location :=
  {location | ∃ opened ∈ targets outcomes, opened.file.location = location}

variable (outcomes : List Outcome)

@[simp]
theorem targets_append_error (fault : RedirectionFault) :
  targets (outcomes ++ [.error fault]) = targets outcomes
  := by
  simp [targets, Except.toOption]

@[simp]
theorem targets_append_ok (opened : Opened) :
  targets (outcomes ++ [.ok opened]) = targets outcomes ++ [opened]
  := by
  simp [targets, Except.toOption]

/-- A target that is opened is the last one for its outlet, and leaves the other outlet. -/
theorem last_append_ok (opened : Opened) (outlet : Outlet) :
  last outlet (outcomes ++ [.ok opened])
    = if opened.outlet = outlet then some opened else last outlet outcomes
  := by
  rw [last, targets_append_ok, List.filter_append]
  split
  · rename_i h
    simp [h]
  · rename_i h
    simp [h, last]

theorem mem_targets_of_last {outcomes : List Outcome} {outlet : Outlet} {opened : Opened}
    (h : last outlet outcomes = some opened) :
  opened ∈ targets outcomes
  := List.mem_of_mem_filter (List.mem_of_getLast? h)

end Outcome

/-- What redirections come to when they are carried out in turn in a world, starting with a tree. -/
def Redirection.outcomes (directory : Text) (world : World) :
    FileTree → List Redirection → List Outcome
  | _, [] => []
  | tree, redirection :: rest =>
    let outcome := redirection.opened directory (world.withTree tree)
    outcome :: outcomes directory world (Outcome.treeAfter tree outcome) rest

/-- There is one outcome for each redirection. -/
theorem Redirection.length_outcomes (directory : Text) (world : World) (tree : FileTree)
    (redirections : List Redirection) :
  (outcomes directory world tree redirections).length = redirections.length
  := by
  induction redirections generalizing tree with
  | nil => rfl
  | cons redirection rest ih => rw [outcomes, List.length_cons, List.length_cons, ih]

/-! ### Targets -/

/-- What opening a target makes of a tree. -/
structure Opened.IsOpenedIn (opened : Opened) (tree : FileTree) : Prop where
  writable : opened.file.writable = true
  offset_eq : opened.file.offset = 0
  edited : FileTree.Edited {opened.file.location} tree opened.tree
  node? : ∃ mode, opened.tree.node? opened.file.location
    = some (.file mode (if opened.file.appends then tree.content opened.file.location else []))

/-- The target of a redirection is opened in the tree of the world. -/
theorem Redirection.isOpenedIn {directory : Text} {world : World} {redirection : Redirection}
    {opened : Opened} (h : redirection.opened directory world = .ok opened) :
  opened.IsOpenedIn world.tree
  := by
  rw [Redirection.opened] at h
  split at h
  · contradiction
  · split at h
    · contradiction
    · rename_i tree location ho
      obtain rfl := Except.ok.inj h
      have hopens := FileTree.opens_of_openForWriting ho
      refine ⟨rfl, rfl, hopens.edited, ?_⟩
      obtain ⟨mode, hn⟩ := hopens.node?
      use mode
      rw [hn]
      cases disposition redirection.operator <;> rfl

namespace FileTree

/-- What outcomes have made of a tree. -/
structure Changes (before : FileTree) (outcomes : List Outcome) (after : FileTree) : Prop where
  /-- Nothing but targets is made or written. -/
  edited : Edited (Outcome.places outcomes) before after
  /-- The targets are files. -/
  isFile : ∀ opened ∈ Outcome.targets outcomes, ∃ mode content,
    after.node? opened.file.location = some (.file mode content)
  /-- They are open for writing, from their beginning on unless they are for appending. -/
  isOpen : ∀ opened ∈ Outcome.targets outcomes,
    opened.file.writable = true ∧ opened.file.offset = 0
  /-- Those that are not for appending are empty, and others hold what they held. -/
  content_eq : ∀ location, after.content location
    = if Outcome.empties outcomes location then [] else before.content location

namespace Changes

variable {before after : FileTree} {outcomes : List Outcome}

theorem start (tree : FileTree) :
  Changes tree [] tree
  := ⟨Edited.refl _ _, nofun, nofun, fun _ => rfl⟩

/-- A redirection that fails changes nothing of a tree. -/
theorem fail (h : Changes before outcomes after) (fault : RedirectionFault) :
  Changes before (outcomes ++ [.error fault]) after
  := by
  constructor
  · rw [Outcome.places, Outcome.targets_append_error]
    exact h.edited
  · rw [Outcome.targets_append_error]
    exact h.isFile
  · rw [Outcome.targets_append_error]
    exact h.isOpen
  · intro location
    rw [Outcome.empties, Outcome.targets_append_error, h.content_eq, Outcome.empties]

/-- A target that is opened is one more place that a tree is edited at. -/
theorem accept (h : Changes before outcomes after) {opened : Opened}
    (ho : opened.IsOpenedIn after) :
  Changes before (outcomes ++ [.ok opened]) opened.tree
  := by
  obtain ⟨mode, hn⟩ := ho.node?
  constructor
  · apply (h.edited.mono ?_).trans (ho.edited.mono ?_)
    · rintro location ⟨other, hm, hl⟩
      exact ⟨other, by simp [hm], hl⟩
    · rintro location hl
      exact ⟨opened, by simp, hl.symm⟩
  · intro other hm
    rw [Outcome.targets_append_ok, List.mem_append, List.mem_singleton] at hm
    rcases hm with hm | rfl
    · obtain ⟨mode, content, hf⟩ := h.isFile other hm
      obtain ⟨grown, hg, hd⟩ := ho.edited.grows _ _ hf
      cases grown with
      | directory entries => contradiction
      | file mode content => exact ⟨mode, content, hg⟩
    · exact ⟨mode, _, hn⟩
  · intro other hm
    rw [Outcome.targets_append_ok, List.mem_append, List.mem_singleton] at hm
    rcases hm with hm | rfl
    · apply h.isOpen other hm
    · exact ⟨ho.writable, ho.offset_eq⟩
  · intro location
    have he : Outcome.empties (outcomes ++ [.ok opened]) location
        = (Outcome.empties outcomes location
          || (opened.file.location = location && !opened.file.appends)) := by
      simp [Outcome.empties]
    rw [he]
    by_cases hl : opened.file.location = location
    · subst hl
      rw [FileTree.content, hn]
      dsimp only
      rw [h.content_eq]
      cases opened.file.appends <;> simp
    · rw [content_eq_of_item? (ho.edited.frame location (Ne.symm hl)), h.content_eq]
      simp [hl]

end Changes

end FileTree

/-! ### Streams -/

/-- The stream that a command gets at an outlet if no target is opened for it. -/
def Outlet.given (output : Stream) : Outlet → Stream
  | .output => output
  | .error => .stderr

/-- Whether a stream is the file of a target that has been opened since an earlier world, or the one
that is given if there is no target. -/
def World.Carries (world earlier : World) (given stream : Stream) : Option Opened → Prop
  | none => stream = given
  | some opened => ∃ number, stream = .file number ∧ earlier.opened ≤ number
    ∧ world.files.lookup number = some opened.file

namespace Redirected

theorem faults_accept (state : Redirected) (opened : Opened) :
  (state.accept opened).faults = state.faults
  := by
  obtain ⟨_ | _, tree, file⟩ := opened <;> rfl

/-- What redirections that come to certain outcomes have changed. -/
structure Settled (world : World) (output : Stream) (outcomes : List Outcome)
    (state : Redirected) : Prop where
  faults_eq : state.faults.reverse = Outcome.faults outcomes
  /-- The last target for an outlet is the stream there. -/
  carries : ∀ outlet,
    state.world.Carries world (outlet.given output) (state.stream outlet)
      (Outcome.last outlet outcomes)
  changes : world.tree.Changes outcomes state.world.tree
  /-- Only the tree and which files and pipes are open change. -/
  world_eq : ∃ opened files pipes,
    state.world = { world with tree := state.world.tree, opened, files, pipes }
  opened_le : world.opened ≤ state.world.opened
  fresh : ∀ outlet number, state.stream outlet = .file number → number < state.world.opened
  apart : ∀ outlet other number, outlet ≠ other → state.stream outlet = .file number →
    state.stream other ≠ .file number

namespace Settled

variable {world : World} {output : Stream} {outcomes : List Outcome} {state : Redirected}

theorem start (h : ∀ number, output = .file number → number < world.opened) :
  Settled world output [] (Redirected.start world output)
  where
  faults_eq := rfl
  carries outlet := by cases outlet <;> rfl
  changes := .start world.tree
  world_eq := ⟨_, _, _, rfl⟩
  opened_le := Nat.le_refl _
  fresh outlet number hs := by
    cases outlet with
    | output => apply h number hs
    | error => contradiction
  apart outlet other number hne hs ho := by
    cases outlet with
    | error => contradiction
    | output =>
      cases other with
      | output => contradiction
      | error => contradiction

/-- A redirection that fails adds its fault, and leaves all else settled. -/
theorem fail (h : Settled world output outcomes state) (fault : RedirectionFault) :
  Settled world output (outcomes ++ [.error fault]) (state.fail fault)
  where
  faults_eq := by
    rw [Redirected.fail, List.reverse_cons, h.faults_eq]
    simp [Outcome.faults, Outcome.fault?]
  carries outlet := by
    rw [Outcome.last, Outcome.targets_append_error]
    apply h.carries outlet
  changes := h.changes.fail fault
  world_eq := h.world_eq
  opened_le := h.opened_le
  fresh := h.fresh
  apart := h.apart

/-- A redirection that opens its target settles the outlet of that. -/
theorem accept (h : Settled world output outcomes state) {opened : Opened}
    (ho : opened.IsOpenedIn state.world.tree) :
  Settled world output (outcomes ++ [.ok opened]) (state.accept opened)
  := by
  have hopened : (state.accept opened).world.opened = state.world.opened + 1 := by
    rw [world_accept, World.opened_close]
    rfl
  have htree : (state.accept opened).world.tree = opened.tree := by
    rw [world_accept, World.tree_close]
    rfl
  have hnew {outlet : Outlet} : state.stream outlet ≠ .file state.world.opened :=
    fun hs => Nat.lt_irrefl _ (h.fresh outlet _ hs)
  constructor
  case faults_eq =>
    rw [faults_accept, h.faults_eq]
    simp [Outcome.faults, Outcome.fault?]
  case carries =>
    intro outlet
    rw [Outcome.last_append_ok, stream_accept]
    split
    · refine ⟨_, rfl, h.opened_le, ?_⟩
      rw [lookup_accept hnew, if_pos rfl]
    · rename_i hne
      have hc := h.carries outlet
      cases hl : Outcome.last outlet outcomes with
      | none =>
        rw [hl] at hc
        exact hc
      | some other =>
        rw [hl] at hc
        obtain ⟨number, hs, hle, hf⟩ := hc
        refine ⟨number, hs, hle, ?_⟩
        rw [lookup_accept (h.apart outlet opened.outlet number (Ne.symm hne) hs),
          if_neg (Nat.ne_of_lt (h.fresh outlet number hs)), hf]
  case changes =>
    rw [htree]
    apply h.changes.accept ho
  case world_eq =>
    obtain ⟨_, _, _, he⟩ := h.world_eq
    obtain ⟨files, pipes, hc⟩ := World.exists_close_eq
      ((state.world.withTree opened.tree).withFile opened.file).1 (state.stream opened.outlet)
    refine ⟨state.world.opened + 1, files, pipes, ?_⟩
    rw [htree, world_accept, hc, he]
    rfl
  case opened_le =>
    rw [hopened]
    apply Nat.le_succ_of_le h.opened_le
  case fresh =>
    intro outlet number hs
    rw [hopened]
    rw [stream_accept] at hs
    split at hs
    · obtain rfl := Stream.file.inj hs
      apply Nat.lt_succ_self
    · apply Nat.lt_succ_of_lt (h.fresh outlet number hs)
  case apart =>
    intro outlet other number hne hs hs'
    rw [stream_accept] at hs hs'
    split at hs
    · obtain rfl := Stream.file.inj hs
      split at hs'
      · rename_i ha hb
        apply hne (ha.symm.trans hb)
      · apply hnew hs'
    · split at hs'
      · obtain rfl := Stream.file.inj hs'
        apply hnew hs
      · apply h.apart outlet other number hne hs hs'

/-- A redirection that is performed adds its outcome. -/
theorem perform (h : Settled world output outcomes state) (directory : Text)
    (redirection : Redirection) :
  let outcome := redirection.opened directory (world.withTree state.world.tree)
  Settled world output (outcomes ++ [outcome]) (redirection.perform directory state)
    ∧ (redirection.perform directory state).world.tree = Outcome.treeAfter state.world.tree outcome
  := by
  intro outcome
  have ho : redirection.opened directory state.world = outcome := by
    obtain ⟨_, _, _, he⟩ := h.world_eq
    rw [he]
    rfl
  rw [Redirection.perform_eq, ho]
  cases hc : outcome with
  | error fault => exact ⟨h.fail fault, rfl⟩
  | ok opened =>
    refine ⟨h.accept (Redirection.isOpenedIn (ho.trans hc)), ?_⟩
    dsimp only
    rw [world_accept, World.tree_close]
    rfl

/-- Redirections that are performed in turn add their outcomes. -/
theorem foldl_perform (h : Settled world output outcomes state) (directory : Text)
    (redirections : List Redirection) :
  Settled world output
    (outcomes ++ Redirection.outcomes directory world state.world.tree redirections)
    (redirections.foldl (Redirection.perform directory) state)
  := by
  induction redirections generalizing outcomes state with
  | nil =>
    rw [Redirection.outcomes, List.append_nil]
    exact h
  | cons redirection rest ih =>
    obtain ⟨hs, ht⟩ := h.perform directory redirection
    rw [Redirection.outcomes, List.append_cons, List.foldl_cons, ← ht]
    apply ih hs

end Settled

end Redirected

/-! ### Reports -/

namespace World

/-- Whether bytes have been written to an error stream: to the file of the target that it is, or to
the error stream of the shell if it is none. -/
def Reports (world : World) (bytes : Bytes) (after : World) : Option Opened → Prop
  | none => after = { world with errors := world.errors.write bytes }
  | some opened =>
    after.errors = world.errors
      ∧ after.tree.content opened.file.location
        = world.tree.content opened.file.location ++ bytes
      ∧ FileTree.Edited {opened.file.location} world.tree after.tree

/-- What is written at the end of a file extends it. -/
theorem tryWrite_file {world : World} {number : Nat} {file : OpenFile}
    (hl : world.files.lookup number = some file) (hw : file.writable = true)
    (he : file.appends = true ∨ file.offset = (world.tree.content file.location).length)
    (bytes : Bytes) :
  (world.tryWrite (.file number) bytes).errors = world.errors
    ∧ (world.tryWrite (.file number) bytes).tree = world.tree.extend file.location bytes
  := by
  rw [tryWrite, writeAll]
  split_ifs with hb
  · rw [FileTree.extend, FileTree.overwrite, if_pos hb]
    exact ⟨rfl, rfl⟩
  · rw [write, hl]
    dsimp only
    rw [if_pos hw]
    refine ⟨rfl, ?_⟩
    have ho : (if file.appends then (world.tree.content file.location).length else file.offset)
        = (world.tree.content file.location).length := by
      split_ifs with ha
      · rfl
      · apply he.resolve_left ha
    simp only [writeFile, ho, FileTree.extend]

end World

/-- The reports are written to the error stream that the redirections leave. -/
theorem Redirected.Settled.reports {world : World} {output : Stream} {outcomes : List Outcome}
    {state : Redirected} (h : Settled world output outcomes state) (bytes : Bytes) :
  state.world.Reports bytes (state.world.tryWrite state.error bytes)
    (Outcome.last .error outcomes)
  := by
  have hc := h.carries .error
  cases hl : Outcome.last .error outcomes with
  | none =>
    rw [hl] at hc
    have he : state.error = .stderr := hc
    rw [he, World.tryWrite_stderr_eq]
    rfl
  | some opened =>
    rw [hl] at hc
    obtain ⟨number, hs, -, hf⟩ := hc
    have he : state.error = .file number := hs
    have hm := Outcome.mem_targets_of_last hl
    obtain ⟨mode, content, hn⟩ := h.changes.isFile opened hm
    obtain ⟨hw, ho⟩ := h.changes.isOpen opened hm
    have hend : opened.file.appends = true
        ∨ opened.file.offset = (state.world.tree.content opened.file.location).length := by
      rw [or_iff_not_imp_left]
      intro ha
      have hempty : Outcome.empties outcomes opened.file.location = true := by
        apply List.any_eq_true.mpr ⟨opened, hm, ?_⟩
        simp [ha]
      rw [h.changes.content_eq, if_pos hempty, ho]
      rfl
    obtain ⟨herr, ht⟩ := World.tryWrite_file hf hw hend bytes
    rw [he]
    refine ⟨herr, ?_, ?_⟩
    · rw [ht, FileTree.content_extend hn, FileTree.content, hn]
    · rw [ht]
      apply FileTree.edited_extend

/-! ### Commands -/

/-- All tokens of a command are accounted for, whatever they are.  To read them by their positions
never fails, and makes the command.  After the name they fall into clauses that fit in one way, and
the arguments are the words that are clauses of their own.  Each operator has one outcome.  All
targets that are opened are files from then on, empty unless they are for appending only, and the
last target for a stream is the stream, which is the given one if there is no target.  In the end
the faults are reported in their order on the error stream that this makes. -/
theorem Command.ofTokens_accounts (directory : Text) (tokens : List Token) (input output : Stream)
    (world : World) (h : ∀ number, output = .file number → number < world.opened) :
  ofTokensByPosition? directory tokens input output world
      = some (ofTokens directory tokens input output world)
    ∧ ∀ first rest, tokens = first :: rest →
      let clauses := Clause.read none rest
      let redirections := clauses.filterMap Clause.redirection?
      let outcomes := Redirection.outcomes directory world world.tree redirections
      (∀ others, Clause.IsReading rest others ↔ others = clauses)
        ∧ redirections.map Redirection.operator = rest.filterMap Token.operator?
        ∧ outcomes.length = redirections.length
        ∧ ∃ command ready after,
          ofTokens directory tokens input output world = (some command, after)
            ∧ command.name = first.text
            ∧ command.args = clauses.filterMap Clause.argument?
            ∧ command.input = input
            ∧ (∀ outlet, World.Carries ready world (outlet.given output) (command.stream outlet)
              (Outcome.last outlet outcomes))
            ∧ world.tree.Changes outcomes ready.tree
            ∧ ready.errors = world.errors
            ∧ ready.Reports (Outcome.messages outcomes) after (Outcome.last .error outcomes)
  := by
  refine ⟨ofTokensByPosition?_eq directory tokens input output world, ?_⟩
  rintro first rest rfl clauses redirections outcomes
  refine ⟨fun others => Clause.isReading_iff, ?_, Redirection.length_outcomes _ _ _ _, ?_⟩
  · rw [← Clause.operators_flatMap_tokens, Clause.flatMap_tokens_read]
    rfl
  · let state := redirections.foldl (Redirection.perform directory) (.start world output)
    have hs : Redirected.Settled world output outcomes state :=
      (Redirected.Settled.start h).foldl_perform directory redirections
    have he : state.world.errors = world.errors := by
      obtain ⟨_, _, _, hw⟩ := hs.world_eq
      rw [hw]
    refine ⟨⟨first.text, clauses.filterMap Clause.argument?, input, state.output, state.error⟩,
      state.world, report state.error state.faults.reverse state.world, ?_, rfl, rfl, rfl, ?_,
      hs.changes, he, ?_⟩
    · rw [ofTokens, Clause.outline_read]
      rfl
    · intro outlet
      have hc := hs.carries outlet
      cases outlet with
      | output => exact hc
      | error => exact hc
    · rw [report, hs.faults_eq]
      apply hs.reports

/-- A command with a redirection that cannot be carried out and two that can. -/
def diverted : List Token :=
  [.word "echo".toList, .word "hi".toList, .word ['2'], .operator .output,
    .word "missing/x".toList, .word ['2'], .operator .output, .word "log".toList, .word ['1'],
    .operator .append, .word "out".toList]

/-- A world in which a file has been opened. -/
def World.occupied : World :=
  { World.within [] with opened := 1 }

/-- What the redirections of the command come to in that world. -/
def divertedOutcomes : List Outcome :=
  Redirection.outcomes "/d".toList .occupied World.occupied.tree
    ((Clause.read none diverted.tail).filterMap Clause.redirection?)

/-- The fault of the first redirection is reported in the file that the second one makes. -/
theorem Command.ofTokens_accounts_diverted :
  let log : Name := ⟨Text.encode "log".toList, by decide⟩
  ∃ command after,
    ofTokensByPosition? "/d".toList diverted .stdin (.file 0) .occupied = some (some command, after)
      ∧ command.args = ["hi".toList]
      ∧ after.tree.content [World.folder, log]
        = Text.encode (Text.line
          (RedirectionFault.cannotOpen "missing/x".toList .notFound).message)
  := by
  intro log
  have hw : ∀ number, Stream.file 0 = .file number → number < World.occupied.opened := by
    intro number hn
    obtain rfl := Stream.file.inj hn
    decide
  obtain ⟨hp, ha⟩ := ofTokens_accounts "/d".toList diverted .stdin (.file 0) .occupied hw
  obtain ⟨-, -, -, command, ready, after, ho, -, hargs, -, -, hc, -, hr⟩ :=
    ha (.word "echo".toList) diverted.tail rfl
  rw [ho] at hp
  refine ⟨command, after, hp, hargs, ?_⟩
  replace hc : World.occupied.tree.Changes divertedOutcomes ready.tree := hc
  replace hr : ready.Reports (Outcome.messages divertedOutcomes) after
      (Outcome.last .error divertedOutcomes) := hr
  have hf : (Outcome.last .error divertedOutcomes).map Opened.file
      = some ⟨[World.folder, log], true, false, 0⟩ := by decide +kernel
  have he : Outcome.empties divertedOutcomes [World.folder, log] = true := by decide +kernel
  have hm : Outcome.messages divertedOutcomes
      = Text.encode (Text.line
        (RedirectionFault.cannotOpen "missing/x".toList .notFound).message) := by decide +kernel
  obtain ⟨opened, hl, hf⟩ := Option.map_eq_some_iff.mp hf
  rw [hl] at hr
  obtain ⟨-, hr, -⟩ := hr
  rw [hf] at hr
  rw [hr, hc.content_eq, if_pos he, hm]
  rfl

end CommandShell
