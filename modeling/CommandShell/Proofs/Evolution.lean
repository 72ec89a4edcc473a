import CommandShell.Interaction
import CommandShell.Proofs.Call
import CommandShell.Proofs.Edit
import CommandShell.Proofs.World
import Mathlib.Data.Set.Basic
import Mathlib.Logic.Relation

/-!
# What a shell changes in its world

A shell changes its world in a few ways only (`World.Change`), and so does every write, every
command and every line (`World.Evolves`), each within a scope: streams that are written to or closed
and paths that are opened.  Whatever a shell does, it edits no files but those that were open and
those that the paths of the scope lead to (`World.Evolves.confined`).  A file that is none of its
streams stays open as it was (`World.Evolves.lookup_files`), and there is nothing to read from a
pipe that it does not write to (`World.Evolves.drain_eq_nil`).
-/

namespace CommandShell

namespace World

/-- What is done in a world at most. -/
structure Scope where
  /-- The streams that are written to or closed. -/
  streams : Set Stream
  /-- The paths of the files that are opened for writing. -/
  paths : Set Text
  /-- Whether files are left open, and pipes are made. -/
  opens : Prop

/-- The scope of a line that opens files at some paths. -/
def Scope.line (paths : Set Text) : Scope :=
  ⟨Set.univ, paths, True⟩

/-- The worlds that a single change within a scope leads to. -/
inductive Change (scope : Scope) (world : World) : World → Prop where
  | write {stream : Stream} {bytes : Bytes} {after : World} (hs : stream ∈ scope.streams)
      (h : Written world stream bytes after) : Change scope world after
  | drain (stream : Stream) : Change scope world (world.drain stream).2
  | close {stream : Stream} (hs : stream ∈ scope.streams) : Change scope world (world.close stream)
  | save {path : Text} {disposition : Disposition} {opened : FileTree} {location : Location}
      (bytes : Bytes) (hp : path ∈ scope.paths)
      (h : world.tree.openForWriting world.start (Path.route path) disposition newFileMode
        = .ok (opened, location)) :
      Change scope world (world.withTree (opened.extend location bytes))
  | openFile {path : Text} {disposition : Disposition} {after : World} {stream : Stream}
      (ho : scope.opens) (hp : path ∈ scope.paths)
      (h : world.openForWriting path disposition newFileMode = .ok (after, stream)) :
      Change scope world after
  | openPipes (ho : scope.opens) (count : Nat) : Change scope world (world.openPipes count)

/-- Whether a world has come from another one by changes within a scope. -/
abbrev Evolves (scope : Scope) (before after : World) : Prop :=
  Relation.ReflTransGen (Change scope) before after

/-- The locations of the files that are open. -/
def held (world : World) : Set Location :=
  {location | ∃ entry ∈ world.files, entry.2.location = location}

/-- The locations that paths lead to. -/
def located (world : World) (paths : Set Text) : Set Location :=
  {location | ∃ path ∈ paths, world.tree.locate world.start (Path.route path) = .ok location}

/-- What a world has in common with one that it has come from by changes within a scope with some
paths. -/
structure Confined (paths : Set Text) (before after : World) : Prop where
  start_eq : after.start = before.start
  environment_eq : after.environment = before.environment
  pipeRoom_eq : after.pipeRoom = before.pipeRoom
  held_subset : after.held ⊆ before.held ∪ after.located paths
  /-- Only files are edited that were open or that the paths lead to. -/
  edited : FileTree.Edited (before.held ∪ after.located paths) before.tree after.tree

namespace Confined

variable {paths : Set Text} {before after : World}

/-- Where the tree and the open files stay as they are nothing is edited. -/
theorem of_eq (hs : after.start = before.start) (he : after.environment = before.environment)
    (hp : after.pipeRoom = before.pipeRoom) (ht : after.tree = before.tree)
    (hf : after.held ⊆ before.held) :
  Confined paths before after
  := by
  refine ⟨hs, he, hp, hf.trans Set.subset_union_left, ?_⟩
  rw [ht]
  apply FileTree.Edited.refl

theorem refl (paths : Set Text) (world : World) :
  Confined paths world world
  := of_eq rfl rfl rfl rfl Set.Subset.rfl

/-- A path leads where it led before. -/
theorem located_subset (h : Confined paths before after) (others : Set Text) :
  before.located others ⊆ after.located others
  := by
  rintro location ⟨path, hp, hl⟩
  refine ⟨path, hp, ?_⟩
  rw [h.start_eq]
  apply h.edited.grows.locate hl

theorem trans {last : World} (h : Confined paths before after) (h' : Confined paths after last) :
  Confined paths before last
  := by
  have hl : before.held ∪ after.located paths ⊆ before.held ∪ last.located paths :=
    Set.union_subset_union_right _ (h'.located_subset paths)
  have hs : after.held ∪ last.located paths ⊆ before.held ∪ last.located paths :=
    Set.union_subset (h.held_subset.trans hl) Set.subset_union_right
  constructor
  · rw [h'.start_eq, h.start_eq]
  · rw [h'.environment_eq, h.environment_eq]
  · rw [h'.pipeRoom_eq, h.pipeRoom_eq]
  · apply h'.held_subset.trans hs
  · apply (h.edited.mono hl).trans (h'.edited.mono hs)

theorem home_eq (h : Confined paths before after) :
  after.home = before.home
  := by
  rw [home, home, h.environment_eq]

end Confined

/-! ### Single changes -/

variable {scope : Scope}

theorem mem_of_lookup {number : Nat} {file : OpenFile} {files : List (Nat × OpenFile)}
    (h : files.lookup number = some file) :
  (number, file) ∈ files
  := by
  obtain ⟨before, after, rfl, -⟩ := List.lookup_eq_some_iff.mp h
  simp

theorem held_close_subset (world : World) (stream : Stream) :
  (world.close stream).held ⊆ world.held
  := by
  cases stream with
  | file number =>
    rintro location ⟨entry, he, hl⟩
    exact ⟨entry, (List.mem_filter.mp he).1, hl⟩
  | _ => exact Set.Subset.rfl

/-- A file that is written stays where it is. -/
theorem held_writeFile_subset (world : World) {number : Nat} {file : OpenFile}
    (h : world.files.lookup number = some file) (bytes : Bytes) :
  (world.writeFile number file bytes).held ⊆ world.held
  := by
  rintro location ⟨entry, he, rfl⟩
  rcases eq_or_mem_of_mem_replace he with rfl | he
  · exact ⟨_, mem_of_lookup h, rfl⟩
  · exact ⟨entry, he, rfl⟩

theorem Written.confined {world after : World} {stream : Stream} {bytes : Bytes}
    (h : Written world stream bytes after) (paths : Set Text) :
  Confined paths world after
  := by
  cases h with
  | @file number file _ hl _ =>
    refine ⟨rfl, rfl, rfl, ?_, ?_⟩
    · apply (world.held_writeFile_subset hl bytes).trans Set.subset_union_left
    · apply (FileTree.edited_overwrite _ _ _ _).mono
      rintro _ rfl
      exact .inl ⟨_, mem_of_lookup hl, rfl⟩
  | _ => exact .of_eq rfl rfl rfl rfl Set.Subset.rfl

/-- A file that is opened for writing is where its path leads then. -/
theorem located_openForWriting {world : World} {paths : Set Text} {path : Text}
    {disposition : Disposition} {opened : FileTree} {location : Location} (hp : path ∈ paths)
    (h : world.tree.openForWriting world.start (Path.route path) disposition newFileMode
      = .ok (opened, location)) :
  location ∈ (world.withTree opened).located paths
  := ⟨path, hp, (FileTree.opens_of_openForWriting h).locate⟩

/-- Whatever is done in a world, it edits no files but those that were open and those that paths of
the scope lead to. -/
theorem Change.confined {world after : World} (h : Change scope world after) :
  Confined scope.paths world after
  := by
  cases h with
  | write _ h => apply h.confined
  | drain stream =>
    cases stream with
    | pipeReader number =>
      rw [World.drain]
      split <;> exact .of_eq rfl rfl rfl rfl Set.Subset.rfl
    | _ => exact .of_eq rfl rfl rfl rfl Set.Subset.rfl
  | @close stream _ =>
    have hh := world.held_close_subset stream
    cases stream <;> exact .of_eq rfl rfl rfl rfl hh
  | @save path disposition opened location bytes hp h =>
    have he := (FileTree.opens_of_openForWriting h).edited
    have hx := FileTree.edited_extend opened location bytes
    refine ⟨rfl, rfl, rfl, Set.subset_union_left, (he.trans hx).mono ?_⟩
    rintro _ rfl
    obtain ⟨path, hp, hl⟩ := located_openForWriting hp h
    exact .inr ⟨path, hp, hx.grows.locate hl⟩
  | @openFile path disposition after stream _ hp h =>
    obtain ⟨⟨opened, location⟩, ht, h⟩ := bind_eq_ok_iff.mp h
    obtain ⟨rfl, -⟩ := Prod.mk.inj (Except.ok.inj h)
    have hl := located_openForWriting hp ht
    refine ⟨rfl, rfl, rfl, ?_, ?_⟩
    · rintro _ ⟨entry, he, rfl⟩
      rcases List.mem_cons.mp he with rfl | he
      · exact .inr hl
      · exact .inl ⟨entry, he, rfl⟩
    · apply (FileTree.opens_of_openForWriting ht).edited.mono
      rintro _ rfl
      exact .inr hl
  | openPipes _ count =>
    refine .of_eq rfl rfl rfl rfl ?_
    rintro _ ⟨entry, he, -⟩
    contradiction

/-- What files with programs have for bytes does not change. -/
theorem Change.image_eq {world after : World} (h : Change scope world after) :
  after.image = world.image
  := by
  cases h with
  | write _ h => cases h <;> rfl
  | drain stream =>
    cases stream with
    | pipeReader number =>
      rw [World.drain]
      split <;> rfl
    | _ => rfl
  | @close stream _ => cases stream <;> rfl
  | save => rfl
  | openFile _ _ h =>
    obtain ⟨opened, -, h⟩ := bind_eq_ok_iff.mp h
    obtain ⟨rfl, -⟩ := Prod.mk.inj (Except.ok.inj h)
    rfl
  | openPipes => rfl

/-- A file that is none of the streams of the scope stays open as it was. -/
theorem Change.lookup_files {world after : World} {number : Nat} (h : Change scope world after)
    (ho : ¬ scope.opens) (hn : .file number ∉ scope.streams) :
  after.files.lookup number = world.files.lookup number
  := by
  cases h with
  | write hs h =>
    apply h.lookup_files
    rintro rfl
    apply hn hs
  | drain stream =>
    cases stream with
    | pipeReader other =>
      rw [World.drain]
      split <;> rfl
    | _ => rfl
  | close hs =>
    apply lookup_files_close
    rintro rfl
    apply hn hs
  | save => rfl
  | openFile h => contradiction
  | openPipes h => contradiction

/-- What the reader of a pipe yields is what the pipe contains. -/
theorem drain_pipeReader_fst (world : World) (number : Nat) :
  (world.drain (.pipeReader number)).1 = (world.pipes[number]?.map Pipe.content).getD []
  := by
  rw [drain]
  cases world.pipes[number]? <;> rfl

/-- A pipe that is not written to and yields nothing yields nothing after a change. -/
theorem Change.drain_eq_nil {world after : World} {number : Nat}
    (h : Change scope world after) (hn : .pipeWriter number ∉ scope.streams)
    (hd : (world.drain (.pipeReader number)).1 = []) :
  (after.drain (.pipeReader number)).1 = []
  := by
  rw [drain_pipeReader_fst] at hd ⊢
  cases h with
  | write hs h =>
    cases h with
    | @pipe other pipe h hp =>
      have ho : other ≠ number := by
        rintro rfl
        apply hn (h ▸ hs)
      rw [setPipe, List.getElem?_set_ne ho, hd]
    | _ => exact hd
  | drain stream =>
    cases stream with
    | pipeReader other =>
      rw [World.drain]
      split
      · rename_i pipe hp
        by_cases ho : other = number
        · subst ho
          rw [setPipe, List.getElem?_set_self (List.getElem?_eq_some_iff.mp hp).1]
          rfl
        · rw [setPipe, List.getElem?_set_ne ho, hd]
      · exact hd
    | _ => exact hd
  | close =>
    rw [pipes_close, Stream.getElem?_closeEnd, Option.map_map]
    exact hd
  | save => exact hd
  | openFile _ _ h =>
    obtain ⟨opened, -, h⟩ := bind_eq_ok_iff.mp h
    obtain ⟨rfl, -⟩ := Prod.mk.inj (Except.ok.inj h)
    exact hd
  | openPipes _ count =>
    rw [World.openPipes, List.getElem?_replicate]
    split <;> rfl

/-! ### Changes one after another -/

namespace Evolves

variable {before after : World}

/-- Whatever is done in a world, it edits no files but those that were open and those that paths of
the scope lead to. -/
theorem confined (h : before.Evolves scope after) :
  Confined scope.paths before after
  := by
  induction h with
  | refl => apply Confined.refl
  | tail _ hc ih => apply ih.trans hc.confined

theorem image_eq (h : before.Evolves scope after) :
  after.image = before.image
  := by
  induction h with
  | refl => rfl
  | tail _ hc ih => rw [hc.image_eq, ih]

/-- A file that is none of the streams of the scope stays open as it was. -/
theorem lookup_files {number : Nat} (h : before.Evolves scope after) (ho : ¬ scope.opens)
    (hn : .file number ∉ scope.streams) :
  after.files.lookup number = before.files.lookup number
  := by
  induction h with
  | refl => rfl
  | tail _ hc ih => exact (hc.lookup_files ho hn).trans ih

/-- A pipe that is not written to goes on to yield nothing. -/
theorem drain_eq_nil {number : Nat} (h : before.Evolves scope after)
    (hn : .pipeWriter number ∉ scope.streams)
    (hd : (before.drain (.pipeReader number)).1 = []) :
  (after.drain (.pipeReader number)).1 = []
  := by
  induction h with
  | refl => exact hd
  | tail _ hc ih => exact hc.drain_eq_nil hn ih

end Evolves

/-! ### Streams -/

theorem evolves_writeAll {world after : World} {stream : Stream} {bytes : Bytes}
    (hs : stream ∈ scope.streams) (h : world.writeAll stream bytes = .ok after) :
  world.Evolves scope after
  := by
  rcases eq_or_written_of_writeAll h with rfl | h
  · apply Relation.ReflTransGen.refl
  · apply Relation.ReflTransGen.single (.write hs h)

theorem evolves_tryWrite (world : World) {stream : Stream} (bytes : Bytes)
    (hs : stream ∈ scope.streams) :
  world.Evolves scope (world.tryWrite stream bytes)
  := by
  rcases world.tryWrite_eq_or_written stream bytes with h | h
  · rw [h]
  · apply Relation.ReflTransGen.single (.write hs h)

theorem evolves_deliver (world : World) {messages : List (Stream × Bytes)}
    (hs : ∀ message ∈ messages, message.1 ∈ scope.streams) :
  world.Evolves scope (world.deliver messages).1
  := by
  induction messages generalizing world with
  | nil => apply Relation.ReflTransGen.refl
  | cons message rest ih =>
    rw [deliver]
    split
    · rename_i written h
      apply (evolves_writeAll (hs message (by simp)) h).trans
      apply ih written
      intro other ho
      apply hs other (by simp [ho])
    · apply Relation.ReflTransGen.refl

/-- Messages that are gathered are for streams that there were messages for. -/
theorem fst_mem_of_mem_gather {streams : Set Stream} {messages : List (Stream × Bytes)}
    (hs : ∀ message ∈ messages, message.1 ∈ streams) :
  ∀ message ∈ gather messages, message.1 ∈ streams
  := by
  induction messages with
  | nil => exact List.forall_mem_nil _
  | cons message rest ih =>
    obtain ⟨stream, bytes⟩ := message
    obtain ⟨hm, hr⟩ := List.forall_mem_cons.mp hs
    have ih := ih hr
    rw [gather]
    split
    · exact List.forall_mem_cons.mpr ⟨hm, List.forall_mem_nil _⟩
    · rename_i other more others h
      rw [h] at ih
      split
      · exact List.forall_mem_cons.mpr ⟨hm, (List.forall_mem_cons.mp ih).2⟩
      · exact List.forall_mem_cons.mpr ⟨hm, ih⟩

theorem evolves_of_speak {world after : World} {stream : Outlet → Stream}
    (hs : ∀ outlet, stream outlet ∈ scope.streams) {messages : List (Outlet × Bytes)}
    {failure : Option SystemError} (h : world.speak stream messages = (after, failure)) :
  world.Evolves scope after
  := by
  have hm : ∀ message ∈ messages.map fun message => (stream message.1, message.2),
      message.1 ∈ scope.streams := by
    rw [List.forall_mem_map]
    intro message _
    apply hs
  have hd := world.evolves_deliver (fst_mem_of_mem_gather hm)
  rw [speak] at h
  rw [h] at hd
  apply hd

theorem evolves_close (world : World) {stream : Stream} (hs : stream ∈ scope.streams) :
  world.Evolves scope (world.close stream)
  := .single (.close hs)

end World

/-! ### Commands -/

/-- The paths of the targets that a redirection asks to open. -/
def Redirection.targetPaths (home : Option Text) (directory : Text) (redirection : Redirection) :
    Set Text :=
  {path | ∃ outlet target, redirection.wanted = .ok (outlet, target)
    ∧ targetPath home directory target = path}

/-- The paths of the words after an output operator that has the number of one of the two output
streams. -/
def Command.targetPaths (home : Option Text) (directory stage : Text) : Set Text :=
  {path | ∃ selector op target,
    [.word selector, .operator op, .word target] <:+: Token.ofStage stage
      ∧ Token.isSelector selector = true ∧ op.isOutput = true
      ∧ Redirection.targetPath home directory target = path}

/-- The paths of the files that a call has the history saved to. -/
def Shell.savedPaths (shell : Shell) (call : Call) : Set Text :=
  {path | ∃ transfer file, call = Builtin.Transfer.call transfer file ∧ transfer ≠ .load
    ∧ shell.resolve file = path}

/-- A redirection wants something where its operator is one of output, with the number of a stream
and a target. -/
theorem Redirection.wanted_eq_ok {redirection : Redirection} {outlet : Outlet} {target : Text}
    (h : redirection.wanted = .ok (outlet, target)) :
  redirection.target = some target
    ∧ redirection.operator.isOutput = true
    ∧ ∃ selector, redirection.selector = some selector ∧ Token.isSelector selector = true
  := by
  obtain ⟨selector, op, wordAfter⟩ := redirection
  rw [wanted] at h
  split at h
  · contradiction
  · rename_i word ht
    split at h
    · rename_i ho
      split at h
      · rename_i found hf
        obtain ⟨-, rfl⟩ := Prod.mk.inj (Except.ok.inj h)
        refine ⟨ht, ho, ?_⟩
        cases selector with
        | none => contradiction
        | some selector =>
          refine ⟨selector, rfl, ?_⟩
          rw [Option.getD_some, outlet?] at hf
          rw [Token.isSelector]
          split at hf
          · simp_all
          · split at hf
            · simp_all
            · contradiction
      · contradiction
    · contradiction

/-- What a redirection wants stands in the tokens that it is read from. -/
theorem Outline.infix_of_wanted {held : Option Text} {tokens : List Token}
    {redirection : Redirection} (hr : redirection ∈ (read held tokens).redirections)
    {outlet : Outlet} {target : Text} (h : redirection.wanted = .ok (outlet, target)) :
  ∃ selector, Token.isSelector selector = true
    ∧ [.word selector, .operator redirection.operator, .word target]
      <:+: held.toList.map Token.word ++ tokens
  := by
  induction held, tokens using read.induct with
  | case1 held => contradiction
  | case2 held text rest ih =>
    obtain ⟨selector, hs, hi⟩ := ih hr
    exact ⟨selector, hs, hi.trans (List.suffix_append _ _).isInfix⟩
  | case3 held op word rest ih =>
    rw [read] at hr
    rcases List.mem_cons.mp hr with rfl | hr
    · obtain ⟨ht, -, selector, hs, hn⟩ := Redirection.wanted_eq_ok h
      obtain rfl : held = some selector := hs
      obtain rfl : word = target := Option.some_inj.mp ht
      exact ⟨selector, hn, (List.prefix_append _ rest).isInfix⟩
    · obtain ⟨selector, hs, hi⟩ := ih hr
      refine ⟨selector, hs, hi.trans (List.IsSuffix.isInfix ?_)⟩
      exact ⟨held.toList.map Token.word ++ [.operator op, .word word], by simp⟩
  | case4 held op rest hne ih =>
    rw [read] at hr
    · rcases List.mem_cons.mp hr with rfl | hr
      · contradiction
      · obtain ⟨selector, hs, hi⟩ := ih hr
        refine ⟨selector, hs, hi.trans (List.IsSuffix.isInfix ?_)⟩
        exact ⟨held.toList.map Token.word ++ [.operator op], by simp⟩
    · apply hne

theorem Command.targetPaths_subset (home : Option Text) (directory : Text) {stage : Text}
    {first : Token} {rest : List Token} (ht : Token.ofStage stage = first :: rest)
    {redirection : Redirection} (hr : redirection ∈ (Outline.read none rest).redirections) :
  redirection.targetPaths home directory ⊆ targetPaths home directory stage
  := by
  rintro path ⟨outlet, target, hw, hp⟩
  obtain ⟨selector, hs, hi⟩ := Outline.infix_of_wanted hr hw
  refine ⟨selector, _, target, ?_, hs, (Redirection.wanted_eq_ok hw).2.1, hp⟩
  rw [ht]
  apply hi.trans (List.suffix_cons first rest).isInfix

section

variable {paths : Set Text}

theorem Redirection.evolves_perform {directory : Text} {state : Redirected}
    {redirection : Redirection}
    (hp : redirection.targetPaths state.world.home directory ⊆ paths) :
  state.world.Evolves (.line paths) (perform directory state redirection).world
  := by
  rw [perform]
  cases hw : redirection.wanted with
  | error fault => exact .refl
  | ok wanted =>
    obtain ⟨outlet, target⟩ := wanted
    have hp := hp ⟨outlet, target, hw, rfl⟩
    cases ho : state.world.openForWriting (targetPath state.world.home directory target)
        (disposition redirection.operator) newFileMode with
    | error error =>
      simp only [ho]
      exact .refl
    | ok result =>
      have he : state.world.Evolves (.line paths) result.1 := .single (.openFile trivial hp ho)
      simp only [ho]
      cases outlet <;> apply he.trans (World.evolves_close _ (Set.mem_univ _))

theorem Redirection.evolves_foldl {directory : Text} (state : Redirected)
    {redirections : List Redirection}
    (hp : ∀ redirection ∈ redirections,
      redirection.targetPaths state.world.home directory ⊆ paths) :
  state.world.Evolves (.line paths) (redirections.foldl (perform directory) state).world
  := by
  induction redirections generalizing state with
  | nil => exact .refl
  | cons redirection rest ih =>
    obtain ⟨hp, hr⟩ := List.forall_mem_cons.mp hp
    have he := evolves_perform hp
    apply he.trans (ih _ _)
    rw [he.confined.home_eq]
    exact hr

theorem Command.evolves_ofStage {directory stage : Text} (input output : Stream) {world : World}
    (hp : targetPaths world.home directory stage ⊆ paths) :
  world.Evolves (.line paths) (ofStage directory stage input output world).2
  := by
  rw [ofStage]
  cases ht : Token.ofStage stage with
  | nil =>
    apply (world.evolves_close (Set.mem_univ _)).trans (World.evolves_close _ (Set.mem_univ _))
  | cons first rest =>
    apply Relation.ReflTransGen.trans _ (World.evolves_tryWrite _ _ (Set.mem_univ _))
    apply Redirection.evolves_foldl ⟨world, output, .stderr, []⟩
    intro redirection hr
    apply (targetPaths_subset _ _ ht hr).trans hp

namespace Pipeline

theorem evolves_wire {directory : Text} (number : Nat) {stages : List Text} {world : World}
    (hp : ∀ stage ∈ stages, Command.targetPaths world.home directory stage ⊆ paths) :
  world.Evolves (.line paths) (wire directory number stages world).2
  := by
  induction stages generalizing number world with
  | nil => exact .refl
  | cons stage rest ih =>
    obtain ⟨hp, hr⟩ := List.forall_mem_cons.mp hp
    have he := Command.evolves_ofStage (inputOf number) (outputOf number rest.isEmpty) hp
    apply he.trans (ih _ _)
    rw [he.confined.home_eq]
    exact hr

/-- When a pipeline is made no files are opened but the targets of its stages. -/
theorem evolves_build {directory : Text} {stages : List Text} {world after : World}
    {pipeline : Pipeline} (h : build directory stages world = .ok (pipeline, after))
    (hp : ∀ stage ∈ stages, Command.targetPaths world.home directory stage ⊆ paths) :
  (world.openPipes (stages.length - 1)).Evolves (.line paths) after
  := by
  obtain ⟨-, hw⟩ := build_eq_ok_iff.mp h
  have he : (world.openPipes (stages.length - 1)).Evolves (.line paths)
      (wire directory 0 stages _).2 := evolves_wire 0 hp
  rw [hw] at he
  exact he

end Pipeline

end

/-! ### Builtins -/

section

variable {scope : World.Scope}

namespace Builtin

theorem Transfer.evolves_perform {transfer : Transfer} {path : Text} {shell after : Shell}
    (h : transfer.perform path shell = .ok after) (hp : transfer ≠ .load → path ∈ scope.paths) :
  shell.world.Evolves scope after.world
  := by
  rcases perform_cases h with ⟨-, history, rfl⟩ | ⟨hl, _, _, _, bytes, ho, rfl⟩
  · exact .refl
  · exact .single (.save bytes (hp hl) ho)

theorem evolves_respond {builtin : Builtin} {args : List Text} {shell : Shell}
    (hp : shell.savedPaths ⟨builtin.name, args⟩ ⊆ scope.paths) :
  shell.world.Evolves scope (builtin.respond args shell).shell.world
  := by
  rcases builtin.shell_respond args shell with h | ⟨-, target, -, -, h⟩ | ⟨transfer, file, hc, h⟩
  · rw [h]
  · rw [h]
    exact .refl
  · apply Transfer.evolves_perform h
    exact fun hl => hp ⟨transfer, file, hc, hl, rfl⟩

theorem evolves_run {builtin : Builtin} {command : Command} {shell : Shell}
    (hn : command.name = builtin.name) (hs : ∀ outlet, command.stream outlet ∈ scope.streams)
    (hp : shell.savedPaths command.call ⊆ scope.paths) :
  shell.world.Evolves scope (builtin.run command shell).shell.world
  := by
  rw [Command.call, hn] at hp
  rw [run]
  split
  · rename_i world h
    apply (evolves_respond hp).trans (World.evolves_of_speak hs h)
  · rename_i world error h
    apply (evolves_respond hp).trans (World.evolves_of_speak hs h)

end Builtin

/-! ### Programs -/

namespace Program

variable {stream : Outlet → Stream}

theorem evolves_copyAll (hs : ∀ outlet, stream outlet ∈ scope.streams) (directory : Location)
    (routes : List Bytes) (world : World) :
  world.Evolves scope (copyAll stream directory routes world)
  := by
  induction routes generalizing world with
  | nil => exact .refl
  | cons route rest ih =>
    rw [copyAll]
    split
    · rename_i written h
      apply (World.evolves_of_speak hs h).trans (ih written)
    · rename_i stopped error h
      apply World.evolves_of_speak hs h

/-- A program writes to its own streams only. -/
theorem evolves_run (program : Program) (start : Start) (input : Stream)
    (hs : ∀ outlet, stream outlet ∈ scope.streams) (world : World) :
  world.Evolves scope (program.run start input stream world)
  := by
  cases program with
  | copy =>
    rw [run]
    split
    · exact .head (.drain input) (World.evolves_of_speak hs rfl)
    · apply evolves_copyAll hs
  | capitalize => exact .head (.drain input) (World.evolves_of_speak hs rfl)
  | describe => apply World.evolves_of_speak hs rfl
  | speakTwice => apply World.evolves_of_speak hs rfl
  | complain => apply World.evolves_of_speak hs rfl
  | idle => exact .refl

end Program

/-! ### Stages -/

/-- Whether what a command does in a shell is within a scope. -/
structure Command.IsWithin (command : Command) (shell : Shell) (scope : World.Scope) : Prop where
  input_mem : command.input ∈ scope.streams
  stream_mem : ∀ outlet, command.stream outlet ∈ scope.streams
  savedPaths_subset : shell.savedPaths command.call ⊆ scope.paths

namespace Shell

theorem evolves_launch (shell : Shell) {command : Command}
    (hs : ∀ outlet, command.stream outlet ∈ scope.streams) (name path : Text) :
  shell.world.Evolves scope (shell.launch command name path).world
  := by
  rw [launch]
  split
  · exact .refl
  · dsimp only
    split
    · split
      · exact .refl
      · apply Program.evolves_run _ _ _ hs
    · exact .refl

theorem evolves_runProgram (shell : Shell) {command : Command}
    (hs : ∀ outlet, command.stream outlet ∈ scope.streams) :
  shell.world.Evolves scope (shell.runProgram command).world
  := by
  rw [runProgram]
  split
  · apply evolves_launch shell hs
  · apply World.evolves_tryWrite _ _ (hs .error)

/-- A command writes to its own streams, and to the files that it saves the history to. -/
theorem evolves_runCommand {shell : Shell} {command : Command}
    (hs : ∀ outlet, command.stream outlet ∈ scope.streams)
    (hp : shell.savedPaths command.call ⊆ scope.paths) :
  shell.world.Evolves scope (shell.runCommand command).1.world
  := by
  rw [runCommand]
  split
  · rename_i builtin h
    apply Builtin.evolves_run (Builtin.ofName?_eq_some_iff.mp h) hs hp
  · apply evolves_runProgram shell hs

theorem evolves_runStage {shell : Shell} {stage : Option Command}
    (h : ∀ command ∈ stage, command.IsWithin shell scope) :
  shell.world.Evolves scope (shell.runStage stage).1.world
  := by
  cases stage with
  | none => exact .refl
  | some command =>
    have hc := h command rfl
    apply (evolves_runCommand hc.stream_mem hc.savedPaths_subset).trans
    apply (World.evolves_close _ hc.input_mem).trans
    apply (World.evolves_close _ (hc.stream_mem .output)).trans
    apply World.evolves_close _ (hc.stream_mem .error)

/-- What stages do that run one after another is within a scope if that of each is, in the shell in
which it runs. -/
theorem evolves_runStages (shell : Shell) (flow : Flow) {pipeline : Pipeline}
    (h : ∀ (index : Nat) (command : Command), pipeline[index]? = some (some command) →
      command.IsWithin (shell.runStages flow (pipeline.take index)).1 scope) :
  shell.world.Evolves scope (shell.runStages flow pipeline).1.world
  := by
  induction pipeline generalizing shell flow with
  | nil => exact .refl
  | cons stage rest ih =>
    have hs : ∀ command ∈ stage, command.IsWithin shell scope := by
      rintro command rfl
      apply h 0 command rfl
    apply (evolves_runStage hs).trans
    apply ih
    intro index command hc
    apply h (index + 1) command hc

end Shell

end

/-! ### Lines -/

namespace Shell

/-- The paths that a line names: those of the targets of its stages, against the directory that the
shell has before, and those of the files that its stages have the history saved to. -/
def namedPaths (shell : Shell) (line : Text) : Set Text :=
  {path | (∃ stage ∈ stages line,
      path ∈ Command.targetPaths shell.world.home shell.session.directory stage)
    ∨ ∃ index stage call, (stages line)[index]? = some stage ∧ Call.ofStage? stage = some call
      ∧ path ∈ (shell.midway line index).savedPaths call}

/-- Whatever a line does, it opens and writes no files but those at the paths that it names. -/
theorem evolves_runLine {shell after : Shell} {line : Text} {exits : Bool} {paths : Set Text}
    (h : shell.runLine line = .ok (after, exits)) (hp : shell.namedPaths line ⊆ paths) :
  (shell.world.openPipes ((stages line).length - 1)).Evolves (.line paths) after.world
  := by
  obtain ⟨pipeline, built, hb, h⟩ := runLine_eq_ok_iff.mp h
  obtain ⟨rfl, -⟩ := Prod.mk.inj h
  apply (Pipeline.evolves_build hb _).trans
  · apply evolves_runStages (shell.withWorld built)
    intro index command hc
    refine ⟨Set.mem_univ _, fun _ => Set.mem_univ _, ?_⟩
    intro path hs
    apply hp
    have hm : (pipeline.map (Option.map Command.call))[index]? = some (some command.call) := by
      rw [List.getElem?_map, hc]
      rfl
    rw [Pipeline.calls_build hb, List.getElem?_map] at hm
    obtain ⟨stage, hst, hca⟩ := Option.map_eq_some_iff.mp hm
    refine .inr ⟨index, stage, command.call, hst, hca, ?_⟩
    rw [midway, hb]
    exact hs
  · intro stage hs path hm
    apply hp (.inl ⟨stage, hs, hm⟩)

theorem evolves_obey (looks : Looks) (shell : Shell) (line : Text) :
  shell.world.Evolves (.line Set.univ) (shell.obey looks line).1.world
  := by
  rw [obey]
  split
  · exact .refl
  · split
    · rename_i result h
      have he : shell.world.Evolves (.line Set.univ)
          (shell.world.openPipes ((stages line).length - 1)) := .single (.openPipes trivial _)
      obtain ⟨after, exits⟩ := result
      have hl := evolves_runLine h (Set.subset_univ _)
      apply he.trans hl
    · apply World.evolves_tryWrite _ _ (Set.mem_univ _)

/-- Whatever lines a shell reads, its world evolves. -/
theorem evolves_interact (looks : Looks) (readings : List Reading) (shell : Shell) :
  shell.world.Evolves (.line Set.univ) (interact looks readings shell).shell.world
  := by
  induction readings generalizing shell with
  | nil => apply World.evolves_tryWrite _ _ (Set.mem_univ _)
  | cons reading rest ih =>
    have hi : shell.world.Evolves (.line Set.univ) (shell.invite looks).world :=
      World.evolves_tryWrite _ _ (Set.mem_univ _)
    cases reading with
    | unreadable => apply hi.trans (World.evolves_tryWrite _ _ (Set.mem_univ _))
    | broken => apply hi
    | line line =>
      have ho := hi.trans (evolves_obey looks (shell.invite looks) line)
      rw [interact]
      split
      · rename_i after h
        rw [h] at ho
        apply ho
      · rename_i after h
        rw [h] at ho
        apply ho.trans (ih after)

end Shell

end CommandShell
