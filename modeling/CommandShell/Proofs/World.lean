import CommandShell.World

/-!
# What writing and closing leave as it was

A write that succeeds extends an output of the shell, the file that the stream is, or the pipe that
it writes to (`World.Written`).  It opens nothing, and files and pipes other than that of the stream
stay as they were; so they do when a stream is closed.
-/

namespace CommandShell

/-- The pipes after the end that a stream is, if it is one, is closed. -/
def Stream.closeEnd (stream : Stream) (pipes : List Pipe) : List Pipe :=
  match stream with
  | .pipeReader number => pipes.modify number fun pipe => { pipe with readerOpen := false }
  | .pipeWriter number => pipes.modify number fun pipe => { pipe with writerOpen := false }
  | .stdin | .stdout | .stderr | .file _ => pipes

/-- The pipes after the end that a stream is, if it is one, is closed unless it is held. -/
def Stream.closeUnless (held : Bool) (stream : Stream) (pipes : List Pipe) : List Pipe :=
  if held then pipes else stream.closeEnd pipes

/-- What there is of a pipe after an end that a stream is is closed. -/
theorem Stream.getElem?_closeEnd (stream : Stream) (pipes : List Pipe) (number : Nat) :
  (stream.closeEnd pipes)[number]? = pipes[number]?.map fun pipe =>
    ⟨pipe.sink, pipe.readerOpen && stream ≠ .pipeReader number,
      pipe.writerOpen && stream ≠ .pipeWriter number⟩
  := by
  cases stream with
  | pipeReader other =>
    rw [closeEnd, List.getElem?_modify]
    by_cases h : other = number <;> cases pipes[number]? <;> simp [h]
  | pipeWriter other =>
    rw [closeEnd, List.getElem?_modify]
    by_cases h : other = number <;> cases pipes[number]? <;> simp [h]
  | _ => cases h : pipes[number]? <;> simp [closeEnd, h]

/-- An end of a pipe is open after a stream is closed unless the stream is that end and is not held.
-/
theorem Stream.getElem?_closeUnless (held : Bool) (stream : Stream) (pipes : List Pipe)
    (number : Nat) :
  (stream.closeUnless held pipes)[number]? = pipes[number]?.map fun pipe =>
    ⟨pipe.sink, pipe.readerOpen && (held || stream ≠ .pipeReader number),
      pipe.writerOpen && (held || stream ≠ .pipeWriter number)⟩
  := by
  rw [closeUnless]
  cases held with
  | true => cases h : pipes[number]? <;> simp [h]
  | false => simp [getElem?_closeEnd]

@[simp]
theorem Stream.length_closeUnless (held : Bool) (stream : Stream) (pipes : List Pipe) :
  (stream.closeUnless held pipes).length = pipes.length
  := by
  cases held <;> cases stream <;> simp [closeUnless, closeEnd]

theorem lookup_filter_ne {α : Type} {key other : Nat} (h : other ≠ key)
    (entries : List (Nat × α)) :
  (entries.filter (·.1 ≠ key)).lookup other = entries.lookup other
  := by
  induction entries with
  | nil => rfl
  | cons entry rest ih =>
    obtain ⟨here, there⟩ := entry
    by_cases hk : here = key
    · rw [List.filter_cons_of_neg (by simp [hk]), ih, List.lookup_cons,
        beq_eq_false_iff_ne.mpr (hk ▸ h)]
    · rw [List.filter_cons_of_pos (by simp [hk]), List.lookup_cons, List.lookup_cons, ih]

namespace World

/-- A world with a tree in which nothing has happened yet. -/
def still (tree : FileTree) (start : Location) : World where
  tree := tree
  start := start
  environment := []
  image := fun _ => []
  pipeRoom := 0
  opened := 0
  files := []
  pipes := []
  input := []
  output := {}
  errors := {}

/-- The name of the directory of a world that has a single one. -/
def folder : Name :=
  ⟨Text.encode ['d'], by decide⟩

/-- A world that starts in its only directory, in which nothing has happened yet. -/
def within (entries : List (Name × Node)) : World :=
  still ⟨[(folder, .directory entries)]⟩ [folder]

/-! ### Closing and opening -/

@[simp]
theorem pipes_close (world : World) (stream : Stream) :
  (world.close stream).pipes = stream.closeEnd world.pipes
  := by
  cases stream <;> rfl

@[simp]
theorem opened_close (world : World) (stream : Stream) :
  (world.close stream).opened = world.opened
  := by
  cases stream <;> rfl

@[simp]
theorem tree_close (world : World) (stream : Stream) :
  (world.close stream).tree = world.tree
  := by
  cases stream <;> rfl

/-- Closing a stream changes which files and pipes are open. -/
theorem exists_close_eq (world : World) (stream : Stream) :
  ∃ files pipes, world.close stream = { world with files, pipes }
  := by
  cases stream <;> exact ⟨_, _, rfl⟩

/-- Closing a stream closes no other file. -/
theorem lookup_files_close (world : World) {stream : Stream} {number : Nat}
    (h : stream ≠ .file number) :
  (world.close stream).files.lookup number = world.files.lookup number
  := by
  cases stream with
  | file other =>
    apply lookup_filter_ne
    rintro rfl
    contradiction
  | _ => rfl

/-- A file that is opened is found under the next number. -/
theorem lookup_files_withFile (world : World) (file : OpenFile) (number : Nat) :
  (world.withFile file).1.files.lookup number
    = if number = world.opened then some file else world.files.lookup number
  := by
  rw [withFile, List.lookup_cons]
  split
  · rename_i h
    rw [if_pos (eq_of_beq h)]
  · rename_i h
    rw [if_neg (beq_eq_false_iff_ne.mp h)]

/-! ### Writing -/

/-- The worlds that writing to a stream leads to. -/
inductive Written (world : World) (stream : Stream) (bytes : Bytes) : World → Prop where
  | output (h : stream = .stdout) :
      Written world stream bytes { world with output := world.output.write bytes }
  | errors (h : stream = .stderr) :
      Written world stream bytes { world with errors := world.errors.write bytes }
  | file {number : Nat} {file : OpenFile} (h : stream = .file number)
      (hl : world.files.lookup number = some file) (hw : file.writable = true) :
      Written world stream bytes (world.writeFile number file bytes)
  | pipe {number : Nat} {pipe : Pipe} (h : stream = .pipeWriter number)
      (hp : world.pipes[number]? = some pipe) :
      Written world stream bytes
        (world.setPipe number { pipe with sink := pipe.sink.write bytes })

/-- To write to a stream changes only what the stream leads to. -/
theorem written_of_write {world after : World} {stream : Stream} {bytes : Bytes}
    (h : world.write stream bytes = .ok after) :
  Written world stream bytes after
  := by
  cases stream with
  | stdout =>
    obtain rfl := Except.ok.inj h
    apply Written.output rfl
  | stderr =>
    obtain rfl := Except.ok.inj h
    apply Written.errors rfl
  | file number =>
    rw [write] at h
    split at h
    · rename_i file hl
      split at h
      · rename_i hw
        obtain rfl := Except.ok.inj h
        apply Written.file rfl hl hw
      · contradiction
    · contradiction
  | pipeWriter number =>
    rw [write] at h
    split at h
    · rename_i pipe hp
      split at h
      · obtain rfl := Except.ok.inj h
        apply Written.pipe rfl hp
      · contradiction
    · contradiction
  | stdin => contradiction
  | pipeReader number => contradiction

/-- To write all bytes is to write them, or nothing if there are none. -/
theorem eq_or_written_of_writeAll {world after : World} {stream : Stream} {bytes : Bytes}
    (h : world.writeAll stream bytes = .ok after) :
  after = world ∨ Written world stream bytes after
  := by
  rw [writeAll] at h
  split at h
  · left
    apply (Except.ok.inj h).symm
  · right
    apply written_of_write h

/-- Where a write is tried nothing happens, or it succeeds. -/
theorem tryWrite_eq_or_written (world : World) (stream : Stream) (bytes : Bytes) :
  world.tryWrite stream bytes = world ∨ Written world stream bytes (world.tryWrite stream bytes)
  := by
  rw [tryWrite]
  split
  · rename_i after h
    apply eq_or_written_of_writeAll h
  · left
    rfl

namespace Written

variable {world after : World} {stream : Stream} {bytes : Bytes}

theorem opened_eq (h : Written world stream bytes after) :
  after.opened = world.opened
  := by
  cases h <;> rfl

/-- What is written to no pipe leaves the pipes. -/
theorem pipes_eq (h : Written world stream bytes after)
    (hs : ∀ number, stream ≠ .pipeWriter number) :
  after.pipes = world.pipes
  := by
  cases h with
  | pipe h => apply absurd h (hs _)
  | _ => rfl

/-- What is not written to the output of the shell leaves it. -/
theorem output_eq (h : Written world stream bytes after) (hs : stream ≠ .stdout) :
  after.output = world.output
  := by
  cases h with
  | output h => contradiction
  | _ => rfl

/-- What is not written to a file leaves it open where it was. -/
theorem lookup_files (h : Written world stream bytes after) {number : Nat}
    (hs : stream ≠ .file number) :
  after.files.lookup number = world.files.lookup number
  := by
  cases h with
  | file h =>
    apply lookup_replace_of_ne
    rintro rfl
    apply hs h
  | _ => rfl

end Written

/-- Whether the file with a number is open for writing. -/
def Takes (world : World) (number : Nat) : Prop :=
  ∃ file, world.files.lookup number = some file ∧ file.writable = true

/-- A file that is open for writing stays so when a stream is written. -/
theorem Written.takes {world after : World} {stream : Stream} {bytes : Bytes}
    (h : Written world stream bytes after) {number : Nat} (ht : world.Takes number) :
  after.Takes number
  := by
  by_cases hs : stream = .file number
  · subst hs
    cases h with
    | output h => contradiction
    | errors h => contradiction
    | @file other file h _ hw =>
      obtain rfl := Stream.file.inj h
      exact ⟨_, lookup_replace_self _ _ _, hw⟩
    | pipe h => contradiction
  · obtain ⟨file, hl, hw⟩ := ht
    exact ⟨file, (h.lookup_files hs).trans hl, hw⟩

/-- A file that is open for writing takes any bytes. -/
theorem Takes.exists_write {world : World} {number : Nat} (h : world.Takes number)
    (bytes : Bytes) :
  ∃ written, world.write (.file number) bytes = .ok written
  := by
  obtain ⟨file, hl, hw⟩ := h
  rw [write, hl]
  exact ⟨_, if_pos hw⟩

/-- The world with other bytes received by its output. -/
def withOutput (world : World) (output : Sink) : World :=
  { world with output }

/-- To write to the output of the shell never fails. -/
theorem tryWrite_stdout (world : World) (bytes : Bytes) :
  world.tryWrite .stdout bytes = world.withOutput (world.output.write bytes)
  := by
  cases bytes <;> rfl

/-- To write to the error stream of the shell never fails. -/
theorem tryWrite_stderr_eq (world : World) (bytes : Bytes) :
  world.tryWrite .stderr bytes = { world with errors := world.errors.write bytes }
  := by
  cases bytes <;> rfl

variable (world : World) {stream : Stream} (bytes : Bytes)

/-- A file that is open for writing stays so whatever is written. -/
theorem takes_tryWrite (stream : Stream) {number : Nat} (h : world.Takes number) :
  (world.tryWrite stream bytes).Takes number
  := by
  rcases world.tryWrite_eq_or_written stream bytes with hw | hw
  · rw [hw]
    exact h
  · apply hw.takes h

theorem opened_tryWrite (stream : Stream) :
  (world.tryWrite stream bytes).opened = world.opened
  := by
  rcases world.tryWrite_eq_or_written stream bytes with h | h
  · rw [h]
  · apply h.opened_eq

theorem pipes_tryWrite (hs : ∀ number, stream ≠ .pipeWriter number) :
  (world.tryWrite stream bytes).pipes = world.pipes
  := by
  rcases world.tryWrite_eq_or_written stream bytes with h | h
  · rw [h]
  · apply h.pipes_eq hs

theorem lookup_files_tryWrite {number : Nat} (hs : stream ≠ .file number) :
  (world.tryWrite stream bytes).files.lookup number = world.files.lookup number
  := by
  rcases world.tryWrite_eq_or_written stream bytes with h | h
  · rw [h]
  · apply h.lookup_files hs

/-- A single message is written, or the failure to do so is told. -/
theorem speak_singleton (world : World) (stream : Outlet → Stream) (outlet : Outlet)
    {bytes : Bytes} (hne : bytes ≠ []) :
  world.speak stream [(outlet, bytes)]
    = match world.write (stream outlet) bytes with
      | .ok written => (written, none)
      | .error error => (world, some error)
  := by
  rw [speak, List.map_singleton, gather, gather, deliver, writeAll, if_neg hne]
  cases world.write (stream outlet) bytes <;> rfl

end World

end CommandShell
