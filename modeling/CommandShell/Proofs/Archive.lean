import CommandShell.Proofs.Edit
import CommandShell.Text.Blank

/-!
# Histories and their files

An archive is a history list with the files that it meets.  Lines are entered into it and files are
loaded, all of it is saved to a file, or what is new is appended to one (`Archive.Operation`); an
operation that fails leaves it as it was.  A file that is written by nothing else, and that does not
exist at first, has at every moment the entries that count as appended (`Archive.isKept_foldl`).

Every entry is taken by the first writing after it has joined the list, be that an append or not
(`Archive.isChained_writings`).  So the appends take each entry once, and the entries that there are
at the last of them, exactly where no other writing before it takes anything
(`Archive.appended_once_iff`).
-/

namespace CommandShell

namespace History

variable {history after : History} {tree changed : FileTree} {base : Location} {path : Text}

/-- To save is to open a file, which is emptied, and to add all entries to it. -/
theorem save_eq_ok_iff :
  history.save tree base path = .ok (after, changed)
    ↔ ∃ opened location,
      tree.openForWriting base (Path.route path) .truncate newFileMode = .ok (opened, location)
        ∧ after = { history with appended := history.entries.length }
        ∧ changed = opened.extend location (History.written history.entries)
  := by
  rw [save, bind_eq_ok_iff]
  constructor
  · rintro ⟨⟨opened, location⟩, ho, h⟩
    obtain ⟨rfl, rfl⟩ := Prod.mk.inj (Except.ok.inj h)
    exact ⟨opened, location, ho, rfl, rfl⟩
  · rintro ⟨opened, location, ho, rfl, rfl⟩
    exact ⟨⟨opened, location⟩, ho, rfl⟩

/-- To append is to open a file, and to add the entries to it that have not been appended. -/
theorem appendNew_eq_ok_iff :
  history.appendNew tree base path = .ok (after, changed)
    ↔ ∃ opened location,
      tree.openForWriting base (Path.route path) .append newFileMode = .ok (opened, location)
        ∧ after = { history with appended := history.entries.length }
        ∧ changed = opened.extend location
          (History.written (history.entries.drop history.appended))
  := by
  rw [appendNew, bind_eq_ok_iff]
  constructor
  · rintro ⟨⟨opened, location⟩, ho, h⟩
    obtain ⟨rfl, rfl⟩ := Prod.mk.inj (Except.ok.inj h)
    exact ⟨opened, location, ho, rfl, rfl⟩
  · rintro ⟨opened, location, ho, rfl, rfl⟩
    exact ⟨⟨opened, location⟩, ho, rfl⟩

end History

/-- A history list, and the files that it meets. -/
structure Archive where
  history : History := {}
  tree : FileTree

namespace Archive

/-- What is done with a history list. -/
inductive Operation where
  /-- To enter a line. -/
  | push (line : Text)
  /-- To load the file that a path leads to. -/
  | load (path : Text)
  /-- To write all entries to the file that a path names. -/
  | save (path : Text)
  /-- To write the new entries to the end of the file that a path names. -/
  | append (path : Text)
  deriving DecidableEq, Repr

/-- The path of the file that an operation writes. -/
def Operation.target? : Operation → Option Text
  | .push _ | .load _ => none
  | .save path | .append path => some path

/-- The archive after an operation, unless that fails. -/
def perform (base : Location) (archive : Archive) : Operation → Except SystemError Archive
  | .push line => .ok { archive with history := archive.history.push line }
  | .load path => do
    let (history, _) ← archive.history.load archive.tree base path
    .ok { archive with history }
  | .save path => do
    let (history, tree) ← archive.history.save archive.tree base path
    .ok { history, tree }
  | .append path => do
    let (history, tree) ← archive.history.appendNew archive.tree base path
    .ok { history, tree }

/-- The archive after an operation; one that fails leaves it as it was. -/
def attempt (base : Location) (archive : Archive) (operation : Operation) : Archive :=
  (archive.perform base operation).toOption.getD archive

/-- The entries that have joined the list since it was last written. -/
def untaken (archive : Archive) : List Text :=
  archive.history.entries.drop archive.history.appended

/-! ### Single operations -/

theorem written_append (first second : List Text) :
  History.written (first ++ second) = History.written first ++ History.written second
  := by
  simp [History.written]

theorem entries_push (history : History) (line : Text) :
  (history.push line).entries = history.entries ++ [line].filter (fun line => !line.isBlank)
  := by
  rw [History.push]
  cases h : line.isBlank <;> simp [h]

theorem appended_push (history : History) (line : Text) :
  (history.push line).appended = history.appended
  := by
  rw [History.push]
  split <;> rfl

/-- What an operation that succeeds makes of an archive: it adds entries, or it writes entries to a
file that it opens. -/
inductive Performed (base : Location) (archive : Archive) : Operation → Archive → Prop where
  | add {operation : Operation} {history : History} {more : List Text}
      (ho : operation.target? = none)
      (he : history.entries = archive.history.entries ++ more)
      (ha : history.appended = archive.history.appended) :
      Performed base archive operation { archive with history }
  | save {path : Text} {opened : FileTree} {location : Location}
      (h : archive.tree.openForWriting base (Path.route path) .truncate newFileMode
        = .ok (opened, location)) :
      Performed base archive (.save path)
        { history := { archive.history with appended := archive.history.entries.length }
          tree := opened.extend location (History.written archive.history.entries) }
  | append {path : Text} {opened : FileTree} {location : Location}
      (h : archive.tree.openForWriting base (Path.route path) .append newFileMode
        = .ok (opened, location)) :
      Performed base archive (.append path)
        { history := { archive.history with appended := archive.history.entries.length }
          tree := opened.extend location (History.written archive.untaken) }

theorem performed_of_perform {base : Location} {archive after : Archive} {operation : Operation}
    (h : archive.perform base operation = .ok after) :
  Performed base archive operation after
  := by
  cases operation with
  | push line =>
    obtain rfl := Except.ok.inj h
    apply Performed.add rfl (entries_push _ _) (appended_push _ _)
  | load path =>
    obtain ⟨⟨history, count⟩, hl, h⟩ := bind_eq_ok_iff.mp h
    obtain rfl := Except.ok.inj h
    obtain ⟨content, -, hl⟩ := bind_eq_ok_iff.mp hl
    obtain ⟨lines, -, hl⟩ := bind_eq_ok_iff.mp hl
    obtain ⟨rfl, -⟩ := Prod.mk.inj (Except.ok.inj hl)
    exact .add rfl rfl rfl
  | save path =>
    obtain ⟨⟨history, tree⟩, hs, h⟩ := bind_eq_ok_iff.mp h
    obtain rfl := Except.ok.inj h
    obtain ⟨opened, location, ho, rfl, rfl⟩ := History.save_eq_ok_iff.mp hs
    apply Performed.save ho
  | append path =>
    obtain ⟨⟨history, tree⟩, hs, h⟩ := bind_eq_ok_iff.mp h
    obtain rfl := Except.ok.inj h
    obtain ⟨opened, location, ho, rfl, rfl⟩ := History.appendNew_eq_ok_iff.mp hs
    apply Performed.append ho

/-- An attempt performs its operation or changes nothing. -/
theorem attempt_cases (base : Location) (archive : Archive) (operation : Operation) :
  archive.attempt base operation = archive
    ∨ Performed base archive operation (archive.attempt base operation)
  := by
  rw [attempt]
  cases h : archive.perform base operation with
  | error error => exact .inl rfl
  | ok after => exact .inr (performed_of_perform h)

section

variable {base : Location} {archive after : Archive} {operation : Operation}

/-- The entries that there are stay where they are. -/
theorem Performed.entries_prefix (h : Performed base archive operation after) :
  archive.history.entries <+: after.history.entries
  := by
  cases h with
  | add _ he => exact ⟨_, he.symm⟩
  | save => apply List.prefix_refl
  | append => apply List.prefix_refl

theorem Performed.appended_le (h : Performed base archive operation after)
    (ha : archive.history.appended ≤ archive.history.entries.length) :
  after.history.appended ≤ after.history.entries.length
  := by
  cases h with
  | add _ he hn =>
    simp only [he, hn, List.length_append]
    omega
  | save => apply Nat.le_refl
  | append => apply Nat.le_refl

/-- An operation that writes no file changes none, and no more entries count as appended. -/
theorem Performed.eq_of_target?_eq_none (h : Performed base archive operation after)
    (ho : operation.target? = none) :
  after.tree = archive.tree ∧ after.history.appended = archive.history.appended
  := by
  cases h with
  | add _ _ ha => exact ⟨rfl, ha⟩
  | save => contradiction
  | append => contradiction

/-- An operation that writes a file leaves the entries as they are. -/
theorem Performed.entries_eq (h : Performed base archive operation after) {target : Text}
    (ho : operation.target? = some target) :
  after.history.entries = archive.history.entries
  := by
  cases h with
  | add hn =>
    rw [hn] at ho
    contradiction
  | save => rfl
  | append => rfl

/-- After an operation that writes a file all entries count as appended. -/
theorem Performed.appended_eq_length (h : Performed base archive operation after) {target : Text}
    (ho : operation.target? = some target) :
  after.history.appended = after.history.entries.length
  := by
  cases h with
  | add hn =>
    rw [hn] at ho
    contradiction
  | save => rfl
  | append => rfl

end

/-! ### The file that a history is kept in -/

/-- Whether the file that a path leads to has the entries that count as appended, one on a line, or
does not exist when none do. -/
structure IsKept (base : Location) (path : Text) (archive : Archive) : Prop where
  appended_le : archive.history.appended ≤ archive.history.entries.length
  lookup : (archive.tree.lookup base (Path.route path) = none ∧ archive.history.appended = 0)
    ∨ ∃ mode, archive.tree.lookup base (Path.route path)
      = some (.file mode
        (History.written (archive.history.entries.take archive.history.appended)))

namespace IsKept

variable {base : Location} {path : Text} {archive after : Archive}

/-- The bytes of the file that is opened by the path. -/
theorem content_eq (h : archive.IsKept base path) {location : Location}
    (ho : archive.tree.Openable base (Path.route path) location) :
  archive.tree.content location
    = History.written (archive.history.entries.take archive.history.appended)
  := by
  rcases h.lookup with ⟨hn, ha⟩ | ⟨mode, hf⟩
  · have hi := ho.item?_eq_none hn
    rw [FileTree.item?, Option.map_eq_none_iff] at hi
    rw [FileTree.content, hi, ha]
    rfl
  · obtain ⟨found, hl, hn⟩ := FileTree.lookup_eq_some_iff.mp hf
    rw [← ho.eq_of_locate hl, FileTree.content, hn]

/-- The file that is opened by the path and written has what opening leaves of it and then what is
written. -/
theorem lookup_extend (h : archive.IsKept base path) {disposition : Disposition}
    {opened : FileTree} {location : Location}
    (ho : archive.tree.openForWriting base (Path.route path) disposition newFileMode
      = .ok (opened, location)) (bytes : Bytes) :
  ∃ mode, (opened.extend location bytes).lookup base (Path.route path)
    = some (.file mode (disposition.kept
        (History.written (archive.history.entries.take archive.history.appended)) ++ bytes))
  := by
  rw [← h.content_eq ((FileTree.openable_iff disposition).mpr ⟨opened, ho⟩)]
  apply FileTree.lookup_extend ho

/-- After an operation that writes it the file has all entries, one on a line. -/
theorem lookup_written (h : archive.IsKept base path) {operation : Operation}
    (hp : Performed base archive operation after) (ho : operation.target? = some path) :
  ∃ mode, after.tree.lookup base (Path.route path)
    = some (.file mode (History.written after.history.entries))
  := by
  cases hp with
  | add hn =>
    rw [hn] at ho
    contradiction
  | save hs =>
    obtain rfl := Option.some_inj.mp ho
    apply h.lookup_extend hs
  | append hs =>
    obtain rfl := Option.some_inj.mp ho
    have he : History.written archive.history.entries
        = History.written (archive.history.entries.take archive.history.appended)
          ++ History.written archive.untaken := by
      rw [← written_append, untaken, List.take_append_drop]
    dsimp only
    rw [he]
    apply h.lookup_extend hs

/-- After an operation that writes to no other file, the file has the entries that count as
appended. -/
theorem perform (h : archive.IsKept base path) {operation : Operation}
    (hp : Performed base archive operation after)
    (ht : ∀ target ∈ operation.target?, target = path) :
  after.IsKept base path
  := by
  refine ⟨hp.appended_le h.appended_le, ?_⟩
  cases ho : operation.target? with
  | none =>
    obtain ⟨ht, ha⟩ := hp.eq_of_target?_eq_none ho
    obtain ⟨more, he⟩ := hp.entries_prefix
    rw [ht, ha, ← he, List.take_append_of_le_length h.appended_le]
    apply h.lookup
  | some target =>
    obtain rfl := ht target ho
    right
    rw [hp.appended_eq_length ho, List.take_length]
    apply h.lookup_written hp ho

theorem attempt (h : archive.IsKept base path) {operation : Operation}
    (ht : ∀ target ∈ operation.target?, target = path) :
  (archive.attempt base operation).IsKept base path
  := by
  rcases attempt_cases base archive operation with he | hp
  · rw [he]
    exact h
  · apply h.perform hp ht

theorem foldl_attempt (h : archive.IsKept base path) {operations : List Operation}
    (ht : ∀ operation ∈ operations, ∀ target ∈ operation.target?, target = path) :
  (operations.foldl (Archive.attempt base) archive).IsKept base path
  := by
  induction operations generalizing archive with
  | nil => exact h
  | cons operation rest ih =>
    obtain ⟨ho, hr⟩ := List.forall_mem_cons.mp ht
    apply ih (h.attempt ho) hr

end IsKept

/-- A fresh history is kept in a file that does not exist. -/
theorem isKept_fresh {base : Location} {path : Text} {tree : FileTree}
    (h : tree.lookup base (Path.route path) = none) :
  IsKept base path { tree }
  := ⟨Nat.le_refl 0, .inl ⟨h, rfl⟩⟩

/-- Whatever is done with a fresh history, successful or not, a file that does not exist at first and
that is written by nothing else has at every moment the entries that count as appended, one on a
line, or does not exist while none do.  No more count than there are, and entries stay where they
are.  All of them count right after the file has been written. -/
theorem isKept_foldl {base : Location} {path : Text} {tree : FileTree}
    (h : tree.lookup base (Path.route path) = none) (operations : List Operation)
    (operation : Operation)
    (ht : ∀ other ∈ operations ++ [operation], ∀ target ∈ other.target?, target = path) :
  let before := operations.foldl (attempt base) { tree }
  let after := before.attempt base operation
  after.history.appended ≤ after.history.entries.length
    ∧ before.history.entries <+: after.history.entries
    ∧ ((after.tree.lookup base (Path.route path) = none ∧ after.history.appended = 0)
      ∨ ∃ mode, after.tree.lookup base (Path.route path)
        = some (.file mode (History.written (after.history.entries.take after.history.appended))))
    ∧ (operation.target? = some path → (before.perform base operation).isOk = true →
      ∃ mode, after.tree.lookup base (Path.route path)
        = some (.file mode (History.written after.history.entries)))
  := by
  obtain ⟨hs, ho⟩ := List.forall_mem_append.mp ht
  have hb := (isKept_fresh h).foldl_attempt hs
  dsimp only
  generalize operations.foldl (attempt base) { tree } = before at hb
  have ha := hb.attempt (ho operation (List.mem_singleton_self _))
  refine ⟨ha.appended_le, ?_, ha.lookup, ?_⟩
  · rcases attempt_cases base before operation with he | hp
    · exact he.symm ▸ List.prefix_rfl
    · apply hp.entries_prefix
  · intro hw hk
    apply hb.lookup_written _ hw
    rw [attempt]
    cases hp : before.perform base operation with
    | error error =>
      rw [hp] at hk
      contradiction
    | ok after => apply performed_of_perform hp

/-- A history that loads the file that it is kept in has its entries twice, and so has the file when
it is written again; a save to a path that leads nowhere changes nothing. -/
theorem isKept_foldl_reloaded :
  let operations : List Operation := [.push ['a'], .append ['f'], .load ['f'], .push [' ']]
  let after := (operations.foldl (attempt []) { tree := {} }).attempt [] (.save ['f'])
  after.history.appended = 2
    ∧ ∃ mode, after.tree.lookup [] (Path.route ['f'])
      = some (.file mode (Text.encode "a\na\n".toList))
  := by
  have hk := @isKept_foldl [] ['f'] {} rfl
    [.push ['a'], .append ['f'], .load ['f'], .push [' ']] (.save ['f']) (by decide)
  refine ⟨by decide, ?_⟩
  apply hk.2.2.2 rfl
  decide

/-! ### What each writing takes -/

/-- A writing of entries to a file. -/
structure Writing where
  /-- Whether it appends. -/
  appends : Bool
  /-- The entries that there are. -/
  entries : List Text
  /-- Those of them that no writing before it has taken. -/
  taken : List Text
  deriving DecidableEq, Repr

/-- The writing that an operation is if it succeeds. -/
def writing? (archive : Archive) : Operation → Option Writing
  | .push _ | .load _ => none
  | .save _ => some ⟨false, archive.history.entries, archive.untaken⟩
  | .append _ => some ⟨true, archive.history.entries, archive.untaken⟩

/-- The writings of the operations that succeed, one after another. -/
def writings (base : Location) : Archive → List Operation → List Writing
  | _, [] => []
  | archive, operation :: rest =>
    match archive.perform base operation with
    | .ok after => (archive.writing? operation).toList ++ writings base after rest
    | .error _ => writings base archive rest

/-- Whether writings take, after some entries, exactly those that have joined since the writing
before. -/
inductive IsChained : List Text → List Writing → Prop where
  | nil (earlier : List Text) : IsChained earlier []
  | cons {earlier taken : List Text} {rest : List Writing} (appends : Bool)
      (h : IsChained (earlier ++ taken) rest) :
      IsChained earlier (⟨appends, earlier ++ taken, taken⟩ :: rest)

/-- A writing takes the entries that have joined since the writing before it. -/
theorem isChained_cons {archive : Archive} {rest : List Writing}
    (hr : IsChained archive.history.entries rest) {written : List Writing}
    (hw : ∃ appends, written = [⟨appends, archive.history.entries, archive.untaken⟩]) :
  IsChained (archive.history.entries.take archive.history.appended) (written ++ rest)
  := by
  obtain ⟨appends, rfl⟩ := hw
  have hs : archive.history.entries.take archive.history.appended ++ archive.untaken
      = archive.history.entries := List.take_append_drop _ _
  rw [← hs] at hr
  have hc := IsChained.cons appends hr
  rwa [hs] at hc

/-- What an operation that succeeds takes are the entries that have joined since the writing before
it. -/
theorem Performed.isChained {base : Location} {archive after : Archive} {operation : Operation}
    (h : Performed base archive operation after)
    (ha : archive.history.appended ≤ archive.history.entries.length) {rest : List Writing}
    (hr : IsChained (after.history.entries.take after.history.appended) rest) :
  IsChained (archive.history.entries.take archive.history.appended)
    ((archive.writing? operation).toList ++ rest)
  := by
  cases ho : operation.target? with
  | none =>
    obtain ⟨-, hn⟩ := h.eq_of_target?_eq_none ho
    obtain ⟨more, he⟩ := h.entries_prefix
    rw [hn, ← he, List.take_append_of_le_length ha] at hr
    cases operation with
    | push | load => exact hr
    | save | append => contradiction
  | some target =>
    rw [h.appended_eq_length ho, List.take_length, h.entries_eq ho] at hr
    apply isChained_cons hr
    cases operation with
    | push | load => contradiction
    | save | append => exact ⟨_, rfl⟩

/-- Every entry is taken by the first writing after it has joined the list. -/
theorem isChained_writings (base : Location) {archive : Archive}
    (ha : archive.history.appended ≤ archive.history.entries.length)
    (operations : List Operation) :
  IsChained (archive.history.entries.take archive.history.appended)
    (writings base archive operations)
  := by
  induction operations generalizing archive with
  | nil => apply IsChained.nil
  | cons operation rest ih =>
    rw [writings]
    cases hp : archive.perform base operation with
    | error error => apply ih ha
    | ok after =>
      have hp := performed_of_perform hp
      apply hp.isChained ha (ih (hp.appended_le ha))

namespace IsChained

variable {earlier later : List Text} {writings : List Writing}

/-- What all writings take are the entries that there are at the last of them. -/
theorem append_flatMap_taken (h : IsChained earlier writings) {last : Writing}
    (hl : writings.getLast? = some last) :
  earlier ++ writings.flatMap Writing.taken = last.entries
  := by
  induction h with
  | nil => contradiction
  | @cons earlier taken rest appends h ih =>
    rw [List.flatMap_cons, ← List.append_assoc]
    cases rest with
    | nil =>
      obtain rfl := Option.some_inj.mp hl
      simp
    | cons next others =>
      apply ih
      rwa [List.getLast?_cons_cons] at hl

/-- Where appends take all that has joined, nothing has been taken before them. -/
theorem eq_of_filter (h : IsChained later writings)
    (hf : IsChained earlier (writings.filter Writing.appends))
    (ha : writings.any Writing.appends = true) (hp : earlier <+: later) :
  later = earlier
  := by
  induction h generalizing earlier with
  | nil => contradiction
  | @cons later taken rest appends h ih =>
    cases appends with
    | true =>
      rw [List.filter_cons_of_pos rfl] at hf
      generalize hw : (⟨true, later ++ taken, taken⟩ : Writing) = writing at hf
      cases hf with
      | cons appends _ =>
        obtain ⟨-, he, rfl⟩ := Writing.mk.inj hw
        apply List.append_cancel_right he
    | false =>
      have he := ih hf ha (hp.trans (List.prefix_append _ _))
      obtain ⟨more, rfl⟩ := hp
      rw [List.append_assoc, List.append_right_eq_self, List.append_eq_nil_iff] at he
      rw [he.1, List.append_nil]

end IsChained

/-- What holds at every element of a list, with those after it, holds at the first and further
on. -/
theorem forall_eq_append_cons_iff {α : Type} {p : α → List α → Prop} {x : α} {l : List α} :
  (∀ before y after, x :: l = before ++ y :: after → p y after) ↔
    p x l ∧ ∀ before y after, l = before ++ y :: after → p y after
  := by
  constructor
  · intro h
    refine ⟨h [] x l rfl, ?_⟩
    intro before y after hl
    apply h (x :: before) y after
    rw [hl, List.cons_append]
  · rintro ⟨hx, hl⟩ before y after he
    cases before with
    | nil =>
      obtain ⟨rfl, rfl⟩ := List.cons.inj he
      exact hx
    | cons first before => apply hl before y after (List.cons.inj he).2

/-- Appends take all that has joined exactly where no other writing before one of them takes
anything. -/
theorem IsChained.filter_iff {earlier : List Text} {writings : List Writing}
    (h : IsChained earlier writings) :
  IsChained earlier (writings.filter Writing.appends) ↔
    ∀ before save after, writings = before ++ save :: after →
      save.appends = false → after.any Writing.appends = true → save.taken = []
  := by
  induction h with
  | nil earlier =>
    constructor
    · intro _ before save after h
      rw [List.nil_eq_append_iff] at h
      cases h.2
    · intro _
      apply IsChained.nil
  | @cons earlier taken rest appends h ih =>
    rw [forall_eq_append_cons_iff, ← ih]
    cases appends with
    | true =>
      rw [List.filter_cons_of_pos rfl]
      constructor
      · intro hf
        generalize hw : (⟨true, earlier ++ taken, taken⟩ : Writing) = writing at hf
        cases hf with
        | cons appends hf =>
          obtain ⟨rfl, -, rfl⟩ := Writing.mk.inj hw
          refine ⟨?_, hf⟩
          intro hn
          contradiction
      · rintro ⟨-, hf⟩
        apply IsChained.cons true hf
    | false =>
      rw [List.filter_cons_of_neg (by simp)]
      cases ha : rest.any Writing.appends with
      | false =>
        -- There is no append left to miss what the save takes.
        have hn : rest.filter Writing.appends = [] := by simpa using ha
        rw [hn]
        exact ⟨fun _ => ⟨by simp, .nil _⟩, fun _ => .nil _⟩
      | true =>
        constructor
        · intro hf
          -- The next append takes all that has joined, so the save takes nothing.
          have he := h.eq_of_filter hf ha (List.prefix_append _ _)
          rw [he]
          refine ⟨?_, hf⟩
          intro _ _
          rwa [List.append_right_eq_self] at he
        · rintro ⟨ht, hf⟩
          have ht : taken = [] := ht rfl rfl
          rwa [ht, List.append_nil] at hf

/-- An append that succeeds writes what it takes, one on a line, to the end of its file. -/
theorem content_append {base : Location} {archive after : Archive} {path : Text}
    (h : archive.perform base (.append path) = .ok after) :
  ∃ location, after.tree.locate base (Path.route path) = .ok location
    ∧ after.tree.content location
      = archive.tree.content location ++ History.written archive.untaken
  := by
  cases performed_of_perform h with
  | add hn => contradiction
  | @append path opened location ho =>
    have hs := FileTree.opens_of_openForWriting ho
    obtain ⟨mode, hn⟩ := hs.node?
    use location
    refine ⟨?_, FileTree.content_extend hn _⟩
    apply (FileTree.edited_extend _ _ _).grows.locate hs.locate

/-- Every append that succeeds writes what it takes, one on a line, to the end of its file.  The
appends take each entry once, namely the first of them after it has joined the list, and together
the entries that there are at the last of them in order, exactly where no save before an append
finds entries that have joined since the writing before it. -/
theorem appended_once_iff (base : Location) (tree : FileTree) (operations : List Operation) :
  let writings := writings base { tree } operations
  let appends := writings.filter Writing.appends
  (∀ archive path after, perform base archive (.append path) = .ok after →
      ∃ writing location, archive.writing? (.append path) = some writing
        ∧ writing.entries = archive.history.entries
        ∧ after.tree.locate base (Path.route path) = .ok location
        ∧ after.tree.content location
          = archive.tree.content location ++ History.written writing.taken)
    ∧ ((IsChained [] appends
        ∧ ∀ last ∈ appends.getLast?, appends.flatMap Writing.taken = last.entries) ↔
      ∀ before save after, writings = before ++ save :: after →
        save.appends = false → after.any Writing.appends = true → save.taken = [])
  := by
  have hc := (@isChained_writings base { tree } (Nat.le_refl 0) operations).filter_iff
  constructor
  · intro archive path after h
    obtain ⟨location, hl, hw⟩ := content_append h
    exact ⟨_, location, rfl, rfl, hl, hw⟩
  constructor
  · rintro ⟨ha, -⟩
    apply hc.mp ha
  · intro hw
    have ha := hc.mpr hw
    exact ⟨ha, fun last hl => ha.append_flatMap_taken hl⟩

/-- An entry that a save has taken is not appended, though it was never appended before. -/
theorem not_appended_once :
  ¬ ∀ (base : Location) (tree : FileTree) (operations : List Operation),
    (operations.foldlM (perform base) { tree }).isOk = true →
      IsChained [] ((writings base { tree } operations).filter Writing.appends)
  := by
  intro h
  have h := h [] {} [.push ['a'], .save ['f'], .append ['g']] (by decide)
  have hw : (writings [] { tree := {} } [.push ['a'], .save ['f'], .append ['g']]).filter
      Writing.appends = [⟨true, [['a']], []⟩] := by decide
  rw [hw] at h
  generalize hw : (⟨true, [['a']], []⟩ : Writing) = writing at h
  cases h with
  | cons appends _ =>
    obtain ⟨-, he, rfl⟩ := Writing.mk.inj hw
    cases he

end Archive

end CommandShell
