import CommandShell.Proofs.Archive

/-!
# Histories that are loaded again

A file that a history is saved to has its entries, one on a line.  The lines of such a text are the
entries again, but for a carriage return at the end of one, which belongs to the end of its line
(`Text.lines_flatMap_line`).  So what any history loads from the file are these lines without the
empty ones (`History.load_save`).  No entry of a history is empty (`History.Arises.ne_nil`), and
hence one whose entries do not end with carriage returns is had back as it was saved.
-/

namespace CommandShell

/-! ### Lines that are written -/

namespace Text

/-- Lines that are cut at their line feeds are the texts that they were made of. -/
theorem splitOn_flatMap_line {texts : List Text} (h : ∀ text ∈ texts, '\n' ∉ text) :
  (texts.flatMap line).splitOn '\n' = texts ++ [[]]
  := by
  induction texts with
  | nil => rfl
  | cons text rest ih =>
    obtain ⟨ht, hr⟩ := List.forall_mem_cons.mp h
    have hs : text.splitOn '\n' = [text] := List.splitOn_eq_singleton ht
    rw [List.flatMap_cons, line, List.append_assoc, List.singleton_append,
      List.splitOn_append_cons_self, hs, ih hr]
    rfl

/-- The lines of texts that are written one on a line are these texts, each without a carriage
return at its end. -/
theorem lines_flatMap_line {texts : List Text} (h : ∀ text ∈ texts, '\n' ∉ text) :
  lines (texts.flatMap line) = texts.map (dropLastOf '\r')
  := by
  rw [lines, linesAt, splitOn_flatMap_line h, List.dropLast_concat, List.getLast?_concat]
  apply List.append_nil

theorem dropLastOf_eq_self {text : Text} {c : Char} (h : text.getLast? ≠ some c) :
  dropLastOf c text = text
  := if_neg h

end Text

namespace History

/-- What a file brings in that entries have been written to, one on a line: a carriage return at the
end of an entry is taken for a part of the end of its line, and an entry that is empty then is left
out. -/
def reread (entries : List Text) : List Text :=
  (entries.map (dropLastOf '\r')).filter fun line => !line.isEmpty

theorem linesOf_written {entries : List Text} (h : ∀ entry ∈ entries, '\n' ∉ entry) :
  linesOf (written entries) = .ok (reread entries)
  := by
  rw [linesOf, written, Text.decode?_encode]
  dsimp only
  rw [Text.lines_flatMap_line h]
  rfl

/-- Entries that are not empty and do not end with carriage returns are brought in as they are. -/
theorem reread_eq_self {entries : List Text} (hn : ∀ entry ∈ entries, entry ≠ [])
    (hr : ∀ entry ∈ entries, entry.getLast? ≠ some '\r') :
  reread entries = entries
  := by
  have hm : entries.map (dropLastOf '\r') = entries := by
    apply (List.map_congr_left fun entry he => Text.dropLastOf_eq_self (hr entry he)).trans
    apply List.map_id
  rw [reread, hm, List.filter_eq_self]
  intro entry he
  simp [hn entry he]

end History

/-! ### Saving and loading -/

/-- What can be opened for writing can be read if what the route leads to can, if that is
anything. -/
theorem FileTree.Openable.isLegible {tree : FileTree} {base : Location} {route : Bytes}
    {location : Location} (h : tree.Openable base route location)
    (hr : ∀ node, tree.lookup base route = some node → node.isReadable = true) :
  Item.isLegible (tree.item? location) = true
  := by
  obtain ⟨opened, h⟩ := h
  cases opens_of_openForWriting h with
  | @existing trail old content hf hn hw =>
    have hl := (isIn_of_find hf).node?_location
    rw [hn] at hl
    rw [item?_eq_file_iff.mpr hl, Item.isLegible, ← hn]
    apply hr
    rw [lookup, hf]
    rfl
  | made hp _ _ _ hc =>
    rw [item?, node?_child (isIn_of_findParent hp), hc]
    rfl

namespace History

variable {history saved : History} {tree after : FileTree} {base : Location} {path : Text}

/-- To load is to read a file whose bytes encode a text, and to add its lines to the entries. -/
theorem load_eq {content : Bytes} {lines : List Text}
    (hr : tree.read base (Path.route path) = .ok content) (hl : linesOf content = .ok lines) :
  history.load tree base path
    = .ok ({ history with entries := history.entries ++ lines }, lines.length)
  := by
  rw [load, hr]
  simp only [bind, Except.bind, hl]

/-- What is loaded are lines that are not empty. -/
theorem entries_load {loaded : History} {count : Nat}
    (h : history.load tree base path = .ok (loaded, count)) :
  ∃ lines : List Text, loaded.entries = history.entries ++ lines ∧ ∀ line ∈ lines, line ≠ []
  := by
  obtain ⟨content, -, h⟩ := bind_eq_ok_iff.mp h
  obtain ⟨lines, hl, h⟩ := bind_eq_ok_iff.mp h
  obtain ⟨rfl, -⟩ := Prod.mk.inj (Except.ok.inj h)
  refine ⟨lines, rfl, ?_⟩
  rw [linesOf] at hl
  split at hl
  · obtain rfl := Except.ok.inj hl
    intro line hm
    simpa using (List.mem_filter.mp hm).2
  · contradiction

/-- The histories that there are: the fresh one, and what the operations make of one. -/
inductive Arises : History → Prop where
  | fresh : Arises {}
  | push {history : History} (h : Arises history) (line : Text) : Arises (history.push line)
  | load {history loaded : History} {count : Nat} (h : Arises history) {tree : FileTree}
      {base : Location} {path : Text} (hl : history.load tree base path = .ok (loaded, count)) :
      Arises loaded
  | save {history saved : History} (h : Arises history) {tree after : FileTree} {base : Location}
      {path : Text} (hs : history.save tree base path = .ok (saved, after)) : Arises saved
  | append {history appended : History} (h : Arises history) {tree after : FileTree}
      {base : Location} {path : Text}
      (ha : history.appendNew tree base path = .ok (appended, after)) : Arises appended

/-- No entry is empty: a line that is entered is not blank, and empty lines are not loaded. -/
theorem Arises.ne_nil (h : history.Arises) :
  ∀ entry ∈ history.entries, entry ≠ []
  := by
  induction h with
  | fresh => nofun
  | push h line ih =>
    rw [History.push]
    split
    · exact ih
    · rename_i hb
      intro entry hm
      rcases List.mem_append.mp hm with hm | hm
      · apply ih entry hm
      · obtain rfl := List.mem_singleton.mp hm
        rintro rfl
        exact hb rfl
  | load h hl ih =>
    obtain ⟨lines, he, hn⟩ := entries_load hl
    rw [he]
    intro entry hm
    rcases List.mem_append.mp hm with hm | hm
    · apply ih entry hm
    · apply hn entry hm
  | save h hs ih =>
    obtain ⟨_, _, -, rfl, -⟩ := save_eq_ok_iff.mp hs
    exact ih
  | append h ha ih =>
    obtain ⟨_, _, -, rfl, -⟩ := appendNew_eq_ok_iff.mp ha
    exact ih

/-- A file that a history has been saved to has its entries, if it could be read before or was not
there. -/
theorem read_save (hs : history.save tree base path = .ok (saved, after))
    (hr : ∀ node, tree.lookup base (Path.route path) = some node → node.isReadable = true) :
  after.read base (Path.route path) = .ok (written history.entries)
  := by
  obtain ⟨opened, location, h, -, rfl⟩ := save_eq_ok_iff.mp hs
  apply FileTree.read_extend h
  apply FileTree.Openable.isLegible ⟨opened, h⟩ hr

/-- A file that a history has been saved to can be opened again. -/
theorem exists_save_again (hs : history.save tree base path = .ok (saved, after))
    (other : History) :
  ∃ result, other.save after base path = .ok result
  := by
  obtain ⟨opened, location, h, -, rfl⟩ := save_eq_ok_iff.mp hs
  have ho := FileTree.opens_of_openForWriting h
  have he := FileTree.edited_extend opened location (written history.entries)
  obtain ⟨reopened, h⟩ := (ho.edited.trans he).openable ⟨opened, h⟩
  exact ⟨_, save_eq_ok_iff.mpr ⟨reopened, location, h, rfl, rfl⟩⟩

/-- What a route leads to can be read if it is read. -/
theorem isReadable_of_read {content : Bytes}
    (h : tree.read base (Path.route path) = .ok content) :
  ∀ node, tree.lookup base (Path.route path) = some node → node.isReadable = true
  := by
  intro node hl
  obtain ⟨trail, hf, h⟩ := bind_eq_ok_iff.mp h
  rw [FileTree.lookup, hf] at hl
  obtain rfl := Option.some_inj.mp hl
  split at h
  · rename_i hn
    rw [hn]
    split at h
    · assumption
    · contradiction
  · contradiction

/-- A file that a history without line feeds has been saved to has its entries, one on a line.  What
any history loads from there are these entries in their order, each without a carriage return at its
end and none that is empty then; and it is told how many these are.  Where no entry of a history
that arises ends with a carriage return a fresh history loads the entries that were saved, and saved
again they make the same bytes.  The path can be opened for reading: what it leads to before, if
anything, can be read. -/
theorem load_save (hn : ∀ entry ∈ history.entries, '\n' ∉ entry)
    (hr : ∀ node, tree.lookup base (Path.route path) = some node → node.isReadable = true)
    (hs : history.save tree base path = .ok (saved, after)) :
  after.read base (Path.route path) = .ok (written history.entries)
    ∧ (∀ other : History, other.load after base path
      = .ok ({ other with entries := other.entries ++ reread history.entries },
        (reread history.entries).length))
    ∧ (history.Arises → (∀ entry ∈ history.entries, entry.getLast? ≠ some '\r') →
      ∃ loaded : History, ({} : History).load after base path
          = .ok (loaded, history.entries.length)
        ∧ loaded.entries = history.entries
        ∧ ∃ again twice, loaded.save after base path = .ok (again, twice)
          ∧ twice.read base (Path.route path) = .ok (written history.entries))
  := by
  have hb := read_save hs hr
  have hl : ∀ other : History, other.load after base path
      = .ok ({ other with entries := other.entries ++ reread history.entries },
        (reread history.entries).length) :=
    fun other => load_eq hb (linesOf_written hn)
  refine ⟨hb, hl, ?_⟩
  intro ha hc
  have he := reread_eq_self ha.ne_nil hc
  refine ⟨{ entries := history.entries }, ?_, rfl, ?_⟩
  · rw [hl, he]
    rfl
  · obtain ⟨⟨again, twice⟩, ht⟩ := exists_save_again hs { entries := history.entries }
    exact ⟨again, twice, ht, read_save ht (isReadable_of_read hb)⟩

/-- A tree with a file of a line of blanks and a line that has a carriage return of its own. -/
def lined : FileTree :=
  ⟨[(⟨Text.encode ['g'], by decide⟩, .file 0o644 (Text.encode " \n\r\r\n".toList))]⟩

/-- A history that has loaded that file and is saved loses its carriage returns on the way, but not
the line of blanks, and what is loaded then is had back as it is. -/
theorem load_save_lined :
  let history : History := ⟨[[' '], ['\r'], ['x', '\r']], 0⟩
  let reread : List Text := [[' '], ['x']]
  history.Arises
    ∧ ∃ saved after, history.save lined [] ['f'] = .ok (saved, after)
      ∧ ({} : History).load after [] ['f'] = .ok ({ entries := reread }, 2)
      ∧ ∃ again twice, ({ entries := reread } : History).save after [] ['f'] = .ok (again, twice)
        ∧ ∃ loaded, ({} : History).load twice [] ['f'] = .ok (loaded, 2) ∧ loaded.entries = reread
  := by
  intro history reread
  have hg : ({} : History).load lined [] ['g'] = .ok (⟨[[' '], ['\r']], 0⟩, 2) := rfl
  have ha : history.Arises := .push (.load .fresh hg) ['x', '\r']
  have hn : ∀ entry ∈ history.entries, '\n' ∉ entry := by decide
  obtain ⟨⟨saved, after⟩, hs⟩ : ∃ result, history.save lined [] ['f'] = .ok result := ⟨_, rfl⟩
  have hr : ∀ node, lined.lookup [] (Path.route ['f']) = some node → node.isReadable = true := by
    intro node h
    cases h
  obtain ⟨hb, hl, -⟩ := load_save hn hr hs
  refine ⟨ha, saved, after, hs, hl {}, ?_⟩
  obtain ⟨⟨again, twice⟩, ht⟩ := exists_save_again hs { entries := reread }
  have hf : ({ entries := reread } : History).Arises := .load .fresh (hl {})
  obtain ⟨-, -, hc⟩ := load_save (by decide) (isReadable_of_read hb) ht
  obtain ⟨loaded, hl, he, -⟩ := hc hf (by decide)
  exact ⟨again, twice, ht, loaded, hl, he⟩

end History

end CommandShell
