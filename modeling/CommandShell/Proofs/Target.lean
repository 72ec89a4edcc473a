import CommandShell.Proofs.Normalizing

/-!
# The file that a text stands for

A redirection joins its target with the session directory and follows the path in the file tree; the
builtins normalize that path first.  Where the one leads or opens a file, so does the other, and it
is the same file or directory (`Shell.resolve_reaches_target`).  What `history` does with a file is
told from the place that it is opened at (`Shell.consultsAt_of_openable`).
-/

namespace CommandShell

/-! ### Files at a location -/

namespace FileTree

/-- The bytes of the file at a location. -/
def readAt (tree : FileTree) (location : Location) : Except SystemError Bytes :=
  match tree.node? location with
  | some (.file mode content) =>
    if (Node.file mode content).isReadable then .ok content else .error .permissionDenied
  | some (.directory _) => .error .isDirectory
  | none => .error .notFound

variable {tree : FileTree} {base : Location} {route : Bytes} {location : Location}

/-- A file that can be opened for writing is the one that is read. -/
theorem Openable.read_eq (h : tree.Openable base route location) :
  tree.read base route = tree.readAt location
  := by
  obtain ⟨opened, h⟩ := h
  cases opens_of_openForWriting h with
  | @existing trail mode content hf hn hw =>
    have hl := (isIn_of_find hf).node?_location
    obtain ⟨node, above⟩ := trail
    obtain rfl : node = .file mode content := hn
    rw [read, hf, readAt, hl]
    rfl
  | @made parent name hp hn hs hl hc =>
    have hd : parent.down name = .error .notFound := by
      rw [Trail.down, if_neg (Nat.not_lt.mpr hl), hc]
    rw [read, find_eq_down hp hn hs, hd, readAt, node?_child (isIn_of_findParent hp), hc]
    rfl

/-- What opens at an absolute path opens at its normal form. -/
theorem openForWriting_normalize {path : Text} (h : Path.isAbsolute path = true)
    {disposition : Disposition} {mode : Nat} {result : FileTree × Location}
    (ho : tree.openForWriting base (Path.route path) disposition mode = .ok result) :
  tree.openForWriting base (Path.route (Path.normalize path)) disposition mode = .ok result
  := by
  obtain ⟨parent, name, hn⟩ := exists_names_of_openForWriting ho
  rw [(hn.normalize h).openForWriting_eq, ← hn.openForWriting_eq, ho]

end FileTree

/-! ### Transfers of the history -/

theorem Builtin.respond_history (transfer : Transfer) (file : Text) (shell : Shell) :
  history.respond [transfer.flag, file] shell = transferHistory transfer file shell
  := by
  cases transfer <;> rfl

namespace Shell

/-- The shell with lines after those of its history. -/
def withEntries (shell : Shell) (lines : List Text) : Shell :=
  shell.setHistory { shell.session.history with entries := shell.session.history.entries ++ lines }

/-- Whether what `history` does with the file that a text stands for is done with the file at a
location. -/
structure ConsultsAt (shell : Shell) (target : Text) (location : Location) : Prop where
  /-- What is loaded is what the file holds. -/
  load : Builtin.history.respond [Builtin.Transfer.load.flag, target] shell
    = match shell.world.tree.readAt location >>= History.linesOf with
      | .ok lines => { shell := shell.withEntries lines }
      | .error error =>
        { shell, lines := [(.error, "history: ".toList ++ target ++ ": ".toList ++ error.message)] }
  /-- What is saved is what the file holds then, and no other file is edited. -/
  save : ∃ saved,
    Builtin.history.respond [Builtin.Transfer.save.flag, target] shell = { shell := saved }
      ∧ saved.world.tree.content location = History.written shell.session.history.entries
      ∧ FileTree.Edited {location} shell.world.tree saved.world.tree
  /-- What is appended is added to what the file holds, and no other file is edited. -/
  append : ∃ appended,
    Builtin.history.respond [Builtin.Transfer.append.flag, target] shell = { shell := appended }
      ∧ appended.world.tree.content location
        = shell.world.tree.content location
          ++ History.written (shell.session.history.entries.drop shell.session.history.appended)
      ∧ FileTree.Edited {location} shell.world.tree appended.world.tree

section

variable {shell : Shell} {target : Text} {location : Location}

/-- Bytes are added to the bytes that opening a file keeps. -/
theorem content_extend_of_openForWriting {tree opened : FileTree} {base : Location} {route : Bytes}
    {disposition : Disposition}
    (h : tree.openForWriting base route disposition newFileMode = .ok (opened, location))
    (bytes : Bytes) :
  (opened.extend location bytes).content location
      = disposition.kept (tree.content location) ++ bytes
    ∧ FileTree.Edited {location} tree (opened.extend location bytes)
  := by
  have ho := FileTree.opens_of_openForWriting h
  obtain ⟨mode, hn⟩ := ho.node?
  exact ⟨FileTree.content_extend hn bytes, ho.edited.trans (FileTree.edited_extend _ _ _)⟩

/-- Where the path that a text stands for can be opened, `history` acts. -/
theorem consultsAt_of_openable
    (h : shell.world.tree.Openable shell.world.start (Path.route (shell.resolve target)) location) :
  shell.ConsultsAt target location
  := by
  constructor
  · rw [Builtin.respond_history, Builtin.transferHistory, Builtin.Transfer.perform, History.load,
      h.read_eq]
    cases shell.world.tree.readAt location with
    | error error => rfl
    | ok content => cases hl : History.linesOf content <;> simp [bind, Except.bind, hl, withEntries]
  · obtain ⟨opened, ho⟩ := (FileTree.openable_iff .truncate).mp h
    obtain ⟨hc, he⟩ := content_extend_of_openForWriting ho
      (History.written shell.session.history.entries)
    rw [Builtin.respond_history, Builtin.transferHistory, Builtin.Transfer.perform,
      History.save, ho]
    exact ⟨_, rfl, hc, he⟩
  · obtain ⟨opened, ho⟩ := (FileTree.openable_iff .append).mp h
    obtain ⟨hc, he⟩ := content_extend_of_openForWriting ho
      (History.written (shell.session.history.entries.drop shell.session.history.appended))
    rw [Builtin.respond_history, Builtin.transferHistory, Builtin.Transfer.perform,
      History.appendNew, ho]
    exact ⟨_, rfl, hc, he⟩

end

/-- A text stands for the normal form of the path of a target. -/
theorem resolve_eq_normalize (shell : Shell) (target : Text) :
  shell.resolve target
    = Path.normalize (Redirection.targetPath shell.world.home shell.session.directory target)
  := rfl

/-- A text stands for the same in a shell that is in the same directory of an evolved world. -/
theorem resolve_of_evolves {shell after : Shell} {scope : World.Scope}
    (he : shell.world.Evolves scope after.world)
    (hd : after.session.directory = shell.session.directory) (target : Text) :
  after.resolve target = shell.resolve target
  := by
  rw [resolve, resolve, Session.resolve, Session.resolve, hd, he.confined.home_eq]

section

variable {shell : Shell} {target : Text}

theorem isAbsolute_targetPath (h : Path.isAbsolute shell.session.directory = true) :
  Path.isAbsolute (Redirection.targetPath shell.world.home shell.session.directory target) = true
  := Path.isAbsolute_join h _

/-- A redirection opens a file where the target stands for it. -/
theorem openForWriting_resolve (h : Path.isAbsolute shell.session.directory = true)
    {disposition : Disposition} {mode : Nat} {result : World × Stream}
    (ho : shell.world.openForWriting
      (Redirection.targetPath shell.world.home shell.session.directory target) disposition mode
        = .ok result) :
  shell.world.openForWriting (shell.resolve target) disposition mode = .ok result
  := by
  obtain ⟨opened, ht, ho⟩ := bind_eq_ok_iff.mp ho
  rw [World.openForWriting, resolve_eq_normalize,
    FileTree.openForWriting_normalize (isAbsolute_targetPath h) ht]
  exact ho

/-- Where the path of a target leads to a directory, `cd` enters it. -/
theorem enters_of_locate (h : Path.isAbsolute shell.session.directory = true) {location : Location}
    (hl : shell.world.tree.locate shell.world.start
      (Path.route (Redirection.targetPath shell.world.home shell.session.directory target))
        = .ok location)
    (hd : shell.isDirectory
      (Redirection.targetPath shell.world.home shell.session.directory target) = true) :
  shell.world.tree.locate shell.world.start (Path.route (shell.resolve target)) = .ok location
    ∧ shell.Enters ⟨Builtin.cd.name, [target]⟩ (shell.resolve target)
  := by
  obtain ⟨trail, hf, hl⟩ := FileTree.locate_eq_ok_iff.mp hl
  have hn := FileTree.find_normalize (isAbsolute_targetPath h) hf
  rw [← resolve_eq_normalize] at hn
  refine ⟨FileTree.locate_eq_ok_iff.mpr ⟨trail, hn, hl⟩, target, rfl, rfl, ?_⟩
  rw [isDirectory, FileTree.isDirectory, FileTree.lookup, hf] at hd
  rw [isDirectory, FileTree.isDirectory, FileTree.lookup, hn]
  exact hd

end

/-- In a session whose directory is an absolute path a target is the same file for redirections and
for builtins, whatever text it is.  What a redirection opens is opened at the path that the target
stands for, which leads there from then on, and from there on `history` reads, saves and appends to
the file that was opened.  Where the path of the target leads to a directory, `cd` succeeds and the
path that it leaves in the session leads to that directory. -/
theorem resolve_reaches_target {shell : Shell}
    (h : Path.isAbsolute shell.session.directory = true) (target : Text) :
  let path := Redirection.targetPath shell.world.home shell.session.directory target
  (∀ op opened stream,
    shell.world.openForWriting path (Redirection.disposition op) newFileMode
        = .ok (opened, stream) →
      shell.world.openForWriting (shell.resolve target) (Redirection.disposition op) newFileMode
          = .ok (opened, stream)
        ∧ ∃ number file, stream = .file number ∧ opened.files.lookup number = some file
          ∧ opened.tree.locate opened.start (Path.route (shell.resolve target))
            = .ok file.location
          ∧ ∀ (scope : World.Scope) (after : Shell), shell.world.Evolves scope after.world →
            after.session.directory = shell.session.directory →
              after.ConsultsAt target file.location)
    ∧ ∀ location,
      shell.world.tree.locate shell.world.start (Path.route path) = .ok location →
        shell.isDirectory path = true →
          Builtin.cd.respond [target] shell = { shell := shell.setDirectory (shell.resolve target) }
            ∧ shell.world.tree.locate shell.world.start (Path.route (shell.resolve target))
              = .ok location
  := by
  dsimp only
  constructor
  · intro op opened stream ho
    have hr := openForWriting_resolve h ho
    refine ⟨hr, ?_⟩
    obtain ⟨⟨tree, location⟩, ht, hw⟩ := bind_eq_ok_iff.mp hr
    obtain ⟨rfl, rfl⟩ := Prod.mk.inj (Except.ok.inj hw)
    refine ⟨_, _, rfl, List.lookup_cons_self, (FileTree.opens_of_openForWriting ht).locate, ?_⟩
    intro scope after he hd
    apply consultsAt_of_openable
    have hc := he.confined
    rw [resolve_of_evolves he hd, hc.start_eq]
    apply hc.edited.openable
    exact (FileTree.openable_iff _).mpr ⟨tree, ht⟩
  · intro location hl hd
    obtain ⟨hl, he⟩ := enters_of_locate h hl hd
    exact ⟨Builtin.respond_cd_of_enters he, hl⟩

/-- A nested shell whose home is the directory it is in. -/
def housed : Shell where
  session := nested.session
  world := { nested.world with environment := ["HOME=/d".toList] }

/-- A target that goes up from the home directory and down again makes a file, and `history` acts on
it; `cd` goes up from there. -/
theorem resolve_reaches_target_housed :
  (∃ opened file, housed.world.openForWriting "/d/..//d/./f".toList .truncate newFileMode
        = .ok (opened, .file 0)
      ∧ opened.files.lookup 0 = some file
      ∧ opened.tree.locate opened.start (Path.route "/d/f".toList) = .ok file.location
      ∧ (housed.withWorld opened).ConsultsAt "~/..//d/./f".toList file.location)
    ∧ Builtin.cd.respond ["~//..".toList] housed = { shell := housed.setDirectory ['/'] }
  := by
  have h : Path.isAbsolute housed.session.directory = true := rfl
  constructor
  · obtain ⟨opened, ho⟩ : ∃ opened,
        housed.world.openForWriting "/d/..//d/./f".toList .truncate newFileMode
          = .ok (opened, .file 0) := ⟨_, rfl⟩
    obtain ⟨-, number, file, hs, hf, hl, hc⟩ :=
      (resolve_reaches_target h "~/..//d/./f".toList).1 .output _ _ ho
    obtain rfl := Stream.file.inj hs
    have hd : (housed.withWorld opened).session.directory = housed.session.directory := rfl
    refine ⟨opened, file, ho, hf, hl, ?_⟩
    apply hc (.line Set.univ) _ (.single (.openFile trivial (Set.mem_univ _) ho)) hd
  · exact ((resolve_reaches_target h "~//..".toList).2 [] rfl (by decide)).1

end Shell

end CommandShell
