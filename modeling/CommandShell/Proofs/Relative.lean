import CommandShell.Proofs.Directory

/-!
# Relative paths

A path is resolved on its text alone.  What it stands for is normal: resolved again it stays as it
is, wherever that is done (`Shell.resolve_resolve`), and at the root there is nothing to go up to.
To follow one relative path from where another one leads is to follow the two joined
(`Session.resolveFrom_resolveFrom`).  So a shell that enters directories one after another ends in
the directory that it enters at once by the joined path (`Shell.Visits.joined`).
-/

namespace CommandShell

namespace Path

/-! ### The names that joined paths lead to -/

/-- The names that are reached when the pieces of a path are followed from the names of another
one. -/
def namesFrom (names : List Text) (path : Text) : List Text :=
  ((path.splitOn '/').foldl climb names.reverse).reverse

theorem names_append_slash (before after : Text) :
  names (before ++ '/' :: after) = namesFrom (names before) after
  := by
  rw [names, List.splitOn_append_cons_self, List.foldl_append, namesFrom, names,
    List.reverse_reverse]

/-- A slash at the end of a path leads nowhere. -/
theorem names_concat_slash (path : Text) :
  names (path ++ ['/']) = names path
  := by
  rw [names_append_slash, namesFrom, List.splitOn_nil, List.foldl_cons, List.foldl_nil, climb,
    if_pos (.inl rfl), List.reverse_reverse]

/-- A relative path is followed from where the path that it is joined to leads. -/
theorem names_join (path : Text) {other : Text} (h : isAbsolute other = false) :
  names (join path other) = namesFrom (names path) other
  := by
  rw [join, h, if_neg Bool.false_ne_true]
  split
  · rename_i he
    rcases he with rfl | he
    · rfl
    · obtain ⟨before, rfl⟩ := List.getLast?_eq_some_iff.mp he
      rw [names_concat_slash, List.append_assoc, List.singleton_append, names_append_slash]
  · apply names_append_slash

/-! ### Normal paths -/

/-- Names are gone down to one after another. -/
theorem foldl_climb_of_isName {pieces : List Text} (h : ∀ piece ∈ pieces, IsName piece)
    (names : List Text) :
  pieces.foldl climb names = pieces.reverse ++ names
  := by
  induction pieces generalizing names with
  | nil => rfl
  | cons piece rest ih =>
    obtain ⟨hp, hr⟩ := List.forall_mem_cons.mp h
    have hs : ¬ (piece = [] ∨ piece = ['.']) := not_or.mpr ⟨hp.ne_nil, hp.ne_dot⟩
    rw [List.foldl_cons, ih hr, climb, if_neg hs, if_neg hp.ne_dots, List.reverse_cons,
      List.append_assoc, List.singleton_append]

/-- The path that has the names that a path leads to leads to them. -/
theorem names_normalize {path : Text} (h : isAbsolute path = true) :
  names (normalize path) = names path
  := by
  have hn : ∀ name ∈ names path, IsName name := fun name => isName_of_mem_names
  rw [normalize, if_pos h, names, splitOn_slash_cons, List.foldl_cons, climb, if_pos (.inl rfl)]
  by_cases he : names path = []
  · rw [he]
    rfl
  · rw [Text.join, List.splitOn_intercalate '/' (fun name hm => (hn name hm).not_mem) he,
      foldl_climb_of_isName hn, List.append_nil, List.reverse_reverse]

/-- Absolute paths that lead to the same names have one normal form. -/
theorem normalize_eq_of_names {path other : Text} (hp : isAbsolute path = true)
    (ho : isAbsolute other = true) (h : names path = names other) :
  normalize path = normalize other
  := by
  rw [normalize, normalize, if_pos hp, if_pos ho, h]

theorem normalize_normalize {path : Text} (h : isAbsolute path = true) :
  normalize (normalize path) = normalize path
  := normalize_eq_of_names (isStraight_normalize h).isAbsolute h (names_normalize h)

/-- At the root there is nothing to go up to. -/
theorem normalize_up_at_root (path : Text) :
  normalize ("/../".toList ++ path) = normalize ('/' :: path)
  := by
  apply normalize_eq_of_names rfl rfl
  have hu : names "/..".toList = names [] := by decide
  have hp := names_append_slash [] path
  rw [List.nil_append, ← hu, ← names_append_slash] at hp
  exact hp.symm

/-! ### The home directory -/

theorem expandHome_of_head? {path : Text} (home : Option Text) (h : path.head? ≠ some '~') :
  expandHome home path = path
  := by
  rw [expandHome.eq_def]
  split
  · contradiction
  · rfl

theorem expandHome_ne_nil {home : Option Text} (hh : ∀ directory ∈ home, directory ≠ [])
    {path : Text} (h : path ≠ []) :
  expandHome home path ≠ []
  := by
  rw [expandHome.eq_def]
  split
  · rename_i directory rest
    split
    · exact List.append_ne_nil_of_left_ne_nil (hh directory rfl) rest
    · exact h
  · exact h

/-- What follows a slash is no part of the home directory. -/
theorem expandHome_append_slash (home : Option Text) {path : Text} (h : path ≠ [])
    (rest : Text) :
  expandHome home (path ++ '/' :: rest) = expandHome home path ++ '/' :: rest
  := by
  obtain ⟨c, others, rfl⟩ := List.exists_cons_of_ne_nil h
  by_cases hc : c = '~'
  · subst hc
    cases home with
    | none => rfl
    | some directory =>
      cases others with
      | nil => simp [expandHome]
      | cons next others => by_cases hn : next = '/' <;> simp [expandHome, hn]
  · have hh : (c :: others).head? ≠ some '~' := by simpa using hc
    have hr : (c :: others ++ '/' :: rest).head? ≠ some '~' := by simpa using hc
    rw [expandHome_of_head? home hh, expandHome_of_head? home hr]

/-- What follows a path that is joined follows the joined path. -/
theorem join_append (path : Text) {other : Text} (h : other ≠ []) (rest : Text) :
  join path (other ++ rest) = join path other ++ rest
  := by
  obtain ⟨c, others, rfl⟩ := List.exists_cons_of_ne_nil h
  have ha : isAbsolute (c :: others ++ rest) = isAbsolute (c :: others) := rfl
  rw [join, join, ha]
  split
  · rfl
  · split
    · rw [List.append_assoc]
    · rw [List.append_assoc, List.cons_append, List.cons_append, List.cons_append]

end Path

/-- The first two texts that are joined are joined before the rest. -/
theorem Text.join_cons_cons_eq (separator text other : Text) (rest : List Text) :
  join separator (text :: other :: rest) = join separator ((text ++ separator ++ other) :: rest)
  := by
  cases rest with
  | nil => simp [join]
  | cons next rest => simp only [join_cons_cons, List.append_assoc]

/-! ### Sessions -/

theorem Environment.ne_nil_of_home {environment : Environment} {directory : Text}
    (h : directory ∈ environment.home) :
  directory ≠ []
  := by
  have hf := (Option.filter_eq_some_iff.mp h).2
  simpa using hf

namespace Session

variable {home : Option Text} {directory path : Text}

/-- What an absolute path stands for does not depend on the directory, nor on the home
directory. -/
theorem resolveFrom_of_isAbsolute (home : Option Text) (directory : Text)
    (h : Path.isAbsolute path = true) :
  resolveFrom home directory path = Path.normalize path
  := by
  obtain ⟨rest, rfl⟩ := Path.exists_eq_cons_of_isAbsolute h
  rw [resolveFrom, Path.expandHome_of_head? home (by simp), Path.join, if_pos h]

/-- To follow a relative path from where a path leads is to follow the two joined. -/
theorem resolveFrom_resolveFrom (hh : ∀ directory ∈ home, directory ≠ [])
    (hd : Path.isAbsolute directory = true) (hp : path ≠ []) {next : Text}
    (hn : Path.isAbsolute next = false) (ht : next.head? ≠ some '~') :
  resolveFrom home (resolveFrom home directory path) next
    = resolveFrom home directory (path ++ '/' :: next)
  := by
  have ha := Path.isAbsolute_join hd (Path.expandHome home path)
  rw [resolveFrom, resolveFrom, resolveFrom, Path.expandHome_of_head? home ht,
    Path.expandHome_append_slash home hp, Path.join_append _ (Path.expandHome_ne_nil hh hp)]
  apply Path.normalize_eq_of_names
  · apply Path.isAbsolute_join (Path.isStraight_normalize ha).isAbsolute
  · obtain ⟨rest, hr⟩ := Path.exists_eq_cons_of_isAbsolute ha
    rw [hr]
    rfl
  · rw [Path.names_join _ hn, Path.names_normalize ha, Path.names_append_slash]

end Session

/-! ### Shells -/

namespace Shell

/-- Whether a shell becomes another one by entering the directories that targets stand for, one
after another. -/
inductive Visits : Shell → List Text → Shell → Prop where
  | nil (shell : Shell) : Visits shell [] shell
  | cons {shell next last : Shell} {target : Text} {rest : List Text}
      (h : Builtin.cd.respond [target] shell = { shell := next }) (hr : next.Visits rest last) :
      Visits shell (target :: rest) last

/-- To enter a directory changes the directory of the session and nothing else. -/
theorem respond_cd_eq_iff {shell next : Shell} {target : Text} :
  Builtin.cd.respond [target] shell = { shell := next }
    ↔ shell.isDirectory (shell.resolve target) = true
      ∧ next = shell.setDirectory (shell.resolve target)
  := by
  rw [Builtin.respond, Builtin.changeDirectory, Builtin.enter]
  split
  · rename_i hd
    simp [hd, eq_comm]
  · rename_i hd
    simp [hd]

section

variable {shell : Shell} (h : Path.isAbsolute shell.session.directory = true)

include h

theorem isStraight_resolve (path : Text) :
  Path.IsStraight (shell.resolve path)
  := Session.isStraight_resolveFrom shell.world.home h path

/-- What a text stands for stands for itself, whatever the directories of the session and of the
user are. -/
theorem resolve_resolve (other : Shell) (path : Text) :
  other.resolve (shell.resolve path) = shell.resolve path
  := by
  have ha := (isStraight_resolve h path).isAbsolute
  rw [resolve, Session.resolve, Session.resolveFrom_of_isAbsolute _ _ ha]
  apply Path.normalize_normalize (Path.isAbsolute_join h _)

/-- To follow a relative path from where a path leads is to follow the two joined. -/
theorem resolve_append_slash {path next : Text} (hp : path ≠ [])
    (hn : Path.isAbsolute next = false) (ht : next.head? ≠ some '~') :
  (shell.setDirectory (shell.resolve path)).resolve next = shell.resolve (path ++ '/' :: next)
  := Session.resolveFrom_resolveFrom (fun _ => Environment.ne_nil_of_home) h hp hn ht

/-- A shell ends where it enters the joined path at once. -/
theorem Visits.joined {first : Text} {rest : List Text} {last : Shell}
    (hv : shell.Visits (first :: rest) last) (hf : first ≠ [])
    (hr : ∀ target ∈ rest, Path.isAbsolute target = false ∧ target.head? ≠ some '~') :
  Builtin.cd.respond [Text.join ['/'] (first :: rest)] shell = { shell := last }
  := by
  induction rest generalizing first with
  | nil =>
    cases hv with
    | cons he hv =>
      cases hv
      rw [Text.join, List.intercalate_singleton]
      exact he
  | cons second rest ih =>
    obtain ⟨⟨hs, ht⟩, hr⟩ := List.forall_mem_cons.mp hr
    cases hv with
    | cons he hv =>
      cases hv with
      | cons hn hv =>
        obtain ⟨-, rfl⟩ := respond_cd_eq_iff.mp he
        obtain ⟨hd, rfl⟩ := respond_cd_eq_iff.mp hn
        -- The first two directories are entered at once, and then the rest as before.
        rw [resolve_append_slash h hf hs ht] at hd hv
        rw [Text.join_cons_cons_eq, List.append_assoc, List.singleton_append]
        apply ih (.cons (respond_cd_eq_iff.mpr ⟨hd, rfl⟩) hv) (by simp) hr

/-- In a session whose directory is an absolute path every text stands for a straight path, which
stands for itself in every shell.  To go up at the root leads to the root.  A relative path followed
from what another one stands for leads where the two joined lead, and so a shell that enters
directories one after another ends where it enters the joined path at once. -/
theorem resolve_laws :
  (∀ path, Path.IsStraight (shell.resolve path)
      ∧ ∀ other : Shell, other.resolve (shell.resolve path) = shell.resolve path)
    ∧ (∀ path, shell.resolve ("/../".toList ++ path) = shell.resolve ('/' :: path))
    ∧ (shell.setDirectory ['/']).resolve "..".toList = ['/']
    ∧ (∀ path next, path ≠ [] → Path.isAbsolute next = false → next.head? ≠ some '~' →
      (shell.setDirectory (shell.resolve path)).resolve next = shell.resolve (path ++ '/' :: next))
    ∧ ∀ first rest last, first ≠ [] →
      (∀ target ∈ rest, Path.isAbsolute target = false ∧ target.head? ≠ some '~') →
      shell.Visits (first :: rest) last →
        Builtin.cd.respond [Text.join ['/'] (first :: rest)] shell = { shell := last }
  := by
  refine ⟨?_, ?_, ?_, ?_, ?_⟩
  · intro path
    exact ⟨isStraight_resolve h path, fun other => resolve_resolve h other path⟩
  · intro path
    rw [resolve, resolve, Session.resolve, Session.resolve,
      Session.resolveFrom_of_isAbsolute _ _ rfl, Session.resolveFrom_of_isAbsolute _ _ rfl]
    apply Path.normalize_up_at_root
  · rw [resolve, Session.resolve, Session.resolveFrom, Path.expandHome_of_head? _ (by decide)]
    exact (by decide : Path.normalize (Path.join ['/'] "..".toList) = ['/'])
  · intro path next hp hn ht
    apply resolve_append_slash h hp hn ht
  · intro first rest last hf hr hv
    apply hv.joined h hf hr

end

/-- A nested shell whose home directory is a relative path. -/
def adrift : Shell where
  session := nested.session
  world := { nested.world with environment := ["HOME=..//d/x".toList] }

/-- A shell that enters the directory above its home directory, goes up twice, to the root, and down
from there is where the joined path leads. -/
theorem resolve_laws_adrift :
  Builtin.cd.respond ["~/../..///./d/".toList] adrift
      = { shell := adrift.setDirectory "/d".toList }
    ∧ ∀ other : Shell, other.resolve (adrift.resolve "~/y".toList) = "/d/x/y".toList
  := by
  have ha : Path.isAbsolute adrift.session.directory = true := rfl
  have hl := resolve_laws ha
  constructor
  · apply hl.2.2.2.2 "~/..".toList ["..//".toList, "./d/".toList] _ (by decide) (by decide)
    apply Visits.cons (respond_cd_eq_iff.mpr ⟨by decide, rfl⟩)
    apply Visits.cons (respond_cd_eq_iff.mpr ⟨by decide, rfl⟩)
    apply Visits.cons (respond_cd_eq_iff.mpr ⟨by decide, rfl⟩)
    exact .nil _
  · intro other
    rw [(hl.1 _).2]
    decide

end Shell

end CommandShell
