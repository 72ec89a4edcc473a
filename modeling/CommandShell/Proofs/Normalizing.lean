import CommandShell.Proofs.Directory
import Mathlib.Data.List.Flatten

/-!
# Normal paths

A path is normalized without a file tree, and a route is followed in one.  The steps of the route of
a path are those of its pieces (`Path.steps_route`), and followed from the root without a tree they
lead to the names of the path (`Path.encode_names`).  Where a walk from the root leads, these names
lead straight (`Trail.walk_leadFrom`).  So an absolute path and its normal form lead to the same
place (`FileTree.find_normalize`), and what the one names in a directory the other names as well
(`FileTree.Names.normalize`).
-/

namespace CommandShell

/-! ### Encoded pieces -/

namespace Text

/-- A character that takes more than one byte has none that stands for a character. -/
theorem le_of_mem_utf8EncodeChar {c : Char} {byte : UInt8} (hc : 128 ≤ c.val.toNat)
    (h : byte ∈ String.utf8EncodeChar c) :
  128 ≤ byte.toNat
  := by
  unfold String.utf8EncodeChar at h
  dsimp only at h
  split at h
  · omega
  · split at h
    · simp only [List.mem_cons, List.not_mem_nil, or_false] at h
      rcases h with rfl | rfl <;> rw [UInt8.toNat_ofNat'] <;> omega
    · split at h
      · simp only [List.mem_cons, List.not_mem_nil, or_false] at h
        rcases h with rfl | rfl | rfl <;> rw [UInt8.toNat_ofNat'] <;> omega
      · simp only [List.mem_cons, List.not_mem_nil, or_false] at h
        rcases h with rfl | rfl | rfl | rfl <;> rw [UInt8.toNat_ofNat'] <;> omega

/-- Only a slash is encoded with the byte of a slash. -/
theorem eq_of_slash_mem_utf8EncodeChar {c : Char} (h : slash ∈ String.utf8EncodeChar c) :
  c = '/'
  := by
  by_cases hc : 128 ≤ c.val.toNat
  · have hs := le_of_mem_utf8EncodeChar hc h
    contradiction
  · have hc : c.val.toNat < 128 := Nat.lt_of_not_le hc
    have hv : c.val.toNat ≤ 0x7f := by omega
    unfold String.utf8EncodeChar at h
    dsimp only at h
    rw [if_pos hv, List.mem_singleton] at h
    have hn := congrArg UInt8.toNat h
    rw [UInt8.toNat_ofNat'] at hn
    apply Char.ext
    apply UInt32.toNat.inj
    have hs : slash.toNat = 47 := rfl
    have hs' : '/'.val.toNat = 47 := rfl
    omega

theorem slash_not_mem_encode {text : Text} (h : '/' ∉ text) :
  slash ∉ encode text
  := by
  intro hm
  obtain ⟨c, hc, hm⟩ := List.mem_flatMap.mp hm
  obtain rfl := eq_of_slash_mem_utf8EncodeChar hm
  exact h hc

theorem encode_join (separator : Text) (texts : List Text) :
  encode (join separator texts) = (encode separator).intercalate (texts.map encode)
  := by
  induction texts with
  | nil => rfl
  | cons text rest ih =>
    cases rest with
    | nil => simp [join]
    | cons next rest =>
      rw [join] at ih ⊢
      rw [List.intercalate_cons_cons, encode_append, encode_append, ih]
      simp only [List.map_cons, List.intercalate_cons_cons]

theorem encode_injective {t u : Text} (h : encode t = encode u) :
  t = u
  := by
  have hd := congrArg decode? h
  rw [decode?_encode, decode?_encode] at hd
  exact Option.some_inj.mp hd

theorem encode_sublist {t u : Text} (h : t.Sublist u) :
  (encode t).Sublist (encode u)
  := h.flatMap _

end Text

namespace Path

/-- The pieces of a route are those of its path. -/
theorem splitOn_route (path : Text) :
  (route path).splitOn slash = (path.splitOn '/').map Text.encode
  := by
  have hp : Text.join ['/'] (path.splitOn '/') = path := List.intercalate_splitOn '/'
  have hs : Text.encode ['/'] = [slash] := by decide
  have he := Text.encode_join ['/'] (path.splitOn '/')
  rw [hp, hs] at he
  rw [route, he]
  apply List.splitOn_intercalate
  · intro bytes hm
    obtain ⟨piece, hp, rfl⟩ := List.mem_map.mp hm
    apply Text.slash_not_mem_encode (not_mem_of_mem_splitOn hp)
  · rw [Ne, List.map_eq_nil_iff]
    apply List.splitOn_ne_nil

/-- The steps of a route are those of the pieces of its path. -/
theorem steps_route (path : Text) :
  Route.steps (route path) = ((path.splitOn '/').map Text.encode).map Step.ofPiece
  := by
  rw [Route.steps, splitOn_route]

end Path

/-! ### Following without a tree -/

/-- The location that a step leads to, whatever there is. -/
def Step.leadFrom (here : Location) : Step → Location
  | .stay => here
  | .up => here.dropLast
  | .down name => here ++ [name]

/-- A piece that is a name goes down to it. -/
theorem Path.IsName.ofPiece_encode {piece : Text} (h : IsName piece) :
  ∃ name, Step.ofPiece (Text.encode piece) = .down name ∧ name.bytes = Text.encode piece
  := by
  have hp : isProperName (Text.encode piece) = true := by
    have hn : Text.encode piece ≠ Text.encode [] := fun he => h.ne_nil (Text.encode_injective he)
    have hd : Text.encode piece ≠ Text.encode ['.'] :=
      fun he => h.ne_dot (Text.encode_injective he)
    have hdd : Text.encode piece ≠ Text.encode ['.', '.'] :=
      fun he => h.ne_dots (Text.encode_injective he)
    have hs := Text.slash_not_mem_encode h.not_mem
    simp only [isProperName, Bool.and_eq_true, Bool.not_eq_true', List.isEmpty_eq_false_iff,
      decide_eq_true_eq, List.contains_eq_mem, decide_eq_false_iff_not]
    exact ⟨⟨⟨hn, hd⟩, hdd⟩, hs⟩
  exact ⟨⟨_, hp⟩, dif_pos hp, rfl⟩

namespace Path

/-- Whether names are those of a location, the last first. -/
def Mirrors (names : List Text) (location : Location) : Prop :=
  names.reverse.map Text.encode = location.map Name.bytes

/-- One more piece of a path leads where one more step leads. -/
theorem Mirrors.climb {names : List Text} {location : Location} (h : Mirrors names location)
    {piece : Text} (hp : '/' ∉ piece) :
  Mirrors (climb names piece) (Step.leadFrom location (Step.ofPiece (Text.encode piece)))
  := by
  rw [Path.climb]
  split
  · rename_i hs
    rcases hs with rfl | rfl
    · exact h
    · exact h
  · rename_i hs
    rw [not_or] at hs
    split
    · rename_i hu
      subst hu
      have hu : Step.ofPiece (Text.encode ['.', '.']) = .up := by decide
      rw [hu, Step.leadFrom, Mirrors, ← List.dropLast_reverse, List.map_dropLast, h,
        List.map_dropLast]
    · rename_i hu
      obtain ⟨name, hn, hb⟩ := IsName.ofPiece_encode ⟨hs.1, hs.2, hu, hp⟩
      rw [hn, Step.leadFrom, Mirrors, List.reverse_cons, List.map_append, List.map_append, h]
      simp [hb]

theorem Mirrors.foldl {names : List Text} {location : Location} (h : Mirrors names location)
    {pieces : List Text} (hp : ∀ piece ∈ pieces, '/' ∉ piece) :
  Mirrors (pieces.foldl Path.climb names)
    (((pieces.map Text.encode).map Step.ofPiece).foldl Step.leadFrom location)
  := by
  induction pieces generalizing names location with
  | nil => exact h
  | cons piece rest ih =>
    obtain ⟨hp, hr⟩ := List.forall_mem_cons.mp hp
    apply ih (h.climb hp) hr

/-- A path leads to the names of the location that its steps lead to from the root. -/
theorem encode_names (path : Text) :
  (names path).map Text.encode
    = ((Route.steps (route path)).foldl Step.leadFrom []).map Name.bytes
  := by
  rw [steps_route]
  have h : Mirrors [] [] := rfl
  apply h.foldl
  intro piece
  apply not_mem_of_mem_splitOn

end Path

/-! ### Trails straight from the root -/

namespace Trail

variable {tree : FileTree} {trail next : Trail}

theorem Leads.location_eq {taken : Step} (h : trail.Leads taken next) :
  next.location = taken.leadFrom trail.location
  := by
  cases h with
  | stay => rfl
  | up => apply location_up
  | down h => apply location_down h

/-- A walk leads to the location that its steps lead to. -/
theorem location_walk {steps : List Step} (h : trail.walk steps = .ok next) :
  next.location = steps.foldl Step.leadFrom trail.location
  := by
  induction steps generalizing trail with
  | nil =>
    obtain rfl := Except.ok.inj h
    rfl
  | cons first rest ih =>
    obtain ⟨middle, hf, h⟩ := walk_cons_eq_ok_iff.mp h
    rw [ih h, (leads_of_step hf).2.location_eq]
    rfl

/-- Whether a trail is what steps down from the root to the names on its way leave behind. -/
def IsStraight (tree : FileTree) (trail : Trail) : Prop :=
  tree.trail.walk (trail.location.map Step.down) = .ok trail

namespace IsStraight

theorem root (tree : FileTree) :
  tree.trail.IsStraight tree
  := rfl

theorem up (h : trail.IsStraight tree) :
  trail.up.IsStraight tree
  := by
  rcases List.eq_nil_or_concat trail.location with hl | ⟨init, last, hl⟩
  · obtain ⟨node, above⟩ := trail
    obtain rfl : above = [] := by simpa [location] using hl
    exact h
  · rw [IsStraight, hl, List.concat_eq_append, List.map_append, walk_append_eq_ok_iff] at h
    obtain ⟨parent, hp, h⟩ := h
    obtain ⟨reached, hs, h⟩ := walk_cons_eq_ok_iff.mp h
    obtain rfl := Except.ok.inj h
    obtain ⟨-, hs⟩ := leads_of_step hs
    cases hs with
    | down hs =>
      obtain ⟨-, -, ha⟩ := down_eq_ok hs
      have hu : reached.up = parent := by rw [Trail.up, ha]
      rw [IsStraight, location_up, hl, List.concat_eq_append, List.dropLast_concat, hu]
      exact hp

theorem step (h : trail.IsStraight tree) {taken : Step} (hs : trail.step taken = .ok next) :
  next.IsStraight tree
  := by
  obtain ⟨-, hl⟩ := leads_of_step hs
  cases hl with
  | stay => exact h
  | up => exact h.up
  | down hl =>
    rw [IsStraight, location_down hl, List.map_append, walk_append_eq_ok_iff]
    exact ⟨trail, h, walk_cons_eq_ok_iff.mpr ⟨next, hs, rfl⟩⟩

theorem walk (h : trail.IsStraight tree) {steps : List Step} (hs : trail.walk steps = .ok next) :
  next.IsStraight tree
  := by
  induction steps generalizing trail with
  | nil =>
    obtain rfl := Except.ok.inj hs
    exact h
  | cons first rest ih =>
    obtain ⟨middle, hf, hs⟩ := walk_cons_eq_ok_iff.mp hs
    apply ih (h.step hf) hs

end IsStraight

/-- Where a walk from the root leads, its names lead straight. -/
theorem walk_leadFrom {steps : List Step} (h : tree.trail.walk steps = .ok trail) :
  tree.trail.walk ((steps.foldl Step.leadFrom []).map Step.down) = .ok trail
  := by
  have hl := location_walk h
  have hs : trail.IsStraight tree := (IsStraight.root tree).walk h
  rw [IsStraight, hl] at hs
  exact hs

end Trail

/-! ### The steps of a normal path -/

theorem Step.ofPiece_bytes (name : Name) :
  ofPiece name.bytes = .down name
  := dif_pos name.proper

namespace Path

theorem steps_normalize {path : Text} (h : isAbsolute path = true) {location : Location}
    (hl : (Route.steps (route path)).foldl Step.leadFrom [] = location) :
  Route.steps (route (normalize path))
    = .stay :: if location = [] then [.stay] else location.map Step.down
  := by
  have hn := encode_names path
  rw [hl] at hn
  rw [normalize, if_pos h, steps_route, splitOn_slash_cons, List.map_cons, List.map_cons]
  congr 1
  split
  · rename_i he
    rw [he, List.map_nil, List.map_eq_nil_iff] at hn
    rw [hn]
    rfl
  · rename_i he
    have hne : names path ≠ [] := by
      intro hnil
      rw [hnil, List.map_nil, eq_comm, List.map_eq_nil_iff] at hn
      contradiction
    rw [Text.join,
      List.splitOn_intercalate '/' (fun name hm => (isName_of_mem_names hm).not_mem) hne,
      hn, List.map_map]
    congr 1
    funext name
    apply Step.ofPiece_bytes

/-! ### The size of a normal path -/

theorem reverse_climb_sublist (names : List Text) (piece : Text) :
  (climb names piece).reverse.Sublist (names.reverse ++ [piece])
  := by
  rw [climb]
  split
  · apply List.sublist_append_left
  · split
    · rw [← List.dropLast_reverse]
      exact (List.dropLast_sublist _).trans (List.sublist_append_left _ _)
    · rw [List.reverse_cons]

theorem reverse_foldl_climb_sublist (names pieces : List Text) :
  (pieces.foldl climb names).reverse.Sublist (names.reverse ++ pieces)
  := by
  induction pieces generalizing names with
  | nil => rw [List.foldl_nil, List.append_nil]
  | cons piece rest ih =>
    have h := (reverse_climb_sublist names piece).append (List.Sublist.refl rest)
    rw [List.append_assoc] at h
    exact (ih _).trans h

end Path

theorem Text.cons_join {separator : Char} {texts : List Text} (h : texts ≠ []) :
  separator :: join [separator] texts = texts.flatMap (separator :: ·)
  := by
  induction texts with
  | nil => contradiction
  | cons text rest ih =>
    cases rest with
    | nil => simp [join]
    | cons next rest =>
      rw [List.flatMap_cons, ← ih (by simp), join, join, List.intercalate_cons_cons]
      simp

namespace Path

/-- A normal path is made by leaving characters out. -/
theorem normalize_sublist {path : Text} (h : isAbsolute path = true) :
  (normalize path).Sublist path
  := by
  obtain ⟨rest, rfl⟩ := exists_eq_cons_of_isAbsolute h
  have hn : (names ('/' :: rest)).Sublist (rest.splitOn '/') := by
    rw [names, splitOn_slash_cons]
    exact reverse_foldl_climb_sublist [] (rest.splitOn '/')
  have hr : Text.join ['/'] (rest.splitOn '/') = rest := List.intercalate_splitOn '/'
  rw [normalize, if_pos h]
  cases he : names ('/' :: rest) with
  | nil =>
    apply List.Sublist.cons_cons
    apply List.nil_sublist
  | cons name others =>
    rw [he] at hn
    have hc : '/' :: Text.join ['/'] (rest.splitOn '/') = (rest.splitOn '/').flatMap ('/' :: ·) :=
      Text.cons_join (List.splitOn_ne_nil '/' rest)
    rw [hr] at hc
    rw [hc, Text.cons_join (by simp)]
    apply hn.flatMap

end Path

theorem Route.check_eq_ok_iff {route : Bytes} :
  check route = .ok () ↔ 0 ∉ route ∧ route ≠ [] ∧ route.length ≤ maxRouteSize
  := by
  rw [check]
  split
  · simp_all
  · split
    · simp_all
    · split <;> simp_all

theorem Path.check_normalize {path : Text} (h : isAbsolute path = true)
    (hc : Route.check (route path) = .ok ()) :
  Route.check (route (normalize path)) = .ok ()
  := by
  obtain ⟨hz, -, hl⟩ := Route.check_eq_ok_iff.mp hc
  have hs := Text.encode_sublist (normalize_sublist h)
  refine Route.check_eq_ok_iff.mpr ⟨fun hm => hz (hs.subset hm), ?_, hs.length_le.trans hl⟩
  have ha := isAbsolute_route (isStraight_normalize h).isAbsolute
  intro he
  rw [he] at ha
  contradiction

namespace FileTree

variable {tree : FileTree} {base : Location} {path : Text}

/-- Where an absolute path leads its normal form leads. -/
theorem find_normalize (h : Path.isAbsolute path = true) {trail : Trail}
    (hf : tree.find base (Path.route path) = .ok trail) :
  tree.find base (Path.route (Path.normalize path)) = .ok trail
  := by
  obtain ⟨hc, hw⟩ := find_eq_ok_iff.mp hf
  rw [Route.origin, if_pos (Path.isAbsolute_route h)] at hw
  have hs := Trail.walk_leadFrom hw
  refine find_eq_ok_iff.mpr ⟨Path.check_normalize h hc, ?_⟩
  have ha := Path.isAbsolute_route (Path.isStraight_normalize h).isAbsolute
  rw [Route.origin, if_pos ha, Path.steps_normalize h rfl]
  split
  · rename_i he
    rw [List.map_nil, List.nil_append] at hs
    rw [he] at hs
    exact hs
  · exact hs

/-- Whether a route names something with a name in a directory, be it there or not. -/
structure Names (tree : FileTree) (base : Location) (route : Bytes) (parent : Trail) (name : Name) :
    Prop where
  findParent_eq : tree.findParent base route = .ok parent
  name?_eq : Route.name? route = some name
  ne_slash : route.getLast? ≠ some slash

section

variable {route : Bytes} {parent : Trail} {name : Name}

/-- A route names something if its last step goes down from a directory that the others lead to. -/
theorem names_iff :
  tree.Names base route parent name
    ↔ Route.check route = .ok () ∧ parent.node.isDirectory = true
      ∧ ∃ before, Route.steps route = before ++ [.down name]
        ∧ tree.walk (Route.origin base route) before = .ok parent
  := by
  constructor
  · rintro ⟨hp, hn, hs⟩
    have hd := isDirectory_of_findParent hp
    obtain ⟨_, hc, hp⟩ := bind_eq_ok_iff.mp hp
    obtain ⟨trail, hw, hp⟩ := bind_eq_ok_iff.mp hp
    split at hp
    · obtain rfl := Except.ok.inj hp
      refine ⟨hc, hd, ?_⟩
      have ht := Route.trimSlashes_eq hs
      rw [Route.name?, ht] at hn
      obtain ⟨taken, hl, hn⟩ := Option.bind_eq_some_iff.mp hn
      obtain ⟨before, hb⟩ := List.getLast?_eq_some_iff.mp hl
      rw [name?_eq_some hn] at hb
      rw [Route.parentSteps, ht, hb, List.dropLast_concat] at hw
      exact ⟨before, hb, hw⟩
    · contradiction
  · rintro ⟨hc, hd, before, hb, hw⟩
    have hl : (Route.steps route).getLast? = some (.down name) := by
      rw [hb, List.getLast?_concat]
    have hs := Route.getLast?_ne_slash hl
    have ht := Route.trimSlashes_eq hs
    refine ⟨?_, ?_, hs⟩
    · rw [findParent, hc, Route.parentSteps, ht, hb, List.dropLast_concat, hw]
      exact if_pos hd
    · rw [Route.name?, ht, hl]
      rfl

/-- What is opened for writing is named. -/
theorem exists_names_of_openForWriting {disposition : Disposition} {mode : Nat}
    {result : FileTree × Location}
    (h : tree.openForWriting base route disposition mode = .ok result) :
  ∃ parent name, tree.Names base route parent name
  := by
  obtain ⟨parent, hp, h⟩ := bind_eq_ok_iff.mp h
  split at h
  · rename_i name hn
    split at h
    · contradiction
    · rename_i hs
      exact ⟨parent, name, hp, hn, hs⟩
  · contradiction

namespace Names

/-- To open what a route names is to open the name in the directory. -/
theorem openForWriting_eq (h : tree.Names base route parent name) (disposition : Disposition)
    (mode : Nat) :
  tree.openForWriting base route disposition mode = tree.openName parent name disposition mode
  := by
  rw [openForWriting, h.findParent_eq]
  simp only [bind, Except.bind, h.name?_eq, if_neg h.ne_slash]

/-- What an absolute path names its normal form names. -/
theorem normalize (h : tree.Names base (Path.route path) parent name)
    (ha : Path.isAbsolute path = true) :
  tree.Names base (Path.route (Path.normalize path)) parent name
  := by
  obtain ⟨hc, hd, before, hb, hw⟩ := names_iff.mp h
  rw [Route.origin, if_pos (Path.isAbsolute_route ha)] at hw
  have hl : (Route.steps (Path.route path)).foldl Step.leadFrom [] = parent.location ++ [name] := by
    rw [hb, List.foldl_append, Trail.location_walk hw]
    rfl
  have hn := Path.steps_normalize ha hl
  rw [if_neg (by simp), List.map_append, ← List.cons_append] at hn
  refine names_iff.mpr ⟨Path.check_normalize ha hc, hd, _, hn, ?_⟩
  have ha := Path.isAbsolute_route (Path.isStraight_normalize ha).isAbsolute
  rw [Route.origin, if_pos ha]
  rw [Trail.location_walk hw]
  apply Trail.walk_leadFrom hw

end Names

end

end FileTree

end CommandShell
