import CommandShell.Proofs.Text
import CommandShell.Trie

/-!
# The words of a trie

Branches hold a list of words when each of them counts the words that begin with its
character, and what is below it holds what follows that character in them
(`Branches.Holds`).  One insertion adds its word to those that are held
(`Branches.Holds.insert`), so a trie made of a list holds that list (`Trie.holds_ofList`).
The queries then say what the words say: `Trie.mem_matching`, `Trie.pairwise_matching` and
`Trie.prefix_shared_iff`.
-/

namespace CommandShell

namespace Text

/-! ### Words by their first character -/

/-- What follows a character in those of the words that begin with it. -/
def after (c : Char) : List Text → List Text
  | [] => []
  | [] :: words => after c words
  | (d :: rest) :: words => if c = d then rest :: after c words else after c words

/-- Those of the words that do not begin with a character. -/
def apart (c : Char) (words : List Text) : List Text :=
  words.filter (fun word => word.head? ≠ some c)

@[simp]
theorem mem_after {c : Char} {rest : Text} {words : List Text} :
  rest ∈ after c words ↔ c :: rest ∈ words
  := by
  induction words with
  | nil => simp [after]
  | cons word words ih =>
    cases word with
    | nil => simp [after, ih]
    | cons d tail =>
      rw [after]
      split
      · rename_i h
        subst h
        simp [ih]
      · rename_i h
        simp [ih, h]

/-- No word begins with a character if nothing follows it in any. -/
theorem after_eq_nil_iff {c : Char} {words : List Text} :
  after c words = [] ↔ ∀ rest, c :: rest ∉ words
  := by
  rw [List.eq_nil_iff_forall_not_mem]
  simp

/-- The words apart from a character are those that do not begin with it. -/
@[simp]
theorem mem_apart {c : Char} {word : Text} {words : List Text} :
  word ∈ apart c words ↔ word ∈ words ∧ word.head? ≠ some c
  := by
  simp [apart]

theorem after_append (c : Char) (words others : List Text) :
  after c (words ++ others) = after c words ++ after c others
  := by
  induction words with
  | nil => rfl
  | cons word words ih =>
    cases word with
    | nil => simp [after, ih]
    | cons d tail =>
      rw [List.cons_append, after, after, ih]
      split <;> rfl

/-- What follows a character is not changed where the words of another are left out. -/
theorem after_apart {c d : Char} (h : c ≠ d) (words : List Text) :
  after c (apart d words) = after c words
  := by
  induction words with
  | nil => rfl
  | cons word words ih =>
    cases word with
    | nil => simpa [apart, after] using ih
    | cons e tail =>
      by_cases he : e = d
      · subst he
        simpa [apart, after, h] using ih
      · have ha : apart d ((e :: tail) :: words) = (e :: tail) :: apart d words := by
          simp [apart, he]
        rw [ha, after, after, ih]

/-- Nothing follows a character where its words are left out. -/
theorem after_apart_self (c : Char) (words : List Text) :
  after c (apart c words) = []
  := by
  rw [after_eq_nil_iff]
  simp

/-- The words that begin with a text after a character are counted by what follows it. -/
theorem countP_after (c : Char) (start : Text) (words : List Text) :
  (after c words).countP start.isPrefixOf = words.countP (c :: start).isPrefixOf
  := by
  induction words with
  | nil => rfl
  | cons word words ih =>
    cases word with
    | nil => simp [after, ih]
    | cons d tail =>
      rw [after]
      split
      · rename_i h
        subst h
        simp [List.countP_cons, ih]
      · rename_i h
        simp [ih, h]

end Text

namespace Branches

open Text

/-! ### Insertion -/

/-- Branches hold words when they lead to what the words are.  The first of them is for those
that begin with the least character, and it counts what follows that character in them. -/
inductive Holds : List Text → Branches → Prop
  | none {words : List Text} (blank : ∀ word ∈ words, word = []) :
      Holds words .none
  | branch {words tails : List Text} {c : Char} {below others : Branches}
      (htails : after c words = tails) (hne : tails ≠ [])
      (least : ∀ d rest, d :: rest ∈ words → c ≤ d)
      (hbelow : Holds tails below) (hothers : Holds (apart c words) others) :
      Holds words (.branch c tails.length (decide ([] ∈ tails)) below others)

variable {words : List Text} {branches : Branches}

/-- Branches hold words by what follows each character in them. -/
theorem Holds.congr {others : List Text} (h : Holds words branches)
    (ha : ∀ c, after c others = after c words) :
  Holds others branches
  := by
  have hmem {c : Char} {rest : Text} : c :: rest ∈ others ↔ c :: rest ∈ words := by
    rw [← mem_after, ← mem_after, ha]
  induction h generalizing others with
  | none blank =>
    apply Holds.none
    intro word hw
    cases word with
    | nil => rfl
    | cons c rest => apply blank _ (hmem.mp hw)
  | @branch words tails c below siblings htails hne least hbelow hothers _ ih =>
    have hd (d : Char) : after d (apart c others) = after d (apart c words) := by
      by_cases hdc : d = c
      · rw [hdc, after_apart_self, after_apart_self]
      · rw [after_apart hdc, after_apart hdc, ha]
    apply Holds.branch ((ha c).trans htails) hne
    · intro d rest hw
      apply least d rest (hmem.mp hw)
    · apply hbelow
    · apply ih hd
      intro d rest
      rw [← mem_after, ← mem_after, hd]

/-- The empty word has no branch. -/
theorem Holds.append_nil (h : Holds words branches) :
  Holds (words ++ [[]]) branches
  := by
  apply h.congr
  intro c
  rw [after_append]
  apply List.append_nil

theorem le_of_mem_append {c d : Char} {rest : Text} (h : d ≤ c)
    (least : ∀ e tail, e :: tail ∈ words → d ≤ e) :
  ∀ e tail, e :: tail ∈ words ++ [c :: rest] → d ≤ e
  := by
  intro e tail he
  rcases List.mem_append.mp he with he | he
  · apply least e tail he
  · simp only [List.mem_singleton, List.cons.injEq] at he
    rwa [he.1]

/-- A word that begins with a character before those of the others has a branch of its own. -/
theorem Holds.before {c : Char} {rest : Text} {below others : Branches} (h : Holds words others)
    (hbelow : Holds [rest] below) (first : ∀ d tail, d :: tail ∈ words → c < d) :
  Holds (words ++ [c :: rest]) (.branch c 1 rest.isEmpty below others)
  := by
  have hn : after c words = [] := by
    rw [after_eq_nil_iff]
    intro tail ht
    apply lt_irrefl c (first c tail ht)
  have hr : after c (words ++ [c :: rest]) = [rest] := by
    rw [after_append, hn]
    simp [after]
  have he : rest.isEmpty = decide ([] ∈ [rest]) := by
    cases rest <;> simp
  rw [he]
  apply Holds.branch hr
  · simp
  · apply le_of_mem_append (le_refl c)
    intro d tail hd
    apply le_of_lt (first d tail hd)
  · apply hbelow
  · apply h.congr
    intro d
    by_cases hd : d = c
    · rw [hd, after_apart_self, hn]
    · rw [after_apart hd, after_append]
      simp [after, hd]

/-- The branches of a single word hold it. -/
theorem holds_single (word : Text) :
  Holds [word] (single word)
  := by
  induction word with
  | nil =>
    apply Holds.none
    simp
  | cons c rest ih =>
    apply Holds.before (Holds.none ?_ : Holds [] .none) ih
    · simp
    · simp

/-- One insertion adds its word to those that are held. -/
theorem Holds.insert (h : Holds words branches) (word : Text) :
  Holds (words ++ [word]) (branches.insert word)
  := by
  induction h generalizing word with
  | none blank =>
    cases word with
    | nil => apply (Holds.none blank).append_nil
    | cons c rest =>
      apply (Holds.none blank).before (holds_single rest)
      intro d tail hd
      have hb := blank _ hd
      contradiction
  | @branch words tails d below others htails hne least hbelow hothers ihb iho =>
    have h := Holds.branch htails hne least hbelow hothers
    cases word with
    | nil => apply h.append_nil
    | cons c rest =>
      rw [Branches.insert]
      split
      · rename_i hlt
        apply h.before (holds_single rest)
        intro e tail he
        apply lt_of_lt_of_le hlt (least e tail he)
      split
      · rename_i hcd
        subst hcd
        have hr : after c (words ++ [c :: rest]) = tails ++ [rest] := by
          rw [after_append, htails]
          simp [after]
        have hl : tails.length + 1 = (tails ++ [rest]).length := by
          simp
        have he : (decide ([] ∈ tails) || rest.isEmpty) = decide ([] ∈ tails ++ [rest]) := by
          cases rest <;> simp
        have hp : apart c (words ++ [c :: rest]) = apart c words := by
          simp [apart]
        rw [hl, he]
        apply Holds.branch hr
        · simp
        · apply le_of_mem_append (le_refl c) least
        · apply ihb
        · rwa [hp]
      · rename_i hlt hcd
        have hr : after d (words ++ [c :: rest]) = tails := by
          rw [after_append, htails]
          simp [after, Ne.symm hcd]
        have hp : apart d (words ++ [c :: rest]) = apart d words ++ [c :: rest] := by
          simp [apart, hcd]
        apply Holds.branch hr hne
        · apply le_of_mem_append (le_of_not_gt hlt) least
        · apply hbelow
        · rw [hp]
          apply iho

/-- The branch of a character, if there is one, is that of the words that begin with it. -/
theorem Holds.find? (h : Holds words branches) (c : Char) :
  (branches.find? c = .none ∧ after c words = []) ∨
    ∃ below, branches.find? c =
      some ((after c words).length, decide ([] ∈ after c words), below) ∧
      after c words ≠ [] ∧ Holds (after c words) below
  := by
  induction h with
  | none blank =>
    left
    refine ⟨rfl, after_eq_nil_iff.mpr ?_⟩
    intro rest hr
    have hb := blank _ hr
    contradiction
  | @branch words tails d below others htails hne least hbelow hothers _ ih =>
    rw [Branches.find?]
    split
    · rename_i hcd
      subst hcd
      subst htails
      right
      apply Exists.intro below ⟨rfl, hne, hbelow⟩
    · rename_i hcd
      rwa [after_apart hcd] at ih

/-! ### Queries -/

/-- The words that begin with nothing are all of them. -/
theorem matching_nil (path : Text) (ends : Bool) (branches : Branches) :
  branches.matching path ends [] = (if ends then [path.reverse] else []) ++ branches.words path
  := rfl

/-- The words of branches are those of the first one and then those of the others. -/
theorem words_branch (path : Text) (c : Char) (count : Nat) (ends : Bool)
    (below others : Branches) :
  Branches.words path (.branch c count ends below others) =
    below.matching (c :: path) ends [] ++ others.words path
  := rfl

theorem mem_matching_nil {path word : Text}
    (h : word ∈ branches.words path ↔ ∃ rest ∈ words, rest ≠ [] ∧ path.reverse ++ rest = word) :
  word ∈ branches.matching path (decide ([] ∈ words)) [] ↔
    ∃ rest ∈ words, path.reverse ++ rest = word
  := by
  rw [matching_nil, List.mem_append, h]
  constructor
  · rintro (hw | ⟨rest, hr, -, rfl⟩)
    · by_cases hn : [] ∈ words
      · refine ⟨[], hn, ?_⟩
        simpa [hn, eq_comm] using hw
      · simp [hn] at hw
    · apply Exists.intro rest ⟨hr, rfl⟩
  · rintro ⟨rest, hr, rfl⟩
    cases rest with
    | nil =>
      left
      simp [hr]
    | cons c rest =>
      right
      refine ⟨c :: rest, hr, by simp, rfl⟩

/-- The words of branches are those that are held and are not empty, after the path. -/
theorem Holds.mem_words (h : Holds words branches) {path word : Text} :
  word ∈ branches.words path ↔ ∃ rest ∈ words, rest ≠ [] ∧ path.reverse ++ rest = word
  := by
  induction h generalizing path with
  | none blank =>
    simp only [Branches.words, List.not_mem_nil, false_iff]
    rintro ⟨rest, hr, hne, -⟩
    apply hne (blank rest hr)
  | @branch words tails c below others htails hne least hbelow hothers ihb iho =>
    subst htails
    rw [words_branch, List.mem_append, mem_matching_nil ihb, iho]
    constructor
    · rintro (⟨rest, hr, rfl⟩ | ⟨rest, hr, hne, rfl⟩)
      · refine ⟨c :: rest, mem_after.mp hr, by simp, by simp⟩
      · refine ⟨rest, (mem_apart.mp hr).1, hne, rfl⟩
    · rintro ⟨rest, hr, hne, rfl⟩
      obtain ⟨d, tail, rfl⟩ := List.exists_cons_of_ne_nil hne
      by_cases hd : d = c
      · left
        subst hd
        refine ⟨tail, mem_after.mpr hr, by simp⟩
      · right
        refine ⟨d :: tail, mem_apart.mpr ⟨hr, ?_⟩, hne, rfl⟩
        simpa using hd

theorem Holds.pairwise_matching_nil (h : Holds words branches) (path : Text) (ends : Bool)
    (hp : (branches.words path).Pairwise (· < ·)) :
  (branches.matching path ends []).Pairwise (· < ·)
  := by
  rw [matching_nil]
  split
  · apply List.pairwise_cons.mpr
    refine ⟨?_, hp⟩
    intro word hw
    obtain ⟨rest, -, hne, rfl⟩ := h.mem_words.mp hw
    obtain ⟨c, rest, rfl⟩ := List.exists_cons_of_ne_nil hne
    have hlt : path.reverse ++ [] < path.reverse ++ c :: rest := by
      apply List.append_left_lt
      simp
    simpa using hlt
  · apply hp

/-- The words of branches stand in increasing order. -/
theorem Holds.pairwise_words (h : Holds words branches) (path : Text) :
  (branches.words path).Pairwise (· < ·)
  := by
  induction h generalizing path with
  | none blank => apply List.Pairwise.nil
  | @branch words tails c below others htails hne least hbelow hothers ihb iho =>
    rw [words_branch]
    apply List.pairwise_append.mpr
    refine ⟨hbelow.pairwise_matching_nil (c :: path) _ (ihb _), iho _, ?_⟩
    intro first hf second hs
    rw [mem_matching_nil hbelow.mem_words] at hf
    obtain ⟨tail, -, rfl⟩ := hf
    obtain ⟨rest, hr, hne, rfl⟩ := hothers.mem_words.mp hs
    obtain ⟨d, rest, rfl⟩ := List.exists_cons_of_ne_nil hne
    obtain ⟨hd, hdc⟩ := mem_apart.mp hr
    rw [List.reverse_cons, List.append_assoc]
    apply List.append_left_lt
    apply List.cons_lt_cons_iff.mpr
    left
    apply lt_of_le_of_ne (least d rest hd)
    rintro rfl
    simp at hdc

/-- The words that match a text are those that begin with it. -/
theorem Holds.mem_matching (h : Holds words branches) {path text word : Text} :
  word ∈ branches.matching path (decide ([] ∈ words)) text ↔
    ∃ rest ∈ words, text <+: rest ∧ path.reverse ++ rest = word
  := by
  induction text generalizing words branches path with
  | nil =>
    rw [mem_matching_nil h.mem_words]
    simp
  | cons c text ih =>
    rw [matching]
    have hcons : (∃ rest ∈ words, c :: text <+: rest ∧ path.reverse ++ rest = word) ↔
        ∃ rest ∈ after c words, text <+: rest ∧ (c :: path).reverse ++ rest = word := by
      constructor
      · rintro ⟨_, hr, ⟨tail, rfl⟩, rfl⟩
        refine ⟨text ++ tail, mem_after.mpr hr, by simp, by simp⟩
      · rintro ⟨rest, hr, hp, rfl⟩
        refine ⟨c :: rest, mem_after.mp hr, by simpa using hp, by simp⟩
    rw [hcons]
    rcases h.find? c with ⟨hf, ha⟩ | ⟨below, hf, -, hbelow⟩
    · simp [hf, ha]
    · simp only [hf]
      apply ih hbelow

/-- The words that match a text come in strictly increasing order. -/
theorem Holds.pairwise_matching (h : Holds words branches) (path : Text) (ends : Bool)
    (text : Text) :
  (branches.matching path ends text).Pairwise (· < ·)
  := by
  induction text generalizing words branches path ends with
  | nil => apply h.pairwise_matching_nil path ends (h.pairwise_words path)
  | cons c text ih =>
    rw [matching]
    rcases h.find? c with ⟨hf, -⟩ | ⟨below, hf, -, hbelow⟩
    · simp [hf]
    · simp only [hf]
      apply ih hbelow

/-- The beginnings of a word that are shared are those that are empty or that at least
`threshold` of the words, and one of them, begin with. -/
theorem Holds.prefix_shared_iff (h : Holds words branches) {threshold : Nat} {start word : Text} :
  start <+: branches.shared threshold word ↔
    start <+: word ∧ (start = [] ∨ max threshold 1 ≤ words.countP start.isPrefixOf)
  := by
  induction word generalizing words branches start with
  | nil =>
    rw [shared, List.prefix_nil]
    constructor
    · intro hs
      apply And.intro hs (.inl hs)
    · apply And.left
  | cons c word ih =>
    cases start with
    | nil => simp
    | cons d start =>
      rw [shared, List.cons_prefix_cons]
      by_cases hd : d = c
      · subst hd
        have hc := countP_after d start words
        rcases h.find? d with ⟨hf, ha⟩ | ⟨below, hf, hne, hbelow⟩
        · rw [ha, List.countP_nil] at hc
          simp [hf, ← hc]
        have hle : (after d words).countP start.isPrefixOf ≤ (after d words).length :=
          List.countP_le_length
        have hpos := List.length_pos_iff.mpr hne
        simp only [hf, true_and, reduceCtorEq, false_or, ← hc]
        split
        · rename_i hcount
          have hall : start = [] → max threshold 1 ≤ (after d words).countP start.isPrefixOf := by
            rintro rfl
            have hl : (after d words).countP [].isPrefixOf = (after d words).length := by
              simp
            omega
          rw [List.cons_prefix_cons, ih hbelow]
          tauto
        · rw [List.prefix_nil]
          simp only [reduceCtorEq, false_iff, not_and]
          intro _
          omega
      · have hn : ∀ tail, ¬ d :: start <+: c :: tail := by
          intro tail ht
          apply hd (List.cons_prefix_cons.mp ht).1
        simp only [hd, false_and, iff_false]
        split
        · split
          · apply hn
          · simp
        · simp

end Branches

namespace Trie

/-! ### Tries -/

/-- A trie holds words when its branches do, and it ends where the empty word is one. -/
structure Holds (words : List Text) (trie : Trie) : Prop where
  ends : trie.ends = decide ([] ∈ words)
  branches : trie.branches.Holds words

variable {words : List Text} {trie : Trie}

theorem holds_empty :
  Holds [] {}
  := by
  constructor
  · rfl
  · apply Branches.Holds.none
    simp

/-- A trie holds a word that is inserted, with the words from before. -/
theorem Holds.insert (h : Holds words trie) (word : Text) :
  Holds (words ++ [word]) (trie.insert word)
  := by
  constructor
  · cases word <;> simp [Trie.insert, h.ends]
  · apply h.branches.insert

theorem Holds.foldl_insert (h : Holds words trie) (others : List Text) :
  Holds (words ++ others) (others.foldl Trie.insert trie)
  := by
  induction others generalizing words trie with
  | nil => simpa using h
  | cons word others ih =>
    rw [List.append_cons]
    apply ih (h.insert word)

/-- A trie made of a list of words holds them, each as often as it is there. -/
theorem holds_ofList (words : List Text) :
  Holds words (ofList words)
  := holds_empty.foldl_insert words

/-- A trie of distinct words holds them in increasing order. -/
theorem holds_ofDistinct (words : List Text) :
  Holds (Text.sortDistinct words) (ofDistinct words)
  := holds_ofList _

/-- The words that match a text are those that begin with it. -/
theorem Holds.mem_matching (h : Holds words trie) {text word : Text} :
  word ∈ trie.matching text ↔ word ∈ words ∧ text <+: word
  := by
  rw [matching, h.ends, h.branches.mem_matching]
  simp [and_comm]

theorem Holds.pairwise_matching (h : Holds words trie) (text : Text) :
  (trie.matching text).Pairwise (· < ·)
  := h.branches.pairwise_matching _ _ _

/-- The shared beginning goes on as long as enough words begin with it. -/
theorem Holds.prefix_shared_iff (h : Holds words trie) {start word : Text} {threshold : Nat} :
  start <+: trie.shared word threshold ↔
    start <+: word ∧ (start = [] ∨ max threshold 1 ≤ words.countP start.isPrefixOf)
  := h.branches.prefix_shared_iff

end Trie

end CommandShell
