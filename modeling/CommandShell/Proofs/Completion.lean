import CommandShell.Completion
import CommandShell.Proofs.Trie
import Mathlib.Data.List.Induction

/-!
# Answers to attempts at completion

The candidates of what is typed are the names that begin with it.  Whatever was attempted
before, one candidate is inserted with a space after it, several are completed as far as they
agree, and where that adds nothing the bell rings or they are listed
(`answers_complete_after`).  What is inserted is cut off a name after the bytes of what is typed,
and these end where a character does (`Completer.answerAtBytes?_eq_some`).
-/

namespace CommandShell

/-! ### What is typed -/

/-- The text before a position counted in bytes, or all of the line where no text before it
has that size. -/
inductive IsTyped (line : Text) (position : Nat) : Text → Prop
  | before {start : Text} (h : start <+: line) (size : start.size = position) :
      IsTyped line position start
  | whole (h : ∀ start : Text, start <+: line → start.size ≠ position) : IsTyped line position line

theorem isTyped_typed (line : Text) (position : Nat) :
  IsTyped line position (Completer.typed line position)
  := by
  rw [Completer.typed]
  cases h : Text.takeBytes? position line with
  | none =>
    apply IsTyped.whole
    intro start hs hn
    have ht := Text.takeBytes?_eq_some_iff.mpr ⟨hs, hn⟩
    simp [h] at ht
  | some start =>
    obtain ⟨hs, hn⟩ := Text.takeBytes?_eq_some_iff.mp h
    apply IsTyped.before hs hn

/-! ### Candidates -/

/-- Those of the names that begin with a text, in increasing order and each once. -/
def candidates (names : List Text) (start : Text) : List Text :=
  (Text.sortDistinct names).filter start.isPrefixOf

@[simp]
theorem mem_candidates {names : List Text} {start name : Text} :
  name ∈ candidates names start ↔ name ∈ names ∧ start <+: name
  := by
  simp [candidates]

theorem pairwise_candidates (names : List Text) (start : Text) :
  (candidates names start).Pairwise (· < ·)
  := (Text.pairwise_sortDistinct names).filter _

/-- The names of a trie that match a text are its candidates. -/
theorem matching_ofDistinct (names : List Text) (start : Text) :
  (Trie.ofDistinct names).matching start = candidates names start
  := by
  have h := Trie.holds_ofDistinct names
  apply (h.pairwise_matching start).eq_of_mem_iff (pairwise_candidates names start)
  intro name
  rw [h.mem_matching, Text.mem_sortDistinct, mem_candidates]

/-- A text that all of the names begin with, and every other such text is a beginning of it. -/
structure IsLongestCommonPrefix (stem : Text) (names : List Text) : Prop where
  common : ∀ name ∈ names, stem <+: name
  longest : ∀ other, (∀ name ∈ names, other <+: name) → other <+: stem

theorem IsLongestCommonPrefix.eq {stem other : Text} {names : List Text}
    (h : IsLongestCommonPrefix stem names) (ho : IsLongestCommonPrefix other names) :
  stem = other
  := by
  have hle := ho.longest stem h.common
  have hge := h.longest other ho.common
  apply hle.eq_of_length_le hge.length_le

/-- A beginning of a candidate is one of all candidates when at least as many names begin with
it. -/
theorem forall_candidates_prefix_iff {names : List Text} {start first other : Text}
    (hf : first ∈ candidates names start) (ho : other <+: first) :
  (∀ name ∈ candidates names start, other <+: name) ↔
    (candidates names start).length ≤ (Text.sortDistinct names).countP other.isPrefixOf
  := by
  have hs := (mem_candidates.mp hf).2
  have hlen : (candidates names start).length =
      (Text.sortDistinct names).countP start.isPrefixOf := by
    rw [candidates, List.countP_eq_length_filter]
  constructor
  · intro hall
    rw [hlen]
    apply List.countP_mono_left
    intro name hn hp
    rw [List.isPrefixOf_iff_prefix] at hp ⊢
    apply hall name
    rw [mem_candidates, ← Text.mem_sortDistinct]
    apply And.intro hn hp
  · intro hcount name hn
    rcases List.prefix_or_prefix_of_prefix ho hs with hp | hp
    · apply hp.trans (mem_candidates.mp hn).2
    · have hc : (candidates names start).countP other.isPrefixOf =
          (Text.sortDistinct names).countP other.isPrefixOf := by
        rw [candidates, List.countP_filter]
        apply List.countP_congr
        intro name _
        simp only [Bool.and_eq_true, List.isPrefixOf_iff_prefix, and_iff_left_iff_imp]
        apply hp.trans
      have heq : (candidates names start).countP other.isPrefixOf =
          (candidates names start).length := by
        apply le_antisymm List.countP_le_length
        rwa [hc]
      apply List.isPrefixOf_iff_prefix.mp
      apply List.countP_eq_length.mp heq name hn

/-- What all of the candidates share is what the branches share that as many names as there are
candidates go through. -/
theorem prefix_shared_candidates_iff {names : List Text} {start first other : Text}
    (hf : first ∈ candidates names start) :
  other <+: (Trie.ofDistinct names).shared first (candidates names start).length ↔
    ∀ name ∈ candidates names start, other <+: name
  := by
  have hpos : 0 < (candidates names start).length := List.length_pos_of_mem hf
  rw [(Trie.holds_ofDistinct names).prefix_shared_iff]
  constructor
  · rintro ⟨ho, hn | hcount⟩
    · rw [hn]
      intro name _
      apply List.nil_prefix
    · apply (forall_candidates_prefix_iff hf ho).mpr
      omega
  · intro hall
    have ho := hall first hf
    have hcount := (forall_candidates_prefix_iff hf ho).mp hall
    refine ⟨ho, .inr ?_⟩
    omega

theorem isLongestCommonPrefix_shared {names : List Text} {start first : Text}
    (hf : first ∈ candidates names start) :
  IsLongestCommonPrefix
    ((Trie.ofDistinct names).shared first (candidates names start).length)
    (candidates names start)
  := by
  constructor
  · apply (prefix_shared_candidates_iff hf).mp
    apply List.prefix_refl
  · intro other
    apply (prefix_shared_candidates_iff hf).mpr

/-- What is typed is a beginning of what the candidates share. -/
theorem prefix_shared_candidates {names : List Text} {start first : Text}
    (hf : first ∈ candidates names start) :
  start <+: (Trie.ofDistinct names).shared first (candidates names start).length
  := by
  apply (prefix_shared_candidates_iff hf).mpr
  intro name hn
  apply (mem_candidates.mp hn).2

/-! ### Answers -/

/-- The answers there can be for what is typed, by its candidates. -/
inductive Answers (start : Text) : List Text → Completion → Prop
  | none : Answers start [] .bell
  | unique (rest : Text) : Answers start [start ++ rest] (.insert (rest ++ [' ']))
  | stem {names : List Text} {rest : Text} (several : 2 ≤ names.length) (more : rest ≠ [])
      (stem : IsLongestCommonPrefix (start ++ rest) names) : Answers start names (.insert rest)
  | bell {names : List Text} (several : 2 ≤ names.length)
      (stem : IsLongestCommonPrefix start names) : Answers start names .bell
  | list {names : List Text} (several : 2 ≤ names.length)
      (stem : IsLongestCommonPrefix start names) : Answers start names (.list names)

/-- Several candidates are completed as far as they agree.  Where they agree on no more than is
typed, the bell rings or they are listed. -/
theorem Completer.answer_of_several {names : List Text} {start : Text}
    (several : 2 ≤ (candidates names start).length) :
  ∃ rest, IsLongestCommonPrefix (start ++ rest) (candidates names start) ∧ ∀ armed,
    answer (.ofDistinct names) armed start (candidates names start) =
      if rest ≠ [] then (.insert rest, false)
      else if armed then (.list (candidates names start), false) else (.bell, true)
  := by
  match hc : candidates names start with
  | [] => simp [hc] at several
  | [name] => simp [hc] at several
  | first :: second :: others =>
    have hf : first ∈ candidates names start := by
      simp [hc]
    have hstem := isLongestCommonPrefix_shared hf
    obtain ⟨rest, hrest⟩ := prefix_shared_candidates hf
    rw [hc] at hstem hrest
    rw [← hrest] at hstem
    refine ⟨rest, hstem, ?_⟩
    intro armed
    simp only [answer, ← hrest, Text.size_lt_size_append, List.drop_left]

theorem answers_answer (names : List Text) (armed : Bool) (start : Text) :
  Answers start (candidates names start)
    (Completer.answer (.ofDistinct names) armed start (candidates names start)).1
  := by
  by_cases several : 2 ≤ (candidates names start).length
  · obtain ⟨rest, hstem, ha⟩ := Completer.answer_of_several several
    rw [ha]
    split
    · rename_i hr
      apply Answers.stem several hr hstem
    · rename_i hr
      rw [not_not.mp hr, List.append_nil] at hstem
      split
      · apply Answers.list several hstem
      · apply Answers.bell several hstem
  · match hc : candidates names start with
    | [] => apply Answers.none
    | [name] =>
      have hf : name ∈ candidates names start := by
        simp [hc]
      obtain ⟨rest, rfl⟩ := (mem_candidates.mp hf).2
      rw [Completer.answer, List.drop_left]
      apply Answers.unique
    | first :: second :: others => simp [hc] at several

/-! ### Cutting at bytes -/

namespace Completer

/-- The answer for the candidates when a name is cut after as many bytes as are typed, unless
it ends before them or they end inside one of its characters. -/
def answerAtBytes? (trie : Trie) (armed : Bool) (typed : Text) :
    List Text → Option (Completion × Bool)
  | [] => some (.bell, false)
  | [name] => (Text.dropBytes? typed.size name).map fun rest => (.insert (rest ++ [' ']), false)
  | first :: others =>
    let stem := trie.shared first (first :: others).length
    if typed.size < stem.size then
      (Text.dropBytes? typed.size stem).map fun rest => (.insert rest, false)
    else if armed then some (.list (first :: others), false)
    else some (.bell, true)

/-- The answer to an attempt on a line at a position when names are cut at bytes, and what is
remembered of it. -/
def completeAtBytes? (completer : Completer) (line : Text) (position : Nat) :
    Option (Completion × Completer) :=
  let start := typed line position
  (answerAtBytes? completer.trie (completer.armedFor line) start
    (completer.trie.matching start)).map fun (completion, armed) =>
      (completion, { completer with lastLine := line, armed })

/-- A name is never cut where none of its characters starts, for what is typed is a beginning
of every text that is cut. -/
theorem answerAtBytes?_eq_some (names : List Text) (armed : Bool) (start : Text) :
  answerAtBytes? (Trie.ofDistinct names) armed start (candidates names start) =
    some (answer (Trie.ofDistinct names) armed start (candidates names start))
  := by
  cases hc : candidates names start with
  | nil => rfl
  | cons first others =>
    have hf : first ∈ candidates names start := by
      simp [hc]
    cases others with
    | nil =>
      obtain ⟨rest, rfl⟩ := (mem_candidates.mp hf).2
      rw [answerAtBytes?, answer, Text.dropBytes?_append, List.drop_left]
      rfl
    | cons second others =>
      obtain ⟨rest, hrest⟩ := prefix_shared_candidates hf
      rw [hc] at hrest
      simp only [answerAtBytes?, answer, ← hrest]
      split
      · rw [Text.dropBytes?_append, List.drop_left]
        rfl
      split <;> rfl

end Completer

/-! ### Attempts one after another -/

/-- An attempt at completion: a line, and a position in it counted in bytes. -/
structure Attempt where
  line : Text
  position : Nat
  deriving DecidableEq, Repr

namespace Completer

/-- The completer for some names after attempts, the first of them first. -/
def after (names : List Text) (attempts : List Attempt) : Completer :=
  attempts.foldl (fun completer attempt => (completer.complete attempt.line attempt.position).2)
    { trie := .ofDistinct names }

theorem after_append (names : List Text) (earlier : List Attempt) (attempt : Attempt) :
  after names (earlier ++ [attempt]) =
    ((after names earlier).complete attempt.line attempt.position).2
  := by
  rw [after, List.foldl_append]
  rfl

/-- Attempts leave the names as they are. -/
@[simp]
theorem trie_after (names : List Text) (attempts : List Attempt) :
  (after names attempts).trie = .ofDistinct names
  := by
  induction attempts using List.reverseRecOn with
  | nil => rfl
  | append_singleton earlier attempt ih =>
    rw [after_append]
    apply ih

end Completer

/-- After any attempts the answer to one more is among those that the candidates of what is
typed allow, and no name is cut inside one of its characters or after its end. -/
theorem answers_complete_after (names : List Text) (earlier : List Attempt) (line : Text)
    (position : Nat) :
  let start := Completer.typed line position
  let completer := Completer.after names earlier
  IsTyped line position start
    ∧ (candidates names start).Pairwise (· < ·)
    ∧ (∀ name, name ∈ candidates names start ↔ name ∈ names ∧ start <+: name)
    ∧ Answers start (candidates names start) (completer.complete line position).1
    ∧ completer.completeAtBytes? line position = some (completer.complete line position)
  := by
  intro start completer
  have ht : completer.trie = .ofDistinct names := Completer.trie_after names earlier
  refine ⟨isTyped_typed line position, pairwise_candidates names start,
    fun name => mem_candidates, ?_, ?_⟩
  · rw [Completer.complete, ht, matching_ofDistinct]
    apply answers_answer
  · rw [Completer.complete, Completer.completeAtBytes?, ht, matching_ofDistinct,
      Completer.answerAtBytes?_eq_some]
    rfl

end CommandShell
