import CommandShell.Proofs.Encoding
import CommandShell.Proofs.Trie
import Mathlib.Data.List.Dedup

/-!
# Queries of gathered words

The words of a trie are collected at once, each of them counted once, or inserted one by one, each
of them counted as often as it comes (`Trie.gathered`).  The words that match a text are those that
begin with it, in increasing order (`Trie.matching_gathered`), and what is shared of a word is the
longest beginning that enough of the words have (`Trie.shared_gathered`).  So neither depends on the
order in which the words come.
-/

namespace CommandShell

namespace Text

/-- The texts in increasing order are those of a list without its repetitions. -/
theorem sortDistinct_perm_dedup (texts : List Text) :
  (sortDistinct texts).Perm texts.dedup
  := by
  have hs : (sortDistinct texts).Nodup := (pairwise_sortDistinct texts).imp ne_of_lt
  apply (List.perm_ext_iff_of_nodup hs texts.nodup_dedup).mpr
  simp

/-- A text is told by its beginnings. -/
theorem eq_of_prefix_iff {text other : Text} (h : ∀ start, start <+: text ↔ start <+: other) :
  text = other
  := by
  have hle := (h text).mp (List.prefix_refl text)
  have hge := (h other).mpr (List.prefix_refl other)
  apply hle.eq_of_length_le hge.length_le

end Text

namespace Trie

/-- The trie of words that are collected after others are inserted one by one. -/
def gathered (collected inserted : List Text) : Trie :=
  inserted.foldl insert (ofDistinct collected)

/-- How many words that are gathered begin with a text, where those that are collected count once
and those that are inserted as often as they come. -/
def tally (collected inserted : List Text) (start : Text) : Nat :=
  collected.dedup.countP start.isPrefixOf + inserted.countP start.isPrefixOf

theorem holds_gathered (collected inserted : List Text) :
  Holds (Text.sortDistinct collected ++ inserted) (gathered collected inserted)
  := (holds_ofDistinct collected).foldl_insert inserted

theorem mem_matching_gathered {collected inserted : List Text} {text word : Text} :
  word ∈ (gathered collected inserted).matching text
    ↔ word ∈ collected ++ inserted ∧ text <+: word
  := by
  rw [(holds_gathered collected inserted).mem_matching]
  simp

theorem pairwise_matching_gathered (collected inserted : List Text) (text : Text) :
  ((gathered collected inserted).matching text).Pairwise (· < ·)
  := (holds_gathered collected inserted).pairwise_matching text

/-- The words that match a text are those that begin with it, in strictly increasing order of their
characters and of the bytes that encode them, whatever the order and the number in which the words
come. -/
theorem matching_gathered (collected inserted : List Text) (text : Text) :
  let found := (gathered collected inserted).matching text
  found.Pairwise (· < ·)
    ∧ (found.map Text.encode).Pairwise (· < ·)
    ∧ (∀ word, word ∈ found ↔ word ∈ collected ++ inserted ∧ text <+: word)
    ∧ ∀ others others' : List Text,
      (∀ word, word ∈ others ++ others' ↔ word ∈ collected ++ inserted) →
        (gathered others others').matching text = found
  := by
  intro found
  have hp : found.Pairwise (· < ·) := pairwise_matching_gathered collected inserted text
  refine ⟨hp, ?_, fun word => mem_matching_gathered, ?_⟩
  · apply hp.map
    intro word other
    apply Text.encode_lt_encode
  · intro others others' h
    apply (pairwise_matching_gathered others others' text).eq_of_mem_iff hp
    intro word
    rw [mem_matching_gathered, mem_matching_gathered, h]

/-! ### Shared beginnings -/

/-- A beginning of a word that is empty or that enough texts have, and every other such beginning is
one of it. -/
structure IsLongestShared (count : Text → Nat) (word : Text) (threshold : Nat) (found : Text) :
    Prop where
  isBeginning : found <+: word
  isShared : found = [] ∨ max threshold 1 ≤ count found
  longest : ∀ start, start <+: word → start = [] ∨ max threshold 1 ≤ count start → start <+: found

/-- The beginnings that are shared are those that are empty or that enough of the words have. -/
theorem prefix_shared_gathered_iff {collected inserted : List Text} {start word : Text}
    {threshold : Nat} :
  start <+: (gathered collected inserted).shared word threshold
    ↔ start <+: word ∧ (start = [] ∨ max threshold 1 ≤ tally collected inserted start)
  := by
  rw [(holds_gathered collected inserted).prefix_shared_iff, List.countP_append, tally,
    (Text.sortDistinct_perm_dedup collected).countP_eq]

theorem tally_congr {collected inserted others others' : List Text}
    (ho : ∀ word, word ∈ others ↔ word ∈ collected) (hp : others'.Perm inserted) (start : Text) :
  tally others others' start = tally collected inserted start
  := by
  have hd : others.dedup.Perm collected.dedup := by
    apply (List.perm_ext_iff_of_nodup others.nodup_dedup collected.nodup_dedup).mpr
    simpa using ho
  rw [tally, tally, hd.countP_eq, hp.countP_eq]

/-- What is shared of a word is its longest beginning that is empty or that as many of the words
begin with as the threshold says, and one of them.  It does not depend on the order in which the
words come, a greater threshold leaves a beginning of it, and what is shared of it is all of it. -/
theorem shared_gathered (collected inserted : List Text) (word : Text) (threshold : Nat) :
  let trie := gathered collected inserted
  let found := trie.shared word threshold
  IsLongestShared (tally collected inserted) word threshold found
    ∧ (∀ others others' : List Text, (∀ word, word ∈ others ↔ word ∈ collected) →
      others'.Perm inserted → (gathered others others').shared word threshold = found)
    ∧ (∀ greater, threshold ≤ greater → trie.shared word greater <+: found)
    ∧ trie.shared found threshold = found
  := by
  intro trie found
  have hf {start : Text} : start <+: found
      ↔ start <+: word ∧ (start = [] ∨ max threshold 1 ≤ tally collected inserted start) :=
    prefix_shared_gathered_iff
  have hs := hf.mp (List.prefix_refl found)
  refine ⟨⟨hs.1, hs.2, fun start hw hc => hf.mpr ⟨hw, hc⟩⟩, ?_, ?_, ?_⟩
  · intro others others' ho hp
    apply Text.eq_of_prefix_iff
    intro start
    rw [prefix_shared_gathered_iff, tally_congr ho hp, hf]
  · intro greater hg
    obtain ⟨hw, hc⟩ := prefix_shared_gathered_iff.mp (List.prefix_refl (trie.shared word greater))
    apply hf.mpr ⟨hw, ?_⟩
    apply hc.imp_right
    omega
  · apply Text.eq_of_prefix_iff
    intro start
    rw [prefix_shared_gathered_iff, hf]
    apply and_iff_left_of_imp And.right

end Trie

end CommandShell
