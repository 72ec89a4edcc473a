import CommandShell.Text
import Mathlib.Data.Char
import Mathlib.Data.List.Lex
import Mathlib.Data.List.Sort

/-!
# Sizes and order of texts

`Text.takeBytes?` gives the beginning of a text that has a certain size, if it has one
(`Text.takeBytes?_eq_some_iff`), and `Text.dropBytes?` what follows it
(`Text.dropBytes?_append`).  `Text.sortDistinct` gives the same texts in strictly increasing
order (`Text.mem_sortDistinct`, `Text.pairwise_sortDistinct`).
-/

namespace CommandShell

namespace Text

/-! ### Sizes -/

@[simp]
theorem size_nil :
  size [] = 0
  := rfl

@[simp]
theorem size_cons (c : Char) (text : Text) :
  size (c :: text) = c.utf8Size + size text
  := rfl

@[simp]
theorem size_append (before after : Text) :
  size (before ++ after) = size before + size after
  := by
  induction before with
  | nil => simp
  | cons c before ih => simp [ih, Nat.add_assoc]

/-- Only the empty text has no bytes. -/
@[simp]
theorem size_eq_zero {text : Text} :
  size text = 0 ↔ text = []
  := by
  cases text with
  | nil => simp
  | cons c text =>
    have hc := c.utf8Size_pos
    simp
    omega

/-- A text has fewer bytes than one that begins with it and goes on. -/
theorem size_lt_size_append {before after : Text} :
  size before < size (before ++ after) ↔ after ≠ []
  := by
  rw [size_append, Nat.lt_add_right_iff_pos, Nat.pos_iff_ne_zero, Ne, size_eq_zero]

/-- The first bytes of a text make a text where a beginning of it has that size. -/
theorem takeBytes?_eq_some_iff {n : Nat} {text before : Text} :
  takeBytes? n text = some before ↔ before <+: text ∧ size before = n
  := by
  induction text generalizing n before with
  | nil =>
    cases n with
    | zero => cases before <;> simp [takeBytes?]
    | succ n =>
      simp only [takeBytes?, List.prefix_nil, reduceCtorEq, false_iff, not_and]
      rintro rfl
      simp
  | cons c text ih =>
    have hc := c.utf8Size_pos
    cases n with
    | zero =>
      rw [takeBytes?, Option.some.injEq, size_eq_zero]
      constructor
      · rintro rfl
        exact ⟨List.nil_prefix, rfl⟩
      · rintro ⟨-, rfl⟩
        rfl
    | succ n =>
      cases before with
      | nil =>
        rw [takeBytes?]
        split <;> simp
      | cons d before =>
        rw [takeBytes?, List.cons_prefix_cons, size_cons]
        split
        · rw [Option.map_eq_some_iff]
          simp only [ih, List.cons.injEq]
          constructor
          · rintro ⟨_, ⟨hp, hs⟩, rfl, rfl⟩
            refine ⟨⟨rfl, hp⟩, ?_⟩
            omega
          · rintro ⟨⟨rfl, hp⟩, hs⟩
            use before
            refine ⟨⟨hp, ?_⟩, rfl, rfl⟩
            omega
        · simp only [reduceCtorEq, false_iff, not_and]
          rintro ⟨rfl, -⟩
          omega

/-- What follows a beginning of a text follows the bytes of that beginning. -/
theorem dropBytes?_append (before after : Text) :
  dropBytes? (size before) (before ++ after) = some after
  := by
  induction before with
  | nil => cases after <;> rfl
  | cons c before ih =>
    have hc := c.utf8Size_pos
    obtain ⟨n, hn⟩ : ∃ n, size (c :: before) = n + 1 := by
      use c.utf8Size + size before - 1
      rw [size_cons]
      omega
    have hr : n + 1 - c.utf8Size = size before := by
      rw [size_cons] at hn
      omega
    have hle : c.utf8Size ≤ n + 1 := by
      rw [size_cons] at hn
      omega
    rw [hn, List.cons_append, dropBytes?, if_pos hle, hr, ih]

/-! ### Order -/

/-- A text that is put at its place is among the texts, and so are those from before. -/
theorem mem_insertSorted {text other : Text} {texts : List Text} :
  other ∈ insertSorted text texts ↔ other = text ∨ other ∈ texts
  := by
  induction texts with
  | nil => simp [insertSorted]
  | cons first rest ih =>
    rw [insertSorted]
    split
    · simp
    split
    · rename_i h
      simp [h]
    · simp only [List.mem_cons, ih]
      tauto

/-- Texts in strictly increasing order stay in it when another one is put at its place. -/
theorem pairwise_insertSorted (text : Text) {texts : List Text} (h : texts.Pairwise (· < ·)) :
  (insertSorted text texts).Pairwise (· < ·)
  := by
  induction texts with
  | nil => simp [insertSorted]
  | cons first rest ih =>
    obtain ⟨hf, hr⟩ := List.pairwise_cons.mp h
    rw [insertSorted]
    split
    · rename_i hlt
      apply List.pairwise_cons.mpr
      refine ⟨?_, h⟩
      intro other ho
      rcases List.mem_cons.mp ho with rfl | ho
      · apply hlt
      · apply lt_trans hlt (hf other ho)
    split
    · apply h
    · rename_i hlt hne
      apply List.pairwise_cons.mpr
      refine ⟨?_, ih hr⟩
      intro other ho
      rcases mem_insertSorted.mp ho with rfl | ho
      · apply lt_of_le_of_ne (not_lt.mp hlt) (Ne.symm hne)
      · apply hf other ho

/-- The texts that are sorted are those that there were. -/
@[simp]
theorem mem_sortDistinct {text : Text} {texts : List Text} :
  text ∈ sortDistinct texts ↔ text ∈ texts
  := by
  induction texts with
  | nil => rfl
  | cons first rest ih =>
    rw [sortDistinct, List.foldr_cons, mem_insertSorted, ← sortDistinct, ih, List.mem_cons]

/-- Sorted texts are in strictly increasing order, so each is there once. -/
theorem pairwise_sortDistinct (texts : List Text) :
  (sortDistinct texts).Pairwise (· < ·)
  := by
  induction texts with
  | nil => apply List.Pairwise.nil
  | cons first rest ih => apply pairwise_insertSorted first ih

end Text

end CommandShell
