import CommandShell.Proofs.Stage
import CommandShell.Token
import Mathlib.Tactic.SplitIfs

/-!
# Words that are read again

A stage is cut into words where blanks are bare, and what stands before such a blank is closed
(`unbroken_or_blank_first`).  So a word that is written on its own reads as it did in its stage: it
is that single word (`Word.words_raw`), and its text is what is left of it without its marks
(`Word.unquote_raw`).  One after another the words have every character of the stage but the blanks
that are read bare (`words_reread`).
-/

namespace CommandShell

/-- Whether a text reads without blanks that separate. -/
def Text.IsUnbroken (text : Text) : Prop :=
  ∀ glyph ∈ Glyph.read .bare text, glyph.role ≠ .blank

/-- A text that is read from a quoting, without the blanks that are read bare. -/
def unblanked (quoting : Quoting) (text : Text) : Text :=
  ((text.zip (quoting.along text)).filter fun (c, quoting) =>
    !(isBlank c && decide (quoting = .bare))).map Prod.fst

/-- A character separates if it is a blank that is read bare. -/
theorem Quoting.read_eq_blank_iff {quoting : Quoting} {c : Char} {next : Option Char} :
  (quoting.read c next).1 = .blank ↔ isBlank c = true ∧ quoting = .bare
  := by
  cases quoting with
  | bare =>
    simp only [read]
    split
    · simp_all
    · split_ifs <;> simp_all
  | single =>
    simp only [read]
    split_ifs <;> simp
  | double =>
    simp only [read]
    split_ifs <;> simp
  | escaped inDouble => simp [read]

/-- What is read from a quoting has no blank that separates, or it has a first one. -/
theorem Quoting.Agrees.unbroken_or_blank_first {passing reading : Quoting} {stage : Text}
    (h : passing.Agrees reading stage.head?) :
  (∀ glyph ∈ Glyph.read reading stage, glyph.role ≠ .blank)
    ∨ ∃ before c after, stage = before ++ c :: after ∧ isBlank c = true
      ∧ before.foldl Quoting.pass passing = .bare
      ∧ ∀ glyph ∈ Glyph.read reading before, glyph.role ≠ .blank
  := by
  induction stage generalizing passing reading with
  | nil =>
    left
    nofun
  | cons c rest ih =>
    by_cases hr : (reading.read c rest.head?).1 = .blank
    · obtain ⟨hb, rfl⟩ := read_eq_blank_iff.mp hr
      right
      refine ⟨[], c, rest, rfl, hb, ?_, nofun⟩
      cases h
      rfl
    · rcases ih (h.step rest.head?) with hu | ⟨before, d, after, rfl, hd, hc, hu⟩
      · left
        rw [Glyph.read, List.forall_mem_cons]
        exact ⟨hr, hu⟩
      · right
        refine ⟨c :: before, d, after, rfl, hd, hc, ?_⟩
        have hn : reading.read c before.head? = reading.read c (before ++ d :: after).head? := by
          cases before with
          | nil => apply h.read_congr _ _ hc
          | cons e before => rfl
        rw [Glyph.read, hn, List.forall_mem_cons]
        exact ⟨hr, hu⟩

/-- A stage has no blank that separates, or it has a first one, and what stands before that is
closed. -/
theorem unbroken_or_blank_first (stage : Text) :
  stage.IsUnbroken
    ∨ ∃ (before : Text) (c : Char) (after : Text), stage = before ++ c :: after
      ∧ isBlank c = true ∧ before.IsClosed ∧ before.IsUnbroken
  := (Quoting.Agrees.same .bare stage.head?).unbroken_or_blank_first

/-- What holds of every text without a blank that separates, and of a stage with one when it holds
of what follows its first one, holds of every stage. -/
theorem blank_induction {motive : Text → Prop}
    (unbroken : ∀ stage : Text, stage.IsUnbroken → motive stage)
    (broken : ∀ (before : Text) (c : Char) (after : Text), before.IsUnbroken → before.IsClosed →
      isBlank c = true → motive after → motive (before ++ c :: after))
    (stage : Text) :
  motive stage
  := by
  rcases unbroken_or_blank_first stage with h | ⟨before, c, after, rfl, hb, hc, hu⟩
  · apply unbroken stage h
  · apply broken before c after hu hc hb
    apply blank_induction unbroken broken after
  termination_by stage.length
  decreasing_by
    subst stage
    simp
    omega

/-- A text without a blank that separates is a single word, unless it is empty. -/
theorem Text.IsUnbroken.words_eq {text : Text} (h : text.IsUnbroken) (hne : text ≠ []) :
  words text = [⟨Glyph.read .bare text⟩]
  := by
  have hr : Glyph.read .bare text ≠ [] := by
    intro hr
    apply hne
    rw [← map_char_read .bare text, hr]
    rfl
  rw [words, runs_of_uncut hr]
  · rfl
  · intro glyph hg
    simpa using h glyph hg

/-- The words of a stage are texts without blanks that separate, read on their own. -/
theorem exists_unbroken_of_mem_words {stage : Text} {word : Word} (h : word ∈ words stage) :
  ∃ text : Text, text ≠ [] ∧ text.IsUnbroken ∧ word = ⟨Glyph.read .bare text⟩
  := by
  have hunbroken : ∀ text : Text, text.IsUnbroken → word ∈ words text →
      ∃ text : Text, text ≠ [] ∧ text.IsUnbroken ∧ word = ⟨Glyph.read .bare text⟩ := by
    intro text hu hm
    have hne : text ≠ [] := by
      rintro rfl
      contradiction
    rw [hu.words_eq hne, List.mem_singleton] at hm
    exact ⟨text, hne, hu, hm⟩
  induction stage using blank_induction with
  | unbroken stage hu => apply hunbroken stage hu h
  | broken before c after hu hc hb ih =>
    rw [words_append_blank hc hb, List.mem_append] at h
    rcases h with h | h
    · apply hunbroken before hu h
    · apply ih h

namespace Word

variable {stage : Text} {word : Word} (h : word ∈ words stage)

include h

/-- A word that is written on its own is that word. -/
theorem words_raw :
  words word.raw = [word]
  := by
  obtain ⟨text, hne, hu, rfl⟩ := exists_unbroken_of_mem_words h
  rw [raw, map_char_read, hu.words_eq hne]

/-- A word that is written on its own has the text that it has in its stage. -/
theorem unquote_raw :
  unquote word.raw = word.text
  := by
  rw [unquote, words_raw h, List.map_singleton]
  apply List.intercalate_singleton

end Word

/-- The glyphs that do not separate have the characters that are no blanks read bare. -/
theorem map_char_filter_read (quoting : Quoting) (stage : Text) :
  ((Glyph.read quoting stage).filter (·.role ≠ .blank)).map Glyph.char = unblanked quoting stage
  := by
  induction stage generalizing quoting with
  | nil => rfl
  | cons c rest ih =>
    have hb : decide ((quoting.read c rest.head?).1 ≠ .blank)
        = !(isBlank c && decide (quoting = .bare)) := by
      rw [Bool.eq_iff_iff]
      simp [Quoting.read_eq_blank_iff]
    rw [unblanked, Glyph.read, Quoting.along, List.zip_cons_cons, List.filter_cons,
      List.filter_cons, hb]
    split
    · rw [List.map_cons, List.map_cons, ih]
      rfl
    · apply ih

/-- The words of a stage are one after another the stage without the blanks that are read bare. -/
theorem flatMap_raw_words (stage : Text) :
  (words stage).flatMap Word.raw = unblanked .bare stage
  := by
  have hf : (words stage).flatMap Word.raw
      = ((runs (·.role = .blank) (Glyph.read .bare stage)).flatten).map Glyph.char := by
    rw [words, List.flatMap_map, List.map_flatten]
    rfl
  rw [hf, flatten_runs, ← map_char_filter_read]
  simp

/-- A word of a stage that is written on its own is read as this one word, with the same characters
in the same roles and so with the same text and offsets.  Hence the name, which is kept as it is
written, has without its marks the text of the first word.  The words as they are written are one
after another the stage without the white space that is bare. -/
theorem words_reread (stage : Text) :
  (∀ word ∈ words stage, words word.raw = [word])
    ∧ (Token.ofStage stage).head? = (words stage).head?.map (Token.word ·.raw)
    ∧ (Token.ofStage stage).head?.map (fun name => unquote name.text)
        = (words stage).head?.map Word.text
    ∧ (words stage).flatMap Word.raw = unblanked .bare stage
  := by
  have hn : (Token.ofStage stage).head? = (words stage).head?.map (Token.word ·.raw) := by
    rw [Token.ofStage]
    cases words stage <;> rfl
  refine ⟨fun word => Word.words_raw, hn, ?_, flatMap_raw_words stage⟩
  rw [hn]
  cases hw : words stage with
  | nil => rfl
  | cons first others =>
    have hf : first ∈ words stage := by simp [hw]
    simp only [List.head?_cons, Option.map_some, Token.text, Word.unquote_raw hf]

end CommandShell
