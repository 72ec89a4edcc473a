import CommandShell.Proofs.Quoting
import Mathlib.Tactic.Use

/-!
# Stages and words

A line is cut at the bars that are bare when it is passed, and each stage is then read for its
words on its own.  Since a stage before a cut is closed, reading the stages one by one gives the
words of the whole line with white space at its cuts, and joining the stages with bars gives a
line with the same stages (`stages_words_agree`).
-/

namespace CommandShell

/-- Whether a text that begins bare has no bare bar. -/
def Text.IsUncut (text : Text) : Prop :=
  ∀ entry ∈ barred .bare text, entry.2 = false

/-- A line with a space for each of its bare bars. -/
def spaced (line : Text) : Text :=
  (barred .bare line).map fun (c, cut) => if cut then ' ' else c

/-! ### Cutting a line -/

/-- A line that is passed from a quoting has no bare bar, or it has a first one. -/
theorem uncut_or_cut_first (quoting : Quoting) (line : Text) :
  (∀ entry ∈ barred quoting line, entry.2 = false)
    ∨ ∃ stage rest, line = stage ++ '|' :: rest
      ∧ (∀ entry ∈ barred quoting stage, entry.2 = false)
      ∧ stage.foldl Quoting.pass quoting = .bare
  := by
  induction line generalizing quoting with
  | nil =>
    left
    simp [barred]
  | cons c rest ih =>
    by_cases hb : quoting = .bare ∧ c = '|'
    · obtain ⟨rfl, rfl⟩ := hb
      right
      use [], rest
      simp [barred]
    · rcases ih (quoting.pass c) with h | ⟨stage, after, rfl, hu, hc⟩
      · left
        simpa [barred, hb] using h
      · right
        use c :: stage, after
        refine ⟨rfl, ?_, hc⟩
        simpa [barred, hb] using hu

/-- What holds of every line without a bare bar, and of a line with one when it holds of what
follows its first one, holds of every line. -/
theorem cut_induction {motive : Text → Prop} (uncut : ∀ line : Text, line.IsUncut → motive line)
    (cut : ∀ stage rest : Text, stage.IsUncut → stage.IsClosed → motive rest →
      motive (stage ++ '|' :: rest))
    (line : Text) :
  motive line
  := by
  rcases uncut_or_cut_first .bare line with h | ⟨stage, rest, rfl, hu, hc⟩
  · apply uncut line h
  · apply cut stage rest hu hc
    apply cut_induction uncut cut rest
  termination_by line.length
  decreasing_by
    subst line
    simp
    omega

@[simp]
theorem stages_nil :
  stages [] = []
  := rfl

/-- A line without a bare bar is its only stage, unless it is empty. -/
theorem stages_of_isUncut {line : Text} (h : line.IsUncut) (hne : line ≠ []) :
  stages line = [line]
  := by
  have hb : barred .bare line ≠ [] := by
    intro hb
    rw [← map_fst_barred .bare line, hb] at hne
    apply hne rfl
  rw [stages, runs_of_uncut hb h, List.map_singleton, map_fst_barred]

/-- A bar after closed text separates its stages from those that follow. -/
theorem stages_append_bar {before : Text} (h : before.IsClosed) (after : Text) :
  stages (before ++ '|' :: after) = stages before ++ stages after
  := by
  rw [stages, barred_append, h, barred, runs_append_cons (by simp), List.map_append]
  rfl

/-- A blank after a closed line goes to its last stage, unless the line ends with a bar that
cuts. -/
theorem stages_append_blank {line : Text} (hc : line.IsClosed) (hne : line ≠ [])
    (hb : ∀ before : Text, before.IsClosed → line ≠ before ++ ['|']) :
  ∃ (init : List Text) (last : Text), stages line = init ++ [last] ∧ last.IsClosed
    ∧ stages (line ++ [' ']) = init ++ [last ++ [' ']]
  := by
  induction line using cut_induction with
  | uncut line h =>
    have hu : (line ++ [' ']).IsUncut := by
      intro entry he
      rw [barred_append, hc, List.mem_append] at he
      rcases he with he | he
      · apply h entry he
      · obtain rfl := List.mem_singleton.mp he
        rfl
    exact ⟨[], line, stages_of_isUncut h hne, hc, stages_of_isUncut hu (by simp)⟩
  | cut stage rest hu hs ih =>
    have hr : rest.IsClosed := by
      rw [Text.IsClosed, List.foldl_append, hs] at hc
      exact hc
    have hn : rest ≠ [] := by
      rintro rfl
      apply hb stage hs rfl
    have hl : ∀ before : Text, before.IsClosed → rest ≠ before ++ ['|'] := by
      rintro before hbefore rfl
      apply hb (stage ++ '|' :: before)
      · rw [Text.IsClosed, List.foldl_append, hs]
        exact hbefore
      · simp
    obtain ⟨init, last, hi, hlast, ha⟩ := ih hr hn hl
    refine ⟨stages stage ++ init, last, ?_, hlast, ?_⟩
    · rw [stages_append_bar hs, hi, List.append_assoc]
    · rw [List.append_assoc, List.cons_append, stages_append_bar hs, ha, List.append_assoc]

/-! ### Words of stages -/

@[simp]
theorem words_nil :
  words [] = []
  := rfl

/-- White space after closed text separates its words from those that follow. -/
theorem words_append_blank {before : Text} (h : before.IsClosed) {c : Char}
    (hc : isBlank c = true) (after : Text) :
  words (before ++ c :: after) = words before ++ words after
  := by
  have hr : Quoting.read .bare c after.head? = (.blank, .bare) := by
    simp [Quoting.read, hc]
  rw [words, Glyph.read_append h, Glyph.read, hr, runs_append_cons (by simp), List.map_append]
  rfl

theorem spaced_of_isUncut {line : Text} (h : line.IsUncut) :
  spaced line = line
  := by
  have hm : spaced line = (barred .bare line).map Prod.fst := by
    apply List.map_congr_left
    intro entry he
    simp [h entry he]
  rw [hm, map_fst_barred]

theorem spaced_append_bar {stage : Text} (hu : stage.IsUncut) (hc : stage.IsClosed)
    (rest : Text) :
  spaced (stage ++ '|' :: rest) = stage ++ ' ' :: spaced rest
  := by
  rw [spaced, barred_append, hc, List.map_append, ← spaced, spaced_of_isUncut hu]
  rfl

/-- The words of a line without a bare bar are those of its stages. -/
theorem words_stages_of_isUncut {line : Text} (h : line.IsUncut) :
  (stages line).flatMap words = words line
  := by
  cases line with
  | nil => rfl
  | cons c rest =>
    rw [stages_of_isUncut h (by simp)]
    simp

/-- The words of the stages of a line are those of the line with spaces for its bare bars. -/
theorem words_stages (line : Text) :
  (stages line).flatMap words = words (spaced line)
  := by
  induction line using cut_induction with
  | uncut line h => rw [words_stages_of_isUncut h, spaced_of_isUncut h]
  | cut stage rest hu hc ih =>
    rw [stages_append_bar hc, List.flatMap_append, ih, words_stages_of_isUncut hu,
      spaced_append_bar hu hc, words_append_blank hc (by decide)]

/-! ### Joining stages -/

theorem join_cons_cons (separator text other : Text) (rest : List Text) :
  Text.join separator (text :: other :: rest)
    = text ++ separator ++ Text.join separator (other :: rest)
  := by
  rw [Text.join, List.intercalate_cons_cons]
  simp [Text.join]

/-- Stages that are joined with bars are the stages of the line they make. -/
theorem stages_join_stages (line : Text) :
  stages (Text.join ['|'] (stages line)) = stages line
  := by
  induction line using cut_induction with
  | uncut line h =>
    cases line with
    | nil => rfl
    | cons c rest =>
      rw [stages_of_isUncut h (by simp)]
      simp [Text.join, stages_of_isUncut h]
  | cut stage rest hu hc ih =>
    rw [stages_append_bar hc]
    cases stage with
    | nil => apply ih
    | cons c stage =>
      rw [stages_of_isUncut hu (by simp)]
      cases hr : stages rest with
      | nil => simp [Text.join, stages_of_isUncut hu]
      | cons next others =>
        rw [hr] at ih
        rw [List.singleton_append, join_cons_cons, List.append_assoc, List.singleton_append,
          stages_append_bar hc, ih, stages_of_isUncut hu (by simp)]
        rfl

/-! ### Agreement -/

/-- A line is cut at the bars that are bare when the whole line is read for its words.  Its
stages have, one after another, the words of the line with spaces at its cuts.  None of them is
empty, and joined with bars they are the stages of the line they make. -/
theorem stages_words_agree (text : Text) :
  (∀ i : Nat, (∃ c, (barred .bare text)[i]? = some (c, true))
      ↔ text[i]? = some '|' ∧ (Quoting.along .bare text)[i]? = some .bare)
    ∧ (stages text).flatMap words = words (spaced text)
    ∧ (∀ stage ∈ stages text, stage ≠ [])
    ∧ stages (Text.join ['|'] (stages text)) = stages text
  := by
  refine ⟨?_, words_stages text, fun stage => ne_nil_of_mem_stages, stages_join_stages text⟩
  intro i
  rw [barred_eq_zipWith (.same .bare text.head?), List.getElem?_zipWith]
  cases text[i]? <;> cases (Quoting.along .bare text)[i]? <;> simp [and_comm]

end CommandShell
