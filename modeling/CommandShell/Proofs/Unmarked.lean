import CommandShell.Proofs.Call
import CommandShell.Proofs.Command

/-!
# Unmarked texts

A text without quotation marks and backslashes is bare throughout (`Text.read_of_unquoted`).  It is
unmarked if it has no white space and no bar either, and then it is read as it is written: it is a
single stage, a single word and a name without marks to leave out (`Text.unquote_of_isUnmarked`).
-/

namespace CommandShell

/-- Whether a character, when it is bare, quotes others. -/
def isQuote (c : Char) : Bool :=
  c = '\'' || c = '"' || c = '\\'

/-- Whether a character, when it is bare, separates nothing and quotes nothing. -/
def isUnmarked (c : Char) : Bool :=
  !isBlank c && !isQuote c && c ≠ '|'

/-- Whether a text has no white space, no quotation mark, no backslash and no bar. -/
def Text.isUnmarked (text : Text) : Bool :=
  text.all CommandShell.isUnmarked

/-- A character that is read bare and quotes nothing. -/
def Glyph.bare (c : Char) : Glyph :=
  ⟨c, if isBlank c then .blank else if isAngle c then .angle else .literal⟩

theorem Glyph.role_bare_ne_mark (c : Char) :
  (bare c).role ≠ .mark
  := by
  rw [bare]
  cases isBlank c <;> cases isAngle c <;> nofun

theorem Glyph.role_bare_eq_blank_iff (c : Char) :
  (bare c).role = .blank ↔ isBlank c = true
  := by
  rw [bare]
  cases isBlank c <;> cases isAngle c <;> simp

namespace Word

/-- Bare characters are spelled as they are. -/
@[simp]
theorem raw_bare (text : Text) :
  raw ⟨text.map Glyph.bare⟩ = text
  := by
  rw [raw, List.map_map]
  apply List.map_id

/-- Bare glyphs have no marks to leave out. -/
@[simp]
theorem text_bare (text : Text) :
  Word.text ⟨text.map Glyph.bare⟩ = text
  := by
  have hf : (text.map Glyph.bare).filter (·.role ≠ .mark) = text.map Glyph.bare := by
    rw [List.filter_eq_self]
    intro glyph hg
    obtain ⟨c, -, rfl⟩ := List.mem_map.mp hg
    simpa using Glyph.role_bare_ne_mark c
  rw [Word.text, spoken, hf]
  apply raw_bare

end Word

namespace Quoting

variable {c : Char} (h : isQuote c = false)

include h

/-- A character that does not quote leaves the text after it bare. -/
theorem pass_of_not_isQuote :
  pass .bare c = .bare
  := by
  simp only [isQuote, Bool.or_eq_false_iff, decide_eq_false_iff_not] at h
  simp [pass, h]

theorem read_of_not_isQuote (next : Option Char) :
  read .bare c next = ((Glyph.bare c).role, .bare)
  := by
  simp only [isQuote, Bool.or_eq_false_iff, decide_eq_false_iff_not] at h
  simp only [read, Glyph.bare, h, false_and, if_false]
  cases isBlank c <;> cases isAngle c <;> rfl

end Quoting

namespace Text

/-! ### Texts without quotes -/

section

variable {text : Text} (h : ∀ c ∈ text, isQuote c = false)

include h

theorem isClosed_of_unquoted :
  text.IsClosed
  := by
  induction text with
  | nil => rfl
  | cons c rest ih =>
    obtain ⟨hc, hr⟩ := List.forall_mem_cons.mp h
    rw [IsClosed, List.foldl_cons, Quoting.pass_of_not_isQuote hc]
    exact ih hr

/-- Every bar of an unquoted text is bare. -/
theorem barred_of_unquoted :
  barred .bare text = text.map fun c => (c, decide (c = '|'))
  := by
  induction text with
  | nil => rfl
  | cons c rest ih =>
    obtain ⟨hc, hr⟩ := List.forall_mem_cons.mp h
    rw [barred, Quoting.pass_of_not_isQuote hc, ih hr]
    simp

/-- A text without quotes is read as its characters. -/
theorem read_of_unquoted :
  Glyph.read .bare text = text.map Glyph.bare
  := by
  induction text with
  | nil => rfl
  | cons c rest ih =>
    obtain ⟨hc, hr⟩ := List.forall_mem_cons.mp h
    rw [Glyph.read, Quoting.read_of_not_isQuote hc, ih hr]
    rfl

end

/-! ### Unmarked texts -/

/-- A text is unmarked if it has no quotes, no blanks and no bars. -/
theorem isUnmarked_iff {text : Text} :
  text.isUnmarked = true
    ↔ (∀ c ∈ text, isQuote c = false) ∧ (∀ c ∈ text, CommandShell.isBlank c = false) ∧ '|' ∉ text
  := by
  simp only [isUnmarked, List.all_eq_true, CommandShell.isUnmarked, Bool.and_eq_true,
    Bool.not_eq_true', decide_eq_true_eq]
  constructor
  · intro h
    exact ⟨fun c hc => (h c hc).1.2, fun c hc => (h c hc).1.1, fun hb => (h _ hb).2 rfl⟩
  · rintro ⟨hq, hb, hn⟩ c hc
    exact ⟨⟨hb c hc, hq c hc⟩, fun he => hn (he ▸ hc)⟩

section

variable {text : Text} (h : text.isUnmarked = true)

include h

/-- An unmarked text is read by itself whatever follows it. -/
theorem isWhole_of_isUnmarked :
  text.IsWhole
  := by
  obtain ⟨hq, -, hn⟩ := isUnmarked_iff.mp h
  refine ⟨isClosed_of_unquoted hq, ?_⟩
  intro entry he
  rw [barred_of_unquoted hq] at he
  obtain ⟨c, hc, rfl⟩ := List.mem_map.mp he
  exact decide_eq_false fun hb => hn (hb ▸ hc)

/-- An unmarked text is a single word. -/
theorem words_of_isUnmarked (hne : text ≠ []) :
  words text = [⟨text.map Glyph.bare⟩]
  := by
  obtain ⟨hq, hb, -⟩ := isUnmarked_iff.mp h
  rw [words, read_of_unquoted hq, runs_of_uncut]
  · rfl
  · rw [Ne, List.map_eq_nil_iff]
    exact hne
  · intro glyph hg
    obtain ⟨c, hc, rfl⟩ := List.mem_map.mp hg
    rw [decide_eq_false_iff_not, Glyph.role_bare_eq_blank_iff, hb c hc]
    exact Bool.false_ne_true

/-- An unmarked text has no marks to leave out. -/
theorem unquote_of_isUnmarked :
  unquote text = text
  := by
  by_cases hne : text = []
  · rw [hne]
    rfl
  · rw [unquote, words_of_isUnmarked h hne, List.map_singleton, Word.text_bare]
    exact List.intercalate_singleton

/-- An unmarked text is the only token of a stage in which nothing but blanks follows it. -/
theorem ofStage_of_isUnmarked (hne : text ≠ []) {blanks : Text} (hb : blanks.isBlank = true) :
  Token.ofStage (text ++ blanks) = [.word text]
  := by
  have hw : words (text ++ blanks) = words text := by
    cases blanks with
    | nil => rw [List.append_nil]
    | cons c rest =>
      rw [isBlank, List.all_cons, Bool.and_eq_true] at hb
      have hn := words_blank_append hb.2 []
      rw [List.append_nil] at hn
      rw [words_append_blank (isWhole_of_isUnmarked h).isClosed hb.1, hn]
      apply List.append_nil
  rw [Token.ofStage, hw, words_of_isUnmarked h hne]
  dsimp only
  rw [Word.raw_bare]
  rfl

end

end Text

end CommandShell
