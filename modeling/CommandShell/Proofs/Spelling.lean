import CommandShell.Proofs.Stage

/-!
# Spelled words

A text can be written in many ways.  A spelling is a row of segments, each between apostrophes,
between quotation marks, after a backslash or bare.  However a text is spelled, what is written
is one word with that text (`Spelling.words_raw`), the angles in it redirect nothing, and its
bars cut no line.
-/

namespace CommandShell

/-- Whether a character stands for itself when it is bare. -/
def isPlain (c : Char) : Bool :=
  !isBlank c && !isAngle c && c ≠ '\'' && c ≠ '"' && c ≠ '\\' && c ≠ '|'

/-- A part of a text and the way it is written. -/
inductive Segment where
  /-- Between apostrophes. -/
  | single (text : Text) (h : '\'' ∉ text)
  /-- Between quotation marks, with a backslash before each quotation mark and backslash. -/
  | double (text : Text)
  /-- A character after a backslash. -/
  | escaped (c : Char)
  /-- A bare character. -/
  | bare (c : Char) (h : isPlain c = true)

/-- A text and a way to write it as a word. -/
structure Spelling where
  segments : List Segment
  ne_nil : segments ≠ []

/-- A character as it is written between quotation marks. -/
def escapeInDouble (c : Char) : Text :=
  if c = '"' ∨ c = '\\' then ['\\', c] else [c]

namespace Segment

/-- The text of a segment. -/
def text : Segment → Text
  | .single text _ => text
  | .double text => text
  | .escaped c => [c]
  | .bare c _ => [c]

/-- A segment as it is written. -/
def raw : Segment → Text
  | .single text _ => '\'' :: text ++ ['\'']
  | .double text => '"' :: text.flatMap escapeInDouble ++ ['"']
  | .escaped c => ['\\', c]
  | .bare c _ => [c]

/-- The glyphs of a character between quotation marks. -/
def glyphsInDouble (c : Char) : List Glyph :=
  if c = '"' ∨ c = '\\' then [⟨'\\', .mark⟩, ⟨c, .literal⟩] else [⟨c, .literal⟩]

/-- The glyphs of a segment. -/
def glyphs : Segment → List Glyph
  | .single text _ => ⟨'\'', .mark⟩ :: text.map (⟨·, .literal⟩) ++ [⟨'\'', .mark⟩]
  | .double text => ⟨'"', .mark⟩ :: text.flatMap glyphsInDouble ++ [⟨'"', .mark⟩]
  | .escaped c => [⟨'\\', .mark⟩, ⟨c, .literal⟩]
  | .bare c _ => [⟨c, .literal⟩]

end Segment

namespace Spelling

/-- The text that is spelled. -/
def text (spelling : Spelling) : Text :=
  spelling.segments.flatMap Segment.text

/-- The spelling as it is written. -/
def raw (spelling : Spelling) : Text :=
  spelling.segments.flatMap Segment.raw

/-- The word that is written. -/
def word (spelling : Spelling) : Word :=
  ⟨spelling.segments.flatMap Segment.glyphs⟩

/-- The spelling of a text between quotation marks. -/
def quoted (text : Text) : Spelling :=
  ⟨[.double text], by simp⟩

end Spelling

/-! ### Whole texts -/

/-- Whether a text is closed and has no bare bar. -/
structure Text.IsWhole (text : Text) : Prop where
  isClosed : text.IsClosed
  isUncut : text.IsUncut

namespace Text.IsWhole

theorem nil :
  Text.IsWhole []
  := ⟨rfl, by simp [IsUncut, barred]⟩

/-- What is whole stays so when something whole is put after it. -/
theorem append {before after : Text} (hb : before.IsWhole) (ha : after.IsWhole) :
  (before ++ after).IsWhole
  := by
  constructor
  · apply hb.isClosed.append ha.isClosed
  · intro entry he
    rw [barred_append, hb.isClosed, List.mem_append] at he
    rcases he with he | he
    · apply hb.isUncut entry he
    · apply ha.isUncut entry he

theorem flatMap {α : Type} {f : α → Text} {elements : List α}
    (h : ∀ a ∈ elements, (f a).IsWhole) :
  Text.IsWhole (elements.flatMap f)
  := by
  induction elements with
  | nil => apply nil
  | cons a rest ih =>
    rw [List.flatMap_cons]
    apply append (h a (by simp))
    apply ih
    intro b hb
    apply h b (by simp [hb])

/-- Text that a character opens and closes a quotation of, all inside being passed as quoted, is
whole. -/
theorem of_quotation (quoting : Quoting) {inner : Text} {opening closing : Char}
    (ho : Quoting.pass .bare opening = quoting) (hne : opening ≠ '|')
    (hi : inner.foldl Quoting.pass quoting = quoting)
    (hu : ∀ entry ∈ barred quoting inner, entry.2 = false)
    (hc : quoting.pass closing = .bare) (hq : quoting ≠ .bare) :
  Text.IsWhole (opening :: inner ++ [closing])
  := by
  constructor
  · simp [IsClosed, ho, hi, hc]
  · intro entry he
    rw [List.cons_append, barred, barred_append, ho, hi] at he
    simp only [List.mem_cons, List.mem_append, barred, List.not_mem_nil, or_false] at he
    rcases he with rfl | he | rfl
    · simp [hne]
    · apply hu entry he
    · simp [hq]

end Text.IsWhole

/-! ### Segments -/

/-- Between apostrophes a text without one stays quoted. -/
theorem pass_single {text : Text} (h : '\'' ∉ text) :
  text.foldl Quoting.pass .single = .single
    ∧ ∀ entry ∈ barred .single text, entry.2 = false
  := by
  induction text with
  | nil => simp [barred]
  | cons c text ih =>
    simp only [List.mem_cons, not_or] at h
    have hc : Quoting.pass .single c = .single := by simp [Quoting.pass, Ne.symm h.1]
    simpa [barred, hc] using ih h.2

/-- Between quotation marks a text stays quoted as it is written there. -/
theorem pass_double (text : Text) :
  (text.flatMap escapeInDouble).foldl Quoting.pass .double = .double
    ∧ ∀ entry ∈ barred .double (text.flatMap escapeInDouble), entry.2 = false
  := by
  induction text with
  | nil => simp [barred]
  | cons c text ih =>
    have hc : (escapeInDouble c).foldl Quoting.pass .double = .double
        ∧ ∀ entry ∈ barred .double (escapeInDouble c), entry.2 = false := by
      rw [escapeInDouble]
      split
      · simp [Quoting.pass, Quoting.afterEscape, barred]
      · simp_all [Quoting.pass, barred]
    rw [List.flatMap_cons, List.foldl_append, hc.1, barred_append, hc.1]
    refine ⟨ih.1, ?_⟩
    intro entry he
    rcases List.mem_append.mp he with he | he
    · apply hc.2 entry he
    · apply ih.2 entry he

/-- What stands between apostrophes is literal. -/
theorem read_single {text : Text} (h : '\'' ∉ text) (rest : Text) :
  Glyph.read .single (text ++ '\'' :: rest)
    = text.map (⟨·, .literal⟩) ++ ⟨'\'', .mark⟩ :: Glyph.read .bare rest
  := by
  induction text with
  | nil => simp [Glyph.read, Quoting.read]
  | cons c text ih =>
    simp only [List.mem_cons, not_or] at h
    simp [Glyph.read, Quoting.read, Ne.symm h.1, ih h.2]

/-- What is escaped and stands between double quotes is literal. -/
theorem read_double (text rest : Text) :
  Glyph.read .double (text.flatMap escapeInDouble ++ '"' :: rest)
    = text.flatMap Segment.glyphsInDouble ++ ⟨'"', .mark⟩ :: Glyph.read .bare rest
  := by
  induction text with
  | nil => simp [Glyph.read, Quoting.read]
  | cons c text ih =>
    rw [List.flatMap_cons, List.flatMap_cons, List.append_assoc, escapeInDouble,
      Segment.glyphsInDouble]
    split
    · rename_i hc
      have he : isEscapable c = true := by rcases hc with rfl | rfl <;> rfl
      simp [Glyph.read, Quoting.read, Quoting.afterEscape, he, ih]
    · simp_all [Glyph.read, Quoting.read]

namespace Segment

theorem isWhole_raw (segment : Segment) :
  segment.raw.IsWhole
  := by
  cases segment with
  | single text h =>
    obtain ⟨hi, hu⟩ := pass_single h
    apply Text.IsWhole.of_quotation .single rfl (by decide) hi hu rfl (by simp)
  | double text =>
    obtain ⟨hi, hu⟩ := pass_double text
    apply Text.IsWhole.of_quotation .double rfl (by decide) hi hu rfl (by simp)
  | escaped c =>
    constructor
    · rfl
    · simp [Text.IsUncut, raw, barred, Quoting.pass]
  | bare c h =>
    simp only [isPlain, Bool.and_eq_true, decide_eq_true_eq] at h
    constructor
    · simp [Text.IsClosed, raw, Quoting.pass, h]
    · simp [Text.IsUncut, raw, barred, h]

/-- A segment is read as its glyphs. -/
theorem read_raw (segment : Segment) :
  Glyph.read .bare segment.raw = segment.glyphs
  := by
  cases segment with
  | single text h =>
    have hr : Quoting.read .bare '\'' (text ++ ['\'']).head? = (.mark, .single) := rfl
    rw [raw, List.cons_append, Glyph.read, hr, read_single h]
    rfl
  | double text =>
    have hr : Quoting.read .bare '"' (text.flatMap escapeInDouble ++ ['"']).head?
        = (.mark, .double) := rfl
    rw [raw, List.cons_append, Glyph.read, hr, read_double]
    rfl
  | escaped c => rfl
  | bare c h =>
    simp only [isPlain, Bool.and_eq_true, Bool.not_eq_true', decide_eq_true_eq] at h
    simp [raw, glyphs, Glyph.read, Quoting.read, h]

/-- The glyphs of a segment separate no words and redirect nothing. -/
theorem role_of_mem_glyphs {segment : Segment} {glyph : Glyph} (h : glyph ∈ segment.glyphs) :
  glyph.role = .mark ∨ glyph.role = .literal
  := by
  cases segment with
  | single text hs =>
    simp only [glyphs, List.mem_append, List.mem_cons, List.mem_map, List.not_mem_nil,
      or_false] at h
    rcases h with (rfl | ⟨c, -, rfl⟩) | rfl <;> simp
  | double text =>
    simp only [glyphs, List.mem_append, List.mem_cons, List.mem_flatMap, List.not_mem_nil,
      or_false] at h
    rcases h with (rfl | ⟨c, -, hc⟩) | rfl
    · simp
    · rw [glyphsInDouble] at hc
      split at hc
      · simp only [List.mem_cons, List.not_mem_nil, or_false] at hc
        rcases hc with rfl | rfl <;> simp
      · simp only [List.mem_singleton] at hc
        simp [hc]
    · simp
  | escaped c =>
    simp only [glyphs, List.mem_cons, List.not_mem_nil, or_false] at h
    rcases h with rfl | rfl <;> simp
  | bare c hb =>
    simp only [glyphs, List.mem_singleton] at h
    simp [h]

theorem filter_literal (text : Text) :
  (text.map (Glyph.mk · .literal)).filter (·.role ≠ .mark) = text.map (Glyph.mk · .literal)
  := by
  apply List.filter_eq_self.mpr
  simp

theorem filter_glyphsInDouble (text : Text) :
  (text.flatMap glyphsInDouble).filter (·.role ≠ .mark) = text.map (Glyph.mk · .literal)
  := by
  induction text with
  | nil => rfl
  | cons c text ih =>
    rw [List.flatMap_cons, List.filter_append, ih, glyphsInDouble]
    split <;> rfl

/-- The glyphs of a segment that are no marks are those of its text. -/
theorem filter_glyphs (segment : Segment) :
  segment.glyphs.filter (·.role ≠ .mark) = segment.text.map (Glyph.mk · .literal)
  := by
  cases segment with
  | single text h =>
    rw [glyphs, List.cons_append, List.filter_cons_of_neg (by simp), List.filter_append,
      filter_literal]
    apply List.append_nil
  | double text =>
    rw [glyphs, List.cons_append, List.filter_cons_of_neg (by simp), List.filter_append,
      filter_glyphsInDouble]
    apply List.append_nil
  | escaped c => rfl
  | bare c h => rfl

end Segment

/-! ### Spellings -/

namespace Spelling

theorem isWhole_raw (spelling : Spelling) :
  spelling.raw.IsWhole
  := Text.IsWhole.flatMap fun segment _ => segment.isWhole_raw

/-- A spelling is read as the glyphs of its word. -/
theorem read_raw (spelling : Spelling) :
  Glyph.read .bare spelling.raw = spelling.word.glyphs
  := by
  obtain ⟨segments, hne⟩ := spelling
  simp only [raw, word]
  clear hne
  induction segments with
  | nil => rfl
  | cons segment rest ih =>
    rw [List.flatMap_cons, List.flatMap_cons,
      Glyph.read_append segment.isWhole_raw.isClosed, segment.read_raw, ih]

theorem raw_ne_nil (spelling : Spelling) :
  spelling.raw ≠ []
  := by
  obtain ⟨_ | ⟨segment, rest⟩, hne⟩ := spelling
  · contradiction
  · cases segment <;> simp [raw, Segment.raw]

/-- A spelling is made of marks and literal characters: nothing in it cuts. -/
theorem role_of_mem_word {spelling : Spelling} {glyph : Glyph}
    (h : glyph ∈ spelling.word.glyphs) :
  glyph.role = .mark ∨ glyph.role = .literal
  := by
  obtain ⟨segment, -, hg⟩ := List.mem_flatMap.mp h
  apply Segment.role_of_mem_glyphs hg

/-- What is written is one word. -/
theorem words_raw (spelling : Spelling) :
  words spelling.raw = [spelling.word]
  := by
  have hne : Glyph.read .bare spelling.raw ≠ [] := by
    intro h
    apply spelling.raw_ne_nil
    rw [← map_char_read .bare spelling.raw, h]
    rfl
  rw [words, runs_of_uncut hne, List.map_singleton, read_raw]
  intro glyph hg
  rw [read_raw] at hg
  rcases role_of_mem_word hg with h | h <;> simp [h]

/-- The word that is written has the text that is spelled. -/
theorem text_word (spelling : Spelling) :
  spelling.word.text = spelling.text
  := by
  rw [Word.text, Word.spoken, word, List.filter_flatMap, List.map_flatMap, text]
  congr 1
  funext segment
  rw [Segment.filter_glyphs, List.map_map]
  apply List.map_id

/-- No character of the word that is written redirects. -/
theorem redirects_word (spelling : Spelling) :
  spelling.word.redirects = false
  := by
  simp only [Word.redirects, Word.angles, Word.spoken, List.any_map, List.any_eq_false,
    List.mem_filter]
  rintro glyph ⟨hg, -⟩
  rcases role_of_mem_word hg with h | h <;> simp [h]

/-- A spelling without its quotes is the text that it spells. -/
theorem unquote_raw (spelling : Spelling) :
  unquote spelling.raw = spelling.text
  := by
  rw [unquote, words_raw, List.map_singleton, text_word]
  apply List.intercalate_singleton

/-- Every text can be spelled. -/
theorem text_quoted (text : Text) :
  (quoted text).text = text
  := by
  simp [quoted, Spelling.text, Segment.text]

end Spelling

/-! ### Apostrophes -/

/-- A character as it is written between apostrophes. -/
def escapeInSingle (c : Char) : Text :=
  if c = '\'' then "'\\''".toList else [c]

/-- A text between apostrophes, one in it being written outside them after a backslash. -/
def singleQuoted (text : Text) : Text :=
  '\'' :: text.flatMap escapeInSingle ++ ['\'']

namespace Spelling

/-- The segments of a text between apostrophes, after a part of it without any. -/
def apostrophedAfter (before : Text) (h : '\'' ∉ before) : Text → List Segment
  | [] => [.single before h]
  | c :: rest =>
    if hc : c = '\'' then
      .single before h :: .escaped '\'' :: apostrophedAfter [] List.not_mem_nil rest
    else apostrophedAfter (before ++ [c]) (by simp [h, Ne.symm hc]) rest

theorem apostrophedAfter_ne_nil (before : Text) (h : '\'' ∉ before) (text : Text) :
  apostrophedAfter before h text ≠ []
  := by
  induction text generalizing before with
  | nil => simp [apostrophedAfter]
  | cons c rest ih =>
    rw [apostrophedAfter]
    split
    · simp
    · apply ih

/-- The spelling of a text between apostrophes. -/
def apostrophed (text : Text) : Spelling :=
  ⟨apostrophedAfter [] List.not_mem_nil text, apostrophedAfter_ne_nil _ _ text⟩

/-- A text in apostrophes spells the text, apostrophes in it included. -/
@[simp]
theorem text_apostrophed (text : Text) :
  (apostrophed text).text = text
  := by
  suffices h : ∀ (before : Text) (h : '\'' ∉ before),
      (apostrophedAfter before h text).flatMap Segment.text = before ++ text by
    apply h []
  induction text with
  | nil => simp [apostrophedAfter, Segment.text]
  | cons c rest ih =>
    intro before hb
    rw [apostrophedAfter]
    split
    · rename_i hc
      simp [Segment.text, ih, hc]
    · simp [ih]

@[simp]
theorem raw_apostrophed (text : Text) :
  (apostrophed text).raw = singleQuoted text
  := by
  suffices h : ∀ (before : Text) (h : '\'' ∉ before),
      (apostrophedAfter before h text).flatMap Segment.raw
        = '\'' :: before ++ text.flatMap escapeInSingle ++ ['\''] by
    apply h []
  induction text with
  | nil => simp [apostrophedAfter, Segment.raw]
  | cons c rest ih =>
    intro before hb
    rw [apostrophedAfter]
    split
    · rename_i hc
      simp [Segment.raw, ih, hc, escapeInSingle]
    · rename_i hc
      simp [ih, escapeInSingle, hc]

end Spelling

/-- A text can be spelled as it is written between apostrophes. -/
theorem exists_spelling_singleQuoted (text : Text) :
  ∃ spelling : Spelling, spelling.raw = singleQuoted text ∧ spelling.text = text
  := ⟨.apostrophed text, by simp, by simp⟩

end CommandShell
