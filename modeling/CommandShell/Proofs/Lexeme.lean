import CommandShell.Proofs.Command
import Mathlib.Algebra.Order.BigOperators.Group.List
import Mathlib.Algebra.Order.Group.Nat
import Mathlib.Tactic.Use

/-!
# Lexemes

After its name a stage is written as pieces of text and operators, an operator with the number
that is attached to it.  A lexeme is one of these.  A word is cut into lexemes after its marks are
dropped (`Word.recognised`); cut with its marks, it has those that are written (`Word.lexemes`).
A quoted piece is lost between the two if it is empty, or a number, next to an operator.  Where
none is lost the tokens are those of what is written, and where one is lost there are fewer
(`Lexeme.compared_cut`).  So the tokens of a stage are those of what is written exactly when no piece
of its words is lost (`tail_ofStage_eq_iff`).
-/

namespace CommandShell

/-- A part of a word that does not come first: a piece of text, or an operator with the number that
is attached to it. -/
inductive Lexeme where
  | piece (text : Text)
  | operator (number : Option Outlet) (op : Operator)
  deriving DecidableEq, Repr

/-- The number of an outlet that a word is, if it has no marks. -/
def Word.number? (word : Word) : Option Outlet :=
  if word.raw = word.text then Redirection.outlet? word.text else none

namespace Lexeme

/-- The piece that glyphs make, unless there are none. -/
def ofPiece (glyphs : List Glyph) : List Lexeme :=
  if glyphs = [] then [] else [.piece (Word.text ⟨glyphs⟩)]

/-- An operator after glyphs, which are its number or a piece before it. -/
def withOperator (glyphs : List Glyph) (op : Operator) (rest : List Lexeme) : List Lexeme :=
  match Word.number? ⟨glyphs⟩ with
  | some number => .operator (some number) op :: rest
  | none => ofPiece glyphs ++ .operator none op :: rest

/-- The lexemes of a piece that has begun and the glyphs after it.  Two equal angles side by side
make one operator. -/
def cut (begun : List Glyph) : List Glyph → List Lexeme
  | [] => ofPiece begun
  | [glyph] =>
    if glyph.role = .angle then withOperator begun (.ofAngle glyph.char false) []
    else ofPiece (begun ++ [glyph])
  | glyph :: next :: rest =>
    if glyph.role = .angle then
      if next = glyph then withOperator begun (.ofAngle glyph.char true) (cut [] rest)
      else withOperator begun (.ofAngle glyph.char false) (cut [] (next :: rest))
    else cut (begun ++ [glyph]) (next :: rest)

/-- The tokens of a lexeme.  An operator without a number has that of the output. -/
def tokens : Lexeme → List Token
  | .piece text => [.word text]
  | .operator number op => [.word (number.getD .output).number, .operator op]

/-- Whether no piece is lost when marks are dropped: each has a text, which is no number where an
operator follows. -/
def allKept : List Lexeme → Bool
  | [] => true
  | .operator _ _ :: rest => allKept rest
  | [.piece text] => !text.isEmpty
  | .piece text :: rest => !text.isEmpty && !Token.isSelector text && allKept rest

end Lexeme

namespace Word

/-- The lexemes of a word as it is written. -/
def lexemes (word : Word) : List Lexeme :=
  Lexeme.cut [] word.glyphs

/-- The lexemes of a word that are recognised.  Where a character of it redirects it is cut without
its marks. -/
def recognised (word : Word) : List Lexeme :=
  if word.redirects then Lexeme.cut [] word.spoken else [.piece word.text]

/-- Whether no piece of a word is lost. -/
def isKept (word : Word) : Bool :=
  !word.redirects || Lexeme.allKept word.lexemes

end Word

/-- The lexemes of a stage after its name as they are written. -/
def written (stage : Text) : List Lexeme :=
  (words stage).tail.flatMap Word.lexemes

/-- The lexemes of a stage after its name that are recognised. -/
def recognised (stage : Text) : List Lexeme :=
  (words stage).tail.flatMap Word.recognised

/-- A text numbers no outlet if it is no selector. -/
theorem Redirection.outlet?_eq_none {text : Text} :
  outlet? text = none ↔ Token.isSelector text = false
  := by
  rw [outlet?, Token.isSelector]
  split
  · simp_all
  · split <;> simp_all

/-! ### Glyphs without marks -/

/-- The character of a glyph and whether it redirects. -/
def Glyph.entry (glyph : Glyph) : Char × Bool :=
  (glyph.char, decide (glyph.role = .angle))

theorem Glyph.entry_eq_iff {glyph : Glyph} (h : glyph.role = .angle) (other : Glyph) :
  other.entry = (glyph.char, true) ↔ other = glyph
  := by
  obtain ⟨c, role⟩ := glyph
  obtain ⟨d, role'⟩ := other
  obtain rfl : role = .angle := h
  simp [entry]

namespace Word

theorem text_mk (glyphs : List Glyph) :
  text ⟨glyphs⟩ = (spoken ⟨glyphs⟩).map Glyph.char
  := rfl

/-- What is spoken of glyphs is spoken of each part of them. -/
@[simp]
theorem spoken_append (before after : List Glyph) :
  spoken ⟨before ++ after⟩ = spoken ⟨before⟩ ++ spoken ⟨after⟩
  := by
  simp [spoken]

theorem spoken_cons_mark {glyph : Glyph} (h : glyph.role = .mark) (rest : List Glyph) :
  spoken ⟨glyph :: rest⟩ = spoken ⟨rest⟩
  := by
  simp [spoken, h]

theorem spoken_cons {glyph : Glyph} (h : glyph.role ≠ .mark) (rest : List Glyph) :
  spoken ⟨glyph :: rest⟩ = glyph :: spoken ⟨rest⟩
  := by
  simp [spoken, h]

theorem role_ne_mark_of_mem_spoken {word : Word} {glyph : Glyph} (h : glyph ∈ word.spoken) :
  glyph.role ≠ .mark
  := by
  simpa using (List.mem_filter.mp h).2

/-- Glyphs without their marks have the same text. -/
@[simp]
theorem text_spoken (glyphs : List Glyph) :
  text ⟨spoken ⟨glyphs⟩⟩ = text ⟨glyphs⟩
  := by
  simp [text, spoken]

/-- Glyphs without their marks are spelled as their text. -/
@[simp]
theorem raw_spoken (glyphs : List Glyph) :
  raw ⟨spoken ⟨glyphs⟩⟩ = text ⟨glyphs⟩
  := rfl

end Word

/-! ### Cutting a word -/

namespace Lexeme

/-- A glyph that is no angle joins the piece that has begun. -/
theorem cut_cons {glyph : Glyph} (h : glyph.role ≠ .angle) (begun rest : List Glyph) :
  cut begun (glyph :: rest) = cut (begun ++ [glyph]) rest
  := by
  cases rest with
  | nil => simp [cut, h]
  | cons next rest => simp [cut, h]

/-- An angle makes an operator, with the next glyph if that is the same. -/
theorem cut_cons_angle {glyph : Glyph} (h : glyph.role = .angle) (begun rest : List Glyph) :
  cut begun (glyph :: rest) =
    if rest.head? = some glyph then withOperator begun (.ofAngle glyph.char true) (cut [] rest.tail)
    else withOperator begun (.ofAngle glyph.char false) (cut [] rest)
  := by
  cases rest with
  | nil => simp [cut, h, ofPiece]
  | cons next rest => simp [cut, h]

/-- Glyphs that redirect nothing belong to the piece that has begun. -/
theorem cut_append {glyphs : List Glyph} (h : ∀ glyph ∈ glyphs, glyph.role ≠ .angle)
    (begun rest : List Glyph) :
  cut begun (glyphs ++ rest) = cut (begun ++ glyphs) rest
  := by
  induction glyphs generalizing begun with
  | nil => simp
  | cons glyph others ih =>
    rw [List.cons_append, cut_cons (h glyph (by simp)), ih]
    · simp
    · intro other ho
      apply h other (by simp [ho])

/-- Glyphs without angles make a piece. -/
theorem cut_of_no_angle {glyphs : List Glyph} (h : ∀ glyph ∈ glyphs, glyph.role ≠ .angle) :
  cut [] glyphs = ofPiece glyphs
  := by
  have hc := cut_append h [] []
  rw [List.append_nil] at hc
  apply hc

@[simp]
theorem withOperator_nil (op : Operator) (rest : List Lexeme) :
  withOperator [] op rest = .operator none op :: rest
  := rfl

theorem tokens_ofPiece_spoken (glyphs : List Glyph) :
  (ofPiece (Word.spoken ⟨glyphs⟩)).flatMap tokens = Token.ofPiece (Word.text ⟨glyphs⟩)
  := by
  have h : Word.spoken ⟨glyphs⟩ = [] ↔ Word.text ⟨glyphs⟩ = [] := by
    rw [Word.text_mk, List.map_eq_nil_iff]
  rw [ofPiece, Token.ofPiece]
  simp only [h]
  split <;> simp [tokens]

theorem tokens_withOperator_spoken (glyphs : List Glyph) (op : Operator) (rest : List Lexeme) :
  (withOperator (Word.spoken ⟨glyphs⟩) op rest).flatMap tokens
    = Token.beforeOperator (Word.text ⟨glyphs⟩) ++ .operator op :: rest.flatMap tokens
  := by
  have hp := tokens_ofPiece_spoken glyphs
  simp only [withOperator, Word.number?, Word.raw_spoken, Word.text_spoken, if_true,
    Token.beforeOperator, Token.isSelector, Redirection.outlet?]
  by_cases h1 : Word.text ⟨glyphs⟩ = ['1']
  · simp [h1, tokens, Outlet.number]
  by_cases h2 : Word.text ⟨glyphs⟩ = ['2']
  · simp [h2, tokens, Outlet.number]
  · simp [h1, h2, hp, tokens, Outlet.number]

end Lexeme

theorem Token.cut_angle (c : Char) (entries : List (Char × Bool)) :
  cut (.angle c) entries =
    if entries.head? = some (c, true) then
      .operator (.ofAngle c true) :: cut (.piece []) entries.tail
    else .operator (.ofAngle c false) :: cut (.piece []) entries
  := by
  match entries with
  | [] => rfl
  | (d, false) :: rest => simp [cut]
  | (d, true) :: rest => by_cases h : d = c <;> simp [cut, h]

/-- What holds of a list when it holds of what follows its first element and of what follows its
second one holds of every list. -/
theorem tail_induction {α : Type} {motive : List α → Prop} (nil : motive [])
    (cons : ∀ a rest, motive rest → motive rest.tail → motive (a :: rest)) (elements : List α) :
  motive elements
  := by
  suffices h : motive elements ∧ motive elements.tail by apply h.1
  induction elements with
  | nil => exact ⟨nil, nil⟩
  | cons a rest ih => exact ⟨cons a rest ih.1 ih.2, ih.1⟩

/-- Cutting a text gives the tokens of the lexemes of its glyphs. -/
theorem cut_entries {glyphs : List Glyph} (h : ∀ glyph ∈ glyphs, glyph.role ≠ .mark)
    (begun : List Glyph) :
  Token.cut (.piece (Word.text ⟨begun⟩).reverse) (glyphs.map Glyph.entry)
    = (Lexeme.cut (Word.spoken ⟨begun⟩) glyphs).flatMap Lexeme.tokens
  := by
  induction glyphs using tail_induction generalizing begun with
  | nil =>
    rw [List.map_nil, Token.cut, List.reverse_reverse, Lexeme.cut, Lexeme.tokens_ofPiece_spoken]
  | cons glyph rest ih ih' =>
    have hg : glyph.role ≠ .mark := h glyph (by simp)
    have hr : ∀ other ∈ rest, other.role ≠ .mark := by
      intro other ho
      apply h other (by simp [ho])
    by_cases ha : glyph.role = .angle
    · have hd : (rest.map Glyph.entry).head? = some (glyph.char, true)
          ↔ rest.head? = some glyph := by
        simp [List.head?_map, Glyph.entry_eq_iff ha]
      have ih : Token.cut (.piece []) (rest.map Glyph.entry) = _ := ih hr []
      have ih' : Token.cut (.piece []) (rest.tail.map Glyph.entry) = _ :=
        ih' (fun other ho => hr other (List.mem_of_mem_tail ho)) []
      have he : glyph.entry = (glyph.char, true) := (Glyph.entry_eq_iff ha glyph).mpr rfl
      rw [List.map_cons, he, Token.cut, Token.cut_angle, Lexeme.cut_cons_angle ha, ih,
        ← List.map_tail, ih', List.reverse_reverse]
      simp only [hd]
      split
      · rw [Lexeme.tokens_withOperator_spoken]
        rfl
      · rw [Lexeme.tokens_withOperator_spoken]
        rfl
    · have he : glyph.entry = (glyph.char, false) := by simp [Glyph.entry, ha]
      have ih := ih hr (begun ++ [glyph])
      rw [Word.text_mk, Word.spoken_append, Word.spoken_cons hg] at ih
      rw [List.map_cons, he, Token.cut, Lexeme.cut_cons ha]
      simpa [Word.text_mk, Word.spoken] using ih

/-- The tokens of a word are those of the lexemes that are recognised. -/
theorem Token.ofWord_eq (word : Word) :
  Token.ofWord word = word.recognised.flatMap Lexeme.tokens
  := by
  rw [Token.ofWord, Word.recognised]
  split
  · apply cut_entries (fun _ => Word.role_ne_mark_of_mem_spoken) []
  · simp [Lexeme.tokens]

/-- The tokens of a stage after its name are those of the lexemes that are recognised. -/
theorem Token.tail_ofStage (stage : Text) :
  (Token.ofStage stage).tail = (recognised stage).flatMap Lexeme.tokens
  := by
  rw [Token.ofStage, recognised]
  cases words stage with
  | nil => rfl
  | cons first others =>
    rw [List.tail_cons, List.tail_cons, List.flatMap_assoc]
    congr 1
    funext word
    apply Token.ofWord_eq

/-! ### What is lost with the marks -/

namespace Lexeme

/-- How the lexemes that are recognised compare with those that are written: they are the same if
no piece is lost, and have fewer tokens if one is. -/
inductive Compared (recognised written : List Lexeme) : Prop where
  | kept (h : allKept written = true) (heq : recognised = written)
  | lost (h : allKept written = false)
      (hlt : (recognised.flatMap tokens).length < (written.flatMap tokens).length)

/-- Any operator after glyphs makes as many tokens. -/
theorem length_tokens_withOperator (glyphs : List Glyph) (op op' : Operator)
    (rest : List Lexeme) :
  ((withOperator glyphs op rest).flatMap tokens).length
    = ((withOperator glyphs op' rest).flatMap tokens).length
  := by
  rw [withOperator, withOperator]
  cases Word.number? ⟨glyphs⟩ <;> simp [tokens]

/-- How many tokens glyphs make. -/
def cost (glyphs : List Glyph) : Nat :=
  ((cut [] glyphs).flatMap tokens).length

theorem cost_cons_angle {glyph : Glyph} (h : glyph.role = .angle) (rest : List Glyph) :
  cost (glyph :: rest) = if rest.head? = some glyph then cost rest.tail + 2 else cost rest + 2
  := by
  rw [cost, cut_cons_angle h]
  split <;> simp [cost, tokens]

/-- One more angle before glyphs makes no fewer tokens, and at most two more. -/
theorem cost_le_cost_cons {glyph : Glyph} (h : glyph.role = .angle) (rest : List Glyph) :
  cost rest ≤ cost (glyph :: rest) ∧ cost (glyph :: rest) ≤ cost rest + 2
  := by
  induction rest with
  | nil => simp [cost, cut, ofPiece, h, tokens]
  | cons next rest ih =>
    simp only [cost_cons_angle h, List.head?_cons, List.tail_cons, Option.some_inj]
    split
    · rename_i hn
      subst hn
      omega
    · omega

namespace Compared

variable {recognised written : List Lexeme}

/-- What is recognised never has more tokens than what is written. -/
theorem length_le (h : Compared recognised written) :
  (recognised.flatMap tokens).length ≤ (written.flatMap tokens).length
  := by
  cases h with
  | kept _ heq => simp only [heq, Nat.le_refl]
  | lost _ hlt => apply Nat.le_of_lt hlt

theorem cons_operator (h : Compared recognised written) (number : Option Outlet)
    (op : Operator) :
  Compared (.operator number op :: recognised) (.operator number op :: written)
  := by
  cases h with
  | kept hk heq =>
    apply kept
    · simpa [allKept] using hk
    · rw [heq]
  | lost hk hlt =>
    apply lost
    · simpa [allKept] using hk
    · simpa using hlt

/-- What is recognised of a piece before an operator is what is written, or less. -/
theorem cons_piece (h : Compared recognised written) (begun : List Glyph) (op : Operator) :
  Compared (withOperator (Word.spoken ⟨begun⟩) op recognised)
    (.piece (Word.text ⟨begun⟩) :: .operator none op :: written)
  := by
  by_cases hl : Word.text ⟨begun⟩ = [] ∨ Token.isSelector (Word.text ⟨begun⟩) = true
  · have hb : (Token.beforeOperator (Word.text ⟨begun⟩)).length = 1 := by
      rw [Token.beforeOperator]
      rcases hl with hl | hl
      · rw [hl]
        rfl
      · rw [if_pos hl]
        rfl
    have hle := h.length_le
    apply lost
    · rcases hl with hl | hl <;> simp [allKept, hl]
    · rw [tokens_withOperator_spoken, List.length_append, hb]
      simp only [List.flatMap_cons, List.length_append, List.length_cons, List.length_nil, tokens]
      omega
  · simp only [not_or, Bool.not_eq_true] at hl
    have hn : Word.spoken ⟨begun⟩ ≠ [] := by
      intro hs
      apply hl.1
      rw [Word.text_mk, hs, List.map_nil]
    have hs : Word.number? ⟨Word.spoken ⟨begun⟩⟩ = none := by
      simp [Word.number?, Redirection.outlet?_eq_none.mpr hl.2]
    have hw : Lexeme.withOperator (Word.spoken ⟨begun⟩) op recognised
        = .piece (Word.text ⟨begun⟩) :: .operator none op :: recognised := by
      simp [Lexeme.withOperator, hs, ofPiece, hn]
    rw [hw]
    cases h with
    | kept hk heq =>
      apply kept
      · simp [allKept, hl, hk]
      · rw [heq]
    | lost hk hlt =>
      apply lost
      · simp [allKept, hk]
      · simpa [tokens] using hlt

/-- What is recognised of glyphs before an operator is what is written, or less. -/
theorem withOperator (h : Compared recognised written) (begun : List Glyph) (op : Operator) :
  Compared (withOperator (Word.spoken ⟨begun⟩) op recognised) (withOperator begun op written)
  := by
  cases hn : Word.number? ⟨begun⟩ with
  | some number =>
    have hs : Word.number? ⟨Word.spoken ⟨begun⟩⟩ = some number := by
      rw [Word.number?] at hn
      split at hn
      · simp [Word.number?, hn]
      · contradiction
    simp only [Lexeme.withOperator, hn, hs]
    apply h.cons_operator
  | none =>
    by_cases hb : begun = []
    · subst hb
      apply h.cons_operator
    · have hw : Lexeme.withOperator begun op written
          = .piece (Word.text ⟨begun⟩) :: .operator none op :: written := by
        simp [Lexeme.withOperator, hn, ofPiece, hb]
      rw [hw]
      apply h.cons_piece

/-- What is recognised is less also with another operator, where something after it is lost. -/
theorem withOperator_of_lost (h : Compared recognised written) (hk : allKept written = false)
    (begun : List Glyph) (op op' : Operator) :
  Compared (Lexeme.withOperator (Word.spoken ⟨begun⟩) op recognised)
    (Lexeme.withOperator begun op' written)
  := by
  have hw : allKept (Lexeme.withOperator begun op' written) = false := by
    rw [Lexeme.withOperator, ofPiece]
    split
    · simpa [allKept] using hk
    · split <;> simp [allKept, hk]
  apply lost hw
  rw [length_tokens_withOperator _ op op']
  cases h.withOperator begun op' with
  | kept hk' => simp [hw] at hk'
  | lost _ hlt => apply hlt

end Compared

/-- A piece is lost if it has marks only. -/
theorem compared_ofPiece (begun : List Glyph) :
  Compared (ofPiece (Word.spoken ⟨begun⟩)) (ofPiece begun)
  := by
  by_cases hb : begun = []
  · subst hb
    apply Compared.kept rfl rfl
  by_cases ht : Word.spoken ⟨begun⟩ = []
  · apply Compared.lost
    · simp [ofPiece, hb, allKept, Word.text_mk, ht]
    · simp [ofPiece, hb, ht, tokens]
  · apply Compared.kept
    · simp [ofPiece, hb, allKept, Word.text_mk, ht]
    · simp [ofPiece, hb, ht]

/-- A piece of marks only is lost before an operator. -/
theorem allKept_withOperator {begun : List Glyph} (hb : begun ≠ [])
    (ht : Word.spoken ⟨begun⟩ = []) (op : Operator) (rest : List Lexeme) :
  allKept (withOperator begun op rest) = false
  := by
  have hw : Word.text ⟨begun⟩ = [] := by rw [Word.text_mk, ht, List.map_nil]
  have hn : Word.number? ⟨begun⟩ = none := by simp [Word.number?, hw, Redirection.outlet?]
  simp [withOperator, hn, ofPiece, hb, allKept, hw]

/-- A piece that begins with marks only and has an operator after them is lost. -/
theorem allKept_cut_marks {glyph : Glyph} (ha : glyph.role = .angle) {begun glyphs : List Glyph}
    (hb : begun ≠ []) (ht : Word.spoken ⟨begun⟩ = [])
    (hg : (Word.spoken ⟨glyphs⟩).head? = some glyph) :
  allKept (cut begun glyphs) = false
  := by
  induction glyphs generalizing begun with
  | nil => simp [Word.spoken] at hg
  | cons next rest ih =>
    by_cases hm : next.role = .mark
    · rw [Word.spoken_cons_mark hm] at hg
      rw [cut_cons (by simp [hm])]
      apply ih (by simp) _ hg
      rw [Word.spoken_append, ht, Word.spoken_cons_mark hm]
      rfl
    · rw [Word.spoken_cons hm, List.head?_cons, Option.some_inj] at hg
      subst hg
      rw [cut_cons_angle ha]
      split <;> apply allKept_withOperator hb ht

/-- Marks between two equal angles are lost. -/
theorem lost_of_marks {glyph : Glyph} (ha : glyph.role = .angle) {rest : List Glyph}
    (hr : rest.head? ≠ some glyph) (hs : (Word.spoken ⟨rest⟩).head? = some glyph)
    (h : Compared (cut [] (Word.spoken ⟨rest⟩)) (cut [] rest)) :
  allKept (cut [] rest) = false ∧ Compared (cut [] (Word.spoken ⟨rest⟩).tail) (cut [] rest)
  := by
  have hk : allKept (cut [] rest) = false := by
    cases rest with
    | nil => simp [Word.spoken] at hs
    | cons next others =>
      have hm : next.role = .mark := by
        apply Decidable.byContradiction
        intro hm
        rw [Word.spoken_cons hm] at hs
        apply hr hs
      rw [Word.spoken_cons_mark hm] at hs
      rw [cut_cons (by simp [hm])]
      apply allKept_cut_marks ha (by simp) _ hs
      apply Word.spoken_cons_mark hm
  refine ⟨hk, .lost hk ?_⟩
  cases h with
  | kept hk' => simp [hk] at hk'
  | lost _ hlt =>
    obtain ⟨others, hs⟩ := List.head?_eq_some_iff.mp hs
    have hc := (cost_le_cost_cons ha others).1
    rw [hs] at hlt ⊢
    apply Nat.lt_of_le_of_lt hc hlt

/-- What is recognised of glyphs is what is written, or less where a piece is lost. -/
theorem compared_cut (begun glyphs : List Glyph) :
  Compared (cut (Word.spoken ⟨begun⟩) (Word.spoken ⟨glyphs⟩)) (cut begun glyphs)
  := by
  induction glyphs using tail_induction generalizing begun with
  | nil => apply compared_ofPiece
  | cons glyph rest ih ih' =>
    by_cases hm : glyph.role = .mark
    · have h := ih (begun ++ [glyph])
      rw [Word.spoken_append, Word.spoken_cons_mark hm] at h
      rw [Word.spoken_cons_mark hm, cut_cons (by simp [hm])]
      simpa [Word.spoken] using h
    rw [Word.spoken_cons hm]
    by_cases ha : glyph.role = .angle
    · rw [cut_cons_angle ha, cut_cons_angle ha]
      by_cases hr : rest.head? = some glyph
      · obtain ⟨others, rfl⟩ := List.head?_eq_some_iff.mp hr
        rw [Word.spoken_cons hm]
        simp only [List.head?_cons, List.tail_cons, if_true]
        apply (ih' []).withOperator
      · rw [if_neg hr]
        split
        · rename_i hs
          obtain ⟨hk, hc⟩ := lost_of_marks ha hr hs (ih [])
          apply hc.withOperator_of_lost hk
        · apply (ih []).withOperator
    · have h := ih (begun ++ [glyph])
      rw [Word.spoken_append, Word.spoken_cons hm] at h
      rw [cut_cons ha, cut_cons ha]
      simpa [Word.spoken] using h

end Lexeme

/-! ### Words and stages -/

theorem ne_nil_of_mem_words {stage : Text} {word : Word} (h : word ∈ words stage) :
  word.glyphs ≠ []
  := by
  obtain ⟨glyphs, hg, rfl⟩ := List.mem_map.mp h
  apply ne_nil_of_mem_runs hg

namespace Word

theorem role_ne_angle {word : Word} (h : word.redirects = false) :
  ∀ glyph ∈ word.glyphs, glyph.role ≠ .angle
  := by
  intro glyph hg ha
  simp only [redirects, angles, List.any_map, List.any_eq_false] at h
  have hs : glyph ∈ word.spoken := by simp [spoken, hg, ha]
  simpa [ha] using h glyph hs

/-- What is recognised of a word is what is written if no piece of the word is lost, and has fewer
tokens if one is. -/
theorem kept_or_lost {word : Word} (h : word.glyphs ≠ []) :
  (word.isKept = true ∧ word.recognised = word.lexemes)
    ∨ word.isKept = false
      ∧ (word.recognised.flatMap Lexeme.tokens).length
        < (word.lexemes.flatMap Lexeme.tokens).length
  := by
  cases hr : word.redirects with
  | false =>
    left
    simp [isKept, recognised, lexemes, hr, Lexeme.cut_of_no_angle (role_ne_angle hr),
      Lexeme.ofPiece, h]
  | true =>
    have hc : Lexeme.Compared word.recognised word.lexemes := by
      rw [recognised, if_pos hr]
      apply Lexeme.compared_cut [] word.glyphs
    cases hc with
    | kept hk heq =>
      left
      simp [isKept, hk, heq]
    | lost hk hlt =>
      right
      refine ⟨?_, hlt⟩
      simp [isKept, hr, hk]

/-- What is recognised of a word has no more tokens than what is written. -/
theorem length_recognised_le {word : Word} (h : word.glyphs ≠ []) :
  (word.recognised.flatMap Lexeme.tokens).length ≤ (word.lexemes.flatMap Lexeme.tokens).length
  := by
  rcases kept_or_lost h with ⟨-, heq⟩ | ⟨-, hlt⟩
  · rw [heq]
  · apply Nat.le_of_lt hlt

end Word

/-- Where no piece is lost the lexemes that are recognised are those that are written. -/
theorem recognised_eq_written {stage : Text}
    (h : ∀ word ∈ (words stage).tail, word.isKept = true) :
  recognised stage = written stage
  := by
  apply List.flatMap_congr
  intro word hw
  rcases Word.kept_or_lost (ne_nil_of_mem_words (List.mem_of_mem_tail hw)) with ⟨-, heq⟩ | ⟨hk, -⟩
  · apply heq
  · rw [h word hw] at hk
    contradiction

/-- The tokens of a stage are those of what is written exactly when no piece of it is lost. -/
theorem tail_ofStage_eq_iff (stage : Text) :
  (Token.ofStage stage).tail = (written stage).flatMap Lexeme.tokens
    ↔ ∀ word ∈ (words stage).tail, word.isKept = true
  := by
  rw [Token.tail_ofStage]
  constructor
  · intro h word hw
    apply Decidable.byContradiction
    intro hk
    have hlt : ((recognised stage).flatMap Lexeme.tokens).length
        < ((written stage).flatMap Lexeme.tokens).length := by
      rw [recognised, written, List.flatMap_assoc, List.flatMap_assoc, List.length_flatMap,
        List.length_flatMap]
      apply List.sum_lt_sum
      · intro other ho
        apply Word.length_recognised_le (ne_nil_of_mem_words (List.mem_of_mem_tail ho))
      · refine ⟨word, hw, ?_⟩
        rcases Word.kept_or_lost (ne_nil_of_mem_words (List.mem_of_mem_tail hw)) with
          ⟨hk', -⟩ | ⟨-, hlt⟩
        · contradiction
        · apply hlt
    rw [h] at hlt
    apply absurd hlt (Nat.lt_irrefl _)
  · intro h
    rw [recognised_eq_written h]

end CommandShell
