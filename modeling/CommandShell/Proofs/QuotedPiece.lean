import CommandShell.Proofs.Lexeme

/-!
# Quoted pieces next to an operator

An argument and a target that are written between apostrophes, with an operator between them and no
white space, make one word (`words_redirection`).  Its tokens are the argument, the number of the
output, the operator and the target, unless one of the pieces is lost (`quoted_split_iff`).
-/

namespace CommandShell

/-- An argument between apostrophes, an operator, and its target between apostrophes, with no white
space between them. -/
def quotedRedirection (argument : Text) (disposition : Disposition) (target : Text) : Text :=
  "echo ".toList ++ (singleQuoted argument ++ (disposition.operator.text ++ singleQuoted target))

/-- The glyphs of an operator as it is written. -/
def Operator.glyphs (op : Operator) : List Glyph :=
  op.text.map (⟨·, .angle⟩)

theorem Operator.read_text (op : Operator) :
  Glyph.read .bare op.text = op.glyphs
  := by
  cases op <;> decide

theorem Operator.isClosed_text (op : Operator) :
  op.text.IsClosed
  := by
  cases op <;> rfl

/-- The lexemes of an operator before a piece. -/
theorem Lexeme.cut_operator (op : Operator) {begun after : List Glyph}
    (h : ∀ glyph ∈ after, glyph.role ≠ .angle) :
  cut begun (op.glyphs ++ after) = withOperator begun op (ofPiece after)
  := by
  have hd (c : Char) : after.head? ≠ some ⟨c, .angle⟩ := by
    intro hc
    apply h _ (List.mem_of_head? hc) rfl
  cases op <;>
    simp [Operator.glyphs, Operator.text, Operator.ofAngle, cut_cons_angle, hd,
      cut_of_no_angle h]

namespace Spelling

theorem role_ne_angle {spelling : Spelling} {glyph : Glyph} (h : glyph ∈ spelling.word.glyphs) :
  glyph.role ≠ .angle
  := by
  rcases role_of_mem_word h with h | h <;> simp [h]

end Spelling

/-- The word that a spelled argument, an operator and a spelled target make. -/
theorem words_redirection (argument target : Spelling) (op : Operator) :
  words (argument.raw ++ (op.text ++ target.raw))
    = [⟨argument.word.glyphs ++ (op.glyphs ++ target.word.glyphs)⟩]
  := by
  have hr : Glyph.read .bare (argument.raw ++ (op.text ++ target.raw))
      = argument.word.glyphs ++ (op.glyphs ++ target.word.glyphs) := by
    rw [Glyph.read_append argument.isWhole_raw.isClosed, Glyph.read_append op.isClosed_text,
      argument.read_raw, op.read_text, target.read_raw]
  rw [words, hr, runs_of_uncut, List.map_singleton]
  · cases op <;> simp [Operator.glyphs, Operator.text]
  · intro glyph hg
    simp only [List.mem_append, Operator.glyphs, List.mem_map] at hg
    rcases hg with hg | ⟨c, -, rfl⟩ | hg
    · rcases Spelling.role_of_mem_word hg with h | h <;> simp [h]
    · simp
    · rcases Spelling.role_of_mem_word hg with h | h <;> simp [h]

/-- The tokens of a word that has an operator between two pieces. -/
theorem Token.ofWord_operator {begun after : List Glyph} (op : Operator)
    (hb : ∀ glyph ∈ begun, glyph.role ≠ .angle) (ha : ∀ glyph ∈ after, glyph.role ≠ .angle) :
  ofWord ⟨begun ++ (op.glyphs ++ after)⟩
    = beforeOperator (Word.text ⟨begun⟩) ++ .operator op :: ofPiece (Word.text ⟨after⟩)
  := by
  have hr : Word.redirects ⟨begun ++ (op.glyphs ++ after)⟩ = true := by
    cases op <;>
      simp [Word.redirects, Word.angles, Word.spoken, Operator.glyphs, Operator.text]
  have hs : Word.spoken ⟨begun ++ (op.glyphs ++ after)⟩
      = Word.spoken ⟨begun⟩ ++ (op.glyphs ++ Word.spoken ⟨after⟩) := by
    rw [Word.spoken_append, Word.spoken_append]
    cases op <;> rfl
  have hb' : ∀ glyph ∈ Word.spoken ⟨begun⟩, glyph.role ≠ .angle :=
    fun _ hg => hb _ (List.mem_of_mem_filter hg)
  have ha' : ∀ glyph ∈ Word.spoken ⟨after⟩, glyph.role ≠ .angle :=
    fun _ hg => ha _ (List.mem_of_mem_filter hg)
  rw [ofWord_eq, Word.recognised, if_pos hr, hs, Lexeme.cut_append hb', List.nil_append,
    Lexeme.cut_operator op ha', Lexeme.tokens_withOperator_spoken, Lexeme.tokens_ofPiece_spoken]

/-- The tokens of a spelled argument, an operator and a spelled target with no white space between
them. -/
theorem ofStage_redirection (argument target : Spelling) (op : Operator) :
  Token.ofStage ("echo ".toList ++ (argument.raw ++ (op.text ++ target.raw)))
    = .word "echo".toList
      :: (Token.beforeOperator argument.text ++ .operator op :: Token.ofPiece target.text)
  := by
  have he : Text.IsClosed "echo".toList := rfl
  have hw : words ("echo ".toList ++ (argument.raw ++ (op.text ++ target.raw)))
      = words "echo".toList ++ words (argument.raw ++ (op.text ++ target.raw)) := by
    apply words_append_blank he (c := ' ') (by decide)
  have hn : words "echo".toList = [⟨"echo".toList.map (⟨·, .literal⟩)⟩] := by decide
  rw [Token.ofStage, hw, words_redirection, hn]
  simp only [List.singleton_append, List.flatMap_singleton]
  rw [Token.ofWord_operator op (fun _ => Spelling.role_ne_angle) fun _ => Spelling.role_ne_angle,
    ← argument.text_word, ← target.text_word]
  rfl

/-- A piece between apostrophes next to an operator is split from it as an argument, and a target
between apostrophes as a target, exactly when the argument is neither empty nor a number and the
target is not empty.  More generally the tokens of a stage are those of what is written, its
numbers and doubled angles being bare and side by side, exactly when no quoted piece next to an
operator is empty and none before an operator is a number. -/
theorem quoted_split_iff (argument target : Text) (disposition : Disposition) (stage : Text) :
  (Token.ofStage (quotedRedirection argument disposition target)
        = [.word "echo".toList, .word argument, .word ['1'], .operator disposition.operator,
            .word target]
      ↔ argument ≠ [] ∧ Token.isSelector argument = false ∧ target ≠ [])
    ∧ ((Token.ofStage stage).tail = (written stage).flatMap Lexeme.tokens
      ↔ ∀ word ∈ (words stage).tail, word.isKept = true)
  := by
  refine ⟨?_, tail_ofStage_eq_iff stage⟩
  obtain ⟨spelledArgument, hra, rfl⟩ := exists_spelling_singleQuoted argument
  obtain ⟨spelledTarget, hrt, rfl⟩ := exists_spelling_singleQuoted target
  rw [quotedRedirection, ← hra, ← hrt, ofStage_redirection, List.cons_inj_right]
  generalize spelledArgument.text = argument
  generalize spelledTarget.text = target
  rw [Token.beforeOperator, Token.ofPiece, Token.ofPiece]
  split
  · simp_all
  · split <;> split <;> simp_all

/-- An empty argument between apostrophes before an operator is lost. -/
theorem not_quoted_split :
  (¬ ∀ argument target disposition,
      Token.ofStage (quotedRedirection argument disposition target)
        = [.word "echo".toList, .word argument, .word ['1'], .operator disposition.operator,
            .word target])
    ∧ ¬ ∀ stage, (Token.ofStage stage).tail = (written stage).flatMap Lexeme.tokens
  := by
  constructor
  · intro h
    have hs := h [] ['f'] .truncate
    revert hs
    decide
  · intro h
    have hs := h (quotedRedirection [] .truncate ['f'])
    revert hs
    decide

end CommandShell
