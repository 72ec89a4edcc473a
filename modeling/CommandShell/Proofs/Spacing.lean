import CommandShell.Proofs.QuotedPiece
import CommandShell.Proofs.Unmarked

/-!
# White space around an operator

A command of bare words with a redirection at its end has the same tokens with and without white
space after the operator.  White space before it does not matter either where an argument stands
before the operator, unless the argument is the number of a stream.  But the name is kept as it is
written, and an operator that follows it without white space becomes a part of it
(`BareCommand.ofStage_raw_iff`).
-/

namespace CommandShell

/-- A word of characters that stand for themselves. -/
structure BareWord where
  text : Text
  ne_nil : text ≠ []
  isPlain : ∀ c ∈ text, CommandShell.isPlain c = true

/-- White space where there may be none. -/
def Gap.written : Option Gap → Text
  | none => []
  | some gap => gap.text

/-- A command of bare words, the last of which is the target of a redirection. -/
structure BareCommand where
  name : BareWord
  /-- The arguments, each after white space. -/
  args : List (Gap × BareWord)
  op : Operator
  target : BareWord

namespace BareCommand

/-- Arguments as they are written. -/
def spaced (args : List (Gap × BareWord)) : Text :=
  args.flatMap fun entry => entry.1.text ++ entry.2.text

/-- The operator and its target as they are written. -/
def ending (command : BareCommand) (after : Option Gap) : Text :=
  command.op.text ++ (Gap.written after ++ command.target.text)

/-- The command as it is written with or without white space before and after the operator. -/
def raw (command : BareCommand) (before after : Option Gap) : Text :=
  command.name.text ++ spaced command.args ++ (Gap.written before ++ command.ending after)

/-- The texts of the arguments. -/
def argTexts (command : BareCommand) : List Text :=
  command.args.map fun entry => entry.2.text

/-- The tokens that are meant. -/
def tokens (command : BareCommand) : List Token :=
  .word command.name.text :: command.argTexts.map .word
    ++ [.word ['1'], .operator command.op, .word command.target.text]

/-- Whether an argument stands before the operator that is no number of a stream. -/
def isApart (command : BareCommand) : Bool :=
  command.argTexts.getLast?.any fun text => !Token.isSelector text

end BareCommand

/-! ### Bare words -/

theorem isUnmarked_of_isPlain {c : Char} (h : isPlain c = true) :
  isUnmarked c = true ∧ isAngle c = false
  := by
  simp only [isPlain, Bool.and_eq_true, Bool.not_eq_true', decide_eq_true_eq] at h
  simp [isUnmarked, isQuote, h]

theorem Operator.isUnmarked_text (op : Operator) :
  op.text.isUnmarked = true
  := by
  cases op <;> decide

theorem Operator.map_bare_text (op : Operator) :
  op.text.map Glyph.bare = op.glyphs
  := by
  cases op <;> decide

theorem Operator.text_ne_nil (op : Operator) :
  op.text ≠ []
  := by
  cases op <;> simp [text]

namespace Text

/-- The glyphs of plain characters redirect nothing. -/
theorem role_ne_angle_of_plain {text : Text} (h : ∀ c ∈ text, isPlain c = true) :
  ∀ glyph ∈ text.map Glyph.bare, glyph.role ≠ .angle
  := by
  intro glyph hg
  obtain ⟨c, hc, rfl⟩ := List.mem_map.mp hg
  rw [Glyph.bare, (isUnmarked_of_isPlain (h c hc)).2]
  cases CommandShell.isBlank c <;> simp

theorem isUnmarked_of_plain {text : Text} (h : ∀ c ∈ text, isPlain c = true) :
  text.isUnmarked = true
  := by
  apply List.all_eq_true.mpr
  intro c hc
  apply (isUnmarked_of_isPlain (h c hc)).1

theorem isUnmarked_append {before after : Text} (hb : before.isUnmarked = true)
    (ha : after.isUnmarked = true) :
  (before ++ after).isUnmarked = true
  := by
  rw [isUnmarked, List.all_append, ← isUnmarked, ← isUnmarked, hb, ha]
  rfl

end Text

namespace BareWord

/-- The word as it is read. -/
def word (bare : BareWord) : Word :=
  ⟨bare.text.map Glyph.bare⟩

theorem words_text (bare : BareWord) :
  words bare.text = [bare.word]
  := Text.words_of_isUnmarked (Text.isUnmarked_of_plain bare.isPlain) bare.ne_nil

theorem isClosed_text (bare : BareWord) :
  bare.text.IsClosed
  := (Text.isWhole_of_isUnmarked (Text.isUnmarked_of_plain bare.isPlain)).isClosed

/-- A bare word that does not come first is one token. -/
theorem ofWord_word (bare : BareWord) :
  Token.ofWord bare.word = [.word bare.text]
  := by
  have hr : bare.word.redirects = false := by
    simp only [word, Word.redirects, Word.angles, Word.spoken, List.any_map, List.any_eq_false,
      List.mem_filter]
    rintro glyph ⟨hg, -⟩
    simpa using Text.role_ne_angle_of_plain bare.isPlain glyph hg
  rw [Token.ofWord, hr, word, Word.text_bare]
  rfl

end BareWord

/-! ### An operator and its target -/

namespace BareCommand

/-- A plain text before an operator is in the word of the operator, and so is the target unless
white space stands before it. -/
theorem words_append_ending (command : BareCommand) (after : Option Gap) {begun : Text}
    (h : ∀ c ∈ begun, isPlain c = true) :
  words (begun ++ command.ending after)
    = match after with
      | none => [⟨(begun ++ (command.op.text ++ command.target.text)).map Glyph.bare⟩]
      | some _ => [⟨(begun ++ command.op.text).map Glyph.bare⟩, command.target.word]
  := by
  have hb := Text.isUnmarked_of_plain h
  have ho := command.op.isUnmarked_text
  cases after with
  | none =>
    have ht := Text.isUnmarked_of_plain command.target.isPlain
    apply Text.words_of_isUnmarked (Text.isUnmarked_append hb (Text.isUnmarked_append ho ht))
    simp [command.op.text_ne_nil]
  | some gap =>
    have hu := Text.isUnmarked_append hb ho
    have hn : begun ++ command.op.text ≠ [] := by simp [command.op.text_ne_nil]
    rw [ending, Gap.written, ← List.append_assoc,
      words_append_gap (Text.isWhole_of_isUnmarked hu).isClosed, command.target.words_text,
      Text.words_of_isUnmarked hu hn]
    rfl

/-- The tokens of words of which the first has an operator after a plain text. -/
theorem ofWord_words_ending (command : BareCommand) (after : Option Gap) {begun : Text}
    (h : ∀ c ∈ begun, isPlain c = true) :
  (words (begun ++ command.ending after)).flatMap Token.ofWord
    = Token.beforeOperator begun ++ [.operator command.op, .word command.target.text]
  := by
  have hb := Text.role_ne_angle_of_plain h
  rw [words_append_ending command after h]
  cases after with
  | none =>
    have ht := Text.role_ne_angle_of_plain command.target.isPlain
    simp only [List.flatMap_singleton, List.map_append, Operator.map_bare_text]
    rw [Token.ofWord_operator command.op hb ht, Word.text_bare, Word.text_bare, Token.ofPiece,
      if_neg command.target.ne_nil]
  | some gap =>
    have hn : ∀ glyph ∈ ([] : List Glyph), glyph.role ≠ .angle := by simp
    have ho := Token.ofWord_operator command.op hb hn
    rw [List.append_nil, Word.text_bare] at ho
    simp only [List.flatMap_cons, List.flatMap_nil, List.append_nil, List.map_append,
      Operator.map_bare_text, ho, command.target.ofWord_word]
    simp [Word.text, Word.spoken, Token.ofPiece]

/-! ### The name and the arguments -/

theorem words_append_spaced {before : Text} (h : before.IsClosed)
    (args : List (Gap × BareWord)) :
  words (before ++ spaced args) = words before ++ (args.map fun entry => entry.2.word)
    ∧ (before ++ spaced args).IsClosed
  := by
  induction args generalizing before with
  | nil => simp [spaced, h]
  | cons entry rest ih =>
    obtain ⟨gap, bare⟩ := entry
    have hc : (before ++ (gap.text ++ bare.text)).IsClosed :=
      h.append ((isWhole_of_isBlank gap.isBlank).isClosed.append bare.isClosed_text)
    have hw := ih hc
    rw [words_append_gap h, bare.words_text] at hw
    simpa [spaced] using hw

/-- The tokens of a name and arguments, and of what follows them after white space. -/
theorem ofStage_append_gap (name : BareWord) (args : List (Gap × BareWord)) (gap : Gap)
    (rest : Text) :
  Token.ofStage (name.text ++ spaced args ++ (gap.text ++ rest))
    = .word name.text
      :: ((args.map fun entry => Token.word entry.2.text) ++ (words rest).flatMap Token.ofWord)
  := by
  obtain ⟨hw, hc⟩ := words_append_spaced name.isClosed_text args
  have ha : (args.map fun entry => entry.2.word).flatMap Token.ofWord
      = args.map fun entry => Token.word entry.2.text := by
    rw [List.flatMap_map, List.map_eq_flatMap]
    simp only [BareWord.ofWord_word]
  rw [Token.ofStage, words_append_gap hc, hw, name.words_text]
  dsimp only [List.cons_append, List.nil_append]
  rw [List.flatMap_append, ha, BareWord.word, Word.raw_bare]

/-! ### Commands -/

section

variable (command : BareCommand) (after : Option Gap)

/-- With white space before the operator the tokens are those that are meant. -/
theorem ofStage_raw_some (gap : Gap) :
  Token.ofStage (command.raw (some gap) after) = command.tokens
  := by
  have hn : ∀ c ∈ ([] : Text), isPlain c = true := by simp
  have he := command.ofWord_words_ending after hn
  rw [List.nil_append] at he
  rw [raw, Gap.written, ofStage_append_gap, he, tokens, argTexts, List.map_map]
  rfl

/-- Without white space before it the operator is in the word of the last argument, which selects a
stream if it is a number. -/
theorem ofStage_raw_none {init : List (Gap × BareWord)} {gap : Gap} {last : BareWord}
    (h : command.args = init ++ [(gap, last)]) :
  Token.ofStage (command.raw none after)
    = .word command.name.text
      :: ((init.map fun entry => Token.word entry.2.text)
        ++ (Token.beforeOperator last.text ++ [.operator command.op, .word command.target.text]))
  := by
  have hr : command.raw none after
      = command.name.text ++ spaced init ++ (gap.text ++ (last.text ++ command.ending after)) := by
    simp [raw, h, spaced, Gap.written]
  rw [hr, ofStage_append_gap, ofWord_words_ending _ _ last.isPlain]

/-- Without arguments and without white space before it the operator is a part of the name. -/
theorem ofStage_raw_glued (h : command.args = []) :
  Token.ofStage (command.raw none after)
    = match after with
      | none => [.word (command.name.text ++ (command.op.text ++ command.target.text))]
      | some _ => [.word (command.name.text ++ command.op.text), .word command.target.text]
  := by
  have hr : command.raw none after = command.name.text ++ command.ending after := by
    simp [raw, h, spaced, Gap.written]
  rw [Token.ofStage, hr, words_append_ending _ _ command.name.isPlain]
  cases after with
  | none =>
    dsimp only
    rw [Word.raw_bare]
    rfl
  | some gap =>
    dsimp only
    rw [Word.raw_bare, List.flatMap_singleton, command.target.ofWord_word]

/-- The tokens are those that are meant exactly where white space stands before the operator, or an
argument that is no number of a stream. -/
theorem ofStage_raw_eq_iff (before : Option Gap) :
  Token.ofStage (command.raw before after) = command.tokens
    ↔ before.isSome = true ∨ command.isApart = true
  := by
  cases before with
  | some gap => simp [ofStage_raw_some]
  | none =>
    rcases List.eq_nil_or_concat command.args with h | ⟨init, ⟨gap, last⟩, h⟩
    · have hn : command.isApart = false := by simp [isApart, argTexts, h]
      rw [ofStage_raw_glued _ _ h, hn, tokens]
      cases after <;> simp [command.op.text_ne_nil]
    · rw [List.concat_eq_append] at h
      rw [ofStage_raw_none _ _ h]
      cases hs : Token.isSelector last.text with
      | false =>
        simp [isApart, argTexts, tokens, h, hs, Token.beforeOperator, Token.ofPiece, last.ne_nil]
      | true =>
        -- The argument has become the number of the operator, so there is a token less.
        have hn : command.isApart = false := by simp [isApart, argTexts, h, hs]
        rw [hn]
        simp only [Option.isSome_none, Bool.false_eq_true, or_self, iff_false]
        intro he
        have hl := congrArg List.length he
        simp [argTexts, tokens, h, hs, Token.beforeOperator] at hl

end

/-- The outline of words and a redirection after them. -/
theorem outline_read (held : Option Text) (texts : List Text) (op : Operator) (target : Text) :
  Outline.read held (texts.map .word ++ [.word ['1'], .operator op, .word target])
    = ⟨held.toList ++ texts, [⟨some ['1'], op, some target⟩]⟩
  := by
  induction texts generalizing held with
  | nil => simp [Outline.read, Outline.withArg, Outline.withRedirection]
  | cons text rest ih =>
    rw [List.map_cons, List.cons_append, Outline.read, ih]
    rfl

/-- The command that is meant, and the world after its redirection. -/
def meant (command : BareCommand) (directory : Text) (input output : Stream) (world : World) :
    Option Command × World :=
  let state := Redirection.perform directory ⟨world, output, .stderr, []⟩
    ⟨some ['1'], command.op, some command.target.text⟩
  (some ⟨command.name.text, command.argTexts, input, state.output, state.error⟩,
    Command.report state.error state.faults.reverse state.world)

theorem ofTokens_tokens (command : BareCommand) (directory : Text) (input output : Stream)
    (world : World) :
  Command.ofTokens directory command.tokens input output world
    = command.meant directory input output world
  := by
  rw [tokens, List.cons_append, Command.ofTokens, outline_read]
  rfl

/-- Where an argument that is no number of a stream stands before the operator, or white space, a
command of bare words with a redirection has the tokens that are meant, and makes the command that
is meant and opens its file; otherwise it has other tokens.  So white space around the operator
does not matter exactly where such an argument stands before it.  Without any argument and without
white space an operator is a part of the name, and nothing is redirected. -/
theorem ofStage_raw_iff (command : BareCommand) :
  (∀ before after, Token.ofStage (command.raw before after) = command.tokens
      ↔ before.isSome = true ∨ command.isApart = true)
    ∧ ((∀ before after before' after',
        Token.ofStage (command.raw before after) = Token.ofStage (command.raw before' after'))
      ↔ command.isApart = true)
    ∧ (∀ before after, before.isSome = true ∨ command.isApart = true →
      ∀ directory input output world,
        Command.ofStage directory (command.raw before after) input output world
          = command.meant directory input output world)
    ∧ (command.args = [] → ∀ after directory input output world,
      Command.ofStage directory (command.raw none after) input output world
        = (some
            { name := command.name.text
                ++ (command.op.text ++ after.elim command.target.text fun _ => [])
              args := after.elim [] fun _ => [command.target.text]
              input
              output
              error := .stderr },
          world))
  := by
  refine ⟨fun before after => ofStage_raw_eq_iff command after before, ⟨?_, ?_⟩, ?_, ?_⟩
  · intro h
    let space : Gap := ⟨[' '], by decide, by decide⟩
    have hs := h none none (some space) none
    rw [ofStage_raw_some, ofStage_raw_eq_iff] at hs
    simpa using hs
  · intro h before after before' after'
    rw [(ofStage_raw_eq_iff command after before).mpr (.inr h),
      (ofStage_raw_eq_iff command after' before').mpr (.inr h)]
  · intro before after h directory input output world
    rw [Command.ofStage, (ofStage_raw_eq_iff command after before).mpr h, ofTokens_tokens]
  · intro h after directory input output world
    rw [Command.ofStage, ofStage_raw_glued command after h]
    cases after with
    | none => rfl
    | some gap =>
      rw [Option.elim_some, List.append_nil]
      rfl

/-- An operator that follows the name without white space is not split from it. -/
theorem not_ofStage_raw_eq :
  ¬ ∀ command : BareCommand,
    (∀ word, (command.name.text :: command.argTexts).getLast? = some word →
      Token.isSelector word = false) → Token.isSelector command.target.text = false →
      ∀ before after before' after',
        Token.ofStage (command.raw before after) = Token.ofStage (command.raw before' after')
  := by
  intro h
  let name : BareWord := ⟨"echo".toList, by decide, List.all_eq_true.mp (by decide)⟩
  let target : BareWord := ⟨['f'], by decide, List.all_eq_true.mp (by decide)⟩
  let space : Gap := ⟨[' '], by decide, by decide⟩
  have he := h ⟨name, [], .output, target⟩ (by decide) (by decide) none none (some space) none
  revert he
  decide

end BareCommand

end CommandShell
