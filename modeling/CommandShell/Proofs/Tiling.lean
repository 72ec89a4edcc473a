import CommandShell.Proofs.Clause
import CommandShell.Proofs.Lexeme
import CommandShell.Proofs.Rereading
import CommandShell.Proofs.Text

/-!
# Tokens that tile a word

The angles of a word that redirect are recorded by their offsets, the bytes of its text before them.
Offsets increase, each stands at an angle, and together they tell which characters of the text
redirect (`Word.marked_offsets`).  After the name every word that has some is cut into tokens that
tile it: without the numbers that are inserted before operators they have its text, and their
operators have its offsets (`Word.isTiled_ofWord`).  The name keeps its marks, also when it has
offsets, and so its token does not tile it (`not_byWord_tiled`).
-/

namespace CommandShell

/-- Whether a character stands in a text after `n` bytes of it. -/
def Text.StandsAt (text : Text) (n : Nat) (c : Char) : Prop :=
  ∃ before after : Text, text = before ++ c :: after ∧ before.size = n

/-- The characters of a text that follows `n` bytes, each with whether it is an angle at one of the
offsets. -/
def Text.marked (offsets : List Nat) : Nat → Text → List (Char × Bool)
  | _, [] => []
  | n, c :: rest => (c, isAngle c && offsets.contains n) :: marked offsets (n + c.utf8Size) rest

namespace Token

/-- The operators among tokens that follow `n` bytes, each with its span, the offsets of its
characters. -/
def spans : Nat → List Token → List (Operator × List Nat)
  | _, [] => []
  | n, .word text :: rest => spans (n + text.size) rest
  | n, .operator op :: rest =>
    (op, List.range' n op.text.length) :: spans (n + op.text.size) rest

/-- The words of a stage, each with the tokens that are made of it. -/
def byWord (stage : Text) : List (Word × List Token) :=
  match words stage with
  | [] => []
  | first :: others => (first, [.word first.raw]) :: others.map fun word => (word, ofWord word)

/-- Whether tokens have the characters that follow `n` bytes, their operators having those that
redirect. -/
structure Tiles (n : Nat) (entries : List (Char × Bool)) (tokens : List Token) : Prop where
  text_eq : tokens.flatMap Token.text = entries.map Prod.fst
  offsets_eq : (spans n tokens).flatMap Prod.snd = Word.offsets.go n entries

end Token

/-- The tokens of a lexeme that stand in the text, the number of an operator being one of them if it
is written. -/
def Lexeme.kept : Lexeme → List Token
  | .piece text => [.word text]
  | .operator number op => number.toList.map (Token.word ·.number) ++ [.operator op]

/-- Whether tokens are those of lexemes that tile a word. -/
structure Word.IsTiled (word : Word) (lexemes : List Lexeme) (tokens : List Token) : Prop where
  tokens_eq : lexemes.flatMap Lexeme.tokens = tokens
  /-- Without the numbers that are inserted the tokens have the text of the word. -/
  text_eq : (lexemes.flatMap Lexeme.kept).flatMap Token.text = word.text
  /-- Each operator among the tokens has a span. -/
  operators_eq : (Token.spans 0 (lexemes.flatMap Lexeme.kept)).map Prod.fst
    = tokens.filterMap Token.operator?
  /-- The spans have the offsets of the word one after another, each once. -/
  offsets_eq : (Token.spans 0 (lexemes.flatMap Lexeme.kept)).flatMap Prod.snd = word.offsets
  /-- A span has one offset, or two side by side if its operator is doubled, and the angle of the
  operator stands at each of them. -/
  angle : ∀ span ∈ Token.spans 0 (lexemes.flatMap Lexeme.kept), ∃ c doubled n, isAngle c = true
    ∧ span = (.ofAngle c doubled, if doubled then [n, n + 1] else [n])
    ∧ ∀ m ∈ span.2, word.text.StandsAt m c

/-! ### Offsets -/

theorem Text.standsAt_append (before after : Text) (c : Char) :
  (before ++ c :: after).StandsAt before.size c
  := ⟨before, after, rfl, rfl⟩

namespace Word

@[simp]
theorem go_offsets_cons (n : Nat) (c : Char) (redirects : Bool) (rest : List (Char × Bool)) :
  offsets.go n ((c, redirects) :: rest)
    = (if redirects then [n] else []) ++ offsets.go (n + c.utf8Size) rest
  := by
  cases redirects <;> rfl

theorem go_offsets_append (n : Nat) (before after : List (Char × Bool)) :
  offsets.go n (before ++ after)
    = offsets.go n before ++ offsets.go (n + Text.size (before.map Prod.fst)) after
  := by
  induction before generalizing n with
  | nil => rfl
  | cons entry before ih =>
    obtain ⟨c, redirects⟩ := entry
    simp [ih, Nat.add_assoc]

/-- An offset is what the characters before one that redirects take. -/
theorem exists_of_mem_go_offsets {n m : Nat} {entries : List (Char × Bool)}
    (h : m ∈ offsets.go n entries) :
  ∃ before c after, entries = before ++ (c, true) :: after
    ∧ m = n + Text.size (before.map Prod.fst)
  := by
  induction entries generalizing n with
  | nil => contradiction
  | cons entry rest ih =>
    obtain ⟨c, redirects⟩ := entry
    rw [go_offsets_cons, List.mem_append] at h
    rcases h with h | h
    · cases redirects with
      | true =>
        obtain rfl : m = n := by simpa using h
        exact ⟨[], c, rest, rfl, rfl⟩
      | false => simp at h
    · obtain ⟨before, d, after, rfl, rfl⟩ := ih h
      refine ⟨(c, redirects) :: before, d, after, rfl, ?_⟩
      simp [Nat.add_assoc]

theorem le_of_mem_go_offsets {n m : Nat} {entries : List (Char × Bool)}
    (h : m ∈ offsets.go n entries) :
  n ≤ m
  := by
  obtain ⟨before, c, after, -, rfl⟩ := exists_of_mem_go_offsets h
  apply Nat.le_add_right

theorem pairwise_go_offsets (n : Nat) (entries : List (Char × Bool)) :
  (offsets.go n entries).Pairwise (· < ·)
  := by
  induction entries generalizing n with
  | nil => apply List.Pairwise.nil
  | cons entry rest ih =>
    obtain ⟨c, _ | _⟩ := entry
    · apply ih
    · apply List.Pairwise.cons _ (ih _)
      intro m hm
      have hc := c.utf8Size_pos
      have hle := le_of_mem_go_offsets hm
      omega

/-- A word has offsets if one of its characters redirects. -/
theorem offsets_eq_nil_iff {word : Word} :
  word.offsets = [] ↔ word.redirects = false
  := by
  have hgo (entries : List (Char × Bool)) (n : Nat) :
      offsets.go n entries = [] ↔ entries.any Prod.snd = false := by
    induction entries generalizing n with
    | nil => simp [offsets.go]
    | cons entry rest ih =>
      obtain ⟨c, _ | _⟩ := entry
      · simpa using ih _
      · simp
  apply hgo

theorem map_fst_angles (word : Word) :
  word.angles.map Prod.fst = word.text
  := by
  rw [angles, List.map_map]
  rfl

end Word

/-! ### Angles -/

/-- A character that redirects is an angle. -/
theorem Quoting.isAngle_of_read {quoting : Quoting} {c : Char} {next : Option Char}
    (h : (quoting.read c next).1 = .angle) :
  isAngle c = true
  := by
  cases quoting with
  | bare =>
    simp only [read] at h
    split_ifs at h
    assumption
  | single =>
    simp only [read] at h
    split_ifs at h
  | double =>
    simp only [read] at h
    split_ifs at h
  | escaped inDouble => contradiction

theorem Glyph.isAngle_of_mem_read {quoting : Quoting} {stage : Text} {glyph : Glyph}
    (h : glyph ∈ read quoting stage) (ha : glyph.role = .angle) :
  isAngle glyph.char = true
  := by
  induction stage generalizing quoting with
  | nil => contradiction
  | cons c rest ih =>
    rw [read, List.mem_cons] at h
    rcases h with rfl | h
    · apply Quoting.isAngle_of_read ha
    · apply ih h

/-- The offsets of characters tell which of them redirect. -/
theorem Text.marked_go_offsets {entries : List (Char × Bool)}
    (ha : ∀ c, (c, true) ∈ entries → isAngle c = true) {offsets : List Nat} {n : Nat}
    (ho : ∀ m, n ≤ m → (m ∈ offsets ↔ m ∈ Word.offsets.go n entries)) :
  marked offsets n (entries.map Prod.fst) = entries
  := by
  induction entries generalizing n with
  | nil => rfl
  | cons entry rest ih =>
    obtain ⟨c, redirects⟩ := entry
    have hc := c.utf8Size_pos
    -- The offsets of what follows come after `n`, so that it is one of them only for `c`.
    have hlt {m : Nat} (hm : m ∈ Word.offsets.go (n + c.utf8Size) rest) : n < m := by
      have hle := Word.le_of_mem_go_offsets hm
      omega
    have hr : marked offsets (n + c.utf8Size) (rest.map Prod.fst) = rest := by
      apply ih (fun d hd => ha d (List.mem_cons_of_mem _ hd))
      intro m hm
      rw [ho m (by omega), Word.go_offsets_cons, List.mem_append, or_iff_right]
      intro hn
      cases redirects with
      | true =>
        rw [if_pos rfl, List.mem_singleton] at hn
        omega
      | false => contradiction
    have hn : (isAngle c && offsets.contains n) = redirects := by
      have hm := ho n (Nat.le_refl n)
      rw [Word.go_offsets_cons] at hm
      cases redirects with
      | true => simp_all
      | false =>
        have hnot : n ∉ Word.offsets.go (n + c.utf8Size) rest := fun h => Nat.lt_irrefl _ (hlt h)
        simp_all
    rw [List.map_cons, marked, hn, hr]

namespace Word

section

variable {stage : Text} {word : Word} (h : word ∈ words stage)

include h

theorem isAngle_of_mem_angles {c : Char} (hc : (c, true) ∈ word.angles) :
  isAngle c = true
  := by
  obtain ⟨text, -, -, rfl⟩ := exists_unbroken_of_mem_words h
  obtain ⟨glyph, hg, heq⟩ := List.mem_map.mp hc
  simp only [Prod.mk.injEq, decide_eq_true_eq] at heq
  obtain ⟨rfl, ha⟩ := heq
  apply Glyph.isAngle_of_mem_read (List.mem_of_mem_filter hg) ha

/-- Each offset of a word stands at an angle of its text. -/
theorem exists_standsAt_of_mem_offsets {n : Nat} (hn : n ∈ word.offsets) :
  ∃ c, isAngle c = true ∧ word.text.StandsAt n c
  := by
  obtain ⟨before, c, after, he, rfl⟩ := exists_of_mem_go_offsets hn
  use c
  constructor
  · apply isAngle_of_mem_angles h
    simp [he]
  · rw [← map_fst_angles, he, List.map_append, List.map_cons, Nat.zero_add]
    apply Text.standsAt_append

/-- The offsets of a word tell which characters of its text redirect. -/
theorem marked_offsets :
  word.text.marked word.offsets 0 = word.angles
  := by
  rw [← map_fst_angles]
  apply Text.marked_go_offsets fun c => isAngle_of_mem_angles h
  intro m _
  rfl

end

end Word

/-! ### Spans -/

theorem eq_of_isAngle {c : Char} (h : isAngle c = true) :
  c = '>' ∨ c = '<'
  := by
  simpa [isAngle] using h

theorem utf8Size_of_isAngle {c : Char} (h : isAngle c = true) :
  c.utf8Size = 1
  := by
  rcases eq_of_isAngle h with rfl | rfl <;> rfl

namespace Operator

theorem text_ofAngle {c : Char} (h : isAngle c = true) (doubled : Bool) :
  (ofAngle c doubled).text = if doubled then [c, c] else [c]
  := by
  rcases eq_of_isAngle h with rfl | rfl <;> cases doubled <;> rfl

theorem exists_eq_ofAngle (op : Operator) :
  ∃ c doubled, isAngle c = true ∧ op = ofAngle c doubled
  := by
  cases op with
  | input => exact ⟨'<', false, rfl, rfl⟩
  | hereDocument => exact ⟨'<', true, rfl, rfl⟩
  | output => exact ⟨'>', false, rfl, rfl⟩
  | append => exact ⟨'>', true, rfl, rfl⟩

end Operator

namespace Token

theorem spans_append (n : Nat) (before after : List Token) :
  spans n (before ++ after)
    = spans n before ++ spans (n + Text.size (before.flatMap text)) after
  := by
  induction before generalizing n with
  | nil => rfl
  | cons token before ih =>
    cases token with
    | word t => simp [spans, ih, text, Nat.add_assoc]
    | operator op => simp [spans, ih, text, Nat.add_assoc]

theorem map_fst_spans (n : Nat) (tokens : List Token) :
  (spans n tokens).map Prod.fst = tokens.filterMap operator?
  := by
  induction tokens generalizing n with
  | nil => rfl
  | cons token rest ih =>
    cases token with
    | word t => apply ih
    | operator op => simp [spans, operator?, ih]

theorem exists_of_mem_spans {n : Nat} {tokens : List Token} {span : Operator × List Nat}
    (h : span ∈ spans n tokens) :
  ∃ before op after, tokens = before ++ .operator op :: after
    ∧ span = (op, List.range' (n + Text.size (before.flatMap text)) op.text.length)
  := by
  induction tokens generalizing n with
  | nil => contradiction
  | cons token rest ih =>
    cases token with
    | word t =>
      obtain ⟨before, op, after, rfl, rfl⟩ := ih h
      refine ⟨.word t :: before, op, after, rfl, ?_⟩
      simp [text, Nat.add_assoc]
    | operator op =>
      rcases List.mem_cons.mp h with rfl | h
      · exact ⟨[], op, rest, rfl, rfl⟩
      · obtain ⟨before, other, after, rfl, rfl⟩ := ih h
        refine ⟨.operator op :: before, other, after, rfl, ?_⟩
        simp [text, Nat.add_assoc]

/-- The angle of an operator stands at each offset in its span. -/
theorem angle_of_mem_spans {tokens : List Token} {span : Operator × List Nat}
    (h : span ∈ spans 0 tokens) :
  ∃ c doubled n, isAngle c = true
    ∧ span = (.ofAngle c doubled, if doubled then [n, n + 1] else [n])
    ∧ ∀ m ∈ span.2, Text.StandsAt (tokens.flatMap text) m c
  := by
  obtain ⟨before, op, after, rfl, rfl⟩ := exists_of_mem_spans h
  obtain ⟨c, doubled, hc, rfl⟩ := op.exists_eq_ofAngle
  have ht := Operator.text_ofAngle hc doubled
  have hsize := utf8Size_of_isAngle hc
  refine ⟨c, doubled, Text.size (before.flatMap text), hc, ?_⟩
  rw [List.flatMap_append, List.flatMap_cons, text, ht, Nat.zero_add]
  cases doubled with
  | false =>
    refine ⟨rfl, ?_⟩
    intro m hm
    obtain rfl : m = Text.size (before.flatMap text) := by simpa using hm
    apply Text.standsAt_append
  | true =>
    refine ⟨rfl, ?_⟩
    intro m hm
    obtain rfl | rfl : m = Text.size (before.flatMap text)
        ∨ m = Text.size (before.flatMap text) + 1 := by
      simpa [List.range'] using hm
    · apply Text.standsAt_append
    · have hs := Text.standsAt_append (before.flatMap text ++ [c]) (after.flatMap text) c
      simpa [hsize] using hs

namespace Tiles

variable {n : Nat} {entries others : List (Char × Bool)} {tokens more : List Token}

theorem append (h : Tiles n entries tokens)
    (ho : Tiles (n + Text.size (entries.map Prod.fst)) others more) :
  Tiles n (entries ++ others) (tokens ++ more)
  where
  text_eq := by rw [List.flatMap_append, List.map_append, h.text_eq, ho.text_eq]
  offsets_eq := by
    rw [spans_append, List.flatMap_append, Word.go_offsets_append, h.offsets_eq, h.text_eq,
      ho.offsets_eq]

/-- The word of a piece tiles it. -/
theorem ofPiece (n : Nat) (piece : Text) :
  Tiles n (piece.map (·, false)) (Token.ofPiece piece)
  := by
  have hg : Word.offsets.go n (piece.map (·, false)) = [] := by
    induction piece generalizing n with
    | nil => rfl
    | cons c rest ih => simpa using ih _
  rw [Token.ofPiece]
  split
  · rename_i hp
    subst hp
    exact ⟨rfl, rfl⟩
  · constructor
    · simp [text, Function.comp_def]
    · rw [hg]
      rfl

/-- An operator tiles its angles. -/
theorem operator (n : Nat) (op : Operator) :
  Tiles n (op.text.map (·, true)) [.operator op]
  := by
  cases op <;> exact ⟨rfl, rfl⟩

end Tiles

end Token

/-! ### Lexemes -/

namespace Lexeme

theorem kept_ofPiece_spoken (glyphs : List Glyph) :
  (ofPiece (Word.spoken ⟨glyphs⟩)).flatMap kept = Token.ofPiece (Word.text ⟨glyphs⟩)
  := by
  rw [← tokens_ofPiece_spoken, ofPiece]
  split <;> rfl

/-- Before an operator stands the piece that has begun, whether it is the number of the operator or
not. -/
theorem kept_withOperator_spoken (glyphs : List Glyph) (op : Operator) (rest : List Lexeme) :
  (withOperator (Word.spoken ⟨glyphs⟩) op rest).flatMap kept
    = Token.ofPiece (Word.text ⟨glyphs⟩) ++ ([.operator op] ++ rest.flatMap kept)
  := by
  have hn : Word.number? ⟨Word.spoken ⟨glyphs⟩⟩ = Redirection.outlet? (Word.text ⟨glyphs⟩) := by
    rw [Word.number?, Word.raw_spoken, Word.text_spoken, if_pos rfl]
  have hp := kept_ofPiece_spoken glyphs
  simp only [withOperator, hn, Redirection.outlet?]
  by_cases h1 : Word.text ⟨glyphs⟩ = ['1']
  · simp [h1, kept, Outlet.number, Token.ofPiece]
  by_cases h2 : Word.text ⟨glyphs⟩ = ['2']
  · simp [h2, kept, Outlet.number, Token.ofPiece]
  · simp [h1, h2, hp, kept]

/-- A piece that has begun and an operator after it are tiled where what follows them is. -/
theorem tiles_withOperator (begun : List Glyph) (op : Operator) {rest : List Lexeme}
    {entries : List (Char × Bool)} {n : Nat}
    (h : ∀ m, Token.Tiles m entries (rest.flatMap kept)) :
  Token.Tiles n ((Word.text ⟨begun⟩).map (·, false) ++ (op.text.map (·, true) ++ entries))
    ((withOperator (Word.spoken ⟨begun⟩) op rest).flatMap kept)
  := by
  rw [kept_withOperator_spoken]
  apply (Token.Tiles.ofPiece n _).append
  apply (Token.Tiles.operator _ op).append (h _)

/-- The lexemes of a piece that has begun and glyphs without marks tile it. -/
theorem tiles_cut {glyphs : List Glyph}
    (h : ∀ glyph ∈ glyphs, glyph.role ≠ .mark ∧ (glyph.role = .angle → isAngle glyph.char = true))
    (begun : List Glyph) (n : Nat) :
  Token.Tiles n ((Word.text ⟨begun⟩).map (·, false) ++ glyphs.map Glyph.entry)
    ((cut (Word.spoken ⟨begun⟩) glyphs).flatMap kept)
  := by
  -- After a doubled angle the rest is what follows the second one.
  induction glyphs using tail_induction generalizing begun n with
  | nil =>
    rw [List.map_nil, List.append_nil, cut, kept_ofPiece_spoken]
    apply Token.Tiles.ofPiece
  | cons glyph rest ih ih' =>
    obtain ⟨⟨hm, ha⟩, hr⟩ := List.forall_mem_cons.mp h
    by_cases hg : glyph.role = .angle
    · have he : glyph.entry = (glyph.char, true) := (Glyph.entry_eq_iff hg glyph).mpr rfl
      have ih (m : Nat) : Token.Tiles m (rest.map Glyph.entry) ((cut [] rest).flatMap kept) :=
        ih hr [] m
      have ih' (m : Nat) :
          Token.Tiles m (rest.tail.map Glyph.entry) ((cut [] rest.tail).flatMap kept) :=
        ih' (fun other ho => hr other (List.mem_of_mem_tail ho)) [] m
      rw [List.map_cons, he, cut_cons_angle hg]
      split
      · rename_i hd
        obtain ⟨others, rfl⟩ := List.head?_eq_some_iff.mp hd
        have ht := tiles_withOperator begun (.ofAngle glyph.char true) ih' (n := n)
        rw [Operator.text_ofAngle (ha hg)] at ht
        simpa [he] using ht
      · have ht := tiles_withOperator begun (.ofAngle glyph.char false) ih (n := n)
        rw [Operator.text_ofAngle (ha hg)] at ht
        simpa using ht
    · have he : glyph.entry = (glyph.char, false) := by simp [Glyph.entry, hg]
      have ih := ih hr (begun ++ [glyph]) n
      rw [Word.text_mk, Word.spoken_append, Word.spoken_cons hm] at ih
      rw [List.map_cons, he, cut_cons hg]
      simpa [Word.text_mk, Word.spoken] using ih

/-- The operators are the same with the numbers that are inserted and without them. -/
theorem operators_kept (lexemes : List Lexeme) :
  (lexemes.flatMap kept).filterMap Token.operator?
    = (lexemes.flatMap tokens).filterMap Token.operator?
  := by
  induction lexemes with
  | nil => rfl
  | cons lexeme rest ih =>
    rw [List.flatMap_cons, List.flatMap_cons, List.filterMap_append, List.filterMap_append, ih]
    cases lexeme with
    | piece text => rfl
    | operator number op => cases number <;> rfl

/-- Before every operator among the tokens of lexemes stands the number of a stream. -/
theorem exists_number_of_tokens {lexemes : List Lexeme} {before after : List Token}
    {op : Operator} (h : lexemes.flatMap tokens = before ++ .operator op :: after) :
  ∃ (earlier : List Token) (number : Outlet), before = earlier ++ [.word number.number]
  := by
  induction lexemes generalizing before with
  | nil => simp at h
  | cons lexeme rest ih =>
    rw [List.flatMap_cons] at h
    match lexeme, before, h with
    | .piece text, first :: before, h =>
      obtain ⟨earlier, number, rfl⟩ := ih (List.cons.inj h).2
      exact ⟨first :: earlier, number, rfl⟩
    | .operator number other, [first], h =>
      rw [← (List.cons.inj h).1]
      exact ⟨[], _, rfl⟩
    | .operator number other, first :: second :: before, h =>
      obtain ⟨earlier, number, rfl⟩ := ih (List.cons.inj (List.cons.inj h).2).2
      exact ⟨first :: second :: earlier, number, rfl⟩

/-- A single word is the only token of a piece. -/
theorem kept_of_tokens {lexemes : List Lexeme} {text : Text}
    (h : lexemes.flatMap tokens = [.word text]) :
  lexemes.flatMap kept = [.word text]
  := by
  match lexemes, h with
  | [.piece other], h => exact h
  | .piece other :: .piece next :: rest, h => simp [tokens] at h
  | .piece other :: .operator number op :: rest, h => simp [tokens] at h
  | .operator number op :: rest, h => simp [tokens] at h

end Lexeme

/-! ### Words and stages -/

namespace Token

theorem nil_not_mem_ofPiece (piece : Text) :
  .word [] ∉ ofPiece piece
  := by
  rw [ofPiece]
  split
  · simp
  · rename_i hp
    simpa using Ne.symm hp

theorem nil_not_mem_beforeOperator (piece : Text) :
  .word [] ∉ beforeOperator piece
  := by
  rw [beforeOperator]
  split
  · rename_i hp
    have hne : piece ≠ [] := by
      rintro rfl
      contradiction
    simpa using Ne.symm hne
  · simpa using nil_not_mem_ofPiece piece

/-- No word is cut to be empty. -/
theorem nil_not_mem_cut (unfinished : Unfinished) (entries : List (Char × Bool)) :
  .word [] ∉ cut unfinished entries
  := by
  fun_induction cut unfinished entries with
  | case1 reversed => apply nil_not_mem_ofPiece
  | case2 c => simp
  | case3 reversed c rest ih => exact ih
  | case4 reversed c rest ih =>
    simpa using ⟨nil_not_mem_beforeOperator reversed.reverse, ih⟩
  | case5 c d rest ih => simpa using ih
  | case6 d rest ih => simpa using ih
  | case7 c d rest hd ih =>
    simpa using ⟨nil_not_mem_beforeOperator [], ih⟩

/-- A word with offsets is cut at the angles that they tell. -/
theorem ofWord_of_offsets {stage : Text} {word : Word} (h : word ∈ words stage)
    (ho : word.offsets ≠ []) :
  ofWord word = cut (.piece []) (word.text.marked word.offsets 0)
  := by
  have hr : word.redirects = true := by
    simpa [Word.offsets_eq_nil_iff] using ho
  rw [ofWord, if_pos hr, Word.marked_offsets h]

end Token

/-- A word with offsets is tiled by its tokens. -/
theorem Word.isTiled_ofWord {stage : Text} {word : Word} (h : word ∈ words stage)
    (ho : word.offsets ≠ []) :
  word.IsTiled word.recognised (Token.ofWord word)
  := by
  have hr : word.redirects = true := by
    simpa [offsets_eq_nil_iff] using ho
  have hs : ∀ glyph ∈ word.spoken,
      glyph.role ≠ .mark ∧ (glyph.role = .angle → isAngle glyph.char = true) := by
    intro glyph hg
    refine ⟨role_ne_mark_of_mem_spoken hg, ?_⟩
    intro ha
    apply isAngle_of_mem_angles h
    exact List.mem_map.mpr ⟨glyph, hg, (Glyph.entry_eq_iff ha glyph).mpr rfl⟩
  have ht : Token.Tiles 0 word.angles (word.recognised.flatMap Lexeme.kept) := by
    rw [recognised, if_pos hr]
    apply Lexeme.tiles_cut hs [] 0
  have htext : (word.recognised.flatMap Lexeme.kept).flatMap Token.text = word.text := by
    rw [ht.text_eq, map_fst_angles]
  constructor
  case tokens_eq => rw [Token.ofWord_eq]
  case text_eq => exact htext
  case operators_eq => rw [Token.map_fst_spans, Lexeme.operators_kept, Token.ofWord_eq]
  case offsets_eq => exact ht.offsets_eq
  case angle =>
    intro span hs
    rw [← htext]
    apply Token.angle_of_mem_spans hs

namespace Token

theorem map_fst_byWord (stage : Text) :
  (byWord stage).map Prod.fst = words stage
  := by
  rw [byWord]
  cases words stage <;> simp [Function.comp_def]

theorem flatMap_snd_byWord (stage : Text) :
  (byWord stage).flatMap Prod.snd = ofStage stage
  := by
  rw [byWord, ofStage]
  cases words stage with
  | nil => rfl
  | cons first others => simp [List.flatMap_map]

section

variable {stage : Text} {word : Word} {tokens : List Token}

theorem mem_words_of_mem_byWord (h : (word, tokens) ∈ byWord stage) :
  word ∈ words stage
  := by
  rw [← map_fst_byWord]
  apply List.mem_map_of_mem h

/-- After the name every word has the tokens that it is cut into. -/
theorem eq_ofWord_of_mem_tail_byWord (h : (word, tokens) ∈ (byWord stage).tail) :
  tokens = ofWord word
  := by
  rw [byWord] at h
  split at h
  · contradiction
  · obtain ⟨other, -, he⟩ := List.mem_map.mp h
    obtain ⟨rfl, rfl⟩ := Prod.mk.inj he
    rfl

/-- No word with offsets has an empty word among its tokens. -/
theorem nil_not_mem_of_mem_byWord (h : (word, tokens) ∈ byWord stage) (ho : word.offsets ≠ []) :
  .word [] ∉ tokens
  := by
  have hw := mem_words_of_mem_byWord h
  rw [byWord] at h
  split at h
  · contradiction
  rcases List.mem_cons.mp h with he | h
  · obtain ⟨rfl, rfl⟩ := Prod.mk.inj he
    have hr : word.raw ≠ [] := by
      simpa [Word.raw] using ne_nil_of_mem_words hw
    simpa using Ne.symm hr
  · obtain ⟨other, -, he⟩ := List.mem_map.mp h
    obtain ⟨rfl, rfl⟩ := Prod.mk.inj he
    rw [ofWord_of_offsets hw ho]
    apply nil_not_mem_cut

end

/-- Before every operator among the tokens of a stage stand at least two tokens, the last of them
being the number of a stream. -/
theorem exists_selector_of_ofStage {stage : Text} {before after : List Token} {op : Operator}
    (h : ofStage stage = before ++ .operator op :: after) :
  ∃ first between selector, before = first :: (between ++ [.word selector])
    ∧ isSelector selector = true
  := by
  have ht := tail_ofStage stage
  rw [h] at ht
  cases before with
  | nil =>
    rw [ofStage] at h
    split at h <;> simp at h
  | cons first before =>
    obtain ⟨between, number, rfl⟩ := Lexeme.exists_number_of_tokens ht.symm
    refine ⟨first, between, number.number, rfl, ?_⟩
    cases number <;> rfl

end Token

/-- The offsets of every word of a stage increase, and at each of them stands an angle of its text.
Before every operator among the tokens of the stage stand at least two tokens, the last of them the
number of a stream.  The tokens are those of the words in their order, and no word with offsets has
an empty one.  After the name, every word with offsets is cut at the angles that they tell, and its
tokens tile it: without the numbers that are inserted they have its text, and every offset is in the
span of one operator, which has one offset or, if it is doubled, two side by side with the same
angle. -/
theorem byWord_tiled (stage : Text) :
  (∀ word ∈ words stage, word.offsets.Pairwise (· < ·)
      ∧ ∀ n ∈ word.offsets, ∃ c, isAngle c = true ∧ word.text.StandsAt n c)
    ∧ (∀ before op after, Token.ofStage stage = before ++ .operator op :: after →
        ∃ first between selector, before = first :: (between ++ [.word selector])
          ∧ Token.isSelector selector = true)
    ∧ (Token.byWord stage).map Prod.fst = words stage
    ∧ (Token.byWord stage).flatMap Prod.snd = Token.ofStage stage
    ∧ (∀ word tokens, (word, tokens) ∈ Token.byWord stage → word.offsets ≠ [] →
        .word [] ∉ tokens)
    ∧ ∀ word tokens, (word, tokens) ∈ (Token.byWord stage).tail → word.offsets ≠ [] →
        tokens = Token.cut (.piece []) (word.text.marked word.offsets 0)
        ∧ ∃ lexemes, word.IsTiled lexemes tokens
  := by
  refine ⟨?_, ?_, Token.map_fst_byWord stage, Token.flatMap_snd_byWord stage, ?_, ?_⟩
  · intro word hw
    refine ⟨Word.pairwise_go_offsets 0 word.angles, ?_⟩
    intro n hn
    apply Word.exists_standsAt_of_mem_offsets hw hn
  · intro before op after h
    apply Token.exists_selector_of_ofStage h
  · intro word tokens h ho
    apply Token.nil_not_mem_of_mem_byWord h ho
  · intro word tokens h ho
    have hw := Token.mem_words_of_mem_byWord (List.mem_of_mem_tail h)
    rw [Token.eq_ofWord_of_mem_tail_byWord h]
    refine ⟨Token.ofWord_of_offsets hw ho, word.recognised, ?_⟩
    apply Word.isTiled_ofWord hw ho

/-- A name with marks and an angle is not tiled by its token, which keeps the marks. -/
theorem not_byWord_tiled :
  ¬ ∀ stage word tokens, (word, tokens) ∈ Token.byWord stage → word.offsets ≠ [] →
      ∃ lexemes, word.IsTiled lexemes tokens
  := by
  intro h
  have hb : Token.byWord "'a'>b".toList
      = [(⟨Glyph.read .bare "'a'>b".toList⟩, [.word "'a'>b".toList])] := by decide
  obtain ⟨lexemes, ht⟩ := h "'a'>b".toList _ _ (by rw [hb]; apply List.mem_singleton_self)
    (by decide)
  have htext := ht.text_eq
  rw [Lexeme.kept_of_tokens ht.tokens_eq] at htext
  revert htext
  decide

end CommandShell
