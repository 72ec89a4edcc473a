import CommandShell.Command
import CommandShell.Proofs.Spelling

/-!
# Written commands

A command is written as a name followed by arguments and output redirections, all separated by
white space, its words spelled in any way.  It is the only stage of the line it makes, and what
is read from it is what was meant: the name, the arguments in their order, and the targets, which
are opened in their order (`WrittenCommand.ofStage_raw`).
-/

namespace CommandShell

/-- White space between words. -/
structure Gap where
  text : Text
  ne_nil : text ≠ []
  isBlank : text.isBlank = true

/-- A file that is to be opened for an outlet. -/
structure Opening where
  outlet : Outlet
  disposition : Disposition
  target : Text

/-- An argument or a redirection, and the way it is written. -/
inductive WrittenItem where
  | argument (word : Spelling)
  /-- A redirection of the stream with the number that is written, if there is one. -/
  | redirection (number : Option Outlet) (disposition : Disposition) (gap : Gap)
      (target : Spelling)

/-- A command and the way it is written. -/
structure WrittenCommand where
  name : Spelling
  /-- The items, each after white space. -/
  items : List (Gap × WrittenItem)

/-- The number of an outlet. -/
def Outlet.number : Outlet → Text
  | .output => ['1']
  | .error => ['2']

/-- The operator that opens a target in a certain way. -/
def Disposition.operator : Disposition → Operator
  | .truncate => .output
  | .append => .append

/-- The state after an attempt to open a target.  If it can be opened its stream is attached to
the outlet, and if not the failure is noted. -/
def Opening.attempt (directory : Text) (state : Redirected) (opening : Opening) : Redirected :=
  match state.world.openForWriting
      (Path.join directory (Path.expandHome state.world.home opening.target))
      opening.disposition newFileMode with
  | .error error => state.fail (.cannotOpen opening.target error)
  | .ok (world, stream) => state.attach opening.outlet world stream

namespace WrittenItem

/-- The number and the operator of a redirection as they are written. -/
def head (number : Option Outlet) (disposition : Disposition) : Text :=
  (number.map Outlet.number).getD [] ++ disposition.operator.text

/-- An item as it is written. -/
def raw : WrittenItem → Text
  | .argument word => word.raw
  | .redirection number disposition gap target =>
    head number disposition ++ gap.text ++ target.raw

/-- The argument that is meant. -/
def argument? : WrittenItem → Option Text
  | .argument word => some word.text
  | .redirection _ _ _ _ => none

/-- The opening that is meant.  A redirection without a number is one of the output. -/
def opening? : WrittenItem → Option Opening
  | .argument _ => none
  | .redirection number disposition _ target =>
    some ⟨number.getD .output, disposition, target.text⟩

/-- The tokens of an item. -/
def tokens : WrittenItem → List Token
  | .argument word => [.word word.text]
  | .redirection number disposition _ target =>
    [.word (number.getD .output).number, .operator disposition.operator, .word target.text]

end WrittenItem

namespace WrittenCommand

/-- A command as it is written. -/
def raw (written : WrittenCommand) : Text :=
  written.name.raw ++ written.items.flatMap fun (gap, item) => gap.text ++ item.raw

/-- The arguments that are meant. -/
def args (written : WrittenCommand) : List Text :=
  (written.items.map Prod.snd).filterMap WrittenItem.argument?

/-- The openings that are meant. -/
def openings (written : WrittenCommand) : List Opening :=
  (written.items.map Prod.snd).filterMap WrittenItem.opening?

end WrittenCommand

/-! ### White space -/

theorem isWhole_of_isBlank {text : Text} (h : text.isBlank = true) :
  text.IsWhole
  := by
  induction text with
  | nil => apply Text.IsWhole.nil
  | cons c text ih =>
    simp only [Text.isBlank, List.all_cons, Bool.and_eq_true] at h
    obtain ⟨hb, ha, hq, hn⟩ := Quoting.ne_mark_of_isBlank h.1
    have hc : Text.IsWhole [c] := by
      constructor
      · simp [Text.IsClosed, Quoting.pass, hb, ha, hq]
      · simp [Text.IsUncut, barred, hn]
    apply hc.append (ih h.2)

/-- White space before words belongs to none of them. -/
theorem words_blank_append {blanks : Text} (h : blanks.isBlank = true) (after : Text) :
  words (blanks ++ after) = words after
  := by
  induction blanks with
  | nil => rfl
  | cons c blanks ih =>
    simp only [Text.isBlank, List.all_cons, Bool.and_eq_true] at h
    have hw : words ([] ++ c :: (blanks ++ after)) = words [] ++ words (blanks ++ after) := by
      apply words_append_blank Text.IsWhole.nil.isClosed h.1
    apply hw.trans (ih h.2)

/-- White space after closed text separates its words from those that follow. -/
theorem words_append_gap {before : Text} (h : before.IsClosed) (gap : Gap) (after : Text) :
  words (before ++ (gap.text ++ after)) = words before ++ words after
  := by
  obtain ⟨_ | ⟨c, blanks⟩, hne, hb⟩ := gap
  · contradiction
  · simp only [Text.isBlank, List.all_cons, Bool.and_eq_true] at hb
    rw [List.cons_append, words_append_blank h hb.1, words_blank_append hb.2]

/-! ### Items -/

namespace WrittenItem

theorem isWhole_head (number : Option Outlet) (disposition : Disposition) :
  (head number disposition).IsWhole
  := by
  rcases number with _ | _ | _ <;> cases disposition <;>
  · constructor
    · rfl
    · simp [head, Text.IsUncut, Outlet.number, Disposition.operator, Operator.text, barred]

theorem ofWord_words_head (number : Option Outlet) (disposition : Disposition) :
  (words (head number disposition)).flatMap Token.ofWord
    = [.word (number.getD .output).number, .operator disposition.operator]
  := by
  rcases number with _ | _ | _ <;> cases disposition <;> decide

theorem isWhole_raw (item : WrittenItem) :
  item.raw.IsWhole
  := by
  cases item with
  | argument word => apply word.isWhole_raw
  | redirection number disposition gap target =>
    apply Text.IsWhole.append
    · apply (isWhole_head number disposition).append (isWhole_of_isBlank gap.isBlank)
    · apply target.isWhole_raw

/-- A spelled word that does not come first is one token. -/
theorem ofWord_word (spelling : Spelling) :
  Token.ofWord spelling.word = [.word spelling.text]
  := by
  rw [Token.ofWord, spelling.redirects_word, spelling.text_word]
  rfl

theorem ofWord_words_raw (item : WrittenItem) :
  (words item.raw).flatMap Token.ofWord = item.tokens
  := by
  cases item with
  | argument word => simp [raw, word.words_raw, ofWord_word, tokens]
  | redirection number disposition gap target =>
    rw [raw, List.append_assoc, words_append_gap (isWhole_head number disposition).isClosed,
      target.words_raw, List.flatMap_append, ofWord_words_head]
    simp [ofWord_word, tokens]

end WrittenItem

/-! ### Commands -/

namespace Opening

/-- The redirection that asks for an opening. -/
def redirection (opening : Opening) : Redirection :=
  ⟨some opening.outlet.number, opening.disposition.operator, some opening.target⟩

/-- To perform the redirection that asks for an opening is to attempt it. -/
theorem perform_redirection (directory : Text) (state : Redirected) (opening : Opening) :
  Redirection.perform directory state opening.redirection = opening.attempt directory state
  := by
  obtain ⟨outlet, disposition, target⟩ := opening
  cases outlet <;> cases disposition <;> rfl

end Opening

namespace WrittenCommand

theorem isWhole_raw (written : WrittenCommand) :
  written.raw.IsWhole
  := by
  apply written.name.isWhole_raw.append
  apply Text.IsWhole.flatMap
  rintro ⟨gap, item⟩ -
  apply (isWhole_of_isBlank gap.isBlank).append item.isWhole_raw

theorem raw_ne_nil (written : WrittenCommand) :
  written.raw ≠ []
  := by
  simp [raw, written.name.raw_ne_nil]

/-- The words of items that follow closed text. -/
theorem words_items {before : Text} (h : before.IsClosed) (items : List (Gap × WrittenItem)) :
  words (before ++ items.flatMap fun (gap, item) => gap.text ++ item.raw)
    = words before ++ (items.map Prod.snd).flatMap fun item => words item.raw
  := by
  induction items generalizing before with
  | nil => simp
  | cons entry rest ih =>
    obtain ⟨gap, item⟩ := entry
    rw [List.flatMap_cons, List.map_cons, List.flatMap_cons, List.append_assoc,
      words_append_gap h, ih item.isWhole_raw.isClosed]

/-- The tokens of a written command are its name as it is written and those of its items. -/
theorem ofStage_raw_tokens (written : WrittenCommand) :
  Token.ofStage written.raw
    = .word written.name.raw :: (written.items.map Prod.snd).flatMap WrittenItem.tokens
  := by
  rw [Token.ofStage, raw, words_items written.name.isWhole_raw.isClosed, written.name.words_raw]
  simp only [List.singleton_append, List.flatMap_assoc, WrittenItem.ofWord_words_raw]
  congr 2
  rw [Word.raw, ← written.name.read_raw, map_char_read]

/-- The tokens of items make an outline of what the items mean. -/
theorem read_tokens (held : Option Text) (items : List WrittenItem) :
  Outline.read held (items.flatMap WrittenItem.tokens)
    = ⟨held.toList ++ items.filterMap WrittenItem.argument?,
        (items.filterMap WrittenItem.opening?).map Opening.redirection⟩
  := by
  induction items generalizing held with
  | nil => simp [Outline.read]
  | cons item rest ih =>
    cases item with
    | argument word =>
      rw [List.flatMap_cons, WrittenItem.tokens, List.singleton_append, Outline.read, ih]
      rfl
    | redirection number disposition gap target =>
      rw [List.flatMap_cons, WrittenItem.tokens, List.cons_append, List.cons_append,
        List.singleton_append, Outline.read, Outline.read, ih]
      rfl

/-- What is read from a written command is what was meant.  The command is the only stage of the
line it makes.  Its name without marks is the name that is spelled, its arguments are those that
are spelled, and its redirections are attempts to open the targets that are spelled, one after
another; every other stream is the one given for it, and nothing but the failed attempts is
reported. -/
theorem ofStage_raw (written : WrittenCommand) (directory : Text) (input output : Stream)
    (world : World) :
  stages written.raw = [written.raw]
    ∧ ∃ command,
      let state := written.openings.foldl (Opening.attempt directory) ⟨world, output, .stderr, []⟩
      Command.ofStage directory written.raw input output world
          = (some command, Command.report state.error state.faults.reverse state.world)
        ∧ unquote command.name = written.name.text
        ∧ command.args = written.args
        ∧ command.input = input
        ∧ command.output = state.output
        ∧ command.error = state.error
  := by
  constructor
  · apply stages_of_isUncut written.isWhole_raw.isUncut written.raw_ne_nil
  · rw [Command.ofStage, ofStage_raw_tokens, Command.ofTokens, read_tokens, ← openings,
      List.foldl_map]
    simp only [Opening.perform_redirection]
    refine ⟨_, rfl, written.name.unquote_raw, rfl, rfl, rfl, rfl⟩

end WrittenCommand

end CommandShell
