import CommandShell.Quoting

/-!
# Words

A stage is read as a list of glyphs, characters with their roles.  Its words are the runs
of glyphs between blanks.  The raw text of a word has every character of it; its text
leaves out the quotation marks and the backslashes that quote.
-/

namespace CommandShell

/-- A character of a stage and its role. -/
structure Glyph where
  char : Char
  role : Role
  deriving DecidableEq, Repr

/-- The glyphs of a stage. -/
def Glyph.read : Quoting → Text → List Glyph
  | _, [] => []
  | quoting, c :: rest =>
    ⟨c, (quoting.read c rest.head?).1⟩ :: read (quoting.read c rest.head?).2 rest

/-- A run of glyphs. -/
structure Word where
  glyphs : List Glyph
  deriving DecidableEq, Repr

namespace Word

/-- Every character of the word. -/
def raw (word : Word) : Text :=
  word.glyphs.map Glyph.char

/-- The glyphs of the word that are no marks. -/
def spoken (word : Word) : List Glyph :=
  word.glyphs.filter (·.role ≠ .mark)

/-- The characters of the word that are no marks. -/
def text (word : Word) : Text :=
  word.spoken.map Glyph.char

/-- The characters of the text of the word, each with whether it redirects. -/
def angles (word : Word) : List (Char × Bool) :=
  word.spoken.map fun glyph => (glyph.char, decide (glyph.role = .angle))

/-- The bytes of the text before each of its characters that redirects. -/
def offsets (word : Word) : List Nat :=
  go 0 word.angles
where
  /-- The offsets in what follows the first `n` bytes. -/
  go (n : Nat) : List (Char × Bool) → List Nat
    | [] => []
    | (c, true) :: rest => n :: go (n + c.utf8Size) rest
    | (c, false) :: rest => go (n + c.utf8Size) rest

/-- Whether some character of the word redirects. -/
def redirects (word : Word) : Bool :=
  word.angles.any Prod.snd

end Word

/-- The words of a stage. -/
def words (stage : Text) : List Word :=
  (runs (·.role = .blank) (Glyph.read .bare stage)).map Word.mk

/-- A written word without its quotation marks and backslashes. -/
def unquote (written : Text) : Text :=
  Text.join [' '] ((words written).map Word.text)

@[simp]
theorem map_char_read (quoting : Quoting) (stage : Text) :
  (Glyph.read quoting stage).map Glyph.char = stage
  := by
  induction stage generalizing quoting with
  | nil => rfl
  | cons c stage ih => simp [Glyph.read, ih]

end CommandShell
