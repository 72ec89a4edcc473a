/-!
# Text

Text is a list of characters, and bytes are what files and streams hold.  `Text.encode`
writes text as UTF-8 and `Text.decode?` reads it back; `Text.size` is the number of bytes
of the encoding.  `runs` cuts a list at the elements it drops and keeps the pieces that
are not empty.
-/

namespace CommandShell

/-- A list of characters. -/
abbrev Text := List Char

/-- A list of bytes. -/
abbrev Bytes := List UInt8

/-- The maximal segments of a list none of whose elements is cut away. -/
def runs {α : Type} (cut : α → Bool) (elements : List α) : List (List α) :=
  (elements.splitOnP cut).filter (fun piece => !piece.isEmpty)

theorem ne_nil_of_mem_runs {α : Type} {cut : α → Bool} {elements piece : List α}
    (h : piece ∈ runs cut elements) :
  piece ≠ []
  := by
  rw [runs, List.mem_filter] at h
  simpa using h.2

@[simp]
theorem runs_nil {α : Type} (cut : α → Bool) :
  runs cut [] = []
  := rfl

/-- An element that is cut away separates the segments before it from those after it. -/
theorem runs_append_cons {α : Type} {cut : α → Bool} {a : α} (h : cut a = true)
    (before after : List α) :
  runs cut (before ++ a :: after) = runs cut before ++ runs cut after
  := by
  rw [runs, List.splitOnP_append_cons before after h, List.filter_append]
  rfl

/-- A list that is not empty and none of whose elements is cut away is its only segment. -/
theorem runs_of_uncut {α : Type} {cut : α → Bool} {elements : List α} (hne : elements ≠ [])
    (h : ∀ a ∈ elements, cut a = false) :
  runs cut elements = [elements]
  := by
  rw [runs, List.splitOnP_eq_singleton h]
  simp [hne]

/-- The pieces of a list are one after another the elements that are not cut away. -/
theorem flatten_runs {α : Type} (cut : α → Bool) (elements : List α) :
  (runs cut elements).flatten = elements.filter (fun a => !cut a)
  := by
  rw [runs, List.flatten_filter_not_isEmpty]
  induction elements with
  | nil => rfl
  | cons a rest ih =>
    rw [List.splitOnP_cons_eq_if_modifyHead]
    cases h : cut a with
    | true => simp [h, ih]
    | false =>
      cases hr : rest.splitOnP cut with
      | nil => exact absurd hr (List.splitOnP_ne_nil cut rest)
      | cons piece others =>
        rw [hr] at ih
        simp [h, ← ih]

namespace Text

/-- The UTF-8 encoding of text. -/
def encode (text : Text) : Bytes :=
  text.flatMap String.utf8EncodeChar

/-- The text that bytes encode, if they are valid UTF-8. -/
def decode? (bytes : Bytes) : Option Text :=
  bytes.toByteArray.utf8Decode?.map Array.toList

/-- The number of bytes of the encoding. -/
def size : Text → Nat
  | [] => 0
  | c :: rest => c.utf8Size + size rest

@[simp]
theorem encode_append (t u : Text) :
  encode (t ++ u) = encode t ++ encode u
  := by
  simp [encode]

@[simp]
theorem decode?_encode (t : Text) :
  decode? (encode t) = some t
  := by
  have h : (encode t).toByteArray = t.utf8Encode := rfl
  rw [decode?, h, List.utf8Decode?_utf8Encode]
  rfl

/-- The part of the text made of its first `n` bytes, unless it ends before them or inside
one of its characters. -/
def takeBytes? : Nat → Text → Option Text
  | 0, _ => some []
  | _ + 1, [] => none
  | n + 1, c :: rest =>
    if c.utf8Size ≤ n + 1 then (takeBytes? (n + 1 - c.utf8Size) rest).map (c :: ·) else none

/-- The part of the text after its first `n` bytes, unless it ends before them or they end
inside one of its characters. -/
def dropBytes? : Nat → Text → Option Text
  | 0, text => some text
  | _ + 1, [] => none
  | n + 1, c :: rest =>
    if c.utf8Size ≤ n + 1 then dropBytes? (n + 1 - c.utf8Size) rest else none

/-- The number in decimal digits. -/
def ofNat (n : Nat) : Text :=
  Nat.toDigits 10 n

/-- The value of a decimal digit. -/
def digit? (c : Char) : Option Nat :=
  if c.isDigit then some (c.toNat - '0'.toNat) else none

/-- The number that decimal digits write after those of `n`. -/
def readDigits (n : Nat) : Text → Option Nat
  | [] => some n
  | c :: rest => (digit? c).bind fun d => readDigits (10 * n + d) rest

/-- The number of at most 64 bits that a text writes: decimal digits, after a plus sign or
not. -/
def count? (text : Text) : Option Nat :=
  let digits := if text.head? = some '+' then text.tail else text
  if digits = [] then none else (readDigits 0 digits).filter (· < UInt64.size)

/-- The texts one after another with the separator between them. -/
def join (separator : Text) (texts : List Text) : Text :=
  separator.intercalate texts

/-- The text with a line feed after it. -/
def line (text : Text) : Text :=
  text ++ ['\n']

/-- The texts with `text` added at its place, in increasing order and each once. -/
def insertSorted (text : Text) : List Text → List Text
  | [] => [text]
  | other :: rest =>
    if text < other then text :: other :: rest
    else if text = other then other :: rest
    else other :: insertSorted text rest

/-- The texts in increasing order, each once. -/
def sortDistinct (texts : List Text) : List Text :=
  texts.foldr insertSorted []

end Text

end CommandShell
