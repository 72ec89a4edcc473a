import CommandShell.Stage
import CommandShell.Word

/-!
# Two ways past quoted characters

A line is passed for its bars and read for its words.  The two keep different quotings: a
backslash between quotation marks always quotes when it is passed, but only before certain
characters when it is read, and a backslash at the end of the line quotes only when it is
passed.  `Quoting.Agrees` relates the quotings that the same characters leave behind, and
`Quoting.Agrees.step` says that each character keeps them related.  So the two find the same
bars bare (`barred_eq_zipWith`).

A text that passing leaves bare is closed.  Closed text reads in the same way whatever follows
it (`Glyph.read_append`).
-/

namespace CommandShell

/-- The quoting of each character of a text that is read for its words. -/
def Quoting.along : Quoting → Text → List Quoting
  | _, [] => []
  | quoting, c :: rest => quoting :: along (quoting.read c rest.head?).2 rest

/-- The quotings that the same characters leave behind when they are passed and when they are
read, given the character that comes next. -/
inductive Quoting.Agrees : Quoting → Quoting → Option Char → Prop where
  | same (quoting : Quoting) (next : Option Char) : Agrees quoting quoting next
  /-- A backslash between quotation marks that quotes nothing when it is read. -/
  | idle {next : Option Char} (h : next.any isEscapable = false) :
      Agrees (.escaped true) .double next
  /-- A backslash that ends the text. -/
  | last : Agrees (.escaped false) .bare none

/-- Whether every quotation that is begun in a text ends in it. -/
def Text.IsClosed (text : Text) : Prop :=
  text.foldl Quoting.pass .bare = .bare

namespace Quoting

theorem ne_mark_of_isBlank {c : Char} (h : isBlank c = true) :
  c ≠ '\\' ∧ c ≠ '\'' ∧ c ≠ '"' ∧ c ≠ '|'
  := by
  refine ⟨?_, ?_, ?_, ?_⟩ <;>
  · rintro rfl
    exact absurd h (by decide)

namespace Agrees

/-- Quotings that agree before a character agree after it. -/
theorem step {passing reading : Quoting} {c : Char} (next : Option Char)
    (h : Agrees passing reading (some c)) :
  Agrees (passing.pass c) (reading.read c next).2 next
  := by
  cases h with
  | idle hc =>
    have hq : c ≠ '"' ∧ c ≠ '\\' := by
      constructor <;>
      · rintro rfl
        exact absurd hc (by decide)
    simp only [pass, read, hq, false_and, if_false]
    apply same
  | same =>
    cases passing with
    | escaped inDouble => apply same
    | single =>
      simp only [pass, read]
      split <;> apply same
    | double =>
      simp only [pass, read]
      by_cases hq : c = '"'
      · subst hq
        apply same
      by_cases hb : c = '\\'
      · subst hb
        cases he : next.any isEscapable with
        | true => apply same
        | false => apply idle he
      · simp only [hq, hb, false_and, if_false]
        apply same
    | bare =>
      simp only [pass, read]
      by_cases hs : isBlank c = true
      · obtain ⟨hb, ha, hq, -⟩ := ne_mark_of_isBlank hs
        simp only [hs, hb, ha, hq, if_true, if_false]
        apply same
      by_cases hb : c = '\\'
      · subst hb
        cases next with
        | some d => apply same
        | none => apply last
      by_cases ha : c = '\''
      · subst ha
        apply same
      by_cases hq : c = '"'
      · subst hq
        apply same
      · simp only [hs, hb, ha, hq, Bool.false_eq_true, false_and, if_false]
        split <;> apply same

/-- Quotings that agree before a bar are both bare or both not. -/
theorem bare_iff {passing reading : Quoting} {c : Char}
    (h : Agrees passing reading (some c)) :
  (passing = .bare ∧ c = '|') ↔ (reading = .bare ∧ c = '|')
  := by
  cases h with
  | same => rfl
  | idle => simp

/-- A character that leaves a bare quoting behind when it is passed is read in the same way
whatever comes after it. -/
theorem read_congr {passing reading : Quoting} {c : Char} (next next' : Option Char)
    (h : Agrees passing reading (some c)) (hp : passing.pass c = .bare) :
  reading.read c next = reading.read c next'
  := by
  cases h with
  | idle => simp [pass, afterEscape] at hp
  | same =>
    cases passing with
    | escaped inDouble => rfl
    | single => rfl
    | double =>
      have hb : c ≠ '\\' := by
        rintro rfl
        simp [pass] at hp
      simp [read, hb]
    | bare =>
      have hb : c ≠ '\\' := by
        rintro rfl
        simp [pass] at hp
      simp [read, hb]

end Agrees

end Quoting

/-- A line has a bare bar where it is a bar that is bare when the line is read. -/
theorem barred_eq_zipWith {passing reading : Quoting} {line : Text}
    (h : passing.Agrees reading line.head?) :
  barred passing line
    = List.zipWith (fun c quoting => (c, decide (quoting = .bare ∧ c = '|'))) line
        (reading.along line)
  := by
  induction line generalizing passing reading with
  | nil => rfl
  | cons c rest ih =>
    rw [barred, Quoting.along, List.zipWith_cons_cons, ih (h.step rest.head?)]
    congr 2
    apply decide_eq_decide.mpr h.bare_iff

theorem barred_append (quoting : Quoting) (before after : Text) :
  barred quoting (before ++ after)
    = barred quoting before ++ barred (before.foldl Quoting.pass quoting) after
  := by
  induction before generalizing quoting with
  | nil => rfl
  | cons c before ih => simp [barred, ih]

/-- Text that passing leaves bare reads in the same way whatever follows it, and what follows it
is bare. -/
theorem Glyph.read_append_of_agrees {passing reading : Quoting} {before after : Text}
    (h : passing.Agrees reading (before ++ after).head?)
    (hc : before.foldl Quoting.pass passing = .bare) :
  Glyph.read reading (before ++ after) = Glyph.read reading before ++ Glyph.read .bare after
  := by
  induction before generalizing passing reading with
  | nil =>
    obtain rfl : passing = .bare := hc
    cases h
    rfl
  | cons c before ih =>
    have hn : reading.read c before.head? = reading.read c (before ++ after).head? := by
      cases before with
      | nil => apply h.read_congr _ _ hc
      | cons d before => rfl
    rw [List.cons_append, read, read, ih (h.step _) hc, hn]
    rfl

/-- Closed text reads in the same way whatever follows it. -/
theorem Glyph.read_append {before : Text} (h : before.IsClosed) (after : Text) :
  Glyph.read .bare (before ++ after) = Glyph.read .bare before ++ Glyph.read .bare after
  := read_append_of_agrees (.same _ _) h

theorem Text.IsClosed.append {before after : Text} (hb : before.IsClosed)
    (ha : after.IsClosed) :
  (before ++ after).IsClosed
  := by
  rw [IsClosed, List.foldl_append, hb]
  apply ha

end CommandShell
