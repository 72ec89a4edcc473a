import CommandShell.Proofs.Completion
import Mathlib.Tactic.Use

/-!
# Listing the candidates

Candidates are listed at an attempt exactly when they are ambiguous and the bell rang for
ambiguous candidates at the attempt right before it, on the same line or on the empty one
(`Attempt.answer_eq_list_iff`).  So they are listed on a second attempt, but also on a first one
that comes right after an attempt on the empty line; a run has second attempts only when that
does not happen in it (`listsOnSecondAttempt_iff`).
-/

namespace CommandShell

/-- The candidates of what is typed are several, and they agree on no more than it. -/
structure Ambiguous (names : List Text) (start : Text) : Prop where
  several : 2 ≤ (candidates names start).length
  stem : IsLongestCommonPrefix start (candidates names start)

/-! ### One attempt -/

namespace Completer

/-- The first attempt for ambiguous candidates rings the bell, and the next one lists them. -/
theorem answer_of_ambiguous {names : List Text} {start : Text} (h : Ambiguous names start)
    (armed : Bool) :
  answer (.ofDistinct names) armed start (candidates names start) =
    if armed then (.list (candidates names start), false) else (.bell, true)
  := by
  obtain ⟨rest, hstem, ha⟩ := answer_of_several h.several
  have hr : rest = [] := by
    have heq := h.stem.eq hstem
    simpa using heq
  rw [ha, if_neg (not_not.mpr hr)]

/-- Where the candidates are not ambiguous they are not listed, and nothing is remembered. -/
theorem answer_of_not_ambiguous {names : List Text} {start : Text}
    (h : ¬ Ambiguous names start) (armed : Bool) :
  (answer (.ofDistinct names) armed start (candidates names start)).2 = false ∧
    ∀ listed, (answer (.ofDistinct names) armed start (candidates names start)).1 ≠ .list listed
  := by
  by_cases several : 2 ≤ (candidates names start).length
  · obtain ⟨rest, hstem, ha⟩ := answer_of_several several
    have hr : rest ≠ [] := by
      rintro rfl
      rw [List.append_nil] at hstem
      apply h ⟨several, hstem⟩
    simp [ha, hr]
  · match hc : candidates names start with
    | [] => simp [answer]
    | [name] => simp [answer]
    | first :: second :: others => simp [hc] at several

end Completer

/-! ### Attempts one after another -/

namespace Attempt

/-- What is typed at an attempt. -/
def typed (attempt : Attempt) : Text :=
  Completer.typed attempt.line attempt.position

/-- The answer to an attempt that is made after others. -/
def answer (attempt : Attempt) (names : List Text) (earlier : List Attempt) : Completion :=
  ((Completer.after names earlier).complete attempt.line attempt.position).1

/-- The bell rang at an attempt made after others, for ambiguous candidates. -/
def Rang (attempt : Attempt) (names : List Text) (earlier : List Attempt) : Prop :=
  attempt.answer names earlier = .bell ∧ Ambiguous names attempt.typed

theorem answer_eq (attempt : Attempt) (names : List Text) (earlier : List Attempt) :
  attempt.answer names earlier =
    (Completer.answer (.ofDistinct names) ((Completer.after names earlier).armedFor attempt.line)
      attempt.typed (candidates names attempt.typed)).1
  := by
  rw [answer, Completer.complete, Completer.trie_after, matching_ofDistinct]
  rfl

theorem armed_after (attempt : Attempt) (names : List Text) (earlier : List Attempt) :
  (Completer.after names (earlier ++ [attempt])).armed =
    (Completer.answer (.ofDistinct names) ((Completer.after names earlier).armedFor attempt.line)
      attempt.typed (candidates names attempt.typed)).2
  := by
  rw [Completer.after_append, Completer.complete, Completer.trie_after, matching_ofDistinct]
  rfl

/-- Another attempt lists candidates when the bell rang for ambiguous ones. -/
theorem armed_after_iff (attempt : Attempt) (names : List Text) (earlier : List Attempt) :
  (Completer.after names (earlier ++ [attempt])).armed = true ↔ attempt.Rang names earlier
  := by
  rw [armed_after, Rang, answer_eq]
  by_cases ha : Ambiguous names attempt.typed
  · rw [Completer.answer_of_ambiguous ha]
    split <;> simp [ha]
  · simp [Completer.answer_of_not_ambiguous ha, ha]

/-- Candidates are listed when they are ambiguous and the completer is armed for the line. -/
theorem answer_eq_list_iff_armedFor (attempt : Attempt) (names listed : List Text)
    (earlier : List Attempt) :
  attempt.answer names earlier = .list listed ↔
    Ambiguous names attempt.typed ∧ (Completer.after names earlier).armedFor attempt.line = true
      ∧ listed = candidates names attempt.typed
  := by
  rw [answer_eq]
  by_cases ha : Ambiguous names attempt.typed
  · rw [Completer.answer_of_ambiguous ha]
    split
    · rename_i harmed
      simp [ha, harmed, eq_comm]
    · rename_i harmed
      simp [harmed]
  · simp [Completer.answer_of_not_ambiguous ha, ha]

/-- The completer is armed for a line when the bell rang for ambiguous candidates at the attempt
before, on that line or on the empty one. -/
theorem armedFor_after_iff (names : List Text) (earlier : List Attempt) (line : Text) :
  (Completer.after names earlier).armedFor line = true ↔
    ∃ before last, earlier = before ++ [last] ∧ last.Rang names before
      ∧ (last.line = [] ∨ last.line = line)
  := by
  rw [Completer.armedFor, Bool.and_eq_true]
  rcases List.eq_nil_or_concat' earlier with rfl | ⟨before, last, rfl⟩
  · simp [Completer.after]
  · rw [armed_after_iff]
    have hl : (Completer.after names (before ++ [last])).lastLine = last.line := by
      rw [Completer.after_append]
      rfl
    rw [hl, Bool.or_eq_true, List.isEmpty_iff, decide_eq_true_eq, @eq_comm _ line]
    constructor
    · rintro ⟨hr, hline⟩
      apply Exists.intro before ⟨last, rfl, hr, hline⟩
    · rintro ⟨_, _, heq, hr, hline⟩
      obtain ⟨rfl, rfl⟩ := List.append_singleton_inj.mp heq
      apply And.intro hr hline

/-- Candidates are listed when they are ambiguous and the bell rang for ambiguous candidates at
the attempt before, on the same line or on the empty one. -/
theorem answer_eq_list_iff (attempt : Attempt) (names listed : List Text)
    (earlier : List Attempt) :
  attempt.answer names earlier = .list listed ↔
    Ambiguous names attempt.typed
      ∧ (∃ before last, earlier = before ++ [last] ∧ last.Rang names before
        ∧ (last.line = [] ∨ last.line = attempt.line))
      ∧ listed = candidates names attempt.typed
  := by
  rw [answer_eq_list_iff_armedFor, armedFor_after_iff]

example :
  Attempt.answer ⟨"ca".toList, 2⟩ ["cat".toList, "car".toList] [⟨"ca".toList, 2⟩]
    = .list ["car".toList, "cat".toList]
  := by decide

/-- The bell rings for several candidates when they are ambiguous. -/
theorem rang_of_answer {attempt : Attempt} {names : List Text} {earlier : List Attempt}
    (h : attempt.answer names earlier = .bell)
    (several : 2 ≤ (candidates names attempt.typed).length) :
  attempt.Rang names earlier
  := by
  suffices hstem : IsLongestCommonPrefix attempt.typed (candidates names attempt.typed) by
    apply And.intro h ⟨several, hstem⟩
  have ha := answers_answer names ((Completer.after names earlier).armedFor attempt.line)
    attempt.typed
  rw [← answer_eq, h] at ha
  generalize candidates names attempt.typed = found at ha several
  cases ha with
  | none => contradiction
  | bell _ stem => apply stem

end Attempt

/-! ### Runs of attempts -/

/-- In a run of attempts candidates are listed right after the bell rang for ambiguous
candidates on the same line, and whenever it rang for several at an equal attempt. -/
structure ListsOnSecondAttempt (names : List Text) (run : List Attempt) : Prop where
  only : ∀ earlier attempt later listed, run = earlier ++ attempt :: later →
    attempt.answer names earlier = .list listed →
    ∃ before last, earlier = before ++ [last] ∧ last.line = attempt.line
      ∧ last.Rang names before
  always : ∀ earlier attempt later, run = earlier ++ attempt :: attempt :: later →
    attempt.answer names earlier = .bell → 2 ≤ (candidates names attempt.typed).length →
    ∃ listed, attempt.answer names (earlier ++ [attempt]) = .list listed

/-- Candidates are listed on second attempts only, unless some are ambiguous on a line that is
not empty right after the bell rang for ambiguous ones on the empty line. -/
theorem listsOnSecondAttempt_iff (names : List Text) (run : List Attempt) :
  ListsOnSecondAttempt names run ↔
    ¬ ∃ before last attempt later, run = before ++ last :: attempt :: later
      ∧ last.line = [] ∧ last.Rang names before
      ∧ attempt.line ≠ [] ∧ Ambiguous names attempt.typed
  := by
  constructor
  · rintro h ⟨before, last, attempt, later, rfl, hnil, hr, hne, ha⟩
    have hlist := (Attempt.answer_eq_list_iff attempt names _ (before ++ [last])).mpr
      ⟨ha, ⟨before, last, rfl, hr, .inl hnil⟩, rfl⟩
    obtain ⟨_, _, heq, hline, -⟩ := h.only _ attempt later _ (by simp) hlist
    obtain ⟨rfl, rfl⟩ := List.append_singleton_inj.mp heq
    apply hne
    rw [← hline, hnil]
  · intro h
    constructor
    · rintro earlier attempt later listed rfl hlist
      obtain ⟨ha, ⟨before, last, rfl, hr, hline⟩, -⟩ :=
        (Attempt.answer_eq_list_iff attempt names listed earlier).mp hlist
      by_cases heq : last.line = attempt.line
      · apply Exists.intro before ⟨last, rfl, heq, hr⟩
      · have hnil : last.line = [] := by
          apply hline.resolve_right heq
        exfalso
        apply h
        refine ⟨before, last, attempt, later, by simp, hnil, hr, ?_, ha⟩
        rw [← hnil]
        apply Ne.symm heq
    · rintro earlier attempt later - hbell several
      have hr := Attempt.rang_of_answer hbell several
      use candidates names attempt.typed
      apply (Attempt.answer_eq_list_iff attempt names _ _).mpr
      apply And.intro hr.2 ⟨⟨earlier, attempt, rfl, hr, .inr rfl⟩, rfl⟩

/-- An attempt on the empty line makes the first one on another line list its candidates. -/
theorem not_listsOnSecondAttempt :
  ¬ ListsOnSecondAttempt ["ca".toList, "cb".toList, "d".toList] [⟨[], 0⟩, ⟨['c'], 1⟩]
  := by
  intro h
  obtain ⟨before, last, heq, hline, -⟩ := h.only [⟨[], 0⟩] ⟨['c'], 1⟩ []
    ["ca".toList, "cb".toList] rfl (by decide)
  obtain ⟨-, rfl⟩ := List.append_singleton_inj.mp ((List.nil_append _).trans heq)
  contradiction

end CommandShell
