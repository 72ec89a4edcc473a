import CommandShell.Proofs.Lexeme
import CommandShell.Proofs.Redirection

/-!
# Operators without a target

A piece after an operator is meant to be its target, and an operator that no piece follows has
none (`Outline.meant`).  In a stage the number of the stream stands before every operator, written
or not, and so an operator before another one finds that number and takes it for its target.  Such
a clash hides a missing target; no other target is found or missed (`missing_read_add_clashes`), and no
number is an argument (`args_read`).  So the redirections of a stage are performed as they are meant
exactly when no operators clash (`performed_eq_meant_iff`).
-/

namespace CommandShell

namespace Outline

/-- The outline that lexemes are meant to make. -/
def meant : List Lexeme → Outline
  | [] => ⟨[], []⟩
  | .piece text :: rest => (meant rest).withArg (some text)
  | .operator number op :: .piece target :: rest =>
    (meant rest).withRedirection ⟨some (number.getD .output).number, op, some target⟩
  | .operator number op :: rest =>
    (meant rest).withRedirection ⟨some (number.getD .output).number, op, none⟩

/-- How many redirections have no target. -/
def missing (outline : Outline) : Nat :=
  outline.redirections.countP (·.target.isNone)

end Outline

/-- Whether a lexeme is an operator. -/
def Lexeme.isOperator : Lexeme → Bool
  | .piece _ => false
  | .operator _ _ => true

/-- How many operators stand directly before another one. -/
def Lexeme.clashes : List Lexeme → Nat
  | [] => 0
  | .piece _ :: rest => clashes rest
  | .operator _ _ :: rest => clashes rest + if rest.head?.any isOperator then 1 else 0

/-- Whether a fault is that of a missing target. -/
def RedirectionFault.isMissing : RedirectionFault → Bool
  | .missingTarget _ => true
  | _ => false

namespace Outline

@[simp]
theorem missing_withArg (arg : Option Text) (outline : Outline) :
  (outline.withArg arg).missing = outline.missing
  := rfl

@[simp]
theorem missing_withRedirection (redirection : Redirection) (outline : Outline) :
  (outline.withRedirection redirection).missing
    = outline.missing + if redirection.target.isNone then 1 else 0
  := by
  simp [missing, withRedirection, List.countP_cons]

@[simp]
theorem args_withArg (arg : Option Text) (outline : Outline) :
  (outline.withArg arg).args = arg.toList ++ outline.args
  := rfl

@[simp]
theorem args_withRedirection (redirection : Redirection) (outline : Outline) :
  (outline.withRedirection redirection).args = outline.args
  := rfl

/-- A word before lexemes is an argument. -/
theorem read_held (text : Text) (lexemes : List Lexeme) :
  read (some text) (lexemes.flatMap Lexeme.tokens)
    = (read none (lexemes.flatMap Lexeme.tokens)).withArg (some text)
  := by
  match lexemes with
  | [] => rfl
  | .piece other :: rest => rfl
  | .operator number op :: rest => rfl

theorem read_piece (text : Text) (rest : List Lexeme) :
  read none ((Lexeme.piece text :: rest).flatMap Lexeme.tokens)
    = (read none (rest.flatMap Lexeme.tokens)).withArg (some text)
  := by
  rw [← read_held]
  rfl

/-- The outline of an operator whose number is read, and lexemes after it. -/
def after (selector : Option Text) (op : Operator) (lexemes : List Lexeme) : Outline :=
  read selector (.operator op :: lexemes.flatMap Lexeme.tokens)

theorem read_operator (number : Option Outlet) (op : Operator) (rest : List Lexeme) :
  read none ((Lexeme.operator number op :: rest).flatMap Lexeme.tokens)
    = after (some (number.getD .output).number) op rest
  := rfl

theorem after_piece (selector : Option Text) (op : Operator) (target : Text)
    (rest : List Lexeme) :
  after selector op (.piece target :: rest)
    = (read none (rest.flatMap Lexeme.tokens)).withRedirection ⟨selector, op, some target⟩
  := rfl

/-- An operator before another one takes its number, and leaves it without one. -/
theorem after_operator (selector : Option Text) (op : Operator) (number : Option Outlet)
    (next : Operator) (rest : List Lexeme) :
  after selector op (.operator number next :: rest)
    = (after none next rest).withRedirection
        ⟨selector, op, some (number.getD .output).number⟩
  := rfl

/-- The arguments that are found are those that are meant. -/
theorem args_read (lexemes : List Lexeme) :
  (read none (lexemes.flatMap Lexeme.tokens)).args = (meant lexemes).args
    ∧ ∀ selector number op,
      (after selector op lexemes).args = (meant (.operator number op :: lexemes)).args
  := by
  induction lexemes with
  | nil => exact ⟨rfl, fun _ _ _ => rfl⟩
  | cons lexeme rest ih =>
    cases lexeme with
    | piece text =>
      constructor
      · rw [read_piece, meant, args_withArg, args_withArg, ih.1]
      · intro selector number op
        rw [after_piece, meant, args_withRedirection, args_withRedirection, ih.1]
    | operator number op =>
      constructor
      · apply ih.2 _ number op
      · intro selector other before
        rw [after_operator, meant, args_withRedirection, args_withRedirection, ih.2 _ number op]
        · simp

/-- The targets that are missing but not found missing are as many as the clashes. -/
theorem missing_read_add_clashes (lexemes : List Lexeme) :
  (read none (lexemes.flatMap Lexeme.tokens)).missing + Lexeme.clashes lexemes
      = (meant lexemes).missing
    ∧ ∀ selector number op,
      (after selector op lexemes).missing + Lexeme.clashes (.operator number op :: lexemes)
        = (meant (.operator number op :: lexemes)).missing
  := by
  induction lexemes with
  | nil => exact ⟨rfl, fun _ _ _ => rfl⟩
  | cons lexeme rest ih =>
    cases lexeme with
    | piece text =>
      constructor
      · rw [read_piece, meant, missing_withArg, missing_withArg, ← ih.1]
        rfl
      · intro selector number op
        rw [after_piece, meant, missing_withRedirection, missing_withRedirection, ← ih.1]
        simp [Lexeme.clashes, Lexeme.isOperator]
    | operator number op =>
      constructor
      · apply ih.2 _ number op
      · intro selector other before
        rw [after_operator, meant, missing_withRedirection, missing_withRedirection,
          ← ih.2 none number op]
        · simp [Lexeme.clashes, Lexeme.isOperator]
          omega
        · simp

/-- Where no operators clash the outline that is found is the one that is meant. -/
theorem read_eq_meant {lexemes : List Lexeme} (h : Lexeme.clashes lexemes = 0) :
  read none (lexemes.flatMap Lexeme.tokens) = meant lexemes
  := by
  match lexemes with
  | [] => rfl
  | .piece text :: rest =>
    have hr : Lexeme.clashes rest = 0 := h
    rw [read_piece, meant, read_eq_meant hr]
  | [.operator number op] => rfl
  | .operator number op :: .piece target :: rest =>
    have hr : Lexeme.clashes rest = 0 := by
      simpa [Lexeme.clashes, Lexeme.isOperator] using h
    rw [read_operator, after_piece, meant, read_eq_meant hr]
  | .operator number op :: .operator other next :: rest =>
    simp [Lexeme.clashes, Lexeme.isOperator] at h

end Outline

/-! ### Performing redirections -/

/-- What is wanted of a redirection without a target is missing, and of no other one. -/
theorem Redirection.isNone_target (redirection : Redirection) :
  redirection.target.isNone =
    match redirection.wanted with
    | .error fault => fault.isMissing
    | .ok _ => false
  := by
  obtain ⟨selector, op, target⟩ := redirection
  rw [wanted]
  cases target with
  | none => rfl
  | some target =>
    cases hs : outlet? (selector.getD []) <;> cases op <;>
      simp [Operator.isOutput, RedirectionFault.isMissing]

/-- A redirection without a target is one more fault of a missing target. -/
theorem Redirection.countP_faults_perform (directory : Text) (state : Redirected)
    (redirection : Redirection) :
  (perform directory state redirection).faults.countP RedirectionFault.isMissing
    = state.faults.countP RedirectionFault.isMissing
      + if redirection.target.isNone then 1 else 0
  := by
  rw [isNone_target, perform]
  cases redirection.wanted with
  | error fault => apply List.countP_cons
  | ok wanted =>
    obtain ⟨outlet, target⟩ := wanted
    dsimp only
    split
    · apply List.countP_cons
    · cases outlet <;> rfl

namespace Outline

/-- As many missing targets are found as redirections have none. -/
theorem countP_faults_performed (directory : Text) (output : Stream) (world : World)
    (outline : Outline) :
  (outline.performed directory output world).faults.countP RedirectionFault.isMissing
    = outline.missing
  := by
  suffices h : ∀ (redirections : List Redirection) (state : Redirected),
      (redirections.foldl (Redirection.perform directory) state).faults.countP
          RedirectionFault.isMissing
        = state.faults.countP RedirectionFault.isMissing
          + redirections.countP (·.target.isNone) by
    rw [performed, h, missing]
    apply Nat.zero_add
  intro redirections
  induction redirections with
  | nil => simp
  | cons redirection rest ih =>
    intro state
    rw [List.foldl_cons, ih, Redirection.countP_faults_perform, List.countP_cons]
    omega

/-- Redirections are performed as they are meant exactly when no operators clash. -/
theorem performed_eq_meant_iff (directory : Text) (output : Stream) (world : World)
    (lexemes : List Lexeme) :
  (read none (lexemes.flatMap Lexeme.tokens)).performed directory output world
      = (meant lexemes).performed directory output world
    ↔ Lexeme.clashes lexemes = 0
  := by
  constructor
  · intro h
    have hc := (missing_read_add_clashes lexemes).1
    rw [← countP_faults_performed directory output world, h, countP_faults_performed] at hc
    omega
  · intro h
    rw [read_eq_meant h]

end Outline

/-- The arguments of a stage are those that are meant, numbers of streams never being among them.
Of the missing targets as many are not reported as operators clash, an operator directly before
another one taking the number of that one for its target.  So the redirections come to what is
meant, an operator without a target being reported and nothing opened for it, exactly when no
operators clash.  Where no quoted piece is lost the operators and pieces are those that are
written. -/
theorem missing_targets_reported_iff (stage directory : Text) (input output : Stream)
    (world : World) :
  let found := Outline.read none (Token.ofStage stage).tail
  let meant := Outline.meant (recognised stage)
  (∀ first ∈ (words stage).head?,
      Command.ofStage directory stage input output world
        = Command.ofOutline directory first.raw found input output world)
    ∧ found.args = meant.args
    ∧ (found.performed directory output world).faults.countP RedirectionFault.isMissing
          + Lexeme.clashes (recognised stage)
        = (meant.performed directory output world).faults.countP RedirectionFault.isMissing
    ∧ (found.performed directory output world = meant.performed directory output world
        ↔ Lexeme.clashes (recognised stage) = 0)
    ∧ ((∀ word ∈ (words stage).tail, word.isKept = true) → recognised stage = written stage)
  := by
  dsimp only
  refine ⟨?_, ?_, ?_, ?_, recognised_eq_written⟩
  · intro first hf
    obtain ⟨others, hw⟩ := List.head?_eq_some_iff.mp hf
    apply Command.ofStage_eq hw
  · rw [Token.tail_ofStage]
    apply (Outline.args_read _).1
  · rw [Token.tail_ofStage, Outline.countP_faults_performed, Outline.countP_faults_performed]
    apply (Outline.missing_read_add_clashes _).1
  · rw [Token.tail_ofStage]
    apply Outline.performed_eq_meant_iff

/-- In an empty tree the first of two operators opens a file that is named by the number of the
second one, which is then reported for having none, and the target after it is not opened.  What is
meant is that a missing target is reported, and the one after the second operator opened. -/
theorem not_missing_targets_reported :
  let world : World := ⟨{}, [], [], fun _ => [], 0, 0, [], [], [], {}, {}⟩
  let stage := "echo > > f".toList
  let found := (Outline.read none (Token.ofStage stage).tail).performed [] .stdout world
  let meant := (Outline.meant (written stage)).performed [] .stdout world
  (found.faults = [.unknownSelector [] .output]
      ∧ found.world.tree.isFile [] (Path.route ['1']) = true
      ∧ found.world.tree.isFile [] (Path.route ['f']) = false)
    ∧ meant.faults = [.missingTarget .output]
      ∧ meant.world.tree.isFile [] (Path.route ['1']) = false
      ∧ meant.world.tree.isFile [] (Path.route ['f']) = true
  := by decide

end CommandShell
