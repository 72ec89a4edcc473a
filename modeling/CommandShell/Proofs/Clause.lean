import CommandShell.Redirection
import Mathlib.Data.List.Chain

/-!
# The clauses of a command

The tokens after the name of a command fall into clauses: an argument is a clause of its own, and an
operator makes one with the word before it, its selector, and the word after it, its target.  An
operator lacks a word only where none is left for it (`Clause.Fits`).  There is one way to read
tokens as clauses that fit (`Clause.isReading_iff`), and the outline of the tokens consists of their
arguments and redirections (`Clause.outline_read`).
-/

namespace CommandShell

/-- Whether a token is a word. -/
def Token.isWord : Token → Bool
  | .word _ => true
  | .operator _ => false

/-- The operator that a token is. -/
def Token.operator? : Token → Option Operator
  | .word _ => none
  | .operator op => some op

/-- An argument, or an operator with the words that belong to it. -/
inductive Clause where
  | argument (text : Text)
  | redirect (redirection : Redirection)
  deriving DecidableEq, Repr

namespace Clause

/-- The tokens of a clause. -/
def tokens : Clause → List Token
  | .argument text => [.word text]
  | .redirect ⟨selector, op, target⟩ =>
    selector.toList.map .word ++ .operator op :: target.toList.map .word

/-- The argument that a clause is. -/
def argument? : Clause → Option Text
  | .argument text => some text
  | .redirect _ => none

/-- The redirection that a clause is. -/
def redirection? : Clause → Option Redirection
  | .argument _ => none
  | .redirect redirection => some redirection

/-- Whether the first token of a clause is a word. -/
def startsWithWord (clause : Clause) : Bool :=
  clause.tokens.head?.any Token.isWord

/-- Whether a clause may follow another one: an argument that an operator follows would be its
selector, and a word that follows an operator without a target would be its target. -/
def Fits : Clause → Clause → Prop
  | .argument _, next => next.startsWithWord = true
  | .redirect redirection, next => redirection.target = none → next.startsWithWord = false

/-- Whether clauses that fit have certain tokens. -/
structure IsReading (tokens : List Token) (clauses : List Clause) : Prop where
  tokens_eq : clauses.flatMap Clause.tokens = tokens
  fits : clauses.IsChain Fits

/-- The clauses of tokens after a word that is an argument unless an operator follows. -/
def read : Option Text → List Token → List Clause
  | held, [] => held.toList.map .argument
  | held, .word text :: rest => held.toList.map .argument ++ read (some text) rest
  | held, .operator op :: .word target :: rest =>
    .redirect ⟨held, op, some target⟩ :: read none rest
  | held, .operator op :: rest => .redirect ⟨held, op, none⟩ :: read none rest

/-- The outline of tokens consists of the arguments and the redirections among their clauses. -/
theorem outline_read (held : Option Text) (tokens : List Token) :
  Outline.read held tokens
    = ⟨(read held tokens).filterMap argument?, (read held tokens).filterMap redirection?⟩
  := by
  fun_induction read held tokens with
  | case1 held => cases held <;> rfl
  | case2 held text rest ih =>
    rw [Outline.read, ih, Outline.withArg, List.filterMap_append, List.filterMap_append]
    cases held <;> rfl
  | case3 held op target rest ih =>
    rw [Outline.read, ih]
    rfl
  | case4 held op rest hne ih =>
    rw [Outline.read, ih]
    · rfl
    · exact hne

/-- The operators of clauses are those of their redirections, in their order. -/
theorem operators_flatMap_tokens (clauses : List Clause) :
  (clauses.flatMap Clause.tokens).filterMap Token.operator?
    = (clauses.filterMap redirection?).map Redirection.operator
  := by
  induction clauses with
  | nil => rfl
  | cons clause rest ih =>
    rw [List.flatMap_cons, List.filterMap_append, ih]
    cases clause with
    | argument text => rfl
    | redirect redirection =>
      obtain ⟨selector, op, target⟩ := redirection
      cases selector <;> cases target <;> rfl

/-! ### Reading clauses -/

/-- The clauses of tokens have these tokens. -/
theorem flatMap_tokens_read (held : Option Text) (tokens : List Token) :
  (read held tokens).flatMap Clause.tokens = held.toList.map .word ++ tokens
  := by
  fun_induction read held tokens with
  | case1 held => cases held <;> rfl
  | case2 held text rest ih =>
    rw [List.flatMap_append, ih]
    cases held <;> rfl
  | case3 held op target rest ih =>
    rw [List.flatMap_cons, ih, Clause.tokens, List.append_assoc]
    rfl
  | case4 held op rest hne ih =>
    rw [List.flatMap_cons, ih, Clause.tokens, List.append_assoc]
    rfl

theorem tokens_ne_nil (clause : Clause) :
  clause.tokens ≠ []
  := by
  cases clause with
  | argument text => simp [tokens]
  | redirect redirection => simp [tokens]

/-- The first clause starts with a word if the tokens do. -/
theorem head?_flatMap_tokens (clause : Clause) (rest : List Clause) :
  ((clause :: rest).flatMap Clause.tokens).head?.any Token.isWord = clause.startsWithWord
  := by
  rw [startsWithWord, List.flatMap_cons, List.head?_append_of_ne_nil _ clause.tokens_ne_nil]

theorem startsWithWord_of_mem_read {held : Option Text} {tokens : List Token} {clause : Clause}
    (h : clause ∈ (read held tokens).head?) :
  clause.startsWithWord = (held.toList.map Token.word ++ tokens).head?.any Token.isWord
  := by
  obtain ⟨rest, hr⟩ := List.head?_eq_some_iff.mp h
  rw [← flatMap_tokens_read, hr, head?_flatMap_tokens]

/-- The clauses that are read fit. -/
theorem isChain_read (held : Option Text) (tokens : List Token) :
  (read held tokens).IsChain Fits
  := by
  fun_induction read held tokens with
  | case1 held => cases held <;> simp
  | case2 held text rest ih =>
    cases held with
    | none => exact ih
    | some other =>
      apply List.isChain_cons.mpr ⟨?_, ih⟩
      intro next hn
      rw [Fits, startsWithWord_of_mem_read hn]
      rfl
  | case3 held op target rest ih =>
    apply List.isChain_cons.mpr ⟨?_, ih⟩
    nofun
  | case4 held op rest hne ih =>
    apply List.isChain_cons.mpr ⟨?_, ih⟩
    intro next hn _
    rw [startsWithWord_of_mem_read hn]
    match rest with
    | [] => rfl
    | .word target :: rest => exact absurd rfl (hne target rest)
    | .operator other :: rest => rfl

theorem read_some {tokens : List Token}
    (h : tokens ≠ [] → tokens.head?.any Token.isWord = true) (text : Text) :
  read (some text) tokens = .argument text :: read none tokens
  := by
  match tokens with
  | [] => rfl
  | .word other :: rest => rfl
  | .operator op :: rest => exact absurd (h (by simp)) (by simp [Token.isWord])

theorem read_operator {target : Option Text} {tokens : List Token}
    (h : target = none → tokens.head?.any Token.isWord = false) (held : Option Text)
    (op : Operator) :
  read held (.operator op :: (target.toList.map .word ++ tokens))
    = .redirect ⟨held, op, target⟩ :: read none tokens
  := by
  match target, tokens with
  | some target, tokens => rfl
  | none, [] => rfl
  | none, .word other :: rest => exact absurd (h rfl) (by simp [Token.isWord])
  | none, .operator other :: rest => rfl

/-- What is read from the tokens of clauses that fit are these clauses. -/
theorem read_flatMap_tokens {clauses : List Clause} (h : clauses.IsChain Fits) :
  read none (clauses.flatMap Clause.tokens) = clauses
  := by
  induction clauses with
  | nil => rfl
  | cons clause rest ih =>
    obtain ⟨hf, hr⟩ := List.isChain_cons.mp h
    rw [List.flatMap_cons]
    cases clause with
    | argument text =>
      have hw : rest.flatMap Clause.tokens ≠ [] →
          (rest.flatMap Clause.tokens).head?.any Token.isWord = true := by
        intro hne
        cases rest with
        | nil => exact absurd rfl hne
        | cons next others =>
          rw [head?_flatMap_tokens]
          apply hf next rfl
      rw [tokens, List.singleton_append, read, read_some hw, ih hr]
      rfl
    | redirect redirection =>
      obtain ⟨selector, op, target⟩ := redirection
      have hw : target = none → (rest.flatMap Clause.tokens).head?.any Token.isWord = false := by
        intro ht
        cases rest with
        | nil => rfl
        | cons next others =>
          rw [head?_flatMap_tokens]
          apply hf next rfl ht
      cases selector with
      | none =>
        rw [tokens, List.append_assoc, List.cons_append, Option.toList_none, List.map_nil,
          List.nil_append, read_operator hw, ih hr]
      | some selector =>
        rw [tokens, List.append_assoc, List.cons_append, Option.toList_some, List.map_singleton,
          List.singleton_append, read, read_operator hw, ih hr]
        rfl

/-- Tokens are read as clauses that fit in one way. -/
theorem isReading_iff {tokens : List Token} {clauses : List Clause} :
  IsReading tokens clauses ↔ clauses = read none tokens
  := by
  constructor
  · rintro ⟨rfl, hf⟩
    apply (read_flatMap_tokens hf).symm
  · rintro rfl
    exact ⟨flatMap_tokens_read none tokens, isChain_read none tokens⟩

end Clause

end CommandShell
