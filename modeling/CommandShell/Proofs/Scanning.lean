import CommandShell.Command
import CommandShell.Proofs.Clause

/-!
# Reading tokens by position

Tokens can be read by their positions: where an operator is met it marks itself, the word before it
unless that is the name or marked already, and the word after it, and the reading goes on after what
is marked.  What is not marked at the end is an argument.  A position that is not one of the marks
would make the reading fail, but it never does, and it makes the same command with the same effects
(`Command.ofTokensByPosition?_eq`).
-/

namespace CommandShell

/-- Which tokens of a clause belong to an operator. -/
def Clause.marks : Clause → List Bool
  | .argument _ => [false]
  | .redirect redirection => (Clause.redirect redirection).tokens.map fun _ => true

/-! ### The reading -/

/-- The marks with one more at a position, if that is one of theirs. -/
def mark? (marks : List Bool) (position : Nat) : Option (List Bool) :=
  if position < marks.length then some (marks.set position true) else none

/-- The word that an operator at a position has for its selector, if it has one, and the marks with
that word marked. -/
def takeSelector? (tokens : List Token) (marks : List Bool) :
    Nat → Option (Option Text × List Bool)
  | 0 => none
  | before + 1 =>
    match tokens[before]? with
    | some (.word text) =>
      if 0 < before then
        match marks[before]? with
        | some true => some (none, marks)
        | some false => (mark? marks before).map (some text, ·)
        | none => none
      else some (none, marks)
    | some (.operator _) | none => some (none, marks)

/-- The marks after the tokens from a position on are read, and what the redirections that are met
change. -/
def scan? (directory : Text) (tokens : List Token) (position : Nat) (marks : List Bool)
    (state : Redirected) : Option (List Bool × Redirected) :=
  match h : tokens[position]? with
  | none => some (marks, state)
  | some (.word _) => scan? directory tokens (position + 1) marks state
  | some (.operator op) => do
    let (selector, marks) ← (mark? marks position).bind (takeSelector? tokens · position)
    match tokens[position + 1]? with
    | some (.word target) =>
      let marks ← mark? marks (position + 1)
      scan? directory tokens (position + 2) marks
        (Redirection.perform directory state ⟨selector, op, some target⟩)
    | some (.operator _) | none =>
      scan? directory tokens (position + 1) marks
        (Redirection.perform directory state ⟨selector, op, none⟩)
termination_by tokens.length - position
decreasing_by
  all_goals
    have hp := (List.getElem?_eq_some_iff.mp h).1
    omega

/-- The command that tokens make when they are read by their positions, and the world after its
redirections. -/
def Command.ofTokensByPosition? (directory : Text) (tokens : List Token) (input output : Stream)
    (world : World) : Option (Option Command × World) :=
  match tokens with
  | [] => some (none, (world.close input).close output)
  | first :: _ => do
    let (marks, state) ← scan? directory tokens 1 (List.replicate tokens.length false)
      ⟨world, output, .stderr, []⟩
    let args := (((tokens.zip marks).drop 1).filter (!·.2)).map (·.1.text)
    some (some ⟨first.text, args, input, state.output, state.error⟩,
      report state.error state.faults.reverse state.world)

/-! ### Marking -/

/-- A mark is set where there is one at the position. -/
theorem mark?_append {before : List Bool} {position : Nat} (h : before.length = position)
    (mark : Bool) (after : List Bool) :
  mark? (before ++ mark :: after) position = some (before ++ true :: after)
  := by
  subst h
  rw [mark?, if_pos (by simp), List.set_append_right _ _ (Nat.le_refl _), Nat.sub_self,
    List.set_cons_zero]

/-- A word before an operator is taken for its selector, and marked, if it is not marked yet. -/
theorem takeSelector?_word {tokens rest : List Token} {before after : List Bool}
    (hl : before.length = tokens.length) (hne : tokens ≠ []) (text : Text) :
  takeSelector? (tokens ++ .word text :: rest) (before ++ false :: after) (tokens.length + 1)
    = some (some text, before ++ true :: after)
  := by
  have ht : (tokens ++ .word text :: rest)[tokens.length]? = some (.word text) := by simp
  have hm : (before ++ false :: after)[tokens.length]? = some false := by simp [← hl]
  rw [takeSelector?, ht]
  dsimp only
  rw [if_pos (List.length_pos_iff.mpr hne), hm]
  dsimp only
  rw [mark?_append hl]
  rfl

/-- Without a word before it that may be marked an operator has no selector. -/
theorem takeSelector?_none {tokens : List Token} {marks : List Bool} {before : Nat}
    (h : before = 0 ∨ marks[before]? = some true) :
  takeSelector? tokens marks (before + 1) = some (none, marks)
  := by
  rw [takeSelector?]
  split
  · split
    · rename_i hp
      rw [h.resolve_left (Nat.ne_of_gt hp)]
    · rfl
  · rfl
  · rfl

/-! ### Steps of the reading -/

section

variable {directory : Text} {tokens : List Token} {position : Nat} {marks marked : List Bool}
  {state : Redirected}

/-- The scan is over behind the last token. -/
theorem scan?_end (h : tokens[position]? = none) :
  scan? directory tokens position marks state = some (marks, state)
  := by
  rw [scan?]
  split
  · rfl
  · simp_all
  · simp_all

/-- A word is passed over, and may be the selector of an operator after it. -/
theorem scan?_word {text : Text} (h : tokens[position]? = some (.word text)) :
  scan? directory tokens position marks state = scan? directory tokens (position + 1) marks state
  := by
  rw [scan?]
  split
  · simp_all
  · rfl
  · simp_all

variable {op : Operator} {selector : Option Text} (ho : tokens[position]? = some (.operator op))
  (hs : (mark? marks position).bind (takeSelector? tokens · position) = some (selector, marked))

include ho hs

/-- The word after an operator is its target, and is marked. -/
theorem scan?_target {target : Text} {last : List Bool}
    (ht : tokens[position + 1]? = some (.word target))
    (hm : mark? marked (position + 1) = some last) :
  scan? directory tokens position marks state
    = scan? directory tokens (position + 2) last
      (Redirection.perform directory state ⟨selector, op, some target⟩)
  := by
  rw [scan?]
  split
  · simp_all
  · simp_all
  · rename_i found hf
    rw [ho] at hf
    obtain rfl := Token.operator.inj (Option.some.inj hf)
    rw [hs]
    simp only [Option.bind_eq_bind, Option.bind_some, ht, hm]

/-- An operator that has no word after it has no target. -/
theorem scan?_alone (ht : ∀ target, tokens[position + 1]? ≠ some (.word target)) :
  scan? directory tokens position marks state
    = scan? directory tokens (position + 1) marked
      (Redirection.perform directory state ⟨selector, op, none⟩)
  := by
  rw [scan?]
  split
  · simp_all
  · simp_all
  · rename_i found hf
    rw [ho] at hf
    obtain rfl := Token.operator.inj (Option.some.inj hf)
    rw [hs]
    simp only [Option.bind_eq_bind, Option.bind_some]
    split
    · rename_i target hw
      exact absurd hw (ht target)
    · rfl
    · rfl

end

/-! ### Whole readings -/

/-- Whether the tokens that have been read end with the word that an operator after them has for its
selector, if it has one; the tokens before that word are marked for good. -/
inductive Awaits : Option Text → List Token → List Bool → Prop where
  | name (first : Token) : Awaits none [first] [false]
  | marked {front : List Token} {done : List Bool} (hl : done.length + 1 = front.length) :
      Awaits none front (done ++ [true])
  | word {front : List Token} {done : List Bool} (hne : front ≠ [])
      (hl : done.length = front.length) (text : Text) :
      Awaits (some text) (front ++ [.word text]) done

namespace Awaits

variable {held : Option Text} {front : List Token} {done : List Bool}

theorem ne_nil (h : Awaits held front done) :
  front ≠ []
  := by
  cases h with
  | name first => simp
  | marked hl =>
    apply List.length_pos_iff.mp
    omega
  | word hne hl text => simp

theorem length_eq (h : Awaits held front done) (mark : Bool) :
  (done ++ held.toList.map fun _ => mark).length = front.length
  := by
  cases h with
  | name first => rfl
  | marked hl => simpa using hl
  | word hne hl text => simp [hl]

/-- An operator takes the word that is held for it, which is marked then. -/
theorem takeSelector?_eq (h : Awaits held front done) (rest : List Token) (after : List Bool) :
  takeSelector? (front ++ rest) ((done ++ held.toList.map fun _ => false) ++ after) front.length
    = some (held, (done ++ held.toList.map fun _ => true) ++ after)
  := by
  cases h with
  | name first =>
    apply takeSelector?_none
    apply Or.inl rfl
  | @marked front done hl =>
    rw [← hl]
    apply takeSelector?_none
    right
    simp
  | @word front done hne hl text =>
    have ht : takeSelector? (front ++ .word text :: rest) (done ++ false :: after)
        (front.length + 1) = some (some text, done ++ true :: after) :=
      takeSelector?_word hl hne text
    simpa using ht

/-- An operator marks itself and the word that is held. -/
theorem mark?_bind_takeSelector? (h : Awaits held front done) (rest : List Token)
    (after : List Bool) :
  (mark? ((done ++ held.toList.map fun _ => false) ++ false :: after) front.length).bind
      (takeSelector? (front ++ rest) · front.length)
    = some (held, (done ++ held.toList.map fun _ => true) ++ true :: after)
  := by
  rw [mark?_append (h.length_eq false), Option.bind_some, h.takeSelector?_eq]

/-- After a clause that an operator makes no word is held. -/
theorem redirect (h : Awaits held front done) (op : Operator) (target : Option Text) :
  Awaits none (front ++ .operator op :: target.toList.map .word)
    (done ++ (Clause.redirect ⟨held, op, target⟩).marks)
  := by
  have hl := h.length_eq true
  have hm : (Clause.redirect ⟨held, op, target⟩).marks
      = (held.toList.map fun _ => true) ++ ((target.toList.map fun _ => true) ++ [true]) := by
    cases held <;> cases target <;> rfl
  rw [hm, ← List.append_assoc, ← List.append_assoc]
  apply Awaits.marked
  rw [List.length_append, hl]
  simp
  omega

end Awaits

namespace Clause

variable (held : Option Text)

theorem marks_held :
  (held.toList.map argument).flatMap marks = held.toList.map fun _ => false
  := by
  cases held <;> rfl

theorem redirections_held :
  (held.toList.map argument).filterMap redirection? = []
  := by
  cases held <;> rfl

end Clause

/-- The tokens that are left are read as the clauses that they make after the word that is held. -/
theorem scan?_eq (directory : Text) (held : Option Text) (rest : List Token)
    {tokens front : List Token} {position : Nat} {marks done : List Bool} (state : Redirected)
    (h : Awaits held front done) (ht : tokens = front ++ rest) (hp : position = front.length)
    (hm : marks
      = (done ++ held.toList.map fun _ => false) ++ List.replicate rest.length false) :
  scan? directory tokens position marks state
    = some (done ++ (Clause.read held rest).flatMap Clause.marks,
        ((Clause.read held rest).filterMap Clause.redirection?).foldl
          (Redirection.perform directory) state)
  := by
  fun_induction Clause.read held rest generalizing front position marks done state with
  | case1 held =>
    rw [scan?_end (by simp [ht, hp]), hm, Clause.marks_held, Clause.redirections_held]
    simp
  | case2 held text rest ih =>
    have hw : tokens[position]? = some (.word text) := by simp [ht, hp]
    have hn := Awaits.word h.ne_nil (h.length_eq false) text
    rw [scan?_word hw, ih state hn (by simp [ht]) (by simp [hp])
      (by simp [hm, List.replicate_succ]), List.flatMap_append, List.filterMap_append,
      Clause.marks_held, Clause.redirections_held, List.append_assoc, List.nil_append]
  | case3 held op target rest ih =>
    have ho : tokens[position]? = some (.operator op) := by simp [ht, hp]
    have hw : tokens[position + 1]? = some (.word target) := by simp [ht, hp]
    have hs := h.mark?_bind_takeSelector? (.operator op :: .word target :: rest)
      (false :: List.replicate rest.length false)
    rw [List.length_cons, List.length_cons, List.replicate_succ, List.replicate_succ] at hm
    rw [← hm, ← ht, ← hp, List.append_cons] at hs
    have hl : ((done ++ held.toList.map fun _ => true) ++ [true]).length = position + 1 := by
      rw [List.length_append, h.length_eq true, hp, List.length_singleton]
    have hl := mark?_append hl false (List.replicate rest.length false)
    rw [scan?_target ho hs hw hl, ih _ (h.redirect op (some target)) (by simp [ht]) (by simp [hp])]
    · simp [Clause.redirection?]
    · simp [Clause.marks, Clause.tokens]
  | case4 held op rest hne ih =>
    have ho : tokens[position]? = some (.operator op) := by simp [ht, hp]
    have hw : ∀ target, tokens[position + 1]? ≠ some (.word target) := by
      intro target hw
      rw [ht, hp] at hw
      cases rest with
      | nil => simp at hw
      | cons next rest =>
        cases next with
        | word other => exact hne other rest rfl
        | operator other => simp at hw
    have hs := h.mark?_bind_takeSelector? (.operator op :: rest) (List.replicate rest.length false)
    rw [List.length_cons, List.replicate_succ] at hm
    rw [← hm, ← ht, ← hp] at hs
    rw [scan?_alone ho hs hw, ih _ (h.redirect op none) (by simp [ht]) (by simp [hp])]
    · simp [Clause.redirection?]
    · simp [Clause.marks, Clause.tokens]

/-! ### Arguments -/

namespace Clause

theorem length_marks (clause : Clause) :
  clause.marks.length = clause.tokens.length
  := by
  cases clause with
  | argument text => rfl
  | redirect redirection => rw [marks, List.length_map]

/-- The tokens of clauses that are not marked are the arguments. -/
theorem unmarked_eq (clauses : List Clause) :
  (((clauses.flatMap tokens).zip (clauses.flatMap marks)).filter (!·.2)).map (·.1.text)
    = clauses.filterMap argument?
  := by
  induction clauses with
  | nil => rfl
  | cons clause rest ih =>
    rw [List.flatMap_cons, List.flatMap_cons, List.zip_append clause.length_marks.symm,
      List.filter_append, List.map_append, ih]
    cases clause with
    | argument text => rfl
    | redirect redirection =>
      have hm : ((redirect redirection).tokens.zip (redirect redirection).marks).filter (!·.2)
          = [] := by
        apply List.filter_eq_nil_iff.mpr
        intro entry he
        obtain ⟨token, -, hm⟩ := List.mem_map.mp (List.of_mem_zip he).2
        simp [← hm]
      rw [hm]
      rfl

end Clause

/-- The reading by positions never fails, and it makes what the tokens make. -/
theorem Command.ofTokensByPosition?_eq (directory : Text) (tokens : List Token)
    (input output : Stream) (world : World) :
  ofTokensByPosition? directory tokens input output world
    = some (ofTokens directory tokens input output world)
  := by
  cases tokens with
  | nil => rfl
  | cons first rest =>
    have ha := Clause.unmarked_eq (Clause.read none rest)
    rw [Clause.flatMap_tokens_read] at ha
    have hs : scan? directory (first :: rest) 1 (List.replicate (first :: rest).length false)
        ⟨world, output, .stderr, []⟩ = _ := scan?_eq directory none rest _ (.name first) rfl rfl rfl
    rw [ofTokensByPosition?, hs, ofTokens, Clause.outline_read, ← ha]
    rfl

end CommandShell
