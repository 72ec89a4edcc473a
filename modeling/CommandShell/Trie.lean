import CommandShell.Text

/-!
# Tries

A trie holds words so that those with a common beginning share it.  A branch says which
character comes next, how many of the inserted words go through it, and whether a word ends
there.  Branches side by side stand in increasing order of their characters.
-/

namespace CommandShell

/-- The branches of a trie below one point, as the first of them and the others. -/
inductive Branches where
  | none
  | branch (c : Char) (count : Nat) (ends : Bool) (below others : Branches)
  deriving DecidableEq, Repr

namespace Branches

/-- The branches of a single word. -/
def single : Text → Branches
  | [] => .none
  | c :: rest => .branch c 1 rest.isEmpty (single rest) .none

/-- The branches after one more word is inserted. -/
def insert : Text → Branches → Branches
  | [], branches => branches
  | word, .none => single word
  | c :: rest, .branch d count ends below others =>
    if c < d then
      .branch c 1 rest.isEmpty (single rest) (.branch d count ends below others)
    else if c = d then .branch d (count + 1) (ends || rest.isEmpty) (insert rest below) others
    else .branch d count ends below (insert (c :: rest) others)

/-- The words of the branches, each after the text that leads to them, whose characters are
given with the last first. -/
def words (path : Text) : Branches → List Text
  | .none => []
  | .branch c _ ends below others =>
    (if ends then [(c :: path).reverse] else []) ++ words (c :: path) below ++ words path others

/-- The branch of a character: its count, whether a word ends there, what is below it. -/
def find? (c : Char) : Branches → Option (Nat × Bool × Branches)
  | .none => .none
  | .branch d count ends below others =>
    if c = d then some (count, ends, below) else find? c others

/-- The words of the branches that begin with a text, given the text that leads to the
branches, the last character first, and whether a word ends there. -/
def matching (path : Text) (ends : Bool) : Text → Branches → List Text
  | [], branches => (if ends then [path.reverse] else []) ++ words path branches
  | c :: rest, branches =>
    match find? c branches with
    | some (_, ends, below) => matching (c :: path) ends rest below
    | .none => []

/-- The longest beginning of a word each character of which at least `threshold` of the
inserted words go through. -/
def shared (threshold : Nat) : Text → Branches → Text
  | [], _ => []
  | c :: rest, branches =>
    match find? c branches with
    | some (count, _, below) => if threshold ≤ count then c :: shared threshold rest below else []
    | .none => []

end Branches

/-- A trie. -/
structure Trie where
  /-- Whether the empty word has been inserted. -/
  ends : Bool := false
  branches : Branches := .none
  deriving DecidableEq, Repr

namespace Trie

/-- The trie after one more word is inserted. -/
def insert (trie : Trie) (word : Text) : Trie :=
  ⟨trie.ends || word.isEmpty, trie.branches.insert word⟩

/-- The trie of the words of a list, each as often as it is there. -/
def ofList (words : List Text) : Trie :=
  words.foldl insert {}

/-- The trie of the words of a list, each once. -/
def ofDistinct (words : List Text) : Trie :=
  ofList (Text.sortDistinct words)

/-- The words that begin with a text, in increasing order. -/
def matching (trie : Trie) (text : Text) : List Text :=
  trie.branches.matching [] trie.ends text

/-- The longest beginning of a word that at least `threshold` of the inserted words go
through. -/
def shared (trie : Trie) (word : Text) (threshold : Nat) : Text :=
  trie.branches.shared threshold word

end Trie

end CommandShell
