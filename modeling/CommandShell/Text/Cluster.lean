import CommandShell.Text.Cluster.Ranges

/-!
# Grapheme clusters

What a reader sees as one character can be several: a letter with its accents, a syllable
of Hangul, a flag, a sequence of joined pictographs.  `Text.clusters` cuts a text into its
extended grapheme clusters.
-/

namespace CommandShell

/-- What a character is for the cutting of clusters. -/
inductive ClusterClass where
  | carriageReturn
  | lineFeed
  | control
  | extending
  | joiner
  | spacing
  | prepending
  | regional
  | leading
  | vowel
  | trailing
  | openSyllable
  | closedSyllable
  | pictograph
  | other
  deriving DecidableEq, Repr

namespace ClusterClass

/-- The class of a Hangul letter or syllable; the vowel signs of Kirat Rai join likewise. -/
def ofHangul (n : Nat) : Option ClusterClass :=
  if 0x1100 ≤ n ∧ n ≤ 0x115F ∨ 0xA960 ≤ n ∧ n ≤ 0xA97C then some .leading
  else if 0x1160 ≤ n ∧ n ≤ 0x11A7 ∨ 0xD7B0 ≤ n ∧ n ≤ 0xD7C6 then some .vowel
  else if n = 0x16D63 ∨ 0x16D67 ≤ n ∧ n ≤ 0x16D6A then some .vowel
  else if 0x11A8 ≤ n ∧ n ≤ 0x11FF ∨ 0xD7CB ≤ n ∧ n ≤ 0xD7FB then some .trailing
  else if 0xAC00 ≤ n ∧ n ≤ 0xD7A3 then
    some (if (n - 0xAC00) % 28 = 0 then .openSyllable else .closedSyllable)
  else none

/-- The class of a character. -/
def of (c : Char) : ClusterClass :=
  if c = '\r' then .carriageReturn
  else if c = '\n' then .lineFeed
  else if c.toNat = 0x200D then .joiner
  else if isIn Cluster.control c then .control
  else if isIn Cluster.extending c then .extending
  else if isIn Cluster.spacing c then .spacing
  else if isIn Cluster.prepending c then .prepending
  else if 0x1F1E6 ≤ c.toNat ∧ c.toNat ≤ 0x1F1FF then .regional
  else if isIn Cluster.pictographs c then .pictograph
  else (ofHangul c.toNat).getD .other

/-- Whether a cluster always ends before or after a character of the class. -/
def isBreaking : ClusterClass → Bool
  | .carriageReturn | .lineFeed | .control => true
  | _ => false

/-- Whether Hangul of one class goes on with Hangul of another. -/
def goesOnHangul : ClusterClass → ClusterClass → Bool
  | .leading, .leading | .leading, .vowel | .leading, .openSyllable
  | .leading, .closedSyllable => true
  | .openSyllable, .vowel | .openSyllable, .trailing => true
  | .vowel, .vowel | .vowel, .trailing => true
  | .closedSyllable, .trailing | .trailing, .trailing => true
  | _, _ => false

end ClusterClass

/-- What a cluster is so far. -/
structure ClusterState where
  /-- The class of its last character. -/
  last : ClusterClass
  /-- Whether it is a pictograph and what extends it, perhaps with a joiner. -/
  pictured : Bool
  /-- Whether an odd number of regional letters ends it. -/
  unpaired : Bool
  /-- Whether it ends in a consonant and what extends it. -/
  consonant : Bool
  /-- Whether a linker follows that consonant. -/
  linked : Bool
  deriving DecidableEq, Repr

namespace ClusterState

/-- The state of a cluster of one character. -/
def first (c : Char) : ClusterState where
  last := .of c
  pictured := ClusterClass.of c = .pictograph
  unpaired := ClusterClass.of c = .regional
  consonant := isIn Cluster.consonants c
  linked := false

/-- Whether a character belongs to the cluster. -/
def accepts (state : ClusterState) (c : Char) : Bool :=
  let next := ClusterClass.of c
  if state.last = .carriageReturn ∧ next = .lineFeed then true
  else if state.last.isBreaking || next.isBreaking then false
  else
    state.last.goesOnHangul next
      || next = .extending || next = .joiner || next = .spacing
      || state.last = .prepending
      || (state.consonant && state.linked && isIn Cluster.consonants c)
      || (state.pictured && state.last = .joiner && next = .pictograph)
      || (state.unpaired && next = .regional)

/-- The state of the cluster after a character that belongs to it. -/
def after (state : ClusterState) (c : Char) : ClusterState :=
  let next := ClusterClass.of c
  let isConsonant := isIn Cluster.consonants c
  let isLinker := isIn Cluster.linkers c
  let goesOn := (next = .extending || next = .joiner) && c.toNat ≠ 0x200C
  { last := next
    pictured := next = .pictograph
      || state.pictured && state.last ≠ .joiner && (next = .extending || next = .joiner)
    unpaired := next = .regional && !state.unpaired
    consonant := isConsonant || state.consonant && goesOn
    linked := !isConsonant && state.consonant && goesOn && (isLinker || state.linked) }

end ClusterState

namespace Text

/-- The clusters of a text that goes on with a cluster. -/
def clustersAfter (state : ClusterState) (cluster : Text) : Text → List Text
  | [] => [cluster]
  | c :: rest =>
    if state.accepts c then clustersAfter (state.after c) (cluster ++ [c]) rest
    else cluster :: clustersAfter (.first c) [c] rest

/-- The grapheme clusters of a text. -/
def clusters : Text → List Text
  | [] => []
  | c :: rest => clustersAfter (.first c) [c] rest

theorem flatten_clustersAfter (state : ClusterState) (cluster text : Text) :
  (clustersAfter state cluster text).flatten = cluster ++ text
  := by
  induction text generalizing state cluster with
  | nil => simp [clustersAfter]
  | cons c rest ih =>
    simp only [clustersAfter]
    split <;> simp [ih]

theorem flatten_clusters (text : Text) :
  (clusters text).flatten = text
  := by
  cases text with
  | nil => rfl
  | cons c rest => simp [clusters, flatten_clustersAfter]

end Text

end CommandShell
