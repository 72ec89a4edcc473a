import CommandShell.Proofs.Completion
import CommandShell.Proofs.Dispatch
import CommandShell.Proofs.Normalizing
import CommandShell.Proofs.Rereading
import CommandShell.Proofs.Wiring

/-!
# Lines that name a command

What completion makes of a name is the name with a space after it.  The line names the command if it
is a single stage that is dispatched to the builtin with the name or to the program that the name is
looked up to (`Shell.Calls`).  It does so exactly if the name is unmarked
(`Shell.completed_calls_iff`), whatever the files in the search path are called.
-/

namespace CommandShell

/-! ### Names of programs -/

theorem Text.encode_of_decode? {bytes : Bytes} {text : Text} (h : decode? bytes = some text) :
  encode text = bytes
  := by
  obtain ⟨characters, hc, rfl⟩ := Option.map_eq_some_iff.mp h
  have hs : bytes.toByteArray.utf8Decode?.isSome = true := by rw [hc]; rfl
  have he := ByteArray.utf8Encode_get_utf8Decode? (h := hs)
  simp only [hc, Option.get_some] at he
  apply List.toByteArray_inj.mp he

/-- A name that is a text is neither empty nor cut by a slash. -/
theorem Name.ne_nil_of_text? {name : Name} {text : Text} (h : name.text? = some text) :
  text ≠ [] ∧ '/' ∉ text
  := by
  have he := Text.encode_of_decode? h
  have hp := name.proper
  rw [← he, isProperName] at hp
  simp only [Bool.and_eq_true, Bool.not_eq_true', List.contains_eq_mem,
    decide_eq_false_iff_not] at hp
  obtain ⟨⟨⟨hn, -⟩, -⟩, hs⟩ := hp
  constructor
  · rintro rfl
    contradiction
  · intro hm
    apply hs
    apply List.mem_flatMap.mpr ⟨_, hm, by decide⟩

/-- A program that is listed is found. -/
theorem SearchPath.exists_resolve_of_mem_list {search : SearchPath} {tree : FileTree}
    {base : Location} {name : Text} (h : name ∈ search.list tree base) :
  name ≠ [] ∧ ∃ path, search.resolve tree base name = some path
  := by
  rw [list, Text.mem_sortDistinct] at h
  obtain ⟨directory, hd, h⟩ := List.mem_flatMap.mp h
  rw [executables] at h
  split at h
  · rename_i node _
    obtain ⟨hm, he⟩ := List.mem_filter.mp h
    obtain ⟨entry, -, ht⟩ := List.mem_filterMap.mp hm
    obtain ⟨hn, hs⟩ := Name.ne_nil_of_text? ht
    refine ⟨hn, ?_⟩
    have hg : (name.isEmpty || name.contains '/') = false := by simp [hn, hs]
    rw [resolve, hg, if_neg Bool.false_ne_true, ← Option.isSome_iff_exists, List.find?_isSome]
    exact ⟨_, List.mem_map_of_mem hd, he⟩
  · contradiction

namespace Path

theorem join_eq {directory name : Text} (hd : directory ≠ []) (hn : '/' ∉ name) :
  join directory name
    = directory ++ (if directory.getLast? = some '/' then name else '/' :: name)
  := by
  rw [join, if_neg]
  · split
    · rename_i hl
      rw [if_pos (hl.resolve_left hd)]
    · rename_i hl
      rw [not_or] at hl
      rw [if_neg hl.2]
  · intro ha
    obtain ⟨rest, rfl⟩ := exists_eq_cons_of_isAbsolute ha
    simp at hn

theorem splitOn_append_slash {name : Text} (hn : '/' ∉ name) (before : Text) :
  (before ++ '/' :: name).splitOn '/' = before.splitOn '/' ++ [name]
  := by
  rw [List.splitOn_append_cons_self, List.splitOn_eq_singleton hn]

/-- The name comes last in a path that is joined of a directory and a name. -/
theorem splitOn_join {directory name : Text} (hd : directory ≠ []) (hn : '/' ∉ name) :
  ∃ pieces, (join directory name).splitOn '/' = pieces ++ [name]
  := by
  rw [join_eq hd hn]
  split
  · rename_i hl
    obtain ⟨before, rfl⟩ := List.getLast?_eq_some_iff.mp hl
    rw [List.append_assoc]
    exact ⟨_, splitOn_append_slash hn before⟩
  · exact ⟨_, splitOn_append_slash hn directory⟩

/-- A name is told by the path that it is looked up to. -/
theorem name_eq_of_join_eq {directory other name name' : Text} (hd : directory ≠ [])
    (ho : other ≠ []) (hn : '/' ∉ name) (hn' : '/' ∉ name')
    (h : join directory name = join other name') :
  name = name'
  := by
  obtain ⟨pieces, hp⟩ := splitOn_join hd hn
  obtain ⟨pieces', hp'⟩ := splitOn_join ho hn'
  rw [h, hp'] at hp
  obtain ⟨-, he⟩ := List.append_inj' hp rfl
  apply (List.singleton_inj.mp he).symm

end Path

/-! ### Texts that are read back -/

namespace Quoting

theorem isQuote_of_read {quoting : Quoting} {c : Char} {next : Option Char}
    (h : (quoting.read c next).1 = .mark) :
  isQuote c = true
  := by
  cases quoting with
  | bare =>
    simp only [read] at h
    split_ifs at h <;> simp_all [isQuote]
  | single =>
    simp only [read] at h
    split_ifs at h
    simp_all [isQuote]
  | double =>
    simp only [read] at h
    split_ifs at h <;> simp_all [isQuote]
  | escaped inDouble => contradiction

/-- A bare quotation mark, or a backslash that something follows, is a mark. -/
theorem read_of_isQuote {c : Char} (h : isQuote c = true) (next : Char) :
  (read .bare c (some next)).1 = .mark
  := by
  simp only [isQuote, Bool.or_eq_true, decide_eq_true_eq] at h
  rcases h with (rfl | rfl) | rfl <;> rfl

end Quoting

/-- Marks quote others. -/
theorem Glyph.isQuote_of_mem_read {quoting : Quoting} {stage : Text} {glyph : Glyph}
    (h : glyph ∈ read quoting stage) (hm : glyph.role = .mark) :
  isQuote glyph.char = true
  := by
  induction stage generalizing quoting with
  | nil => contradiction
  | cons c rest ih =>
    rw [read] at h
    rcases List.mem_cons.mp h with rfl | h
    · apply Quoting.isQuote_of_read hm
    · apply ih h

/-- A text that reads without marks when something follows it has no quotes. -/
theorem Text.unquoted_of_read {text : Text} {next : Char}
    (h : ∀ glyph ∈ Glyph.read .bare (text ++ [next]), glyph.role ≠ .mark) :
  ∀ c ∈ text, isQuote c = false
  := by
  induction text with
  | nil => nofun
  | cons c rest ih =>
    obtain ⟨d, hd⟩ : ∃ d, (rest ++ [next]).head? = some d := by cases rest <;> exact ⟨_, rfl⟩
    rw [List.cons_append, Glyph.read, hd, List.forall_mem_cons] at h
    have hc : isQuote c = false := by
      rw [Bool.eq_false_iff]
      intro hq
      apply h.1 (Quoting.read_of_isQuote hq d)
    rw [Quoting.read_of_not_isQuote hc] at h
    rw [List.forall_mem_cons]
    apply And.intro hc (ih h.2)

/-! ### Lines with spaces for their bars -/

theorem eq_bar_of_mem_barred {quoting : Quoting} {line : Text} {entry : Char × Bool}
    (h : entry ∈ barred quoting line) (hc : entry.2 = true) :
  entry.1 = '|'
  := by
  induction line generalizing quoting with
  | nil => contradiction
  | cons c rest ih =>
    rcases List.mem_cons.mp h with rfl | h
    · apply (of_decide_eq_true hc).2
    · apply ih h

theorem mem_spaced {line : Text} {c : Char} (h : c ∈ line) (hc : c ≠ '|') :
  c ∈ spaced line
  := by
  rw [← map_fst_barred .bare line] at h
  obtain ⟨⟨d, cut⟩, he, rfl⟩ := List.mem_map.mp h
  refine List.mem_map.mpr ⟨_, he, ?_⟩
  apply if_neg
  intro ht
  apply hc (eq_bar_of_mem_barred he ht)

theorem count_spaced_le (line : Text) {c : Char} (hc : c ≠ ' ') :
  (spaced line).count c ≤ line.count c
  := by
  have hl : line.count c = ((barred .bare line).map Prod.fst).count c := by rw [map_fst_barred]
  rw [hl, spaced, List.count_eq_countP, List.count_eq_countP, List.countP_map, List.countP_map]
  apply List.countP_mono_left
  rintro ⟨d, cut⟩ - h
  cases cut with
  | true => exact absurd (eq_of_beq h).symm hc
  | false => exact h

theorem spaced_append_space (line : Text) :
  spaced (line ++ [' ']) = spaced line ++ [' ']
  := by
  rw [spaced, barred_append, List.map_append]
  simp [barred, spaced]

/-- An unquoted line has no bar when it has spaces for its bars. -/
theorem bar_not_mem_spaced {line : Text} (h : ∀ c ∈ line, isQuote c = false) :
  '|' ∉ spaced line
  := by
  intro hm
  rw [spaced, Text.barred_of_unquoted h, List.map_map] at hm
  obtain ⟨c, -, hc⟩ := List.mem_map.mp hm
  simp only [Function.comp_apply, decide_eq_true_eq] at hc
  split at hc
  · contradiction
  · contradiction

/-! ### Words with the text of their line -/

/-- What a word says are glyphs of its stage that are no blanks. -/
theorem Word.glyphs_sublist {stage : Text} {word : Word} (h : word ∈ words stage) :
  word.glyphs.Sublist ((Glyph.read .bare stage).filter (·.role ≠ .blank))
  := by
  obtain ⟨glyphs, hg, rfl⟩ := List.mem_map.mp h
  have hf := flatten_runs (·.role = .blank) (Glyph.read .bare stage)
  have hs := List.sublist_flatten_of_mem hg
  rw [hf] at hs
  simpa using hs

section

variable {name : Text} {word : Word} (hw : word ∈ words (spaced (name ++ [' '])))
  (ht : word.text = name)

include hw ht

/-- No mark is left out of a word that has the text of its line. -/
theorem role_ne_mark_of_text_eq :
  ∀ glyph ∈ Glyph.read .bare (spaced (name ++ [' '])), glyph.role ≠ .mark
  := by
  intro glyph hg hm
  have hq := Glyph.isQuote_of_mem_read hg hm
  have hne : glyph.char ≠ ' ' := by
    intro he
    rw [he] at hq
    contradiction
  let same (other : Glyph) : Bool := other.char == glyph.char
  -- The line has the character as often as the name, and once it is the mark.
  have hline : (Glyph.read .bare (spaced (name ++ [' ']))).countP same ≤ name.count glyph.char := by
    have hl := count_spaced_le (name ++ [' ']) hne
    rw [List.count_append, List.count_singleton, if_neg (by simpa using Ne.symm hne), Nat.add_zero,
      ← map_char_read .bare (spaced (name ++ [' '])), List.count_eq_countP, List.countP_map] at hl
    exact hl
  have hword : name.count glyph.char
      ≤ ((Glyph.read .bare (spaced (name ++ [' ']))).filter (·.role ≠ .mark)).countP same := by
    have hs := ((Word.glyphs_sublist hw).trans List.filter_sublist).filter (·.role ≠ .mark)
    have hn : name.count glyph.char = word.spoken.countP same := by
      rw [← ht, Word.text, List.count_eq_countP, List.countP_map]
      rfl
    rw [hn]
    apply hs.countP_le
  have hmark : 0 < ((Glyph.read .bare (spaced (name ++ [' ']))).filter
      (fun other => !decide (other.role ≠ .mark))).countP same := by
    rw [List.countP_pos_iff]
    exact ⟨glyph, List.mem_filter.mpr ⟨hg, by simp [hm]⟩, by simp [same]⟩
  have hsum := List.countP_eq_countP_filter_add (Glyph.read .bare (spaced (name ++ [' ']))) same
    (·.role ≠ .mark)
  omega

/-- A name that is the text of a word of the line is unmarked. -/
theorem isUnmarked_of_text_eq :
  name.isUnmarked = true
  := by
  have hm := role_ne_mark_of_text_eq hw ht
  rw [spaced_append_space] at hw hm
  have hs := Text.unquoted_of_read hm
  have hq : ∀ c ∈ name, isQuote c = false := by
    intro c hc
    rw [Bool.eq_false_iff]
    intro he
    have hb : c ≠ '|' := by
      rintro rfl
      contradiction
    rw [hs c (mem_spaced hc hb)] at he
    contradiction
  -- Nothing is quoted in the line, so its characters are what they are when they are bare.
  have hr : ∀ c ∈ name, c ∈ spaced name ++ [' '] ∧ isBlank c = false := by
    intro c hc
    rw [← ht] at hc
    obtain ⟨glyph, hg, rfl⟩ := List.mem_map.mp hc
    have hg := (Word.glyphs_sublist hw).subset (List.mem_of_mem_filter hg)
    obtain ⟨hg, hn⟩ := List.mem_filter.mp hg
    have hu : ∀ c ∈ spaced name ++ [' '], isQuote c = false := by
      rw [List.forall_mem_append, List.forall_mem_singleton]
      exact ⟨hs, rfl⟩
    rw [Text.read_of_unquoted hu] at hg
    obtain ⟨d, hd, rfl⟩ := List.mem_map.mp hg
    rw [decide_eq_true_eq, Ne, Glyph.role_bare_eq_blank_iff] at hn
    apply And.intro hd (Bool.eq_false_iff.mpr hn)
  rw [Text.isUnmarked_iff]
  refine ⟨hq, fun c hc => (hr c hc).2, ?_⟩
  intro hb
  rcases List.mem_append.mp (hr '|' hb).1 with h | h
  · apply bar_not_mem_spaced hq h
  · contradiction

end

/-! ### Lines that name a command -/

namespace Shell

/-- Whether a line is a single stage whose name, as it is written, is dispatched to the builtin with
a name, or to the program that the name is looked up to. -/
def Calls (shell : Shell) (line name : Text) : Prop :=
  ∃ stage written rest, stages line = [stage] ∧ Token.ofStage stage = .word written :: rest
    ∧ ((∃ builtin : Builtin, builtin.name = name ∧ shell.dispatch written = .builtin builtin)
      ∨ ∃ path, shell.program? name = some path
        ∧ shell.dispatch written = .program (unquote written) path)

/-- The names of commands are not empty, and each is that of a builtin or of a program. -/
theorem exists_of_mem_commandNames {shell : Shell} {name : Text} (h : name ∈ shell.commandNames) :
  name ≠ []
    ∧ ((∃ builtin : Builtin, builtin.name = name) ∨ ∃ path, shell.program? name = some path)
  := by
  rcases List.mem_append.mp h with h | h
  · obtain ⟨builtin, -, rfl⟩ := List.mem_map.mp h
    refine ⟨?_, .inl ⟨builtin, rfl⟩⟩
    cases builtin <;> decide
  · obtain ⟨hn, hp⟩ := SearchPath.exists_resolve_of_mem_list h
    apply And.intro hn (.inr hp)

/-- An unmarked name of a command with a space after it calls the command. -/
theorem calls_of_isUnmarked {shell : Shell} {name : Text} (h : name ∈ shell.commandNames)
    (hu : name.isUnmarked = true) :
  shell.Calls (name ++ [' ']) name
  := by
  obtain ⟨hn, hk⟩ := exists_of_mem_commandNames h
  have hs : Text.IsWhole [' '] := isWhole_of_isBlank rfl
  have hw := (Text.isWhole_of_isUnmarked hu).append hs
  refine ⟨_, name, [], stages_of_isUncut hw.isUncut (by simp),
    Text.ofStage_of_isUnmarked hu hn rfl, ?_⟩
  rw [dispatch, Text.unquote_of_isUnmarked hu]
  cases hb : Builtin.ofName? name with
  | some builtin => exact .inl ⟨builtin, (Builtin.ofName?_eq_some_iff.mp hb).symm, rfl⟩
  | none =>
    right
    rcases hk with ⟨builtin, rfl⟩ | ⟨path, hp⟩
    · rw [Builtin.ofName?_eq_some_iff.mpr rfl] at hb
      contradiction
    · use path, hp
      rw [hp]

variable {settings : Settings} {world : World}

/-- A name is told by the path of the program. -/
theorem name_eq_of_program? {name other path : Text}
    (h : (begin settings world).program? name = some path)
    (ho : (begin settings world).program? other = some path) :
  name = other
  := by
  obtain ⟨hn, directory, hd, rfl⟩ := exists_join_of_program? h
  obtain ⟨hn', directory', hd', hj⟩ := exists_join_of_program? ho
  apply Path.name_eq_of_join_eq (ne_nil_of_mem_runs hd) (ne_nil_of_mem_runs hd') hn hn' hj

theorem program?_of_dispatch {shell : Shell} {written told path : Text}
    (h : shell.dispatch written = .program told path) :
  shell.program? (unquote written) = some path
  := by
  rw [dispatch] at h
  split at h
  · contradiction
  · split at h
    · rename_i found hp
      obtain ⟨-, rfl⟩ := Dispatch.program.inj h
      apply hp
    · contradiction

/-- A name that calls its command with a space after it is unmarked. -/
theorem isUnmarked_of_calls {name : Text} (h : (begin settings world).Calls (name ++ [' ']) name) :
  name.isUnmarked = true
  := by
  obtain ⟨stage, written, rest, hs, ht, ⟨builtin, rfl, -⟩ | ⟨path, hp, hd⟩⟩ := h
  · cases builtin <;> decide
  · have hname := name_eq_of_program? hp (program?_of_dispatch hd)
    have hw := words_stages (name ++ [' '])
    rw [hs, List.flatMap_singleton] at hw
    rw [Token.ofStage] at ht
    cases hf : words stage with
    | nil =>
      rw [hf] at ht
      contradiction
    | cons first others =>
      rw [hf] at ht
      obtain ⟨hr, -⟩ := List.cons.inj ht
      obtain rfl := Token.word.inj hr
      have hm : first ∈ words stage := by simp [hf]
      rw [Word.unquote_raw hm] at hname
      rw [hw] at hm
      apply isUnmarked_of_text_eq hm hname.symm

/-- The name of a command with a space after it calls the command exactly if it is unmarked. -/
theorem calls_iff {name : Text} (h : name ∈ (begin settings world).commandNames) :
  (begin settings world).Calls (name ++ [' ']) name ↔ name.isUnmarked = true
  := ⟨isUnmarked_of_calls, calls_of_isUnmarked h⟩

end Shell

/-! ### Accepted completions -/

theorem Completer.typed_size (start : Text) :
  typed start start.size = start
  := by
  rw [typed, Text.takeBytes?_eq_some_iff.mpr ⟨List.prefix_refl start, rfl⟩]
  rfl

/-- The only candidate of what is typed is completed with a space after it. -/
theorem Completer.complete_of_unique {names : List Text} {start name : Text}
    (h : candidates names start = [name]) (earlier : List Attempt) :
  ∃ inserted, ((after names earlier).complete start start.size).1 = .insert inserted
    ∧ start ++ inserted = name ++ [' ']
  := by
  obtain ⟨-, -, -, ha, -⟩ := answers_complete_after names earlier start start.size
  rw [typed_size, h] at ha
  generalize ((after names earlier).complete start start.size).1 = answer at ha
  cases ha with
  | unique rest => exact ⟨rest ++ [' '], rfl, by simp⟩
  | stem several => contradiction
  | bell several => contradiction
  | list several => contradiction

/-- Whatever files there are and wherever programs are searched, and whatever has been attempted
before: what is typed and has a name of a command as its only candidate is completed to a line that
calls the command exactly if the name has no white space, no quotation mark, no backslash and no
bar. -/
theorem Shell.completed_calls_iff (settings : Settings) (world : World) (earlier : List Attempt)
    {start name : Text} (h : candidates (begin settings world).commandNames start = [name]) :
  ∃ inserted,
    ((Completer.after (begin settings world).commandNames earlier).complete start start.size).1
        = .insert inserted
      ∧ ((begin settings world).Calls (start ++ inserted) name ↔ name.isUnmarked = true)
  := by
  obtain ⟨inserted, hi, hl⟩ := Completer.complete_of_unique h earlier
  have hn : name ∈ candidates (begin settings world).commandNames start := by simp [h]
  refine ⟨inserted, hi, ?_⟩
  rw [hl]
  apply calls_iff (mem_candidates.mp hn).1

/-- A world with two programs, one with an angle in its name and one with a blank. -/
def World.shelved : World :=
  { within [(⟨Text.encode "a>c".toList, by decide⟩, .file 0o755 []),
      (⟨Text.encode "c x".toList, by decide⟩, .file 0o755 [])] with
    environment := ["PATH=/d".toList] }

/-- The name with an angle is completed to a line that calls it. -/
theorem Shell.completed_calls_iff_shelved :
  let shell := begin World.shelved.settings World.shelved
  ∃ inserted, (shell.completer.complete ['a'] 1).1 = .insert inserted
    ∧ shell.Calls (['a'] ++ inserted) "a>c".toList
  := by
  have h : candidates (begin World.shelved.settings World.shelved).commandNames ['a']
      = ["a>c".toList] := by decide +kernel
  obtain ⟨inserted, hi, hc⟩ := completed_calls_iff World.shelved.settings World.shelved [] h
  refine ⟨inserted, hi, ?_⟩
  apply hc.mpr
  decide

/-- The name with a blank is completed to a line that does not call it. -/
theorem Shell.not_completed_calls :
  ¬ ∀ (settings : Settings) (world : World) (start name : Text),
    candidates (begin settings world).commandNames start = [name] →
      ∃ inserted, ((begin settings world).completer.complete start start.size).1 = .insert inserted
        ∧ (begin settings world).Calls (start ++ inserted) name
  := by
  intro h
  have hu : candidates (begin World.shelved.settings World.shelved).commandNames "c ".toList
      = ["c x".toList] := by decide +kernel
  obtain ⟨inserted, hi, hc⟩ := h World.shelved.settings World.shelved _ _ hu
  obtain ⟨other, ho, hl⟩ := Completer.complete_of_unique hu []
  obtain rfl := Completion.insert.inj (hi.symm.trans ho)
  rw [hl] at hc
  have hm := isUnmarked_of_calls hc
  contradiction

end CommandShell
