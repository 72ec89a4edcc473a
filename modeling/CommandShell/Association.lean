/-!
# Association lists

Values under keys, the first value under a key counting.  `replace` changes the value under
one key, where the key stands already, or adds it at the end.
-/

namespace CommandShell

variable {κ α : Type} [DecidableEq κ]

/-- The entries with the value under a key replaced or added. -/
def replace (key : κ) (value : α) : List (κ × α) → List (κ × α)
  | [] => [(key, value)]
  | entry :: rest =>
    if entry.1 = key then (key, value) :: rest else entry :: replace key value rest

theorem lookup_replace_self (key : κ) (value : α) (entries : List (κ × α)) :
  (replace key value entries).lookup key = some value
  := by
  induction entries with
  | nil => simp [replace]
  | cons entry rest ih =>
    obtain ⟨here, there⟩ := entry
    by_cases h : here = key
    · simp [replace, h]
    · simp [replace, h, List.lookup_cons, beq_eq_false_iff_ne.mpr (Ne.symm h), ih]

theorem lookup_replace_of_ne {key other : κ} (h : other ≠ key) (value : α)
    (entries : List (κ × α)) :
  (replace key value entries).lookup other = entries.lookup other
  := by
  induction entries with
  | nil => simp [replace, List.lookup_cons, beq_eq_false_iff_ne.mpr h]
  | cons entry rest ih =>
    obtain ⟨here, there⟩ := entry
    by_cases hl : here = key
    · simp [replace, hl, List.lookup_cons, beq_eq_false_iff_ne.mpr h]
    · simp [replace, hl, List.lookup_cons, ih]

/-- A value that is replaced twice is the one that it is replaced by last. -/
theorem replace_replace (key : κ) (first second : α) (entries : List (κ × α)) :
  replace key second (replace key first entries) = replace key second entries
  := by
  induction entries with
  | nil => simp [replace]
  | cons entry rest ih =>
    by_cases h : entry.1 = key
    · simp [replace, h]
    · simp [replace, h, ih]

/-- The entries after a value is replaced are that value under its key and entries from before. -/
theorem eq_or_mem_of_mem_replace {key : κ} {value : α} {entries : List (κ × α)} {entry : κ × α}
    (h : entry ∈ replace key value entries) :
  entry = (key, value) ∨ entry ∈ entries
  := by
  induction entries with
  | nil => simpa [replace] using h
  | cons first rest ih =>
    rw [replace] at h
    split at h
    · rcases List.mem_cons.mp h with h | h
      · exact .inl h
      · exact .inr (List.mem_cons_of_mem _ h)
    · rcases List.mem_cons.mp h with rfl | h
      · exact .inr List.mem_cons_self
      · rcases ih h with h | h
        · exact .inl h
        · exact .inr (List.mem_cons_of_mem _ h)

end CommandShell
