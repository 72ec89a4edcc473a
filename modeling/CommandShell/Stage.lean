import CommandShell.Quoting

/-!
# Stages

A line is cut into stages at its bare bars.  A stage keeps its quotation marks, and an
empty one is dropped.
-/

namespace CommandShell

/-- The characters of a line, each with whether it is a bare bar. -/
def barred : Quoting → Text → List (Char × Bool)
  | _, [] => []
  | quoting, c :: rest =>
    (c, decide (quoting = .bare ∧ c = '|')) :: barred (quoting.pass c) rest

/-- The stages of a line. -/
def stages (line : Text) : List Text :=
  (runs Prod.snd (barred .bare line)).map (·.map Prod.fst)

@[simp]
theorem map_fst_barred (quoting : Quoting) (line : Text) :
  (barred quoting line).map Prod.fst = line
  := by
  induction line generalizing quoting with
  | nil => rfl
  | cons c line ih => simp [barred, ih]

theorem ne_nil_of_mem_stages {line stage : Text} (h : stage ∈ stages line) :
  stage ≠ []
  := by
  simp only [stages, List.mem_map] at h
  obtain ⟨piece, hp, rfl⟩ := h
  simpa using ne_nil_of_mem_runs hp

end CommandShell
