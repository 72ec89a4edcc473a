import CommandShell.Proofs.Text

/-!
# The order of encodings

Texts are ordered by their characters and bytes by their values.  Encodings stand in the same order
as the texts that they encode (`Text.encode_lt_encode_iff`), for the encodings of two characters
differ in a byte that is less in that of the lesser one, and neither of them ends before it.
-/

namespace CommandShell

namespace Text

/-- Bytes are compared by the first of them, and where these are the same by those that follow. -/
theorem ofNat_cons_lt {m n : Nat} {before after : Bytes} (hn : n < 256) (hle : m ≤ n)
    (h : m = n → before < after) :
  UInt8.ofNat m :: before < UInt8.ofNat n :: after
  := by
  rw [List.cons_lt_cons_iff]
  rcases Nat.lt_or_eq_of_le hle with hlt | rfl
  · left
    rw [UInt8.lt_iff_toNat_lt, UInt8.toNat_ofNat', UInt8.toNat_ofNat']
    omega
  · right
    apply And.intro rfl (h rfl)

theorem ofNat_cons_lt_of_lt {m n : Nat} (hn : n < 256) (h : m < n) (before after : Bytes) :
  UInt8.ofNat m :: before < UInt8.ofNat n :: after
  := by
  apply ofNat_cons_lt hn (Nat.le_of_lt h)
  omega

/-- A character before another one is encoded before it, whatever follows them. -/
theorem utf8EncodeChar_append_lt {c d : Char} (h : c < d) (before after : Bytes) :
  String.utf8EncodeChar c ++ before < String.utf8EncodeChar d ++ after
  := by
  have hd : d.val.toNat < 0x110000 := by
    rcases d.valid with hd | hd
    · apply lt_trans hd
      decide
    · apply hd.2
  have h : c.val.toNat < d.val.toNat := h
  unfold String.utf8EncodeChar
  generalize c.val.toNat = v at h
  generalize d.val.toNat = w at h hd
  dsimp only
  -- A longer encoding has a greater first byte; the bytes of two that are as long are compared in
  -- turn.
  split
  · split
    · apply ofNat_cons_lt_of_lt <;> omega
    split
    · apply ofNat_cons_lt_of_lt <;> omega
    split
    · apply ofNat_cons_lt_of_lt <;> omega
    · apply ofNat_cons_lt_of_lt <;> omega
  split
  · split
    · omega
    split
    · refine ofNat_cons_lt ?_ ?_ fun _ => ofNat_cons_lt_of_lt ?_ ?_ _ _
      all_goals omega
    split
    · apply ofNat_cons_lt_of_lt <;> omega
    · apply ofNat_cons_lt_of_lt <;> omega
  split
  · split
    · omega
    split
    · omega
    split
    · refine ofNat_cons_lt ?_ ?_ fun _ => ofNat_cons_lt ?_ ?_ fun _ =>
        ofNat_cons_lt_of_lt ?_ ?_ _ _
      all_goals omega
    · apply ofNat_cons_lt_of_lt <;> omega
  · split
    · omega
    split
    · omega
    split
    · omega
    · refine ofNat_cons_lt ?_ ?_ fun _ => ofNat_cons_lt ?_ ?_ fun _ => ofNat_cons_lt ?_ ?_ fun _ =>
        ofNat_cons_lt_of_lt ?_ ?_ _ _
      all_goals omega

theorem encode_lt_encode {text other : Text} (h : text < other) :
  encode text < encode other
  := by
  induction text generalizing other with
  | nil =>
    cases other with
    | nil => contradiction
    | cons d others =>
      have hne : encode (d :: others) ≠ [] := by
        simp [encode, String.utf8EncodeChar_ne_nil]
      obtain ⟨first, bytes, he⟩ := List.exists_cons_of_ne_nil hne
      rw [he]
      apply List.nil_lt_cons
  | cons c rest ih =>
    cases other with
    | nil => contradiction
    | cons d others =>
      rcases List.cons_lt_cons_iff.mp h with hlt | ⟨rfl, hlt⟩
      · apply utf8EncodeChar_append_lt hlt
      · apply List.append_left_lt (ih hlt)

/-- Encodings stand in the order of their texts. -/
theorem encode_lt_encode_iff {text other : Text} :
  encode text < encode other ↔ text < other
  := by
  constructor
  · intro h
    rcases lt_trichotomy text other with hlt | rfl | hlt
    · exact hlt
    · apply absurd h (List.lt_irrefl _)
    · apply absurd h (List.lt_asymm (encode_lt_encode hlt))
  · apply encode_lt_encode

end Text

end CommandShell
