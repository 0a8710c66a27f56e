import EmbeddedC.CText
/-!
# Encoded texts

A text that is encoded is read back as it was, character by character. So a name means the same on
both sides, and two names that look alike there are one name here.
-/

namespace EmbeddedC

namespace Text.Utf8

variable {rest : List UInt8} {p : Pending}

section Lead

private theorem start_ascii : ∀ n < 128,
    start (UInt8.ofNat n) = ([.scalar (Char.ofNat n)], none) := by
  decide

private theorem start_two : ∀ k < 32, 2 ≤ k →
    start (UInt8.ofNat (k + 192)) =
      ([], some ⟨[UInt8.ofNat (k + 192)], k, 1, 0x80, 0xBF⟩) := by
  decide

private theorem start_three : ∀ k < 16,
    start (UInt8.ofNat (k + 224)) =
      ([], some ⟨[UInt8.ofNat (k + 224)], k, 2, if k = 0 then 0xA0 else 0x80,
        if k = 13 then 0x9F else 0xBF⟩) := by
  -- The second of three bytes is what keeps out longer spellings and surrogates.
  decide

private theorem start_four : ∀ k < 5,
    start (UInt8.ofNat (k + 240)) =
      ([], some ⟨[UInt8.ofNat (k + 240)], k, 3, if k = 0 then 0x90 else 0x80,
        if k = 4 then 0x8F else 0xBF⟩) := by
  decide

private theorem piecesFrom_lead {b : UInt8} (hb : start b = ([], some p)) :
    piecesFrom none (b :: rest) = piecesFrom (some p) rest := by
  simp [piecesFrom, step, hb]

end Lead

section Continuation

variable {t : Nat}

private theorem toNat_continuation (ht : t < 64) : (UInt8.ofNat (t + 128)).toNat = t + 128 := by
  rw [UInt8.toNat_ofNat']
  omega

private theorem step_continuation (ht : t < 64) (hlow : p.low.toNat ≤ t + 128)
    (hhigh : t + 128 ≤ p.high.toNat) :
    step (some p) (UInt8.ofNat (t + 128)) =
      if p.owed ≤ 1 then ([.scalar (Char.ofNat (p.value * 64 + t))], none)
      else ([], some ⟨p.seen ++ [UInt8.ofNat (t + 128)], p.value * 64 + t, p.owed - 1,
        0x80, 0xBF⟩) := by
  have hb : p.low ≤ UInt8.ofNat (t + 128) ∧ UInt8.ofNat (t + 128) ≤ p.high := by
    rw [UInt8.le_iff_toNat_le, UInt8.le_iff_toNat_le, toNat_continuation ht]
    exact ⟨hlow, hhigh⟩
  have hvalue : (UInt8.ofNat (t + 128)).toNat - 0x80 = t := by
    rw [toNat_continuation ht]
    omega
  simp only [step, if_pos hb, hvalue]

private theorem piecesFrom_last (ht : t < 64) (hlow : p.low.toNat ≤ t + 128)
    (hhigh : t + 128 ≤ p.high.toNat) (ho : p.owed = 1) :
    piecesFrom (some p) (UInt8.ofNat (t + 128) :: rest) =
      .scalar (Char.ofNat (p.value * 64 + t)) :: piecesFrom none rest := by
  have hstep := step_continuation ht hlow hhigh
  rw [if_pos (Nat.le_of_eq ho)] at hstep
  rw [piecesFrom, hstep]
  rfl

private theorem piecesFrom_more (ht : t < 64) (hlow : p.low.toNat ≤ t + 128)
    (hhigh : t + 128 ≤ p.high.toNat) (ho : 1 < p.owed) :
    piecesFrom (some p) (UInt8.ofNat (t + 128) :: rest) =
      piecesFrom (some ⟨p.seen ++ [UInt8.ofNat (t + 128)], p.value * 64 + t, p.owed - 1,
        0x80, 0xBF⟩) rest := by
  have hstep := step_continuation ht hlow hhigh
  rw [if_neg (Nat.not_le.2 ho)] at hstep
  rw [piecesFrom, hstep]
  rfl

end Continuation

section Lengths

variable {v : Nat}

private theorem piecesFrom_one (hv : v < 0x80) :
    piecesFrom none (UInt8.ofNat v :: rest) = .scalar (Char.ofNat v) :: piecesFrom none rest := by
  rw [piecesFrom, step, start_ascii v hv]
  rfl

private theorem piecesFrom_two (hlow : 0x80 ≤ v) (hhigh : v < 0x800) :
    piecesFrom none (UInt8.ofNat (v / 64 % 32 + 192) :: UInt8.ofNat (v % 64 + 128) :: rest) =
      .scalar (Char.ofNat v) :: piecesFrom none rest := by
  have hvalue : v / 64 % 32 * 64 + v % 64 = v := by omega
  have hstart := start_two (v / 64 % 32) (by omega) (by omega)
  rw [piecesFrom_lead hstart, piecesFrom_last (by omega) (by simp) (by simp; omega) rfl, hvalue]

private theorem piecesFrom_three (hlow : 0x800 ≤ v) (hhigh : v < 0x10000)
    (hv : v < 0xD800 ∨ 0xDFFF < v) :
    piecesFrom none (UInt8.ofNat (v / 4096 % 16 + 224) :: UInt8.ofNat (v / 64 % 64 + 128) ::
        UInt8.ofNat (v % 64 + 128) :: rest) =
      .scalar (Char.ofNat v) :: piecesFrom none rest := by
  have hvalue : (v / 4096 % 16 * 64 + v / 64 % 64) * 64 + v % 64 = v := by omega
  have hstart := start_three (v / 4096 % 16) (by omega)
  rw [piecesFrom_lead hstart, piecesFrom_more (by omega) ?low ?high (by simp),
    piecesFrom_last (by omega) (by simp) (by simp; omega) rfl, hvalue]
  all_goals
    dsimp only
    split <;> simp <;> omega

private theorem piecesFrom_four (hlow : 0x10000 ≤ v) (hhigh : v < 0x110000) :
    piecesFrom none (UInt8.ofNat (v / 262144 % 8 + 240) :: UInt8.ofNat (v / 4096 % 64 + 128) ::
        UInt8.ofNat (v / 64 % 64 + 128) :: UInt8.ofNat (v % 64 + 128) :: rest) =
      .scalar (Char.ofNat v) :: piecesFrom none rest := by
  have hvalue :
      ((v / 262144 % 8 * 64 + v / 4096 % 64) * 64 + v / 64 % 64) * 64 + v % 64 = v := by omega
  have hstart := start_four (v / 262144 % 8) (by omega)
  rw [piecesFrom_lead hstart, piecesFrom_more (by omega) ?low ?high (by simp),
    piecesFrom_more (by omega) (by simp) (by simp; omega) (by simp),
    piecesFrom_last (by omega) (by simp) (by simp; omega) rfl, hvalue]
  all_goals
    dsimp only
    split <;> simp <;> omega

end Lengths

/-- One character is one piece, whatever follows. -/
theorem pieces_encodeChar_append (c : Char) (rest : List UInt8) :
    pieces (String.utf8EncodeChar c ++ rest) = .scalar c :: pieces rest := by
  have hvalid : c.val.toNat < 0xD800 ∨ 0xDFFF < c.val.toNat ∧ c.val.toNat < 0x110000 := c.valid
  have hchar : Char.ofNat c.val.toNat = c := Char.ofNat_toNat c
  unfold pieces String.utf8EncodeChar
  dsimp only
  split
  · rw [List.cons_append, List.nil_append, piecesFrom_one (by omega), hchar]
  · split
    · rw [List.cons_append, List.cons_append, List.nil_append,
        piecesFrom_two (by omega) (by omega), hchar]
    · split
      · rw [List.cons_append, List.cons_append, List.cons_append, List.nil_append,
          piecesFrom_three (by omega) (by omega) (by omega), hchar]
      · rw [List.cons_append, List.cons_append, List.cons_append, List.cons_append,
          List.nil_append, piecesFrom_four (by omega) (by omega), hchar]

theorem pieces_encode (s : String) : pieces (encode s) = s.toList.map .scalar := by
  unfold encode
  induction s.toList with
  | nil => rfl
  | cons c cs ih => rw [List.flatMap_cons, pieces_encodeChar_append, ih, List.map_cons]

@[simp] theorem lossy_encode (s : String) : lossy (encode s) = s := by
  have hshown : Piece.shown ∘ Piece.scalar = id := rfl
  rw [lossy, pieces_encode, List.map_map, hshown, List.map_id, String.ofList_toList]

private theorem zero_ne_ofNat {k : Nat} (hpos : 0 < k) (hlt : k < 256) : 0 ≠ UInt8.ofNat k := by
  intro h
  have hvalue : 0 = k % 256 := congrArg UInt8.toNat h
  omega

private theorem zero_mem_encodeChar {c : Char} (h : (0 : UInt8) ∈ String.utf8EncodeChar c) :
    c = '\x00' := by
  have hvalid : c.val.toNat < 0xD800 ∨ 0xDFFF < c.val.toNat ∧ c.val.toNat < 0x110000 := c.valid
  have hzero : c.val.toNat = 0 := by
    apply Nat.eq_zero_of_not_pos
    intro hpos
    -- any other scalar value has a bit set in each of its bytes
    have hno : (0 : UInt8) ∉ String.utf8EncodeChar c := by
      unfold String.utf8EncodeChar
      dsimp only
      repeat' split
      all_goals
        simp (disch := omega) only [List.mem_cons, List.not_mem_nil, zero_ne_ofNat, or_self,
          not_false_eq_true]
    exact hno h
  exact Char.ext (UInt32.toNat_inj.1 hzero)

/-- The only character with a zero byte is the zero character. -/
theorem zero_mem_encode {s : String} : (0 : UInt8) ∈ encode s ↔ '\x00' ∈ s.toList := by
  unfold encode
  constructor
  · intro h
    obtain ⟨c, hc, hzero⟩ := List.mem_flatMap.1 h
    rwa [← zero_mem_encodeChar hzero]
  · intro h
    exact List.mem_flatMap.2 ⟨'\x00', h, by decide⟩

end Text.Utf8

namespace CText

theorem ofString?_eq_some_iff {s : String} {t : CText} :
    ofString? s = some t ↔ Text.Utf8.encode s = t.bytes :=
  ofBytes?_eq_some_iff

theorem exists_of_no_nul {s : String} (h : '\x00' ∉ s.toList) : ∃ t, ofString? s = some t := by
  have hbytes : (0 : UInt8) ∉ Text.Utf8.encode s := fun hm => h (Text.Utf8.zero_mem_encode.1 hm)
  exact ⟨⟨Text.Utf8.encode s, hbytes⟩, ofString?_eq_some_iff.2 rfl⟩

/-- What crosses the boundary as a text is read as that text. -/
theorem text_of_ofString? {s : String} {t : CText} (h : ofString? s = some t) : t.text = s := by
  rw [text, ← ofString?_eq_some_iff.1 h, Text.Utf8.lossy_encode]

end CText

end EmbeddedC
