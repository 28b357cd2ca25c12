/-
Reading bytes as text.

A piece of a byte string is settled by the bytes it takes, and no piece takes a byte of the basic
alphabet but as a character of its own.  So such a byte cuts the pieces in two, whatever stands in
front of it: `pieces_append`.  A sequence that is only begun there is a malformed piece, as it is at
the end of all bytes.

What `encode` writes for a character is one piece, and the piece is that character, `pieces_encode`;
so every text is read back from its bytes, `decodeLossy_encode`.
-/
import LintHost.Text.Utf8
import Mathlib.Tactic.SplitIfs

namespace LintHost.Text.Utf8

variable {ranges more : List (Nat × Nat)} {n lo hi : Nat} {b x : UInt8} {bs front back : List UInt8}

/-! ### First bytes

`lead` tells a first byte by one comparison after the other; here each kind of first byte is put
into one equation.
-/

theorem lead_one {k : Nat} (h : k ≤ 0x7F) : lead k = some ([], k) := by
  rw [lead, if_pos h]

theorem lead_two {k : Nat} (h : 0xC2 ≤ k ∧ k ≤ 0xDF) :
    lead k = some ([(0x80, 0xBF)], k - 0xC0) := by
  rw [lead, if_neg (by omega), if_pos (by simp [h])]

theorem lead_three {k : Nat} (h : 0xE0 ≤ k ∧ k ≤ 0xEF) :
    lead k = some ([(if k = 0xE0 then 0xA0 else 0x80, if k = 0xED then 0x9F else 0xBF),
      (0x80, 0xBF)], k - 0xE0) := by
  rw [lead, if_neg (by omega), if_neg (by simp; omega)]
  by_cases hlow : k = 0xE0
  · simp [hlow]
  · by_cases hhigh : k = 0xED
    · simp [hhigh]
    · simp [hlow, hhigh]
      omega

theorem lead_four {k : Nat} (h : 0xF0 ≤ k ∧ k ≤ 0xF4) :
    lead k = some ([(if k = 0xF0 then 0x90 else 0x80, if k = 0xF4 then 0x8F else 0xBF),
      (0x80, 0xBF), (0x80, 0xBF)], k - 0xF0) := by
  rw [lead, if_neg (by omega), if_neg (by simp; omega), if_neg (by simp; omega),
    if_neg (by simp; omega), if_neg (by simp; omega)]
  by_cases hlow : k = 0xF0
  · simp [hlow]
  · by_cases hhigh : k = 0xF4
    · simp [hhigh]
    · simp [hlow, hhigh]
      omega

/-- No byte of the basic alphabet is asked for behind a first byte. -/
theorem le_of_lead {k : Nat} (h : lead k = some (ranges, n)) : ∀ r ∈ ranges, 0x80 ≤ r.1 := by
  unfold lead at h
  split_ifs at h <;> cases h <;> decide

/-! ### Bytes of the basic alphabet -/

/-- A byte of the basic alphabet ends what has to follow a first byte. -/
theorem follow_append (hranges : ∀ r ∈ ranges, 0x80 ≤ r.1) (hx : x.toNat < 0x80) :
    follow ranges n (front ++ x :: back) =
      ((follow ranges n front).1, (follow ranges n front).2 ++ x :: back) := by
  fun_induction follow ranges n front with
  | case1 n front => rfl
  | case2 r more n =>
    obtain ⟨lo, hi⟩ := r
    have hlo : 0x80 ≤ lo := hranges (lo, hi) (by simp)
    rw [List.nil_append, follow, if_neg (by simp; omega)]
  | case3 lo hi more n b bs hb ih =>
    rw [List.cons_append, follow, if_pos hb]
    exact ih fun r hr => hranges r (by simp [hr])
  | case4 lo hi more n b bs hb => rw [List.cons_append, follow, if_neg hb]

theorem piece_append (hx : x.toNat < 0x80) :
    piece b (front ++ x :: back) = ((piece b front).1, (piece b front).2 ++ x :: back) := by
  unfold piece
  cases hlead : lead b.toNat with
  | none => rfl
  | some found => exact follow_append (le_of_lead hlead) hx

theorem pieces_cons_basic (hx : x.toNat < 0x80) :
    pieces (x :: back) = some (Char.ofNat x.toNat) :: pieces back := by
  have hpiece : piece x back = (some (Char.ofNat x.toNat), back) := by
    unfold piece
    rw [lead_one (by omega)]
    rfl
  rw [pieces, hpiece]

/-- **A byte of the basic alphabet is a piece, and what is in front of it is cut as if nothing came
behind.** -/
theorem pieces_append (hx : x.toNat < 0x80) :
    pieces (front ++ x :: back) =
      pieces front ++ some (Char.ofNat x.toNat) :: pieces back := by
  fun_induction pieces front with
  | case1 => exact pieces_cons_basic hx
  | case2 b front ih => rw [List.cons_append, pieces, piece_append hx, ih, List.cons_append]

theorem decodeLossy_append (hx : x.toNat < 0x80) :
    decodeLossy (front ++ x :: back) =
      decodeLossy front ++ Char.ofNat x.toNat :: decodeLossy back := by
  rw [decodeLossy, pieces_append hx, List.map_append]
  rfl

theorem toNat_ofNat_basic {k : Nat} (h : k < 0x80) : (Char.ofNat k).toNat = k := by
  have hvalid : k.isValidChar := Or.inl (by omega)
  rw [Char.ofNat, dif_pos hvalid]
  rfl

/-- The character of a byte of the basic alphabet tells the byte. -/
theorem ofNat_byte_ne {y : UInt8} (hx : x.toNat < 0x80) (hy : y.toNat < 0x80) (hne : x ≠ y) :
    Char.ofNat x.toNat ≠ Char.ofNat y.toNat := by
  intro h
  have hnat : x.toNat = y.toNat := by
    rw [← toNat_ofNat_basic hx, h, toNat_ofNat_basic hy]
  exact hne (UInt8.toNat_inj.mp hnat)

/-! ### Characters -/

theorem toNat_ofNat {k : Nat} (h : k < 0x100) : (UInt8.ofNat k).toNat = k := by
  rw [UInt8.toNat_ofNat']
  exact Nat.mod_eq_of_lt h

/-- The next byte is one of those that may follow. -/
theorem follow_cons {k : Nat} (hlo : lo ≤ k) (hhi : k ≤ hi) (hk : k < 0x100) :
    follow ((lo, hi) :: more) n (UInt8.ofNat k :: bs) = follow more (n * 64 + (k - 0x80)) bs := by
  rw [follow, toNat_ofNat hk, if_pos (by simp [hlo, hhi])]

theorem piece_of_lead {k : Nat} (hk : k < 0x100) (h : lead k = some (ranges, n)) :
    piece (UInt8.ofNat k) bs = follow ranges n bs := by
  unfold piece
  rw [toNat_ofNat hk, h]

variable {c : Char}

/-- A character of two bytes: its code is put together again from its parts. -/
theorem piece_two (h : 0x80 ≤ c.toNat ∧ c.toNat ≤ 0x7FF) :
    piece (UInt8.ofNat (c.toNat / 64 % 32 + 192)) (UInt8.ofNat (c.toNat % 64 + 128) :: bs) =
      (some c, bs) := by
  rw [piece_of_lead (by omega) (lead_two (by omega)),
    follow_cons (by omega) (by omega) (by omega), follow]
  have hcode : (c.toNat / 64 % 32 + 192 - 0xC0) * 64 + (c.toNat % 64 + 128 - 0x80) = c.toNat := by
    omega
  rw [hcode, Char.ofNat_toNat]

/-- A character of three bytes, which is none of the halves. -/
theorem piece_three (h : 0x800 ≤ c.toNat ∧ c.toNat ≤ 0xFFFF) :
    piece (UInt8.ofNat (c.toNat / 4096 % 16 + 224)) (UInt8.ofNat (c.toNat / 64 % 64 + 128) ::
      UInt8.ofNat (c.toNat % 64 + 128) :: bs) = (some c, bs) := by
  have hvalid : c.toNat < 0xD800 ∨ 0xDFFF < c.toNat ∧ c.toNat < 0x110000 := c.valid
  rw [piece_of_lead (by omega) (lead_three (by omega)),
    follow_cons (by split_ifs <;> omega) (by split_ifs <;> omega) (by omega),
    follow_cons (by omega) (by omega) (by omega), follow]
  have hcode : ((c.toNat / 4096 % 16 + 224 - 0xE0) * 64 + (c.toNat / 64 % 64 + 128 - 0x80)) * 64 +
      (c.toNat % 64 + 128 - 0x80) = c.toNat := by omega
  rw [hcode, Char.ofNat_toNat]

/-- A character of four bytes, up to the last one there is. -/
theorem piece_four (h : 0x10000 ≤ c.toNat) :
    piece (UInt8.ofNat (c.toNat / 262144 % 8 + 240)) (UInt8.ofNat (c.toNat / 4096 % 64 + 128) ::
      UInt8.ofNat (c.toNat / 64 % 64 + 128) :: UInt8.ofNat (c.toNat % 64 + 128) :: bs) =
        (some c, bs) := by
  have hvalid : c.toNat < 0xD800 ∨ 0xDFFF < c.toNat ∧ c.toNat < 0x110000 := c.valid
  rw [piece_of_lead (by omega) (lead_four (by omega)),
    follow_cons (by split_ifs <;> omega) (by split_ifs <;> omega) (by omega),
    follow_cons (by omega) (by omega) (by omega),
    follow_cons (by omega) (by omega) (by omega), follow]
  have hcode : (((c.toNat / 262144 % 8 + 240 - 0xF0) * 64 + (c.toNat / 4096 % 64 + 128 - 0x80)) *
      64 + (c.toNat / 64 % 64 + 128 - 0x80)) * 64 + (c.toNat % 64 + 128 - 0x80) = c.toNat := by
    omega
  rw [hcode, Char.ofNat_toNat]

/-- **The bytes of a character are one piece, the character.** -/
theorem pieces_encodeChar (c : Char) (rest : List UInt8) :
    pieces (String.utf8EncodeChar c ++ rest) = some c :: pieces rest := by
  have hcode : c.val.toNat = c.toNat := rfl
  unfold String.utf8EncodeChar
  simp only [hcode]
  split_ifs with hone htwo hthree
  · have hbyte : (UInt8.ofNat c.toNat).toNat = c.toNat := toNat_ofNat (by omega)
    rw [List.singleton_append, pieces_cons_basic (by omega), hbyte, Char.ofNat_toNat]
  · rw [List.cons_append, List.singleton_append, pieces, piece_two (by omega)]
  · rw [List.cons_append, List.cons_append, List.singleton_append, pieces, piece_three (by omega)]
  · rw [List.cons_append, List.cons_append, List.cons_append, List.singleton_append, pieces,
      piece_four (by omega)]

theorem pieces_encode (s : List Char) : pieces (encode s) = s.map some := by
  induction s with
  | nil => rw [encode, List.flatMap_nil, pieces, List.map_nil]
  | cons c s ih => rw [encode, List.flatMap_cons, pieces_encodeChar, ← encode, ih, List.map_cons]

/-- **Every text is read back from its bytes.** -/
theorem decodeLossy_encode (s : List Char) : decodeLossy (encode s) = s := by
  rw [decodeLossy, pieces_encode, List.map_map]
  exact List.map_id s

end LintHost.Text.Utf8
