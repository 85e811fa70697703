import Interview.Text.Utf8

/-!
# Reading UTF-8 back

The bytes that spell a text are read as that text (`Utf8.decode?_encode`). A character is spelled in
one of four forms, of one to four bytes; each form is read on its own, with any bytes after it, and
the number that it carries is large enough for it.
-/

namespace Interview.Text.Utf8

variable {n w x y z : Nat} {c : Char} {least : Nat}

/-! ## Forms of one to four bytes -/

/-- Below 128 a character is spelled by its number. -/
theorem utf8EncodeChar_of_lt (h : c.toNat < 0x80) :
    String.utf8EncodeChar c = [UInt8.ofNat c.toNat] :=
  if_pos (Nat.le_of_lt_succ h)

/-- No byte of a longer form is below 128. -/
theorem le_of_mem_utf8EncodeChar (h : 0x80 ≤ c.toNat) {byte : UInt8}
    (hbyte : byte ∈ String.utf8EncodeChar c) : 0x80 ≤ byte.toNat := by
  have hval : c.val.toNat = c.toNat := rfl
  have hlarge {n : Nat} (hn : 0x80 ≤ n) (hn' : n < 256) : 0x80 ≤ (UInt8.ofNat n).toNat := by
    rwa [UInt8.toNat_ofNat_of_lt' hn']
  unfold String.utf8EncodeChar at hbyte
  simp only [hval] at hbyte
  rw [if_neg (by omega)] at hbyte
  split at hbyte
  · simp only [List.mem_cons, List.not_mem_nil, or_false] at hbyte
    rcases hbyte with rfl | rfl <;> exact hlarge (by omega) (by omega)
  · split at hbyte
    · simp only [List.mem_cons, List.not_mem_nil, or_false] at hbyte
      rcases hbyte with rfl | rfl | rfl <;> exact hlarge (by omega) (by omega)
    · simp only [List.mem_cons, List.not_mem_nil, or_false] at hbyte
      rcases hbyte with rfl | rfl | rfl | rfl <;> exact hlarge (by omega) (by omega)

theorem continuation?_ofNat (h : n < 0x40) : continuation? (UInt8.ofNat (n + 0x80)) = some n := by
  unfold continuation?
  rw [UInt8.toNat_ofNat_of_lt' (show n + 0x80 < 256 by omega), if_pos (by omega),
    Nat.add_sub_cancel]

theorem decode?_one (hx : x < 0x80) (rest : List UInt8) :
    decode? (UInt8.ofNat x :: rest) =
      (character? 0 x).bind fun c => (decode? rest).map (c :: ·) := by
  rw [decode?.eq_def]
  simp only [UInt8.toNat_ofNat_of_lt' (show x < 256 by omega)]
  rw [if_pos hx]
  simp only [Option.pure_def, Option.bind_eq_bind, Option.map_eq_bind]
  rfl

theorem decode?_two (hx : x < 0x20) (hy : y < 0x40) (rest : List UInt8) :
    decode? (UInt8.ofNat (x + 0xc0) :: UInt8.ofNat (y + 0x80) :: rest) =
      (character? 0x80 (x * 0x40 + y)).bind fun c => (decode? rest).map (c :: ·) := by
  rw [decode?.eq_def]
  simp only [UInt8.toNat_ofNat_of_lt' (show x + 0xc0 < 256 by omega), continuation?_ofNat hy,
    Nat.add_sub_cancel]
  rw [if_neg (by omega), if_neg (by omega), if_pos (by omega)]
  simp only [Option.pure_def, Option.bind_eq_bind, Option.bind_some, Option.map_eq_bind]
  rfl

theorem decode?_three (hx : x < 0x10) (hy : y < 0x40) (hz : z < 0x40) (rest : List UInt8) :
    decode? (UInt8.ofNat (x + 0xe0) :: UInt8.ofNat (y + 0x80) :: UInt8.ofNat (z + 0x80) :: rest) =
      (character? 0x800 ((x * 0x40 + y) * 0x40 + z)).bind fun c => (decode? rest).map (c :: ·) := by
  rw [decode?.eq_def]
  simp only [UInt8.toNat_ofNat_of_lt' (show x + 0xe0 < 256 by omega), continuation?_ofNat hy,
    continuation?_ofNat hz, Nat.add_sub_cancel]
  rw [if_neg (by omega), if_neg (by omega), if_neg (by omega), if_pos (by omega)]
  simp only [Option.pure_def, Option.bind_eq_bind, Option.bind_some, Option.map_eq_bind]
  rfl

theorem decode?_four (hw : w < 8) (hx : x < 0x40) (hy : y < 0x40) (hz : z < 0x40)
    (rest : List UInt8) :
    decode? (UInt8.ofNat (w + 0xf0) :: UInt8.ofNat (x + 0x80) :: UInt8.ofNat (y + 0x80) ::
        UInt8.ofNat (z + 0x80) :: rest) =
      (character? 0x10000 (((w * 0x40 + x) * 0x40 + y) * 0x40 + z)).bind
        fun c => (decode? rest).map (c :: ·) := by
  rw [decode?.eq_def]
  simp only [UInt8.toNat_ofNat_of_lt' (show w + 0xf0 < 256 by omega), continuation?_ofNat hx,
    continuation?_ofNat hy, continuation?_ofNat hz, Nat.add_sub_cancel]
  rw [if_neg (by omega), if_neg (by omega), if_neg (by omega), if_neg (by omega)]
  simp only [Option.pure_def, Option.bind_eq_bind, Option.bind_some, Option.map_eq_bind]
  rfl

/-- A number that is large enough for its form gives its character back. -/
theorem character?_of_eq (hcode : n = c.toNat) (h : least ≤ c.toNat) :
    character? least n = some c := by
  subst hcode
  unfold character?
  rw [dif_pos ⟨h, c.valid⟩]
  exact congrArg some (Char.ext rfl)

/-- The form of a character is read as the character, whatever follows it. -/
theorem decode?_utf8EncodeChar (c : Char) (rest : List UInt8) :
    decode? (String.utf8EncodeChar c ++ rest) = (decode? rest).map (c :: ·) := by
  have hlast : c.toNat < 0x110000 := by
    rcases c.valid with h | h
    · exact Nat.lt_trans h (by decide)
    · exact h.2
  have hval : c.val.toNat = c.toNat := rfl
  unfold String.utf8EncodeChar
  simp only [hval]
  -- the number falls into one of four ranges, each with a form of its own
  by_cases hone : c.toNat ≤ 0x7f
  · have hchar : character? 0 c.toNat = some c := character?_of_eq rfl (Nat.zero_le _)
    rw [if_pos hone, List.singleton_append, decode?_one (by omega), hchar, Option.bind_some]
  rw [if_neg hone]
  by_cases htwo : c.toNat ≤ 0x7ff
  · have hchar : character? 0x80 (c.toNat / 64 % 32 * 0x40 + c.toNat % 64) = some c :=
      character?_of_eq (by omega) (by omega)
    rw [if_pos htwo, List.cons_append, List.singleton_append,
      decode?_two (by omega) (by omega), hchar, Option.bind_some]
  rw [if_neg htwo]
  by_cases hthree : c.toNat ≤ 0xffff
  · have hchar : character? 0x800
        ((c.toNat / 4096 % 16 * 0x40 + c.toNat / 64 % 64) * 0x40 + c.toNat % 64) = some c :=
      character?_of_eq (by omega) (by omega)
    rw [if_pos hthree, List.cons_append, List.cons_append, List.singleton_append,
      decode?_three (by omega) (by omega) (by omega), hchar, Option.bind_some]
  · have hchar : character? 0x10000
        (((c.toNat / 262144 % 8 * 0x40 + c.toNat / 4096 % 64) * 0x40 + c.toNat / 64 % 64) * 0x40 +
          c.toNat % 64) = some c :=
      character?_of_eq (by omega) (by omega)
    rw [if_neg hthree, List.cons_append, List.cons_append, List.cons_append,
      List.singleton_append, decode?_four (by omega) (by omega) (by omega) (by omega), hchar,
      Option.bind_some]

/-- **The bytes that spell a text are read as the text.** -/
theorem decode?_encode (s : String) : decode? (encode s) = some s.toList := by
  have hchars (cs : List Char) : decode? (cs.flatMap String.utf8EncodeChar) = some cs := by
    induction cs with
    | nil => rfl
    | cons c cs ih => rw [List.flatMap_cons, decode?_utf8EncodeChar, ih, Option.map_some]
  exact hchars s.toList

end Interview.Text.Utf8
