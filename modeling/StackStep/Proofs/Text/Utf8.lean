import StackStep.Text.Utf8

/-!
Cutting text into pieces. A character is found from its own bytes and does not
depend on what follows, so the bytes of valid text are cut in the same places
wherever they stand, and valid texts put one after another are a valid text.

The cuts lose nothing. What is found as a character are the bytes that this character
is written as, so the pieces put together again are the bytes they were cut from, and
a character that has been written is found again.
-/

namespace StackStep.Utf8

/-! ### One character at a time

The definition looks at all bytes up to the fourth at once. These are its
cases without regard to how many bytes there are. -/

theorem pieces_one {a : UInt8} (h : a < 0x80) (rest : Bytes) :
    pieces (a :: rest) = .char (Char.ofNat a.toNat) :: pieces rest := by
  rw [pieces.eq_def]
  exact if_pos h

theorem pieces_two {a b : UInt8} {x : Char} (ha : ¬a < 0x80) (h : two? a b = some x)
    (rest : Bytes) : pieces (a :: b :: rest) = .char x :: pieces rest := by
  match rest with
  | [] => simp [pieces, ha, h]
  | [c] => rw [pieces, if_neg ha]; simp only [h]
  | c :: d :: tail => rw [pieces, if_neg ha]; simp only [h]

theorem pieces_three {a b c : UInt8} {x : Char} (ha : ¬a < 0x80) (h₂ : two? a b = none)
    (h : three? a b c = some x) (rest : Bytes) :
    pieces (a :: b :: c :: rest) = .char x :: pieces rest := by
  match rest with
  | [] => simp [pieces, ha, h₂, h]
  | d :: tail => rw [pieces, if_neg ha]; simp only [h₂, h]

theorem pieces_four {a b c d : UInt8} {x : Char} (ha : ¬a < 0x80) (h₂ : two? a b = none)
    (h₃ : three? a b c = none) (h : four? a b c d = some x) (rest : Bytes) :
    pieces (a :: b :: c :: d :: rest) = .char x :: pieces rest := by
  rw [pieces, if_neg ha]
  simp only [h₂, h₃, h]

theorem pieces_append {s : Bytes} (h : valid s) (t : Bytes) :
    pieces (s ++ t) = pieces s ++ pieces t := by
  unfold valid at h
  fun_induction pieces s with
  | case1 => rfl
  | case2 a rest ha ih => simp_all [pieces_one ha]
  | case3 a ha b c d tail x h₂ ih => simp_all [pieces_two ha h₂]
  | case4 a ha b c d tail x h₃ h₂ ih => simp_all [pieces_three ha h₂ h₃]
  | case5 a ha b c d tail x h₄ h₃ h₂ ih => simp_all [pieces_four ha h₂ h₃ h₄]
  | case7 a ha b c x h₂ ih => simp_all [pieces_two ha h₂]
  | case8 a ha b c x h₃ h₂ => simp_all [pieces_three ha h₂ h₃]
  | case10 a ha b x h₂ => simp_all [pieces_two ha h₂]
  | case6 | case9 | case11 | case12 => simp at h

theorem count_append {s : Bytes} (hs : valid s) (t : Bytes) :
    count (s ++ t) = count s + count t := by
  rw [count, pieces_append hs, List.length_append, count, count]

theorem valid_append {s t : Bytes} (hs : valid s) (ht : valid t) : valid (s ++ t) := by
  unfold valid at ht ⊢
  rw [pieces_append hs, List.all_append, ht, Bool.and_true]
  exact hs

theorem valid_flatten {ts : List Bytes} (h : ∀ t ∈ ts, valid t) : valid ts.flatten := by
  induction ts with
  | nil => rfl
  | cons t ts ih =>
      have ht := h t List.mem_cons_self
      have hts := ih fun u hu => h u (List.mem_cons_of_mem t hu)
      exact valid_append ht hts

/-! ### Characters and their bytes

The decoders check the bytes and the value they make of them, and the encoder is
given by the value. Both are put in terms of numbers here, so that the rest is
arithmetic. -/

theorem toNat_ofNat_of_valid {n : Nat} (h : n.isValidChar) : (Char.ofNat n).toNat = n := by
  rw [Char.ofNat, dif_pos h]
  rfl

theorem toNat_ofNat_ascii {b : UInt8} (h : b < 0x80) :
    (Char.ofNat b.toNat).toNat = b.toNat := by
  have hlt : b.toNat < 128 := UInt8.lt_iff_toNat_lt.mp h
  exact toNat_ofNat_of_valid (.inl (by omega))

theorem scalar?_eq_some_iff {least n : Nat} {x : Char} :
    scalar? least n = some x ↔ least ≤ n ∧ x.toNat = n := by
  unfold scalar?
  constructor
  · intro h
    split at h
    · next hn =>
        cases h
        exact ⟨hn.1, toNat_ofNat_of_valid hn.2⟩
    · cases h
  · rintro ⟨hleast, rfl⟩
    rw [if_pos ⟨hleast, x.valid⟩, Char.ofNat_toNat]

theorem isContinuation_iff {b : UInt8} :
    isContinuation b ↔ 0x80 ≤ b.toNat ∧ b.toNat ≤ 0xBF := by
  simp [isContinuation, UInt8.le_iff_toNat_le]

theorem two?_eq_some_iff {a b : UInt8} {x : Char} :
    two? a b = some x ↔
      (0xC0 ≤ a.toNat ∧ a.toNat ≤ 0xDF) ∧ (0x80 ≤ b.toNat ∧ b.toNat ≤ 0xBF) ∧
        0x80 ≤ x.toNat ∧ x.toNat = a.toNat % 32 * 64 + b.toNat % 64 := by
  simp only [two?, Option.ite_none_right_eq_some, scalar?_eq_some_iff, payload,
    Bool.and_eq_true, isContinuation_iff, decide_eq_true_eq, UInt8.le_iff_toNat_le,
    UInt8.reduceToNat]
  omega

theorem three?_eq_some_iff {a b c : UInt8} {x : Char} :
    three? a b c = some x ↔
      (0xE0 ≤ a.toNat ∧ a.toNat ≤ 0xEF) ∧ (0x80 ≤ b.toNat ∧ b.toNat ≤ 0xBF) ∧
        (0x80 ≤ c.toNat ∧ c.toNat ≤ 0xBF) ∧ 0x800 ≤ x.toNat ∧
        x.toNat = (a.toNat % 16 * 64 + b.toNat % 64) * 64 + c.toNat % 64 := by
  simp only [three?, Option.ite_none_right_eq_some, scalar?_eq_some_iff, payload,
    Bool.and_eq_true, isContinuation_iff, decide_eq_true_eq, UInt8.le_iff_toNat_le,
    UInt8.reduceToNat]
  omega

theorem four?_eq_some_iff {a b c d : UInt8} {x : Char} :
    four? a b c d = some x ↔
      (0xF0 ≤ a.toNat ∧ a.toNat ≤ 0xF7) ∧ (0x80 ≤ b.toNat ∧ b.toNat ≤ 0xBF) ∧
        (0x80 ≤ c.toNat ∧ c.toNat ≤ 0xBF) ∧ (0x80 ≤ d.toNat ∧ d.toNat ≤ 0xBF) ∧
        0x10000 ≤ x.toNat ∧
        x.toNat =
          ((a.toNat % 8 * 64 + b.toNat % 64) * 64 + c.toNat % 64) * 64 + d.toNat % 64 := by
  simp only [four?, Option.ite_none_right_eq_some, scalar?_eq_some_iff, payload,
    Bool.and_eq_true, isContinuation_iff, decide_eq_true_eq, UInt8.le_iff_toNat_le,
    UInt8.reduceToNat]
  omega

theorem encode_eq (c : Char) :
    encode c =
      if c.toNat < 0x80 then [UInt8.ofNat c.toNat]
      else if c.toNat < 0x800 then
        [UInt8.ofNat (c.toNat / 64 % 32 + 0xC0), UInt8.ofNat (c.toNat % 64 + 0x80)]
      else if c.toNat < 0x10000 then
        [UInt8.ofNat (c.toNat / 4096 % 16 + 0xE0), UInt8.ofNat (c.toNat / 64 % 64 + 0x80),
          UInt8.ofNat (c.toNat % 64 + 0x80)]
      else
        [UInt8.ofNat (c.toNat / 262144 % 8 + 0xF0), UInt8.ofNat (c.toNat / 4096 % 64 + 0x80),
          UInt8.ofNat (c.toNat / 64 % 64 + 0x80), UInt8.ofNat (c.toNat % 64 + 0x80)] := by
  simp only [encode, String.utf8EncodeChar, Nat.lt_succ_iff]
  rfl

theorem encode_ascii {b : UInt8} (h : b < 0x80) : encode (Char.ofNat b.toNat) = [b] := by
  have hlt : b.toNat < 0x80 := UInt8.lt_iff_toNat_lt.mp h
  rw [encode_eq, toNat_ofNat_ascii h, if_pos hlt, UInt8.ofNat_toNat]

theorem encode_of_two? {a b : UInt8} {x : Char} (h : two? a b = some x) :
    encode x = [a, b] := by
  have hx := two?_eq_some_iff.mp h
  rw [encode_eq, if_neg (by omega), if_pos (by omega)]
  simp only [List.cons.injEq, and_true, ← UInt8.toNat_inj, UInt8.toNat_ofNat']
  omega

theorem encode_of_three? {a b c : UInt8} {x : Char} (h : three? a b c = some x) :
    encode x = [a, b, c] := by
  have hx := three?_eq_some_iff.mp h
  rw [encode_eq, if_neg (by omega), if_neg (by omega), if_pos (by omega)]
  simp only [List.cons.injEq, and_true, ← UInt8.toNat_inj, UInt8.toNat_ofNat']
  omega

theorem encode_of_four? {a b c d : UInt8} {x : Char} (h : four? a b c d = some x) :
    encode x = [a, b, c, d] := by
  have hx := four?_eq_some_iff.mp h
  rw [encode_eq, if_neg (by omega), if_neg (by omega), if_neg (by omega)]
  simp only [List.cons.injEq, and_true, ← UInt8.toNat_inj, UInt8.toNat_ofNat']
  omega

/-- The pieces put together again are the bytes they were cut from. -/
theorem ofPieces_pieces (bs : Bytes) : ofPieces (pieces bs) = bs := by
  unfold ofPieces
  fun_induction pieces bs with
  | case1 => rfl
  | case2 a rest ha ih => simp [encode_ascii ha, ih]
  | case3 a ha b c d tail x h₂ ih => simp [encode_of_two? h₂, ih]
  | case4 a ha b c d tail x h₃ h₂ ih => simp [encode_of_three? h₃, ih]
  | case5 a ha b c d tail x h₄ h₃ h₂ ih => simp [encode_of_four? h₄, ih]
  | case7 a ha b c x h₂ ih => simp [encode_of_two? h₂, ih]
  | case8 a ha b c x h₃ h₂ => simp [encode_of_three? h₃]
  | case10 a ha b x h₂ => simp [encode_of_two? h₂]
  | case6 | case9 | case11 => simp_all
  | case12 => rfl

/-- A byte at which no character begins is beyond ASCII. -/
theorem le_of_stray_mem {bs : Bytes} {b : UInt8} (h : .stray b ∈ pieces bs) : 0x80 ≤ b := by
  fun_induction pieces bs with
  | case6 a ha | case9 a ha | case11 a ha | case12 a ha =>
      rcases List.mem_cons.mp h with h | h
      · cases h
        exact UInt8.not_lt.mp ha
      · simp_all
  | _ => simp_all

theorem not_lt_of_le {a : UInt8} (h : 0x80 ≤ a.toNat) : ¬a < 0x80 := by
  rw [UInt8.lt_iff_toNat_lt]
  exact Nat.not_lt.mpr h

/-- The first byte tells how many there are, so at most one decoder finds anything. -/
theorem two?_of_le {a b : UInt8} (h : 0xE0 ≤ a.toNat) : two? a b = none := by
  refine Option.eq_none_iff_forall_ne_some.mpr fun x hx => ?_
  have hlead := (two?_eq_some_iff.mp hx).1
  omega

theorem three?_of_le {a b c : UInt8} (h : 0xF0 ≤ a.toNat) : three? a b c = none := by
  refine Option.eq_none_iff_forall_ne_some.mpr fun x hx => ?_
  have hlead := (three?_eq_some_iff.mp hx).1
  omega

theorem toNat_lt (c : Char) : c.toNat < 0x110000 := by
  rcases c.valid with h | h
  · exact Nat.lt_trans h (by decide)
  · exact h.2

/-- A character is found at the head of any bytes that begin with its own. -/
theorem pieces_encode_append (c : Char) (rest : Bytes) :
    pieces (encode c ++ rest) = .char c :: pieces rest := by
  have hmax := toNat_lt c
  rw [encode_eq]
  split
  · next hone =>
      have hnat : (UInt8.ofNat c.toNat).toNat = c.toNat := by
        rw [UInt8.toNat_ofNat']
        omega
      have hascii : UInt8.ofNat c.toNat < 0x80 := by
        rw [UInt8.lt_iff_toNat_lt, hnat]
        exact hone
      rw [List.singleton_append, pieces_one hascii, hnat, Char.ofNat_toNat]
  · split
    · refine pieces_two (not_lt_of_le ?_) ?_ rest
      · rw [UInt8.toNat_ofNat']
        omega
      · simp only [two?_eq_some_iff, UInt8.toNat_ofNat']
        omega
    · split
      · refine pieces_three (not_lt_of_le ?_) (two?_of_le ?_) ?_ rest
        · rw [UInt8.toNat_ofNat']
          omega
        · rw [UInt8.toNat_ofNat']
          omega
        · simp only [three?_eq_some_iff, UInt8.toNat_ofNat']
          omega
      · refine pieces_four (not_lt_of_le ?_) (two?_of_le ?_) (three?_of_le ?_) ?_ rest
        · rw [UInt8.toNat_ofNat']
          omega
        · rw [UInt8.toNat_ofNat']
          omega
        · rw [UInt8.toNat_ofNat']
          omega
        · simp only [four?_eq_some_iff, UInt8.toNat_ofNat']
          omega

theorem pieces_ascii {bs : Bytes} (h : ∀ b ∈ bs, b < 0x80) :
    pieces bs = bs.map fun b => .char (Char.ofNat b.toNat) := by
  induction bs with
  | nil => rfl
  | cons b bs ih =>
      rw [pieces_one (h b List.mem_cons_self), ih fun c hc => h c (List.mem_cons_of_mem b hc),
        List.map_cons]

theorem pieces_ofChars_append (cs : List Char) (rest : Bytes) :
    pieces (ofChars cs ++ rest) = cs.map .char ++ pieces rest := by
  induction cs with
  | nil => rfl
  | cons c cs ih =>
      have hcons : ofChars (c :: cs) ++ rest = encode c ++ (ofChars cs ++ rest) := by
        simp [ofChars]
      rw [hcons, pieces_encode_append, ih, List.map_cons, List.cons_append]

end StackStep.Utf8
