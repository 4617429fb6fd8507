import Mathlib.Algebra.Group.Nat.Defs
import StackStep.Proofs.Result
import StackStep.Proofs.Text.Utf8
import StackStep.Text.Numeral

/-!
Numbers read back from their decimal text.

A number is written without a plus sign, leading zeros or white space, so reading its
text meets none of the liberties of the grammar: nothing is trimmed, and the digits
are taken one after another. They are followed here from the last one, since a number
is written by its tenth part and one more digit.

A short text is read in words. It has so few digits that the numbers they stand for on
the way are not too large for a word, and so the two ways of reading do the same.
-/

namespace StackStep

namespace Bytes

theorem encode_digitChar {d : Nat} (h : d < 10) :
    String.utf8EncodeChar d.digitChar = [digit d] := by
  revert d
  decide

theorem ofNat_of_lt_ten {n : Nat} (h : n < 10) : ofNat n = [digit n] := by
  rw [ofNat, Nat.toDigits_of_lt_base h, List.flatMap_singleton, encode_digitChar h]

theorem ofNat_of_ten_le {n : Nat} (h : 10 ≤ n) :
    ofNat n = ofNat (n / 10) ++ [digit (n % 10)] := by
  rw [ofNat, Nat.toDigits_of_base_le (by decide) h, List.flatMap_append,
    List.flatMap_singleton, encode_digitChar (Nat.mod_lt n (by decide)), ofNat]

theorem digit_bounds {d : Nat} (h : d < 10) : 48 ≤ digit d ∧ digit d ≤ 57 := by
  revert d
  decide

theorem toNat_digit {d : Nat} (h : d < 10) : (digit d).toNat = 48 + d := by
  revert d
  decide

theorem ofNat_ne_nil (n : Nat) : ofNat n ≠ [] := by
  rcases Nat.lt_or_ge n 10 with h | h
  · simp [ofNat_of_lt_ten h]
  · simp [ofNat_of_ten_le h]

theorem bounds_of_mem_ofNat {n : Nat} {b : UInt8} (hb : b ∈ ofNat n) : 48 ≤ b ∧ b ≤ 57 := by
  induction n using Nat.strongRecOn with
  | _ n ih =>
      rcases Nat.lt_or_ge n 10 with h | h
      · rw [ofNat_of_lt_ten h, List.mem_singleton] at hb
        exact hb ▸ digit_bounds h
      · rw [ofNat_of_ten_le h, List.mem_append, List.mem_singleton] at hb
        rcases hb with hb | rfl
        · exact ih (n / 10) (by omega) hb
        · exact digit_bounds (Nat.mod_lt n (by decide))

theorem bounds_of_mem_ofInt {n : Int} {b : UInt8} (hb : b ∈ ofInt n) : 45 ≤ b ∧ b ≤ 57 := by
  cases n with
  | ofNat n =>
      have hdigit := bounds_of_mem_ofNat hb
      exact ⟨UInt8.le_trans (by decide) hdigit.1, hdigit.2⟩
  | negSucc n =>
      rcases List.mem_cons.mp hb with rfl | hb
      · decide
      · have hdigit := bounds_of_mem_ofNat hb
        exact ⟨UInt8.le_trans (by decide) hdigit.1, hdigit.2⟩

theorem graphic_of_mem_ofInt (n : Int) : ∀ b ∈ ofInt n, 33 ≤ b ∧ b < 0x80 := by
  intro b hb
  have hbounds := bounds_of_mem_ofInt hb
  exact ⟨UInt8.le_trans (by decide) hbounds.1, UInt8.lt_of_le_of_lt hbounds.2 (by decide)⟩

theorem graphic_of_mem_ofInt64 (n : Int64) : ∀ b ∈ ofInt64 n, 33 ≤ b ∧ b < 0x80 :=
  graphic_of_mem_ofInt n.toInt

end Bytes

/-! ### Nothing to trim -/

namespace Text

theorem isWhite_ascii {b : UInt8} (hlow : 33 ≤ b) (hhigh : b < 0x80) :
    isWhite (Char.ofNat b.toNat) = false := by
  have hlt : b.toNat < 128 := UInt8.lt_iff_toNat_lt.mp hhigh
  have hle : 33 ≤ b.toNat := UInt8.le_iff_toNat_le.mp hlow
  simp only [isWhite, Utf8.toNat_ofNat_ascii hhigh, Bool.or_eq_false_iff,
    Bool.and_eq_false_imp, decide_eq_true_eq, decide_eq_false_iff_not, Nat.not_le,
    beq_eq_false_iff_ne, ne_eq]
  omega

theorem trimBy_eq_self {α : Type} {p : α → Bool} {xs : List α} (h : ∀ x ∈ xs, ¬p x) :
    trimBy p xs = xs := by
  have hdrop (ys : List α) (hys : ∀ y ∈ ys, ¬p y) : ys.dropWhile p = ys := by
    cases ys with
    | nil => rfl
    | cons y ys => exact List.dropWhile_cons_of_neg (hys y List.mem_cons_self)
  rw [trimBy, hdrop xs h, hdrop xs.reverse (fun x hx => h x (List.mem_reverse.mp hx)),
    List.reverse_reverse]

theorem not_isWhitePiece_ascii {bs : Bytes} (h : ∀ b ∈ bs, 33 ≤ b ∧ b < 0x80) :
    ∀ piece ∈ Utf8.pieces bs, ¬isWhitePiece piece := by
  have hascii : ∀ b ∈ bs, b < 0x80 := fun b hb => (h b hb).2
  intro piece hpiece
  rw [Utf8.pieces_ascii hascii] at hpiece
  obtain ⟨b, hb, rfl⟩ := List.mem_map.mp hpiece
  rw [isWhitePiece, isWhite_ascii (h b hb).1 (h b hb).2]
  exact Bool.false_ne_true

theorem trim_ascii {bs : Bytes} (h : ∀ b ∈ bs, 33 ≤ b ∧ b < 0x80) : trim bs = bs := by
  rw [trim, trimBy_eq_self (not_isWhitePiece_ascii h), Utf8.ofPieces_pieces]

end Text

/-! ### Digits taken one after another -/

namespace Numeral

theorem magnitude_append (m : Nat) (xs ys : Bytes) :
    magnitude m (xs ++ ys) = magnitude m xs >>= fun k => magnitude k ys := by
  induction xs generalizing m with
  | nil => rfl
  | cons b xs ih =>
      simp only [List.cons_append, magnitude]
      split
      · split
        · exact ih _
        · rfl
      · rfl

theorem magnitude_digit {m d : Nat} (hd : d < 10) (hfits : m * 10 + d < 0x10000000000000000) :
    magnitude m [Bytes.digit d] = .ok (m * 10 + d) := by
  have hdigit : Bytes.isDigit (Bytes.digit d) := by
    rw [Bytes.isDigit, Bool.and_eq_true]
    simpa using Bytes.digit_bounds hd
  have hvalue : m * 10 + ((Bytes.digit d).toNat - 48) = m * 10 + d := by
    rw [Bytes.toNat_digit hd]
    omega
  simp only [magnitude, hdigit, if_true, hvalue, if_pos hfits]

theorem magnitude_ofNat {n : Nat} (hfits : n < 0x10000000000000000) :
    magnitude 0 (Bytes.ofNat n) = .ok n := by
  induction n using Nat.strongRecOn with
  | _ n ih =>
      rcases Nat.lt_or_ge n 10 with h | h
      · rw [Bytes.ofNat_of_lt_ten h, magnitude_digit h (by omega)]
        congr 1
        omega
      · have hvalue : n / 10 * 10 + n % 10 = n := by omega
        rw [Bytes.ofNat_of_ten_le h, magnitude_append, ih (n / 10) (by omega) (by omega), ok_bind,
          magnitude_digit (Nat.mod_lt n (by decide)) (by omega), hvalue]

theorem digits_ofNat {n : Nat} (hfits : n < 0x10000000000000000) :
    digits (Bytes.ofNat n) = .ok n := by
  unfold digits
  split
  · next hnil => exact absurd hnil (Bytes.ofNat_ne_nil n)
  · exact magnitude_ofNat hfits

/-- Digits have no sign in front of them. -/
theorem signed_ofNat (n : Nat) :
    signed (Bytes.ofNat n) = digits (Bytes.ofNat n) >>= withSign false := by
  unfold signed
  split
  · next rest hplus =>
      have hbounds := Bytes.bounds_of_mem_ofNat (hplus ▸ List.mem_cons_self)
      exact absurd hbounds.1 (by decide)
  · next rest hminus =>
      have hbounds := Bytes.bounds_of_mem_ofNat (hminus ▸ List.mem_cons_self)
      exact absurd hbounds.1 (by decide)
  · rfl

/-! ### Short texts -/

theorem toNat_sub_lt_ten {b : UInt8} (h : Bytes.isDigit b) : b.toNat - 48 < 10 := by
  simp only [Bytes.isDigit, Bool.and_eq_true, decide_eq_true_eq, UInt8.le_iff_toNat_le] at h
  have hhigh : b.toNat ≤ 57 := h.2
  omega

/-- A further digit takes a number to less than the tenfold of the next one. -/
theorem next_mul_pow_le {m d len : Nat} (hd : d < 10) :
    (m * 10 + d + 1) * 10 ^ len ≤ (m + 1) * 10 ^ (len + 1) := by
  calc (m * 10 + d + 1) * 10 ^ len ≤ (m + 1) * 10 * 10 ^ len :=
        Nat.mul_le_mul_right _ (by omega)
    _ = (m + 1) * 10 ^ (len + 1) := by rw [Nat.mul_assoc, Nat.pow_succ']

theorem lt_of_magnitude {m n : Nat} {bs : Bytes} (h : magnitude m bs = .ok n) :
    n < (m + 1) * 10 ^ bs.length := by
  induction bs generalizing m with
  | nil =>
      cases h
      simp
  | cons b bs ih =>
      simp only [magnitude] at h
      split at h
      · next hdigit =>
          split at h
          · exact Nat.lt_of_lt_of_le (ih h) (next_mul_pow_le (toNat_sub_lt_ten hdigit))
          · cases h
      · cases h

theorem wordFrom_eq_magnitude {m : Nat} {bs : Bytes}
    (h : (m + 1) * 10 ^ bs.length ≤ 0x10000000000000000) :
    wordFrom (Int64.ofNat m) bs = magnitude m bs >>= fun n => .ok (Int64.ofNat n) := by
  induction bs generalizing m with
  | nil => rfl
  | cons b bs ih =>
      simp only [wordFrom, magnitude]
      split
      · next hdigit =>
          have hnext := Nat.le_trans (next_mul_pow_le (toNat_sub_lt_ten hdigit)) h
          have hpos : 0 < 10 ^ bs.length := Nat.pow_pos (by decide)
          have hfits : m * 10 + (b.toNat - 48) < 0x10000000000000000 :=
            Nat.lt_of_lt_of_le (Nat.lt_of_succ_le (Nat.le_mul_of_pos_right _ hpos)) hnext
          have hword : Int64.ofNat m * 10 + Int64.ofNat (b.toNat - 48) =
              Int64.ofNat (m * 10 + (b.toNat - 48)) := by
            rw [Int64.ofNat_add, Int64.ofNat_mul]
            rfl
          rw [if_pos hfits, hword, ih hnext]
      · rfl

/-- Eighteen digits or fewer. -/
theorem word_eq_digits {bs : Bytes} (h : bs.length < 19) :
    word bs = digits bs >>= fun n => .ok (Int64.ofNat n) := by
  cases bs with
  | nil => rfl
  | cons b bs =>
      have hpow : 10 ^ (b :: bs).length ≤ 10 ^ 18 := Nat.pow_le_pow_right (by decide) (by omega)
      have hzero : word (b :: bs) = wordFrom (Int64.ofNat 0) (b :: bs) := rfl
      rw [hzero, wordFrom_eq_magnitude (by omega)]
      rfl

/-- They stand for a number that fits with either sign. -/
theorem digits_bind_withSign {bs : Bytes} (h : bs.length < 19) (negative : Bool) :
    digits bs >>= withSign negative =
      word bs >>= fun n => .ok (if negative then -n else n) := by
  rw [word_eq_digits h]
  cases hdigits : digits bs with
  | error e => rfl
  | ok n =>
      have hfits : n < 0x8000000000000000 := by
        cases bs with
        | nil => cases hdigits
        | cons b bs =>
            have hlt := lt_of_magnitude hdigits
            have hpow : 10 ^ (b :: bs).length ≤ 10 ^ 18 :=
              Nat.pow_le_pow_right (by decide) (by omega)
            omega
      cases negative with
      | false => simp [withSign, hfits, Int64.ofInt_eq_ofNat]
      | true => simp [withSign, Nat.le_of_lt hfits, Int64.ofInt_neg, Int64.ofInt_eq_ofNat]

/-- A text that is short enough is read the same in both ways. -/
theorem short_eq_signed {bs : Bytes} (h : bs.length < 19) : short bs = signed bs := by
  unfold short signed
  split
  · next rest =>
      rw [digits_bind_withSign (Nat.lt_of_succ_lt h)]
      cases word rest <;> rfl
  · next rest => exact (digits_bind_withSign (Nat.lt_of_succ_lt h) true).symm
  · next hplus hminus =>
      rw [digits_bind_withSign h]
      cases word bs <;> rfl

theorem integer_eq_signed (bs : Bytes) : integer bs = signed bs := by
  unfold integer
  split
  · next h => exact short_eq_signed h.2
  · rfl

theorem read_eq_signed (arg : Bytes) : read arg = signed (Text.trim arg) :=
  integer_eq_signed (Text.trim arg)

/-- The decimal text of a word is read as this word. -/
theorem read_ofInt64 (n : Int64) : read (Bytes.ofInt64 n) = .ok n := by
  have hlow := n.le_toInt
  have hhigh := n.toInt_lt
  rw [read_eq_signed, Text.trim_ascii (Bytes.graphic_of_mem_ofInt64 n), Bytes.ofInt64]
  cases hn : n.toInt with
  | ofNat m =>
      have hm : (m : Int) = n.toInt := hn.symm
      have hfits : m < 0x8000000000000000 := by omega
      rw [Bytes.ofInt, signed_ofNat, digits_ofNat (by omega), ok_bind, withSign, if_neg (by decide),
        if_pos hfits, ← Int64.ofInt_toInt n, hn]
      rfl
  | negSucc m =>
      have hfits : m + 1 ≤ 0x8000000000000000 := by omega
      have hsigned : signed (45 :: Bytes.ofNat (m + 1)) =
          digits (Bytes.ofNat (m + 1)) >>= withSign true := rfl
      rw [Bytes.ofInt, hsigned, digits_ofNat (by omega), ok_bind, withSign, if_pos rfl,
        if_pos hfits, ← Int64.ofInt_toInt n, hn]
      rfl

end Numeral

end StackStep
