import StackStep.Proofs.Editor.WordBounds
import StackStep.Proofs.Text.Boundary

/-!
Words and characters.

The bytes of a word are looked at one by one, and each is taken for a character of its
own. In a character beyond ASCII some bytes pass for letters and others do not, so a word
can end inside it. Which bytes pass is known: of those that begin a character all but one,
of the continuation bytes three. So it is known of each character whether a word that
comes to it from the left or from the right goes over it, stops before it or ends inside
it, and the words that are found whole are told by the characters next to them.
-/

namespace StackStep.Editor

open Utf8 (encode ofChars)

/-! ### Characters beyond ASCII -/

/-- Whether a continuation byte with the lowest six bits of `n` is a letter. -/
def passes (n : Nat) : Bool := n % 64 == 0x2A || n % 64 == 0x35 || n % 64 == 0x3A

/-- Whether a character beyond ASCII begins with a word byte. Only those from U+05C0 to
U+05FF do not. -/
def opens (c : Char) : Bool := 0x80 ≤ c.toNat && !(0x5C0 ≤ c.toNat && c.toNat ≤ 0x5FF)

def closes (c : Char) : Bool := 0x80 ≤ c.toNat && passes c.toNat

/-- Whether all bytes of a character are word bytes. -/
def covered (c : Char) : Bool :=
  if c.toNat < 0x80 then isWordByte (UInt8.ofNat c.toNat)
  else opens c && closes c && (c.toNat < 0x800 || passes (c.toNat / 64)) &&
    (c.toNat < 0x10000 || passes (c.toNat / 4096))

theorem isWordByte_iff {b : UInt8} :
    isWordByte b ↔ (0x30 ≤ b.toNat ∧ b.toNat ≤ 0x39) ∨ (0x41 ≤ b.toNat ∧ b.toNat ≤ 0x5A) ∨
      b.toNat = 0x5F ∨ (0x61 ≤ b.toNat ∧ b.toNat ≤ 0x7A) ∨ b.toNat = 0xAA ∨ b.toNat = 0xB5 ∨
      b.toNat = 0xBA ∨ (0xC0 ≤ b.toNat ∧ b.toNat ≠ 0xD7 ∧ b.toNat ≠ 0xF7) := by
  simp only [isWordByte, isLetterByte, Bytes.isDigit, Bool.or_eq_true, Bool.and_eq_true,
    decide_eq_true_eq, beq_iff_eq, bne_iff_ne, ne_eq, UInt8.le_iff_toNat_le, ← UInt8.toNat_inj,
    UInt8.reduceToNat]
  omega

theorem isWordByte_continuation (n : Nat) :
    isWordByte (UInt8.ofNat (n % 64 + 0x80)) ↔ passes n := by
  have hnat : (UInt8.ofNat (n % 64 + 0x80)).toNat = n % 64 + 0x80 := by
    rw [UInt8.toNat_ofNat']
    omega
  simp only [isWordByte_iff, hnat, passes, Bool.or_eq_true, beq_iff_eq]
  omega

theorem isWordByte_lead {n : Nat} (hlow : 0xC0 ≤ n) (hhigh : n < 0xF7) :
    isWordByte (UInt8.ofNat n) ↔ n ≠ 0xD7 := by
  have hnat : (UInt8.ofNat n).toNat = n := by
    rw [UInt8.toNat_ofNat']
    omega
  rw [isWordByte_iff, hnat]
  omega

theorem opens_iff {c : Char} (h : 0x80 ≤ c.toNat) : opens c ↔ c.toNat / 64 ≠ 0x17 := by
  simp only [opens, Bool.and_eq_true, Bool.not_eq_true', Bool.and_eq_false_iff,
    decide_eq_true_eq, decide_eq_false_iff_not]
  omega

/-- The first byte of a character beyond ASCII, the last one, and those between. -/
theorem encode_beyond {c : Char} (h : 0x80 ≤ c.toNat) :
    ∃ lead middle, encode c = lead :: (middle ++ [UInt8.ofNat (c.toNat % 64 + 0x80)]) ∧
      (isWordByte lead ↔ opens c) ∧
      ((∀ b ∈ middle, isWordByte b) ↔ (c.toNat < 0x800 ∨ passes (c.toNat / 64)) ∧
        (c.toNat < 0x10000 ∨ passes (c.toNat / 4096))) := by
  have hmax := Utf8.toNat_lt c
  rw [Utf8.encode_eq, if_neg (Nat.not_lt.mpr h), opens_iff h]
  split
  · next htwo =>
      refine ⟨_, [], rfl, ?_, ?_⟩
      · rw [isWordByte_lead (by omega) (by omega)]
        omega
      · simp [htwo, Nat.lt_trans htwo]
  · split
    · next htwo hthree =>
        refine ⟨_, [_], rfl, ?_, ?_⟩
        · rw [isWordByte_lead (by omega) (by omega)]
          omega
        · simp only [List.mem_singleton, forall_eq, isWordByte_continuation, htwo, hthree, false_or,
            true_or, and_true]
    · next htwo hthree =>
        refine ⟨_, [_, _], rfl, ?_, ?_⟩
        · rw [isWordByte_lead (by omega) (by omega)]
          omega
        · simp only [List.mem_cons, List.not_mem_nil, or_false, forall_eq_or_imp, forall_eq,
            isWordByte_continuation, htwo, hthree, false_or]
          exact and_comm

theorem encode_ascii {c : Char} (h : c.toNat < 0x80) : encode c = [UInt8.ofNat c.toNat] := by
  rw [Utf8.encode_eq, if_pos h]

theorem covered_iff {c : Char} : covered c ↔ ∀ b ∈ encode c, isWordByte b := by
  rw [covered]
  split
  · next h =>
      rw [encode_ascii h]
      simp only [List.mem_singleton, forall_eq]
  · next h =>
      have hbeyond := Nat.not_lt.mp h
      obtain ⟨lead, middle, hencode, hlead, hmiddle⟩ := encode_beyond hbeyond
      simp only [hencode, List.forall_mem_cons, List.forall_mem_append, List.not_mem_nil,
        false_imp_iff, implies_true, and_true, hlead, hmiddle, isWordByte_continuation, closes,
        Bool.and_eq_true, Bool.or_eq_true, decide_eq_true_eq, hbeyond, true_and]
      constructor
      · rintro ⟨⟨⟨hopens, hlast⟩, htwo⟩, hthree⟩
        exact ⟨hopens, ⟨htwo, hthree⟩, hlast⟩
      · rintro ⟨hopens, ⟨htwo, hthree⟩, hlast⟩
        exact ⟨⟨⟨hopens, hlast⟩, htwo⟩, hthree⟩

/-- A character that is not covered stops a run from the left, unless it opens with a word
byte. -/
theorem exists_lead {c : Char} (h : ¬covered c) :
    ∃ lead rest, encode c = lead :: rest ∧ (isWordByte lead ↔ opens c) := by
  by_cases hascii : c.toNat < 0x80
  · refine ⟨_, [], encode_ascii hascii, ?_⟩
    rw [covered, if_pos hascii] at h
    simp [h, opens, Nat.not_le.mpr hascii]
  · obtain ⟨lead, middle, hencode, hlead, -⟩ := encode_beyond (Nat.not_lt.mp hascii)
    exact ⟨lead, _, hencode, hlead⟩

theorem exists_last {c : Char} (h : ¬covered c) :
    ∃ front last, encode c = front ++ [last] ∧ (isWordByte last ↔ closes c) := by
  by_cases hascii : c.toNat < 0x80
  · refine ⟨[], _, encode_ascii hascii, ?_⟩
    rw [covered, if_pos hascii] at h
    simp [h, closes, Nat.not_le.mpr hascii]
  · obtain ⟨lead, middle, hencode, -, -⟩ := encode_beyond (Nat.not_lt.mp hascii)
    refine ⟨lead :: middle, _, hencode, ?_⟩
    rw [isWordByte_continuation, closes, decide_eq_true (Nat.not_lt.mp hascii), Bool.true_and]

/-! ### Runs over characters -/

variable {bs text : Bytes} {p : Position}

/-- A run that does not go over all the bytes stops at one of them. -/
theorem exists_after_of_not_all (h : ¬∀ b ∈ bs, isWordByte b) :
    ∃ after, bs = leading bs ++ after ∧ after ≠ [] ∧ ∀ b ∈ after.head?, ¬isWordByte b := by
  obtain ⟨after, hafter, hstop⟩ := exists_after bs
  refine ⟨after, hafter, ?_, hstop⟩
  rintro rfl
  rw [List.append_nil] at hafter
  exact h (hafter ▸ (longestFront_leading bs).all)

theorem leading_append_of_not_all (h : ¬∀ b ∈ bs, isWordByte b) (rest : Bytes) :
    leading (bs ++ rest) = leading bs := by
  obtain ⟨after, hafter, hne, hstop⟩ := exists_after_of_not_all h
  have hstop' : ∀ b ∈ (after ++ rest).head?, ¬isWordByte b := by
    rw [List.head?_append_of_ne_nil _ hne]
    exact hstop
  calc
    leading (bs ++ rest) = leading (leading bs ++ (after ++ rest)) := by
      rw [← List.append_assoc, ← hafter]
    _ = leading bs := leading_append (longestFront_leading bs).all hstop'

theorem trailing_append_of_all (h : ∀ b ∈ bs, isWordByte b) (rest : Bytes) :
    trailing (rest ++ bs) = trailing rest ++ bs := by
  have hreverse : ∀ b ∈ bs.reverse, isWordByte b := fun b hb => h b (List.mem_reverse.mp hb)
  rw [trailing, List.reverse_append, leading, List.takeWhile_append_of_pos hreverse,
    List.reverse_append, List.reverse_reverse]
  rfl

theorem trailing_append_of_not_all (h : ¬∀ b ∈ bs, isWordByte b) (rest : Bytes) :
    trailing (rest ++ bs) = trailing bs := by
  rw [trailing, List.reverse_append, leading_append_of_not_all]
  · rfl
  · intro hall
    exact h fun b hb => hall b (List.mem_reverse.mpr hb)

theorem valid_leading_encode {c : Char} (h : ¬covered c) :
    Utf8.valid (leading (encode c)) ↔ ¬opens c := by
  obtain ⟨lead, rest, hencode, hlead⟩ := exists_lead h
  constructor
  · intro hvalid hopens
    obtain ⟨after, hafter, hne, -⟩ := exists_after_of_not_all (mt covered_iff.mpr h)
    refine (Utf8.not_valid_of_split hafter ?_ hne).1 hvalid
    rw [hencode, leading, List.takeWhile_cons_of_pos (hlead.mpr hopens)]
    exact List.cons_ne_nil _ _
  · intro hopens
    rw [hencode, leading, List.takeWhile_cons_of_neg fun hword => hopens (hlead.mp hword)]
    rfl

theorem valid_trailing_encode {c : Char} (h : ¬covered c) :
    Utf8.valid (trailing (encode c)) ↔ ¬closes c := by
  obtain ⟨front, last, hencode, hlast⟩ := exists_last h
  constructor
  · intro hvalid hcloses
    obtain ⟨before, hbefore, -⟩ := exists_before (encode c)
    refine (Utf8.not_valid_of_split hbefore ?_ ?_).2 hvalid
    · rintro rfl
      rw [List.nil_append] at hbefore
      exact h (covered_iff.mpr (hbefore ▸ (longestEnd_trailing _).all))
    · rw [hencode, trailing_append_of_all]
      · exact List.append_ne_nil_of_right_ne_nil _ (List.cons_ne_nil _ _)
      · simpa using hlast.mpr hcloses
  · intro hcloses
    have hnone : trailing [last] = [] := by
      rw [trailing, List.reverse_singleton, leading,
        List.takeWhile_cons_of_neg fun hword => hcloses (hlast.mp hword)]
      rfl
    rw [hencode, trailing_append_of_not_all, hnone]
    · rfl
    · simpa using fun hword => hcloses (hlast.mp hword)

/-- A run to the right is valid text unless the first character that it does not cover
opens with a word byte. -/
theorem valid_leading_iff (ds : List Char) :
    Utf8.valid (leading (ofChars ds)) ↔
      ∀ c, ds.find? (fun c => !covered c) = some c → ¬opens c := by
  induction ds with
  | nil => simp [ofChars, leading, Utf8.valid, Utf8.pieces]
  | cons d ds ih =>
      rw [Utf8.ofChars_cons]
      by_cases hd : covered d
      · rw [leading, List.takeWhile_append_of_pos (covered_iff.mp hd), ← leading,
          Utf8.valid_encode_append, ih, List.find?_cons_of_neg (by simpa using hd)]
      · rw [leading_append_of_not_all (mt covered_iff.mpr hd), valid_leading_encode hd,
          List.find?_cons_of_pos (by simpa using hd)]
        simp

/-- A run to the left is valid text unless the last character that it does not cover closes
with a word byte. -/
theorem valid_trailing_iff (cs : List Char) :
    Utf8.valid (trailing (ofChars cs)) ↔
      ∀ c, cs.reverse.find? (fun c => !covered c) = some c → ¬closes c := by
  induction cs using List.reverseRecOn with
  | nil => simp [ofChars, trailing, leading, Utf8.valid, Utf8.pieces]
  | append_singleton cs c ih =>
      rw [Utf8.ofChars_append, Utf8.ofChars_singleton, List.reverse_concat]
      by_cases hc : covered c
      · have hlead := Utf8.not_isContinuation_of_valid (Utf8.valid_encode c)
        rw [trailing_append_of_all (covered_iff.mp hc), Utf8.valid_append_iff hlead, ih,
          List.find?_cons_of_neg (by simpa using hc)]
        exact and_iff_left (Utf8.valid_encode c)
      · rw [trailing_append_of_not_all (mt covered_iff.mpr hc), valid_trailing_encode hc,
          List.find?_cons_of_pos (by simpa using hc)]
        simp

theorem valid_word_iff (before : Bytes) (ds : List Char) :
    Utf8.valid (trailing before ++ leading (ofChars ds)) ↔
      Utf8.valid (trailing before) ∧ Utf8.valid (leading (ofChars ds)) := by
  refine Utf8.valid_append_iff ?_
  intro b hb
  refine Utf8.not_isContinuation_of_valid (Utf8.valid_ofChars ds) b ?_
  obtain ⟨after, hafter, -⟩ := exists_after (ofChars ds)
  rw [hafter, List.head?_append, Option.mem_def.mp hb]
  rfl

/-- What is found at a position between two characters of valid text is not always valid
text itself, and the characters next to it tell when it is. The fragment is, unless the
last character before the position which is not covered is beyond ASCII and closes with a
word byte. The word is if the fragment is, unless the first character from the position on
which is not covered is beyond ASCII and opens with a word byte. -/
theorem found_whole_iff {lines : List Bytes} (hvalid : Utf8.valid text)
    (hlines : Bytes.IsLines text lines)
    (hboundary : ∀ line, lines[p.line.toNat]? = some line →
      ∀ b ∈ (line.drop p.character.toNat).head?, ¬Utf8.isContinuation b) :
    (lines[p.line.toNat]? = none →
      Utf8.valid (fragmentAt text p) ∧ Utf8.valid (wordAt text p)) ∧
    ∀ line, lines[p.line.toNat]? = some line → ∃ cs ds,
      line.take p.character.toNat = ofChars cs ∧ line.drop p.character.toNat = ofChars ds ∧
      (Utf8.valid (fragmentAt text p) ↔
        ∀ c, cs.reverse.find? (fun c => !covered c) = some c → ¬closes c) ∧
      (Utf8.valid (wordAt text p) ↔ Utf8.valid (fragmentAt text p) ∧
        ∀ c, ds.find? (fun c => !covered c) = some c → ¬opens c) := by
  obtain rfl := Bytes.isLines_iff.mp hlines
  refine ⟨?_, ?_⟩
  · intro hnone
    rw [(found_of_no_line hnone).1, (found_of_no_line hnone).2]
    exact ⟨rfl, rfl⟩
  · intro line hline
    have hwhole : Utf8.valid (line.take p.character.toNat ++ line.drop p.character.toNat) := by
      rw [List.take_append_drop]
      exact Utf8.valid_of_isLines hvalid hlines (List.mem_of_getElem? hline)
    obtain ⟨cs, ds, hcs, hds⟩ := Utf8.exists_chars_of_append hwhole (hboundary line hline)
    refine ⟨cs, ds, hcs, hds, ?_, ?_⟩
    · rw [fragmentAt_of_line hline, hcs, valid_trailing_iff]
    · rw [wordAt_of_line hline, fragmentAt_of_line hline, hds, valid_word_iff, valid_leading_iff]

/-- Behind a quotation mark that is beyond ASCII, a name with a letter beyond ASCII. -/
theorem found_whole_iff_quoted :
    let text : Bytes := "«LOADê «"
    Utf8.valid text ∧ Utf8.valid (wordAt text ⟨0, 2⟩) := by
  intro text
  have hvalid : Utf8.valid text := by decide +kernel
  have hlines : Bytes.IsLines text [text] := Bytes.isLines_iff.mpr (by decide +kernel)
  have hboundary : ∀ line, [text][0]? = some line →
      ∀ b ∈ (line.drop 2).head?, ¬Utf8.isContinuation b := by
    rintro _ ⟨⟩ _ ⟨⟩
    decide
  obtain ⟨-, hfound⟩ := found_whole_iff (p := ⟨0, 2⟩) hvalid hlines hboundary
  obtain ⟨cs, ds, hcs, hds, hfragment, hword⟩ := hfound text rfl
  have hcs' : cs = ['«'] := Utf8.ofChars_injective (hcs.symm.trans (by decide +kernel))
  have hds' : ds = ['L', 'O', 'A', 'D', 'ê', ' ', '«'] :=
    Utf8.ofChars_injective (hds.symm.trans (by decide +kernel))
  refine ⟨hvalid, hword.mpr ⟨hfragment.mpr ?_, ?_⟩⟩
  · rw [hcs']
    rintro _ ⟨⟩
    decide
  · rw [hds']
    rintro _ ⟨⟩
    decide

/-- Two letters beyond ASCII and the position between them. Of the one only the last byte
is found and of the other only the first. -/
theorem letters_split_between :
    let text : Bytes := "\u05eaé"
    let p : Position := ⟨0, 2⟩
    Utf8.valid text ∧ Bytes.IsLines text [text] ∧
      (∀ b ∈ (text.drop p.character.toNat).head?, ¬Utf8.isContinuation b) ∧
      fragmentAt text p = [0xAA] ∧ ¬Utf8.valid (fragmentAt text p) ∧
      wordAt text p = [0xAA, 0xC3] ∧ ¬Utf8.valid (wordAt text p) := by
  intro text p
  have hfragment : fragmentAt text p = [0xAA] := by decide +kernel
  have hword : wordAt text p = [0xAA, 0xC3] := by decide +kernel
  rw [hfragment, hword]
  have hlines : Bytes.IsLines text [text] := Bytes.isLines_iff.mpr (by decide +kernel)
  refine ⟨by decide +kernel, hlines, ?_, rfl, by decide, rfl, by decide⟩
  rintro _ ⟨⟩
  decide

end StackStep.Editor
