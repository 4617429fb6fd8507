import Mathlib.Data.List.DropRight
import StackStep.Editor.Word
import StackStep.Proofs.Text.Lines

/-!
The bounds of words.

A word is found from a position by going to the left and to the right as long as there
are word bytes. Where the position lies in the word does not matter then: the same bounds
are met from each place between them. This is what `WholeWord` is for. It says of a word
in its line that it goes on to neither side, and a position that is not outside such a
word finds it (`WholeWord.wordAt`). Conversely, every position of a line lies in or at a
whole word, which is empty if there are no word bytes on either side.
-/

namespace StackStep.Editor

variable {bs before word after text line : Bytes} {p : Position}

/-! ### Longest runs -/

structure LongestFront (bs part : Bytes) : Prop where
  isPrefix : part <+: bs
  all : ∀ b ∈ part, isWordByte b
  longest : ∀ other, other <+: bs → (∀ b ∈ other, isWordByte b) → other.length ≤ part.length

structure LongestEnd (bs part : Bytes) : Prop where
  isSuffix : part <:+ bs
  all : ∀ b ∈ part, isWordByte b
  longest : ∀ other, other <:+ bs → (∀ b ∈ other, isWordByte b) → other.length ≤ part.length

theorem longestFront_leading (bs : Bytes) : LongestFront bs (leading bs) := by
  refine ⟨List.takeWhile_prefix isWordByte, fun b hb => List.mem_takeWhile_imp hb, ?_⟩
  rintro other ⟨rest, rfl⟩ hall
  rw [leading, List.takeWhile_append_of_pos hall, List.length_append]
  exact Nat.le_add_right _ _

theorem longestEnd_trailing (bs : Bytes) : LongestEnd bs (trailing bs) := by
  obtain ⟨hfront, hall, hlongest⟩ := longestFront_leading bs.reverse
  refine ⟨?_, fun b hb => hall b (List.mem_reverse.mp hb), ?_⟩
  · rw [← List.reverse_prefix, trailing, List.reverse_reverse]
    exact hfront
  · intro other hother hword
    have hlength := hlongest other.reverse (List.reverse_prefix.mpr hother)
      fun b hb => hword b (List.mem_reverse.mp hb)
    rw [trailing, List.length_reverse]
    rwa [List.length_reverse] at hlength

/-- All that two runs meeting at a column are made of. -/
theorem isWordByte_of_mem_runs {b : UInt8} (h : b ∈ trailing before ++ leading after) :
    isWordByte b := by
  rcases List.mem_append.mp h with h | h
  · exact (longestEnd_trailing before).all b h
  · exact (longestFront_leading after).all b h

/-! ### Whole words -/

/-- A run of word bytes in a line that goes on to neither side. -/
structure WholeWord (before word after : Bytes) : Prop where
  all : ∀ b ∈ word, isWordByte b
  left : ∀ b ∈ before.getLast?, ¬isWordByte b
  right : ∀ b ∈ after.head?, ¬isWordByte b

theorem leading_append (hall : ∀ b ∈ bs, isWordByte b) (hright : ∀ b ∈ after.head?, ¬isWordByte b) :
    leading (bs ++ after) = bs := by
  have hstop : after.takeWhile isWordByte = [] := by
    rw [List.takeWhile_eq_nil_iff]
    intro hlength
    refine hright _ ?_
    rw [List.head?_eq_getElem?]
    exact List.getElem?_eq_getElem hlength
  rw [leading, List.takeWhile_append_of_pos hall, hstop, List.append_nil]

theorem trailing_append (hall : ∀ b ∈ bs, isWordByte b)
    (hleft : ∀ b ∈ before.getLast?, ¬isWordByte b) : trailing (before ++ bs) = bs := by
  rw [trailing, List.reverse_append, leading_append, List.reverse_reverse]
  · exact fun b hb => hall b (List.mem_reverse.mp hb)
  · rw [List.head?_reverse]
    exact hleft

theorem exists_before (bs : Bytes) :
    ∃ before, bs = before ++ trailing bs ∧ ∀ b ∈ before.getLast?, ¬isWordByte b := by
  refine ⟨bs.rdropWhile isWordByte, List.rdropWhile_append_rtakeWhile.symm, ?_⟩
  intro b hb
  obtain ⟨hne, rfl⟩ := List.mem_getLast?_eq_getLast hb
  exact List.rdropWhile_last_not isWordByte bs hne

theorem exists_after (bs : Bytes) :
    ∃ after, bs = leading bs ++ after ∧ ∀ b ∈ after.head?, ¬isWordByte b := by
  refine ⟨bs.dropWhile isWordByte, List.takeWhile_append_dropWhile.symm, ?_⟩
  intro b hb
  have hnot := List.head?_dropWhile_not isWordByte bs
  rw [Option.mem_def.mp hb] at hnot
  simpa using hnot

/-- From a column that is not outside a whole word, the way to the left and the way to the
right make up the word. -/
theorem WholeWord.trailing_append_leading (h : WholeWord before word after) {column : Nat}
    (hlow : before.length ≤ column)
    (hhigh : column ≤ before.length + word.length ∨ after = []) :
    trailing ((before ++ word ++ after).take column) ++
      leading ((before ++ word ++ after).drop column) = word := by
  obtain ⟨k, rfl⟩ := Nat.exists_eq_add_of_le hlow
  have hnone : after.take (k - word.length) = [] := by
    rcases hhigh with hle | rfl
    · rw [Nat.sub_eq_zero_of_le (by omega), List.take_zero]
    · exact List.take_nil
  have hall : after.drop (k - word.length) = after := by
    rcases hhigh with hle | rfl
    · rw [Nat.sub_eq_zero_of_le (by omega), List.drop_zero]
    · exact List.drop_nil
  have htake : (before ++ word ++ after).take (before.length + k) = before ++ word.take k := by
    rw [List.append_assoc, List.take_length_add_append, List.take_append, hnone, List.append_nil]
  have hdrop : (before ++ word ++ after).drop (before.length + k) = word.drop k ++ after := by
    rw [List.append_assoc, List.drop_length_add_append, List.drop_append, hall]
  rw [htake, hdrop, trailing_append (fun b hb => h.all b (List.mem_of_mem_take hb)) h.left,
    leading_append (fun b hb => h.all b (List.mem_of_mem_drop hb)) h.right,
    List.take_append_drop]

/-! ### Words at positions -/

theorem fragmentAt_of_line (h : (Bytes.split 10 text)[p.line.toNat]? = some line) :
    fragmentAt text p = trailing (line.take p.character.toNat) := by
  rw [fragmentAt, cutAt?, h]
  rfl

theorem wordAt_of_line (h : (Bytes.split 10 text)[p.line.toNat]? = some line) :
    wordAt text p =
      trailing (line.take p.character.toNat) ++ leading (line.drop p.character.toNat) := by
  rw [wordAt, cutAt?, h]
  rfl

theorem found_of_no_line (h : (Bytes.split 10 text)[p.line.toNat]? = none) :
    fragmentAt text p = [] ∧ wordAt text p = [] := by
  rw [fragmentAt, wordAt, cutAt?, h]
  exact ⟨rfl, rfl⟩

theorem WholeWord.wordAt (h : WholeWord before word after)
    (hline : (Bytes.split 10 text)[p.line.toNat]? = some (before ++ word ++ after))
    (hlow : before.length ≤ p.character.toNat)
    (hhigh : p.character.toNat ≤ before.length + word.length ∨ after = []) :
    wordAt text p = word := by
  rw [wordAt_of_line hline]
  exact h.trailing_append_leading hlow hhigh

theorem isWordByte_of_mem_fragmentAt {b : UInt8} (h : b ∈ fragmentAt text p) : isWordByte b := by
  rw [fragmentAt] at h
  split at h
  · exact (longestEnd_trailing _).all b h
  · cases h

theorem isWordByte_of_mem_wordAt {b : UInt8} (h : b ∈ wordAt text p) : isWordByte b := by
  rw [wordAt] at h
  split at h
  · exact isWordByte_of_mem_runs h
  · cases h

theorem extract_word (h : line = before ++ word ++ after) :
    line.extract before.length (before.length + word.length) = word := by
  rw [h, List.extract_eq_take_drop, List.append_assoc, List.drop_left, Nat.add_sub_cancel_left,
    List.take_left]

/-- A column of a line lies in or at a whole word. -/
theorem exists_wholeWord (line : Bytes) (column : Nat) :
    ∃ before after,
      WholeWord before (trailing (line.take column) ++ leading (line.drop column)) after ∧
      line = before ++ (trailing (line.take column) ++ leading (line.drop column)) ++ after ∧
      before.length + (trailing (line.take column)).length = min column line.length := by
  obtain ⟨before, hbefore, hleft⟩ := exists_before (line.take column)
  obtain ⟨after, hafter, hright⟩ := exists_after (line.drop column)
  refine ⟨before, after, ⟨fun _ => isWordByte_of_mem_runs, hleft, hright⟩, ?_, ?_⟩
  · calc
      line = line.take column ++ line.drop column := (List.take_append_drop column line).symm
      _ = (before ++ trailing (line.take column)) ++ (leading (line.drop column) ++ after) := by
        rw [← hbefore, ← hafter]
      _ = _ := by simp only [List.append_assoc]
  · rw [← List.length_append, ← hbefore, List.length_take]

/-- What is found at a position, for the lines of any text. Where there is no such line,
nothing is found. Otherwise the column counts up to the end of the line, the fragment is
the longest run of word bytes that ends there, and the word is the fragment and the
longest run that begins there. Every column from the start to the end of the word finds
the same word, and so does every larger one if the word ends the line. No line break is
ever part of what is found. -/
theorem word_bounds {text : Bytes} {lines : List Bytes} (hlines : Bytes.IsLines text lines)
    (p : Position) :
    (lines[p.line.toNat]? = none → fragmentAt text p = [] ∧ wordAt text p = []) ∧
    (∀ line, lines[p.line.toNat]? = some line →
      let column := min p.character.toNat line.length
      LongestEnd (line.take column) (fragmentAt text p) ∧
      ∃ rest, LongestFront (line.drop column) rest ∧ wordAt text p = fragmentAt text p ++ rest ∧
        let start := column - (fragmentAt text p).length
        let stop := column + rest.length
        line.extract start stop = wordAt text p ∧
        ∀ q : Position, q.line = p.line → start ≤ q.character.toNat →
          q.character.toNat ≤ stop ∨ stop = line.length → wordAt text q = wordAt text p) ∧
    10 ∉ fragmentAt text p ∧ 10 ∉ wordAt text p := by
  obtain rfl := Bytes.isLines_iff.mp hlines
  refine ⟨found_of_no_line, ?_, ?_, ?_⟩
  · intro line hline column
    rw [← List.take_eq_take_min, ← List.drop_eq_drop_min, fragmentAt_of_line hline,
      wordAt_of_line hline]
    obtain ⟨before, after, hword, hparts, hlength⟩ := exists_wholeWord line p.character.toNat
    have hstart : column - (trailing (line.take p.character.toNat)).length = before.length := by
      omega
    have hstop : column + (leading (line.drop p.character.toNat)).length =
        before.length + (trailing (line.take p.character.toNat) ++
          leading (line.drop p.character.toNat)).length := by
      rw [List.length_append]
      omega
    refine ⟨longestEnd_trailing _, _, longestFront_leading _, rfl, ?_⟩
    rw [hstart, hstop]
    refine ⟨extract_word hparts, ?_⟩
    intro q hq hlow hhigh
    rw [← hq, hparts] at hline
    refine hword.wordAt hline hlow (hhigh.imp_right ?_)
    intro hend
    have hwhole := congrArg List.length hparts
    rw [List.length_append, List.length_append] at hwhole
    exact List.eq_nil_of_length_eq_zero (by omega)
  · intro hmem
    exact absurd (isWordByte_of_mem_fragmentAt hmem) (by decide)
  · intro hmem
    exact absurd (isWordByte_of_mem_wordAt hmem) (by decide)

/-- The word that ends its line is found from its first byte and from far behind it. -/
theorem word_bounds_past_end :
    let text : Bytes := "PUSH 1\n\tadd_2\nEND"
    let far : Position := ⟨1, 0xFFFFFFFF⟩
    Bytes.IsLines text ["PUSH 1", "\tadd_2", "END"] ∧
      fragmentAt text far = "add_2" ∧ wordAt text ⟨1, 1⟩ = wordAt text far ∧
      wordAt text ⟨3, 0⟩ = [] := by
  intro text far
  have hlines : Bytes.IsLines text ["PUSH 1", "\tadd_2", "END"] :=
    Bytes.isLines_iff.mpr (by decide +kernel)
  have hfragment : fragmentAt text far = "add_2" := by decide +kernel
  obtain ⟨-, hfound, -, -⟩ := word_bounds hlines far
  obtain ⟨-, rest, -, -, -, hsame⟩ := hfound "\tadd_2" rfl
  refine ⟨hlines, hfragment, ?_, ((word_bounds hlines ⟨3, 0⟩).1 rfl).2⟩
  refine hsame ⟨1, 1⟩ rfl ?_ (.inl ?_)
  · rw [hfragment]
    decide
  · exact Nat.le_add_right_of_le (by decide)

end StackStep.Editor
