import StackStep.Bytes

/-!
The lines of a text.

`split` finds the parts of a text by going through it byte by byte. What it finds is
also said without it: `IsLines text lines` holds of lines that have no break inside and
give the text when they are joined by breaks. There is exactly one such list for every
text (`isLines_iff`), so a text can be changed by changing one of its lines, and the
others stay where they are.
-/

namespace StackStep.Bytes

variable {sep : UInt8} {line : Bytes} {lines : List Bytes}

theorem join_cons (glue part : Bytes) {parts : List Bytes} (h : parts ≠ []) :
    join glue (part :: parts) = part ++ glue ++ join glue parts := by
  obtain ⟨next, parts, rfl⟩ := List.exists_cons_of_ne_nil h
  rfl

/-- Parts with the glue behind each of them. -/
theorem join_concat_nil (glue : Bytes) (parts : List Bytes) :
    join glue (parts ++ [[]]) = parts.flatMap (· ++ glue) := by
  induction parts with
  | nil => rfl
  | cons part parts ih =>
      rw [List.cons_append, join_cons _ _ (by simp), ih, List.flatMap_cons]

theorem not_mem_join {glue : Bytes} {parts : List Bytes} {b : UInt8} (hglue : b ∉ glue)
    (hparts : ∀ part ∈ parts, b ∉ part) : b ∉ join glue parts := by
  induction parts with
  | nil => exact List.not_mem_nil
  | cons part parts ih =>
      rw [List.forall_mem_cons] at hparts
      by_cases hlast : parts = []
      · subst hlast
        exact hparts.1
      · rw [join_cons _ _ hlast, List.mem_append, List.mem_append, not_or, not_or]
        exact ⟨⟨hparts.1, hglue⟩, ih hparts.2⟩

theorem split_of_not_mem (h : sep ∉ line) : split sep line = [line] := by
  induction line with
  | nil => rfl
  | cons b line ih =>
      have hb := List.ne_of_not_mem_cons h
      have hline := List.not_mem_of_not_mem_cons h
      rw [split, if_neg (Ne.symm hb), ih hline]

/-- A text is split on both sides of a separator. -/
theorem split_append_sep (sep : UInt8) (before after : Bytes) :
    split sep (before ++ sep :: after) = split sep before ++ split sep after := by
  induction before with
  | nil =>
      rw [List.nil_append, split, split, if_pos rfl, List.singleton_append]
  | cons b before ih =>
      obtain ⟨part, parts, hsplit⟩ := List.exists_cons_of_ne_nil (split_ne_nil sep before)
      rw [hsplit, List.cons_append] at ih
      rw [List.cons_append, split, split, ih, hsplit]
      split <;> rfl

theorem split_append (h : sep ∉ line) (rest : Bytes) :
    split sep (line ++ sep :: rest) = line :: split sep rest := by
  rw [split_append_sep, split_of_not_mem h, List.singleton_append]

theorem split_join (hne : lines ≠ []) (h : ∀ line ∈ lines, sep ∉ line) :
    split sep (join [sep] lines) = lines := by
  induction lines with
  | nil => exact absurd rfl hne
  | cons line lines ih =>
      have hline := h line List.mem_cons_self
      by_cases hlast : lines = []
      · subst hlast
        exact split_of_not_mem hline
      · rw [join_cons _ _ hlast, List.append_assoc, List.singleton_append, split_append hline,
          ih hlast fun l hl => h l (List.mem_cons_of_mem line hl)]

theorem join_split (sep : UInt8) (text : Bytes) : join [sep] (split sep text) = text := by
  induction text with
  | nil => rfl
  | cons b rest ih =>
      obtain ⟨part, parts, hsplit⟩ := List.exists_cons_of_ne_nil (split_ne_nil sep rest)
      rw [split]
      split
      · next hb => rw [join_cons _ _ (split_ne_nil sep rest), ih, hb, List.nil_append,
          List.singleton_append]
      · rw [hsplit] at ih ⊢
        -- The byte goes to the front of the first part, whether or not others follow it.
        cases parts with
        | nil => exact congrArg (b :: ·) ih
        | cons next parts => exact congrArg (b :: ·) ih

theorem not_mem_of_mem_split {text : Bytes} (h : line ∈ split sep text) : sep ∉ line := by
  induction text generalizing line with
  | nil =>
      rw [split, List.mem_singleton] at h
      rw [h]
      exact List.not_mem_nil
  | cons b rest ih =>
      obtain ⟨part, parts, hsplit⟩ := List.exists_cons_of_ne_nil (split_ne_nil sep rest)
      rw [split] at h
      split at h
      · rcases List.mem_cons.mp h with rfl | h
        · exact List.not_mem_nil
        · exact ih h
      · next hb =>
          rw [hsplit] at h ih
          rcases List.mem_cons.mp h with rfl | h
          · exact List.not_mem_cons_of_ne_of_not_mem (Ne.symm hb) (ih List.mem_cons_self)
          · exact ih (List.mem_cons_of_mem part h)

/-- The lines of a text. Even an empty text has one. -/
structure IsLines (text : Bytes) (lines : List Bytes) : Prop where
  ne_nil : lines ≠ []
  join_eq : join [10] lines = text
  unbroken : ∀ line ∈ lines, 10 ∉ line

theorem isLines_iff {text : Bytes} : IsLines text lines ↔ split 10 text = lines := by
  constructor
  · rintro ⟨hne, rfl, hunbroken⟩
    exact split_join hne hunbroken
  · rintro rfl
    exact ⟨split_ne_nil 10 text, join_split 10 text, fun _ hline => not_mem_of_mem_split hline⟩

/-- A text in which one line has been replaced by another. -/
theorem IsLines.set {text : Bytes} (h : IsLines text lines) (n : Nat) (hline : 10 ∉ line) :
    IsLines (join [10] (lines.set n line)) (lines.set n line) := by
  refine ⟨?_, rfl, ?_⟩
  · rw [Ne, List.set_eq_nil_iff]
    exact h.ne_nil
  · intro l hl
    rcases List.mem_or_eq_of_mem_set hl with hl | rfl
    · exact h.unbroken l hl
    · exact hline

end StackStep.Bytes
