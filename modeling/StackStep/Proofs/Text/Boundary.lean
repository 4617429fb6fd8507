import StackStep.Proofs.Text.Lines
import StackStep.Proofs.Text.Utf8

/-!
Between characters.

The first byte of a character is never a continuation byte and all others are, so the
bytes tell where a character begins. Valid text that is cut in front of a byte which is
not a continuation byte is cut between two characters, and both parts are valid
(`exists_chars_of_append`). In particular the lines of valid text are valid.
-/

namespace StackStep.Utf8

variable {bs s t : Bytes}

theorem valid_ofChars (cs : List Char) : valid (ofChars cs) := by
  have hpieces := pieces_ofChars_append cs []
  rw [List.append_nil] at hpieces
  rw [valid, hpieces]
  simp [pieces]

theorem ofChars_injective {cs ds : List Char} (h : ofChars cs = ofChars ds) : cs = ds := by
  have hcs := pieces_ofChars_append cs []
  rw [h, pieces_ofChars_append ds [], List.append_cancel_right_eq] at hcs
  exact ((List.map_inj_right fun _ _ => Piece.char.inj).mp hcs).symm

theorem ofChars_cons (c : Char) (cs : List Char) : ofChars (c :: cs) = encode c ++ ofChars cs :=
  List.flatMap_cons

theorem ofChars_singleton (c : Char) : ofChars [c] = encode c := by
  rw [ofChars_cons]
  exact List.append_nil _

theorem ofChars_append (cs ds : List Char) : ofChars (cs ++ ds) = ofChars cs ++ ofChars ds :=
  List.flatMap_append

theorem valid_encode (c : Char) : valid (encode c) := by
  rw [← ofChars_singleton]
  exact valid_ofChars [c]

theorem valid_encode_append (c : Char) (rest : Bytes) : valid (encode c ++ rest) ↔ valid rest := by
  rw [valid, pieces_encode_append, List.all_cons, Bool.true_and]
  rfl

theorem exists_chars (h : valid bs) : ∃ cs, bs = ofChars cs := by
  rw [valid, List.all_eq_true] at h
  suffices hchars : ∃ cs, ofPieces (pieces bs) = ofChars cs by rwa [ofPieces_pieces] at hchars
  generalize pieces bs = ps at h ⊢
  induction ps with
  | nil => exact ⟨[], rfl⟩
  | cons piece ps ih =>
      obtain ⟨cs, hcs⟩ := ih fun q hq => h q (List.mem_cons_of_mem piece hq)
      cases piece with
      | stray b => cases h (.stray b) List.mem_cons_self
      | char c =>
          refine ⟨c :: cs, ?_⟩
          rw [ofPieces, List.flatMap_cons, ← ofPieces, hcs]
          rfl

theorem encode_lead (c : Char) :
    ∃ lead rest, encode c = lead :: rest ∧ ¬isContinuation lead ∧ ∀ b ∈ rest, isContinuation b := by
  have hmax := toNat_lt c
  rw [encode_eq]
  split
  · refine ⟨_, _, rfl, ?_⟩
    simp only [isContinuation_iff, UInt8.toNat_ofNat', List.not_mem_nil, false_imp_iff,
      implies_true, and_true]
    omega
  · split
    · refine ⟨_, _, rfl, ?_⟩
      simp only [isContinuation_iff, UInt8.toNat_ofNat', List.mem_singleton, forall_eq]
      omega
    · split
      · refine ⟨_, _, rfl, ?_⟩
        simp only [isContinuation_iff, UInt8.toNat_ofNat', List.mem_cons, List.not_mem_nil,
          or_false, forall_eq_or_imp, forall_eq]
        omega
      · refine ⟨_, _, rfl, ?_⟩
        simp only [isContinuation_iff, UInt8.toNat_ofNat', List.mem_cons, List.not_mem_nil,
          or_false, forall_eq_or_imp, forall_eq]
        omega

/-- A cut inside a character is in front of a continuation byte. -/
theorem isContinuation_of_split {c : Char} (h : encode c = s ++ t) (hs : s ≠ []) :
    ∀ b ∈ t.head?, isContinuation b := by
  obtain ⟨lead, rest, hencode, -, hrest⟩ := encode_lead c
  obtain ⟨a, s, rfl⟩ := List.exists_cons_of_ne_nil hs
  rw [hencode, List.cons_append, List.cons.injEq] at h
  intro b hb
  refine hrest b ?_
  rw [h.2]
  exact List.mem_append_right s (List.mem_of_mem_head? hb)

/-- Valid text does not begin inside a character. -/
theorem not_isContinuation_of_valid (h : valid bs) : ∀ b ∈ bs.head?, ¬isContinuation b := by
  obtain ⟨cs, rfl⟩ := exists_chars h
  cases cs with
  | nil => simp [ofChars]
  | cons c cs =>
      obtain ⟨lead, rest, hencode, hlead, -⟩ := encode_lead c
      rw [ofChars_cons, hencode]
      rintro _ ⟨⟩
      exact hlead

/-- A cut in front of a byte that is no continuation byte is one between characters. -/
theorem exists_chars_of_append (h : valid (s ++ t)) (ht : ∀ b ∈ t.head?, ¬isContinuation b) :
    ∃ cs ds, s = ofChars cs ∧ t = ofChars ds := by
  obtain ⟨es, hes⟩ := exists_chars h
  clear h
  induction es generalizing s with
  | nil =>
      obtain ⟨rfl, rfl⟩ := List.append_eq_nil_iff.mp hes
      exact ⟨[], [], rfl, rfl⟩
  | cons e es ih =>
      rw [ofChars_cons] at hes
      rcases List.append_eq_append_iff.mp hes with ⟨u, hencode, rfl⟩ | ⟨u, rfl, hrest⟩
      · -- The cut is in front of this character, inside it or behind it, and not inside.
        by_cases hs : s = []
        · subst hs
          refine ⟨[], e :: es, rfl, ?_⟩
          rw [ofChars_cons, hencode, List.nil_append]
        · cases u with
          | nil =>
              refine ⟨[e], es, ?_, rfl⟩
              rw [ofChars_singleton, hencode, List.append_nil]
          | cons b u => exact absurd (isContinuation_of_split hencode hs b rfl) (ht b rfl)
      · obtain ⟨cs, ds, rfl, rfl⟩ := ih hrest.symm
        exact ⟨e :: cs, ds, rfl, rfl⟩

theorem valid_append_iff (ht : ∀ b ∈ t.head?, ¬isContinuation b) :
    valid (s ++ t) ↔ valid s ∧ valid t := by
  constructor
  · intro h
    obtain ⟨cs, ds, rfl, rfl⟩ := exists_chars_of_append h ht
    exact ⟨valid_ofChars cs, valid_ofChars ds⟩
  · rintro ⟨hs, ht⟩
    exact valid_append hs ht

/-- No part of a character is valid. -/
theorem not_valid_of_split {c : Char} (h : encode c = s ++ t) (hs : s ≠ []) (ht : t ≠ []) :
    ¬valid s ∧ ¬valid t := by
  have hinside := isContinuation_of_split h hs
  have hright : ¬valid t := by
    intro hvalid
    obtain ⟨b, t, rfl⟩ := List.exists_cons_of_ne_nil ht
    exact not_isContinuation_of_valid hvalid b rfl (hinside b rfl)
  refine ⟨?_, hright⟩
  intro hvalid
  have hwhole := valid_encode c
  rw [h, valid, pieces_append hvalid, List.all_append, Bool.and_eq_true] at hwhole
  exact hright hwhole.2

/-- The lines of valid text are valid. -/
theorem valid_of_isLines {lines : List Bytes} {line : Bytes} (h : valid bs)
    (hlines : Bytes.IsLines bs lines) (hline : line ∈ lines) : valid line := by
  obtain ⟨-, rfl, -⟩ := hlines
  induction lines with
  | nil => cases hline
  | cons l lines ih =>
      by_cases hlast : lines = []
      · subst hlast
        rwa [List.mem_singleton.mp hline]
      · have hbreak : ∀ b ∈ (10 :: Bytes.join [10] lines).head?, ¬isContinuation b := by
          rintro _ ⟨⟩
          decide
        rw [Bytes.join_cons _ _ hlast, List.append_assoc, List.singleton_append,
          valid_append_iff hbreak] at h
        rcases List.mem_cons.mp hline with rfl | hline
        · exact h.1
        · have hrest := h.2
          rw [valid, pieces_one (show (10 : UInt8) < 0x80 by decide)] at hrest
          exact ih hline hrest

end StackStep.Utf8
