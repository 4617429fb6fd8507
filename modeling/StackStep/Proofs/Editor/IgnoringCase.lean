import StackStep.Editor.Help
import StackStep.Proofs.Registry
import StackStep.Proofs.Text.Utf8

/-!
Completing and explaining without regard to case.

The fragment or the word is put into upper case and compared with the names as they are
registered. This ignores case if the names are in upper case themselves, and a registry
asks for nothing of the kind. For names that are not, it fails in the plainest way: such
a name is not even offered to complete itself. So the condition that all names are their
own upper case is not only enough but needed.

That it is needed rests on upper case being taken character by character. The upper case
of a text has as many characters as the text, so a text which begins with its own upper
case is equal to it.
-/

namespace StackStep

theorem Bytes.startsWith_iff {bs start : Bytes} : bs.startsWith start ↔ start <+: bs := by
  rw [startsWith, Option.isSome_iff_exists]
  constructor
  · rintro ⟨rest, h⟩
    exact ⟨rest, (eq_append_of_after? h).symm⟩
  · rintro ⟨rest, rfl⟩
    exact ⟨rest, after?_append start rest⟩

/-! ### Upper case, character by character -/

namespace Text

def upperPiece : Utf8.Piece → Char
  | .char c => upperChar c
  | .stray _ => Utf8.replacement

theorem upper_eq_ofChars (bs : Bytes) :
    upper bs = Utf8.ofChars ((Utf8.pieces bs).map upperPiece) := by
  rw [upper, Utf8.ofChars, List.flatMap_map]
  congr 1
  funext piece
  cases piece with
  | char c => rfl
  | stray b => rfl

theorem pieces_upper (bs : Bytes) :
    Utf8.pieces (upper bs) = ((Utf8.pieces bs).map upperPiece).map .char := by
  rw [upper_eq_ofChars, ← List.append_nil (Utf8.ofChars _), Utf8.pieces_ofChars_append]
  exact List.append_nil _

theorem valid_upper (bs : Bytes) : Utf8.valid (upper bs) := by
  rw [Utf8.valid, pieces_upper]
  simp

theorem count_upper (bs : Bytes) : Utf8.count (upper bs) = Utf8.count bs := by
  rw [Utf8.count, pieces_upper, List.length_map, List.length_map, Utf8.count]

theorem upper_append {s : Bytes} (h : Utf8.valid s) (t : Bytes) :
    upper (s ++ t) = upper s ++ upper t := by
  rw [upper, Utf8.pieces_append h, List.flatMap_append]
  rfl

/-- Every run of the table begins at the letter `a` or behind it. -/
theorem upperChar_of_lt {c : Char} (h : c.toNat < 0x61) : upperChar c = c := by
  have hlow : upperRuns.all fun run => 0x61 ≤ run.low := by decide +kernel
  have hstays : upperRuns.find? (·.moves c.toNat) = none := by
    refine List.find?_eq_none.mpr fun run hrun hmoves => ?_
    have hrunLow := of_decide_eq_true (List.all_eq_true.mp hlow run hrun)
    simp only [CaseRun.moves, Bool.and_eq_true, decide_eq_true_eq] at hmoves
    omega
  rw [upperChar, hstays]

/-- Without small letters and what lies behind them, a text is its own upper case. -/
theorem upper_of_lt {bs : Bytes} (h : ∀ b ∈ bs, b < 0x61) : upper bs = bs := by
  have hascii : ∀ b ∈ bs, b < 0x80 := fun b hb => UInt8.lt_trans (h b hb) (by decide)
  have hstays : ∀ b ∈ bs, Utf8.encode (upperChar (Char.ofNat b.toNat)) = [b] := by
    intro b hb
    have hlt : b.toNat < 0x61 := UInt8.lt_iff_toNat_lt.mp (h b hb)
    rw [upperChar_of_lt (by rwa [Utf8.toNat_ofNat_ascii (hascii b hb)]),
      Utf8.encode_ascii (hascii b hb)]
  rw [upper, Utf8.pieces_ascii hascii, List.flatMap_map, List.flatMap_def,
    List.map_congr_left hstays, ← List.flatMap_def, List.flatMap_singleton']

theorem eq_nil_of_count {bs : Bytes} (h : Utf8.count bs = 0) : bs = [] := by
  rw [← Utf8.ofPieces_pieces bs, List.length_eq_zero_iff.mp h]
  rfl

/-- A text that begins with its own upper case is all of it. -/
theorem upper_eq_self_of_isPrefix {bs : Bytes} (h : upper bs <+: bs) : upper bs = bs := by
  obtain ⟨rest, hrest⟩ := h
  have hcount : Utf8.count (upper bs ++ rest) = Utf8.count bs + Utf8.count rest := by
    rw [Utf8.count_append (valid_upper bs), count_upper]
  rw [hrest] at hcount
  have hnil : rest = [] := eq_nil_of_count (by omega)
  rwa [hnil, List.append_nil] at hrest

end Text

/-! ### Offers and explanations -/

namespace Editor

open Text (upper)

variable {r : Registry} {fragment word name : Bytes}

def offers (r : Registry) (fragment : Bytes) : List Bytes :=
  (complete r fragment).map Completion.label

theorem offers_eq_filter (r : Registry) (fragment : Bytes) :
    offers r fragment = r.names.filter fun name => name.startsWith (upper fragment) := by
  rw [offers, complete, Registry.names, List.map_map, List.filter_map]
  rfl

theorem mem_offers_iff (hname : name ∈ r.names) :
    name ∈ offers r fragment ↔ upper fragment <+: name := by
  rw [offers_eq_filter, List.mem_filter, Bytes.startsWith_iff]
  exact and_iff_right hname

theorem isSome_hover_iff : (hover r word).isSome ↔ upper word ∈ r.names := by
  rw [hover, Registry.info?, Option.isSome_map, Option.isSome_map]
  exact Registry.isSome_find?_iff

/-- What it would be to ignore the case of a registered name. -/
structure IgnoresCase (r : Registry) (name : Bytes) : Prop where
  offered_iff : ∀ fragment, fragment ≠ [] →
    (name ∈ offers r fragment ↔ upper fragment <+: upper name)
  explained : ∀ word, upper word = upper name → (hover r word).isSome

theorem ne_nil_of_mem_names (hname : name ∈ r.names) : name ≠ [] := by
  obtain ⟨e, he, rfl⟩ := List.mem_map.mp hname
  exact r.named e he

theorem ignoresCase_iff (hname : name ∈ r.names) : IgnoresCase r name ↔ upper name = name := by
  constructor
  · intro h
    have hoffered := (h.offered_iff name (ne_nil_of_mem_names hname)).mpr (List.prefix_refl _)
    exact Text.upper_eq_self_of_isPrefix ((mem_offers_iff hname).mp hoffered)
  · intro hupper
    refine ⟨fun fragment _ => ?_, fun word hword => ?_⟩
    · rw [mem_offers_iff hname, hupper]
    · rw [isSome_hover_iff, hword, hupper]
      exact hname

/-- A name in upper case is offered for its beginnings that do not end inside a character. -/
theorem offered_of_isPrefix (hname : name ∈ r.names) (hupper : upper name = name)
    (hvalid : Utf8.valid fragment) (hhead : fragment <+: name) : name ∈ offers r fragment := by
  obtain ⟨rest, hrest⟩ := hhead
  rw [mem_offers_iff hname]
  refine ⟨upper rest, ?_⟩
  rw [← Text.upper_append hvalid, hrest, hupper]

/-- Completing and explaining ignore case exactly where the registered names are in upper
case. Every registry offers names in its own order and none of them twice. It ignores the
case of all its names if and only if each is its own upper case, and a name that is gets
offered for all its beginnings that do not end inside a character, and is explained. -/
theorem ignores_case_iff_upper (r : Registry) :
    (∀ fragment, (offers r fragment).Sublist r.names ∧ (offers r fragment).Nodup) ∧
    ((∀ name ∈ r.names, IgnoresCase r name) ↔ ∀ name ∈ r.names, upper name = name) ∧
    ∀ name ∈ r.names, upper name = name →
      (hover r name).isSome ∧
      ∀ fragment, Utf8.valid fragment → fragment <+: name → name ∈ offers r fragment := by
  refine ⟨fun fragment => ?_, ?_, ?_⟩
  · rw [offers_eq_filter]
    exact ⟨List.filter_sublist, r.distinct.sublist List.filter_sublist⟩
  · constructor
    · exact fun h name hname => (ignoresCase_iff hname).mp (h name hname)
    · exact fun h name hname => (ignoresCase_iff hname).mpr (h name hname)
  · intro name hname hupper
    refine ⟨((ignoresCase_iff hname).mpr hupper).explained name rfl, ?_⟩
    intro fragment hvalid hhead
    exact offered_of_isPrefix hname hupper hvalid hhead

/-- Letters beyond ASCII whose upper case is an ASCII letter. -/
theorem ignores_case_iff_upper_builtin :
    (∀ name ∈ Registry.builtin.names, upper name = name) ∧
      (hover Registry.builtin "load_ſtring").isSome ∧
      Bytes.ofString "BINARY_ADD" ∈ offers Registry.builtin "bı" ∧
      Bytes.ofString "END" ∈ offers Registry.builtin "EN" := by
  have hcapital : Registry.builtin.names.all (·.all (· < 0x61)) := by decide +kernel
  have hupper : ∀ name ∈ Registry.builtin.names, upper name = name := fun name hname =>
    Text.upper_of_lt fun b hb =>
      of_decide_eq_true (List.all_eq_true.mp (List.all_eq_true.mp hcapital name hname) b hb)
  obtain ⟨-, hiff, hbeginnings⟩ := ignores_case_iff_upper Registry.builtin
  have hignores := hiff.mpr hupper
  refine ⟨hupper, ?_, ?_, ?_⟩
  · exact (hignores "LOAD_STRING" (by decide +kernel)).explained "load_ſtring" (by decide +kernel)
  · refine ((hignores "BINARY_ADD" (by decide +kernel)).offered_iff "bı" (by decide)).mpr ?_
    decide +kernel
  · exact (hbeginnings "END" (by decide +kernel) (by decide +kernel)).2 "EN" (by decide) (by decide)

/-- A registry of one name in lower case. The name is not offered for its first letter, and
not explained. -/
theorem lower_case_not_ignored :
    let row : Row := ⟨⟨"nop", 0, 0, [], []⟩, some fun _ st => .done st.advance⟩
    ∃ r, Registry.ofRows [row] = .ok r ∧ Bytes.ofString "nop" ∈ r.names ∧
      upper "n" <+: upper "nop" ∧ Bytes.ofString "nop" ∉ offers r "n" ∧ hover r "nop" = none ∧
      ¬∀ name ∈ r.names, IgnoresCase r name := by
  intro row
  have hupper : upper "n" <+: upper "nop" := by decide +kernel
  refine ⟨_, rfl, List.mem_singleton.mpr rfl, hupper, ?_, ?_, ?_⟩
  · decide +kernel
  · decide +kernel
  · intro h
    have hignores := h "nop" (List.mem_singleton.mpr rfl)
    have hoffered := (hignores.offered_iff "n" (by decide)).mpr hupper
    exact absurd hoffered (by decide +kernel)

end Editor

end StackStep
