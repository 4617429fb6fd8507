import StackStep.Editor.Service
import StackStep.Proofs.Editor.IgnoringCase
import StackStep.Proofs.Editor.WordBounds

/-!
An offer that has been accepted.

Completing and explaining look at a document in different ways. The one goes to the left
only and compares the beginnings of names, the other goes to both sides and looks for a
name as a whole. They meet where an offer is accepted: the label takes the place of the
fragment it was offered for, and if the line went on there with anything but a word, the
label is now a whole word, whose explanation is what the offer said.

This is for names in capitals. They are made of word bytes, so that none of them ends
early, and they are their own upper case, so that the word found is the name looked for.
-/

namespace StackStep.Editor

/-! ### Names in capitals -/

def isCapital (b : UInt8) : Bool := (0x41 ≤ b && b ≤ 0x5A) || Bytes.isDigit b || b == 0x5F

theorem isWordByte_of_isCapital {b : UInt8} (h : isCapital b) : isWordByte b := by
  simp only [isCapital, Bool.or_eq_true] at h
  rcases h with (h | h) | h
  · simp [isWordByte, isLetterByte, h]
  · simp [isWordByte, h]
  · simp [isWordByte, h]

theorem lt_of_isCapital {b : UInt8} (h : isCapital b) : b < 0x61 := by
  simp only [isCapital, Bytes.isDigit, Bool.or_eq_true, Bool.and_eq_true, decide_eq_true_eq,
    beq_iff_eq, UInt8.le_iff_toNat_le, ← UInt8.toNat_inj] at h
  rw [UInt8.lt_iff_toNat_lt]
  simp only [UInt8.reduceToNat] at h ⊢
  omega

/-! ### Offers and explanations -/

def Completion.markdown (c : Completion) : Bytes :=
  ("**" : Bytes) ++ c.label ++ ("**\n\n`" : Bytes) ++ c.detail ++ ("`\n\n---\n\n" : Bytes) ++
    c.documentation

variable {r : Registry} {s : Service} {uri text label : Bytes} {p : Position}

/-- What is offered is what is explained, for names that are their own upper case. -/
theorem hover_of_mem_complete {fragment : Bytes} {item : Completion}
    (h : item ∈ complete r fragment) (hupper : ∀ name ∈ r.names, Text.upper name = name) :
    item.label ∈ r.names ∧ hover r item.label = some item.markdown := by
  rw [complete, List.mem_map] at h
  obtain ⟨e, he, rfl⟩ := h
  have hentry : e ∈ r.entries := List.mem_of_mem_filter he
  have hname : e.name ∈ r.names := List.mem_map_of_mem hentry
  refine ⟨hname, ?_⟩
  change hover r e.name = _
  rw [hover, hupper e.name hname, Registry.info?, Registry.find?_name hentry]
  rfl

theorem Service.of_completions {items : List Completion} (hopen : s.documents.find? uri = some text)
    (h : s.completions uri p = .completions items) :
    items = complete s.registry (fragmentAt text p) := by
  rw [completions, hopen] at h
  simp only at h
  split at h
  · cases h
  · split at h
    · cases h
    · cases h
      rfl

theorem Service.explanation_of_hover {markdown : Bytes}
    (hopen : s.documents.find? uri = some text) (hword : wordAt text p ≠ [])
    (h : hover s.registry (wordAt text p) = some markdown) :
    s.explanation uri p = .explanation markdown := by
  rw [explanation, hopen]
  simp only [if_neg hword, h]

/-! ### The line after accepting -/

/-- What takes the place of a fragment is a whole word, if no word goes on behind it. -/
theorem wholeWord_of_replaced {line : Bytes} {column : Nat} (hlabel : ∀ b ∈ label, isWordByte b)
    (hnext : ∀ b ∈ (line.drop column).head?, ¬isWordByte b) :
    let start := min column line.length - (trailing (line.take column)).length
    WholeWord (line.take start) label (line.drop column) ∧ (line.take start).length = start := by
  intro start
  obtain ⟨before, hbefore, hleft⟩ := exists_before (line.take column)
  have hlength := congrArg List.length hbefore
  rw [List.length_take, List.length_append] at hlength
  have hstart : start = before.length := by omega
  have htake : line.take start = before := by
    calc
      line.take start = (line.take column).take start := by
        rw [List.take_take, Nat.min_eq_left (by omega)]
      _ = (before ++ trailing (line.take column)).take before.length := by rw [← hbefore, hstart]
      _ = before := List.take_left
  rw [htake]
  exact ⟨⟨hlabel, hleft, hnext⟩, hstart.symm⟩

theorem not_mem_replaced {line : Bytes} (hline : 10 ∉ line) (hlabel : ∀ b ∈ label, isWordByte b)
    (start column : Nat) : 10 ∉ line.take start ++ label ++ line.drop column := by
  intro hmem
  rcases List.mem_append.mp hmem with hmem | hmem
  · rcases List.mem_append.mp hmem with hmem | hmem
    · exact hline (List.mem_of_mem_take hmem)
    · exact absurd (hlabel 10 hmem) (by decide)
  · exact hline (List.mem_of_mem_drop hmem)

/-- An accepted offer is explained as it was offered. Let all registered names be in
capitals, and let an offer be made at a position of an open document behind which no word
goes on. With the label in place of the fragment, the word at every column from the start
of the label to its end is the label, and a request to explain it there is answered by
what the offer said. -/
theorem accepted_offer_explained {lines : List Bytes} {line : Bytes} {items : List Completion}
    {item : Completion} (hnames : ∀ name ∈ s.registry.names, ∀ b ∈ name, isCapital b)
    (hopen : s.documents.find? uri = some text) (hlines : Bytes.IsLines text lines)
    (hline : lines[p.line.toNat]? = some line)
    (hnext : ∀ b ∈ (line.drop p.character.toNat).head?, ¬isWordByte b)
    (hoffers : (s.answer (.completion uri p)).1 = .completions items) (hitem : item ∈ items) :
    let column := min p.character.toNat line.length
    let start := column - (fragmentAt text p).length
    let edited := Bytes.join [10]
      (lines.set p.line.toNat (line.take start ++ item.label ++ line.drop column))
    ∀ q : Position, q.line = p.line → start ≤ q.character.toNat →
      q.character.toNat ≤ start + item.label.length →
      wordAt edited q = item.label ∧
      ∀ (s' : Service) (uri' : Bytes), s'.registry = s.registry →
        s'.documents.find? uri' = some edited →
        (s'.answer (.hover uri' q)).1 = .explanation item.markdown := by
  intro column start edited q hq hlow hhigh
  have hupper : ∀ name ∈ s.registry.names, Text.upper name = name := fun name hname =>
    Text.upper_of_lt fun b hb => lt_of_isCapital (hnames name hname b hb)
  rw [Service.of_completions hopen hoffers] at hitem
  obtain ⟨hname, hhover⟩ := hover_of_mem_complete hitem hupper
  have hlabel : ∀ b ∈ item.label, isWordByte b := fun b hb =>
    isWordByte_of_isCapital (hnames item.label hname b hb)
  have hfragment : fragmentAt text p = trailing (line.take p.character.toNat) :=
    fragmentAt_of_line (by rwa [Bytes.isLines_iff.mp hlines])
  obtain ⟨hwhole, hlength⟩ := wholeWord_of_replaced hlabel hnext
  rw [← hfragment] at hwhole hlength
  have hword : wordAt edited q = item.label := by
    have hunbroken : 10 ∉ line := hlines.unbroken line (List.mem_of_getElem? hline)
    have hset := hlines.set p.line.toNat (not_mem_replaced hunbroken hlabel start column)
    have hdrop : line.drop p.character.toNat = line.drop column := List.drop_eq_drop_min
    have hthere : (Bytes.split 10 edited)[q.line.toNat]? =
        some (line.take start ++ item.label ++ line.drop p.character.toNat) := by
      rw [Bytes.isLines_iff.mp hset, hq, hdrop]
      exact List.getElem?_set_self (List.getElem?_eq_some_iff.mp hline).1
    refine hwhole.wordAt hthere ?_ (.inl ?_)
    · rw [hlength]
      exact hlow
    · rw [hlength]
      exact hhigh
  refine ⟨hword, ?_⟩
  intro s' uri' hregistry hedited
  refine Service.explanation_of_hover hedited ?_ ?_
  · rw [hword]
    exact ne_nil_of_mem_names hname
  · rw [hword, hregistry]
    exact hhover

/-- A fragment in small letters before a blank. The offer is accepted by sending the whole
new text, and explained at the end of its label. -/
theorem accepted_offer_explained_small :
    let s : Service :=
      { registry := .builtin, name := [], documents := ({} : Dict Bytes).insert "u" "END\n.lo 7" }
    let item : Completion := .ofInfo Opcode.text.info
    let s' := (s.answer (.didChange "u" [.whole "END\n.LOAD_STRING 7"])).2
    (∃ items, (s.answer (.completion "u" ⟨1, 3⟩)).1 = .completions items ∧ item ∈ items) ∧
      (s'.answer (.hover "u" ⟨1, 12⟩)).1 = .explanation item.markdown := by
  intro s item s'
  have hcapital : Registry.builtin.names.all (·.all isCapital) := by decide +kernel
  have hnames : ∀ name ∈ s.registry.names, ∀ b ∈ name, isCapital b := fun name hname =>
    List.all_eq_true.mp (List.all_eq_true.mp hcapital name hname)
  have hlines : Bytes.IsLines "END\n.lo 7" ["END", ".lo 7"] :=
    Bytes.isLines_iff.mpr (by decide +kernel)
  have hoffers : (s.answer (.completion "u" ⟨1, 3⟩)).1 =
      .completions (complete .builtin "lo") := by decide +kernel
  have hitem : item ∈ complete .builtin "lo" := by decide +kernel
  have hnext : ∀ b ∈ ((Bytes.ofString ".lo 7").drop 3).head?, ¬isWordByte b := by
    rintro _ ⟨⟩
    decide
  have hopen : s.documents.find? "u" = some (Bytes.ofString "END\n.lo 7") := by decide +kernel
  refine ⟨⟨_, hoffers, hitem⟩, ?_⟩
  have h := accepted_offer_explained (p := ⟨1, 3⟩) hnames hopen hlines rfl hnext hoffers hitem
    ⟨1, 12⟩ rfl (by decide +kernel) (by decide +kernel)
  exact h.2 s' "u" rfl (by decide +kernel)

end StackStep.Editor
