import Mathlib.Data.Nat.Digits.Defs
import Mathlib.Tactic.Ring
import StackStep.Proofs.Machine.Step
import StackStep.Proofs.Text.Numeral

/-!
The grammar of integer arguments.

An integer is a sign or none and one or more digits. `Literal text z` is this grammar,
with the number that a text stands for, and it knows nothing of words, of their range
or of how a text is read. Reading is then held against it: what is read, what is out
of range and what is malformed, for texts of any length.

A text that is not an integer is malformed, unless the integer it begins with is so
large that reading stops inside it. What counts there are the digits alone, since the
sign has been put aside before they are read.
-/

namespace StackStep

namespace Numeral

/-! ### Digits -/

def value (ds : Bytes) : Nat := Nat.ofDigits 10 (ds.reverse.map fun b => b.toNat - 48)

theorem value_nil : value [] = 0 := rfl

theorem value_append (ds es : Bytes) : value (ds ++ es) = value ds * 10 ^ es.length + value es := by
  simp only [value, List.reverse_append, List.map_append, Nat.ofDigits_append, List.length_map,
    List.length_reverse]
  ring

theorem value_cons (b : UInt8) (ds : Bytes) :
    value (b :: ds) = (b.toNat - 48) * 10 ^ ds.length + value ds := by
  have hone : value [b] = b.toNat - 48 := by simp [value]
  rw [← List.singleton_append, value_append, hone]

structure IsDigits (ds : Bytes) : Prop where
  ne_nil : ds ≠ []
  all : ∀ b ∈ ds, Bytes.isDigit b

instance (ds : Bytes) : Decidable (IsDigits ds) :=
  decidable_of_iff (ds ≠ [] ∧ ds.all Bytes.isDigit)
    ⟨fun h => ⟨h.1, List.all_eq_true.mp h.2⟩, fun h => ⟨h.ne_nil, List.all_eq_true.mpr h.all⟩⟩

theorem IsDigits.takeWhile_append {ds : Bytes} (h : IsDigits ds) (rest : Bytes) :
    (ds ++ rest).takeWhile Bytes.isDigit = ds ++ rest.takeWhile Bytes.isDigit :=
  List.takeWhile_append_of_pos h.all

theorem IsDigits.takeWhile {ds : Bytes} (h : IsDigits ds) :
    ds.takeWhile Bytes.isDigit = ds := by
  simpa using h.takeWhile_append []

/-- What the digits at the head of a text come to, after a number `m`. -/
theorem magnitude_eq {m : Nat} (hm : m < 0x10000000000000000) (bs : Bytes) :
    magnitude m bs =
      if 0x10000000000000000 ≤
          m * 10 ^ (bs.takeWhile Bytes.isDigit).length + value (bs.takeWhile Bytes.isDigit) then
        .error .outOfRange
      else if bs.all Bytes.isDigit then .ok (m * 10 ^ bs.length + value bs)
      else .error .malformed := by
  induction bs generalizing m with
  | nil => simp [magnitude, value_nil, hm]
  | cons b bs ih =>
      simp only [magnitude]
      split
      · next hdigit =>
          have hstep (ds : Bytes) : m * 10 ^ (b :: ds).length + value (b :: ds) =
              (m * 10 + (b.toNat - 48)) * 10 ^ ds.length + value ds := by
            rw [value_cons, List.length_cons]
            ring
          rw [List.takeWhile_cons_of_pos hdigit, hstep, hstep]
          split
          · next hfits =>
              rw [ih hfits]
              simp [hdigit]
          · next hlarge =>
              have hpos : 0 < 10 ^ (bs.takeWhile Bytes.isDigit).length := Nat.pow_pos (by decide)
              have hgrows := Nat.le_mul_of_pos_right (m * 10 + (b.toNat - 48)) hpos
              rw [if_pos (by omega)]
      · next hother =>
          have hsome : ¬(b :: bs).all Bytes.isDigit :=
            fun h => hother (List.all_eq_true.mp h b List.mem_cons_self)
          rw [List.takeWhile_cons_of_neg hother, if_neg hsome]
          simp [value_nil, hm]

/-! ### Signs -/

def sign : Bytes → Bytes
  | 43 :: _ => [43]
  | 45 :: _ => [45]
  | _ => []

def body (text : Bytes) : Bytes := text.drop (sign text).length

def amount (sign : Bytes) (n : Nat) : Int := if sign = [45] then -(n : Int) else n

theorem natAbs_amount (sign : Bytes) (n : Nat) : (amount sign n).natAbs = n := by
  unfold amount
  split
  · omega
  · omega

theorem sign_append_body (text : Bytes) : sign text ++ body text = text := by
  unfold body sign
  split
  · rfl
  · rfl
  · rfl

theorem sign_of_isDigits {ds : Bytes} (h : IsDigits ds) (rest : Bytes) :
    sign (ds ++ rest) = [] := by
  obtain ⟨b, ds, rfl⟩ := List.exists_cons_of_ne_nil h.ne_nil
  have hdigit : Bytes.isDigit b := h.all b List.mem_cons_self
  unfold sign
  split
  · next heq =>
      cases heq
      cases hdigit
  · next heq =>
      cases heq
      cases hdigit
  · rfl

/-- A sign or none, and digits, with the number that this stands for. -/
inductive Literal : Bytes → Int → Prop where
  | plain {ds : Bytes} (h : IsDigits ds) : Literal ds (value ds)
  | plus {ds : Bytes} (h : IsDigits ds) : Literal (43 :: ds) (value ds)
  | minus {ds : Bytes} (h : IsDigits ds) : Literal (45 :: ds) (-(value ds : Int))

theorem literal_append (text : Bytes) {ds : Bytes} (h : IsDigits ds) :
    Literal (sign text ++ ds) (amount (sign text) (value ds)) := by
  unfold sign
  split
  · exact .plus h
  · exact .minus h
  · exact .plain h

/-- An integer at the head of a text has the sign of the text and some of its first
digits. -/
theorem Literal.of_isPrefix {text part : Bytes} {z : Int} (h : Literal part z)
    (hhead : part <+: text) :
    ∃ ds, IsDigits ds ∧ ds <+: (body text).takeWhile Bytes.isDigit ∧ part = sign text ++ ds ∧
      z = amount (sign text) (value ds) := by
  obtain ⟨rest, rfl⟩ := hhead
  have hfront {ds : Bytes} (hds : IsDigits ds) :
      ds <+: (ds ++ rest).takeWhile Bytes.isDigit := by
    rw [hds.takeWhile_append]
    exact List.prefix_append _ _
  cases h with
  | plain hds =>
      have hsign := sign_of_isDigits hds rest
      refine ⟨part, hds, ?_, ?_, ?_⟩
      · rw [body, hsign]
        exact hfront hds
      · rw [hsign, List.nil_append]
      · rw [hsign]
        rfl
  | plus hds => exact ⟨_, hds, hfront hds, rfl, rfl⟩
  | minus hds => exact ⟨_, hds, hfront hds, rfl, rfl⟩

theorem literal_iff {text : Bytes} {z : Int} :
    Literal text z ↔ IsDigits (body text) ∧ z = amount (sign text) (value (body text)) := by
  constructor
  · intro h
    obtain ⟨ds, hds, -, htext, hz⟩ := h.of_isPrefix (List.prefix_refl text)
    have hbody : body text = ds := by
      rw [body]
      nth_rewrite 2 [htext]
      exact List.drop_left
    rw [hbody]
    exact ⟨hds, hz⟩
  · rintro ⟨hbody, rfl⟩
    have h := literal_append text hbody
    rwa [sign_append_body] at h

theorem Literal.unique {text : Bytes} {z w : Int} (hz : Literal text z) (hw : Literal text w) :
    z = w :=
  (literal_iff.mp hz).2.trans (literal_iff.mp hw).2.symm

structure LongestPrefix (text part : Bytes) (z : Int) : Prop where
  isPrefix : part <+: text
  literal : Literal part z
  longest : ∀ other w, other <+: text → Literal other w → other.length ≤ part.length

theorem longestPrefix_iff {text part : Bytes} {z : Int} :
    LongestPrefix text part z ↔
      (body text).takeWhile Bytes.isDigit ≠ [] ∧
        part = sign text ++ (body text).takeWhile Bytes.isDigit ∧
        z = amount (sign text) (value ((body text).takeWhile Bytes.isDigit)) := by
  have hwhole : sign text ++ (body text).takeWhile Bytes.isDigit <+: text := by
    refine ⟨(body text).dropWhile Bytes.isDigit, ?_⟩
    rw [List.append_assoc, List.takeWhile_append_dropWhile, sign_append_body]
  have hdigits (hne : (body text).takeWhile Bytes.isDigit ≠ []) :
      IsDigits ((body text).takeWhile Bytes.isDigit) :=
    ⟨hne, List.all_eq_true.mp List.all_takeWhile⟩
  constructor
  · rintro ⟨hhead, hliteral, hlongest⟩
    obtain ⟨ds, hds, hfront, rfl, rfl⟩ := hliteral.of_isPrefix hhead
    have hne : (body text).takeWhile Bytes.isDigit ≠ [] := by
      intro hnil
      rw [hnil, List.prefix_nil] at hfront
      exact hds.ne_nil hfront
    have hlength := hlongest _ _ hwhole (literal_append text (hdigits hne))
    rw [List.length_append, List.length_append] at hlength
    rw [hfront.eq_of_length_le (by omega)]
    exact ⟨hne, rfl, rfl⟩
  · rintro ⟨hne, rfl, rfl⟩
    refine ⟨hwhole, literal_append text (hdigits hne), ?_⟩
    intro other w hother hliteral
    obtain ⟨ds, -, hfront, rfl, -⟩ := hliteral.of_isPrefix hother
    have hlength := hfront.length_le
    rw [List.length_append, List.length_append]
    omega

/-! ### Reading -/

def Fits (z : Int) : Prop := -2 ^ 63 ≤ z ∧ z ≤ 2 ^ 63 - 1

instance (z : Int) : Decidable (Fits z) := inferInstanceAs (Decidable (_ ∧ _))

theorem withSign_eq (sign : Bytes) (n : Nat) :
    withSign (sign = [45]) n =
      if Fits (amount sign n) then .ok (Int64.ofInt (amount sign n)) else .error .outOfRange := by
  unfold withSign amount Fits
  by_cases hsign : sign = [45]
  · simp only [hsign, decide_true, if_true]
    congr 1
    rw [eq_iff_iff]
    omega
  · simp only [hsign, decide_false, if_false, Bool.false_eq_true]
    congr 1
    rw [eq_iff_iff]
    omega

theorem signed_eq_digits (text : Bytes) :
    signed text = digits (body text) >>= withSign (sign text = [45]) := by
  unfold signed
  split
  · rfl
  · rfl
  · next hplus hminus =>
      have hsign : sign text = [] := sign.eq_3 text hplus hminus
      rw [body, hsign]
      rfl

theorem digits_eq (bs : Bytes) :
    digits bs =
      if 2 ^ 64 ≤ value (bs.takeWhile Bytes.isDigit) then .error .outOfRange
      else if IsDigits bs then .ok (value bs)
      else .error .malformed := by
  cases bs with
  | nil => rfl
  | cons b bs =>
      have hdigits : (b :: bs).all Bytes.isDigit ↔ IsDigits (b :: bs) :=
        List.all_eq_true.trans ⟨fun h => ⟨List.cons_ne_nil b bs, h⟩, IsDigits.all⟩
      have hread : digits (b :: bs) = magnitude 0 (b :: bs) := rfl
      rw [hread, magnitude_eq (by decide), Nat.zero_mul, Nat.zero_add, Nat.zero_mul, Nat.zero_add]
      simp only [hdigits]
      rfl

/-- What reading a text comes to. -/
theorem signed_eq (text : Bytes) :
    signed text =
      if 2 ^ 64 ≤ value ((body text).takeWhile Bytes.isDigit) then .error .outOfRange
      else if IsDigits (body text) then
        if Fits (amount (sign text) (value (body text))) then
          .ok (Int64.ofInt (amount (sign text) (value (body text))))
        else .error .outOfRange
      else .error .malformed := by
  rw [signed_eq_digits, digits_eq]
  split
  · rfl
  · split
    · exact withSign_eq (sign text) (value (body text))
    · rfl

/-- The text begins with an integer whose digits alone pass the range. -/
def Overflows (text : Bytes) : Prop :=
  ∃ part z, LongestPrefix text part z ∧ 2 ^ 64 - 1 < z.natAbs

theorem overflows_iff {text : Bytes} :
    Overflows text ↔ 2 ^ 64 ≤ value ((body text).takeWhile Bytes.isDigit) := by
  constructor
  · rintro ⟨part, z, hlongest, hlarge⟩
    obtain ⟨-, -, rfl⟩ := longestPrefix_iff.mp hlongest
    rw [natAbs_amount] at hlarge
    omega
  · intro hlarge
    refine ⟨_, _, longestPrefix_iff.mpr ⟨?_, rfl, rfl⟩, ?_⟩
    · intro hnil
      rw [hnil, value_nil] at hlarge
      omega
    · rw [natAbs_amount]
      omega

/-- A result of reading a text is the one that the grammar asks for. An error comes as
`report` makes it. -/
structure ByGrammar {ε : Type} (report : NumeralError → ε) (text : Bytes)
    (result : Except ε Int64) : Prop where
  ok_iff : ∀ z, (∃ n, result = .ok n ∧ n.toInt = z) ↔ Literal text z ∧ Fits z
  outOfRange_iff : result = .error (report .outOfRange) ↔
    (∃ z, Literal text z ∧ ¬Fits z) ∨ Overflows text
  malformed_iff : result = .error (report .malformed) ↔
    (∀ z, ¬Literal text z) ∧ ¬Overflows text

theorem byGrammar_of_overflows {text : Bytes} (h : Overflows text) :
    ByGrammar id text (.error .outOfRange) where
  ok_iff z := by
    constructor
    · rintro ⟨n, hn, -⟩
      cases hn
    · rintro ⟨hliteral, hlow, hhigh⟩
      -- The whole text is an integer, so its digits are the ones that reading stops in.
      obtain ⟨hdigits, rfl⟩ := literal_iff.mp hliteral
      have hlarge := overflows_iff.mp h
      rw [hdigits.takeWhile, ← natAbs_amount (sign text) (value (body text))] at hlarge
      omega
  outOfRange_iff := ⟨fun _ => .inr h, fun _ => rfl⟩
  malformed_iff := by
    constructor
    · intro heq
      cases heq
    · rintro ⟨-, hnone⟩
      exact absurd h hnone

theorem byGrammar_of_literal {text : Bytes} {z : Int} (h : ¬Overflows text)
    (hz : Literal text z) :
    ByGrammar id text (if Fits z then .ok (Int64.ofInt z) else .error .outOfRange) where
  ok_iff w := by
    constructor
    · rintro ⟨n, hn, rfl⟩
      split at hn
      · next hfits =>
          cases hn
          rw [Int64.toInt_ofInt_of_le hfits.1 (Int.lt_of_le_sub_one hfits.2)]
          exact ⟨hz, hfits⟩
      · cases hn
    · rintro ⟨hw, hfits⟩
      obtain rfl := hw.unique hz
      rw [if_pos hfits]
      exact ⟨_, rfl, Int64.toInt_ofInt_of_le hfits.1 (Int.lt_of_le_sub_one hfits.2)⟩
  outOfRange_iff := by
    constructor
    · intro heq
      split at heq
      · cases heq
      · next hfits => exact .inl ⟨z, hz, hfits⟩
    · rintro (⟨w, hw, hfits⟩ | hover)
      · obtain rfl := hw.unique hz
        rw [if_neg hfits]
        rfl
      · exact absurd hover h
  malformed_iff := by
    constructor
    · intro heq
      split at heq
      · cases heq
      · cases heq
    · rintro ⟨hnone, -⟩
      exact absurd hz (hnone z)

theorem byGrammar_of_other {text : Bytes} (h : ¬Overflows text)
    (hnone : ∀ z, ¬Literal text z) : ByGrammar id text (.error .malformed) where
  ok_iff z := by
    constructor
    · rintro ⟨n, hn, -⟩
      cases hn
    · rintro ⟨hz, -⟩
      exact absurd hz (hnone z)
  outOfRange_iff := by
    constructor
    · intro heq
      cases heq
    · rintro (⟨z, hz, -⟩ | hover)
      · exact absurd hz (hnone z)
      · exact absurd hover h
  malformed_iff := ⟨fun _ => ⟨hnone, h⟩, fun _ => rfl⟩

theorem byGrammar_signed (text : Bytes) : ByGrammar id text (signed text) := by
  rw [signed_eq]
  split
  · next hlarge => exact byGrammar_of_overflows (overflows_iff.mpr hlarge)
  · next hlarge =>
      have hover : ¬Overflows text := fun h => hlarge (overflows_iff.mp h)
      split
      · next hdigits => exact byGrammar_of_literal hover (literal_iff.mpr ⟨hdigits, rfl⟩)
      · next hdigits =>
          exact byGrammar_of_other hover fun z hz => hdigits (literal_iff.mp hz).1

/-- How errors are reported makes no difference, as long as they are told apart. -/
theorem ByGrammar.mapError {ε : Type} {report : NumeralError → ε} {text : Bytes}
    {result : Except NumeralError Int64} (h : ByGrammar id text result)
    (hreport : Function.Injective report) : ByGrammar report text (result.mapError report) := by
  cases result with
  | ok n =>
      refine ⟨fun z => ?_, ?_, ?_⟩
      · rw [← h.ok_iff z]
        simp [Except.mapError]
      · rw [← h.outOfRange_iff]
        simp [Except.mapError]
      · rw [← h.malformed_iff]
        simp [Except.mapError]
  | error e =>
      refine ⟨fun z => ?_, ?_, ?_⟩
      · rw [← h.ok_iff z]
        simp [Except.mapError]
      · rw [← h.outOfRange_iff]
        simp [Except.mapError, hreport.eq_iff]
      · rw [← h.malformed_iff]
        simp [Except.mapError, hreport.eq_iff]

theorem readInteger_eq_mapError (op : Opcode) (arg : Bytes) :
    op.readInteger arg =
      (signed (Text.trim arg)).mapError fun e => .badArgument op arg (some e) := by
  rw [Opcode.readInteger, read_eq_signed]
  cases signed (Text.trim arg) with
  | ok n => rfl
  | error e => rfl

theorem byGrammar_readInteger (op : Opcode) (arg : Bytes) :
    ByGrammar (fun e => .badArgument op arg (some e)) (Text.trim arg) (op.readInteger arg) := by
  rw [readInteger_eq_mapError]
  refine (byGrammar_signed (Text.trim arg)).mapError ?_
  intro e e' heq
  cases heq
  rfl

end Numeral

/-! ### White space -/

namespace Text

theorem trimBy_append {α : Type} {p : α → Bool} {before mid after : List α}
    (hbefore : ∀ x ∈ before, p x) (hmid : ∀ x ∈ mid, ¬p x) (hafter : ∀ x ∈ after, p x) :
    trimBy p (before ++ (mid ++ after)) = trimBy p mid := by
  have hdrop {xs ys : List α} (hxs : ∀ x ∈ xs, p x) :
      (xs ++ ys).dropWhile p = ys.dropWhile p := List.dropWhile_append_of_pos hxs
  cases mid with
  | nil =>
      rw [trimBy, hdrop hbefore, List.nil_append, ← List.append_nil after, hdrop hafter]
      rfl
  | cons x mid =>
      have hx : ¬p x := hmid x List.mem_cons_self
      rw [trimBy, hdrop hbefore, List.cons_append, List.dropWhile_cons_of_neg hx,
        ← List.cons_append, List.reverse_append,
        hdrop (fun y hy => hafter y (List.mem_reverse.mp hy)), trimBy,
        List.dropWhile_cons_of_neg hx]

/-- White space around a text that has none. -/
theorem trim_between {before after : List Char} {bs : Bytes} (hbefore : ∀ c ∈ before, isWhite c)
    (hbs : ∀ b ∈ bs, 33 ≤ b ∧ b < 0x80) (hafter : ∀ c ∈ after, isWhite c) :
    trim (Utf8.ofChars before ++ bs ++ Utf8.ofChars after) = bs := by
  have hascii : ∀ b ∈ bs, b < 0x80 := fun b hb => (hbs b hb).2
  have hvalid : Utf8.valid bs := by
    rw [Utf8.valid, Utf8.pieces_ascii hascii]
    simp
  have hend : Utf8.pieces (Utf8.ofChars after) = after.map .char := by
    simpa [Utf8.pieces] using Utf8.pieces_ofChars_append after []
  have hwhite {cs : List Char} (hcs : ∀ c ∈ cs, isWhite c) :
      ∀ piece ∈ cs.map Utf8.Piece.char, isWhitePiece piece := by
    intro piece hpiece
    obtain ⟨c, hc, rfl⟩ := List.mem_map.mp hpiece
    exact hcs c hc
  rw [trim, List.append_assoc, Utf8.pieces_ofChars_append, Utf8.pieces_append hvalid, hend,
    trimBy_append (hwhite hbefore) (not_isWhitePiece_ascii hbs) (hwhite hafter)]
  exact trim_ascii hbs

end Text

namespace Numeral

/-- The text of a word, with white space around it, is read as this word. -/
theorem read_between (n : Int64) {before after : List Char} (hbefore : ∀ c ∈ before, Text.isWhite c)
    (hafter : ∀ c ∈ after, Text.isWhite c) :
    read (Utf8.ofChars before ++ Bytes.ofInt64 n ++ Utf8.ofChars after) = .ok n := by
  have htrim := Text.trim_between hbefore (Bytes.graphic_of_mem_ofInt64 n) hafter
  rw [read_eq_signed, htrim, ← Text.trim_ascii (Bytes.graphic_of_mem_ofInt64 n), ← read_eq_signed]
  exact read_ofInt64 n

/-- Integer arguments are read by one grammar. What is left of an argument without the white
space at its ends is read as the integer it stands for, if it is one and fits a word. It is
reported as out of range if it is one that does not fit, or if it only begins with one and
the digits of that pass 2^64 - 1, and as malformed otherwise. Short texts and others are
read by the same grammar, and an integer that has been written is read back whatever white
space is put around it. -/
theorem arguments_by_grammar (op : Opcode) (arg : Bytes) :
    ByGrammar (fun e => .badArgument op arg (some e)) (Text.trim arg) (op.readInteger arg) ∧
    NumeralError.message .outOfRange = "value out of range" ∧
    NumeralError.message .malformed = "invalid syntax" ∧
    (∀ text, ByGrammar id text (signed text) ∧
      (text.length < 19 → ByGrammar id text (short text))) ∧
    ∀ n before after st, (∀ c ∈ before, Text.isWhite c) → (∀ c ∈ after, Text.isWhite c) →
      Registry.builtin.call Opcode.integer.name
          (Utf8.ofChars before ++ (Value.integer n).render ++ Utf8.ofChars after) st =
        .done (st.push (.integer n)).advance := by
  refine ⟨byGrammar_readInteger op arg, rfl, rfl, ?_, ?_⟩
  · intro text
    refine ⟨byGrammar_signed text, fun hlength => ?_⟩
    rw [short_eq_signed hlength]
    exact byGrammar_signed text
  · intro n before after st hbefore hafter
    exact Registry.builtin_call_of_done
      (Opcode.apply_of_step (.integer (read_between n hbefore hafter)))

/-- Leading zeros, the least word between a line break and a wide space, and an integer that
is too large before it ends in something else. -/
theorem arguments_by_grammar_at_limits :
    (∃ n, short "-007" = .ok n ∧ n.toInt = -7) ∧
    Registry.builtin.call "LOAD_INTEGER"
        (Utf8.ofChars ['\u0085', '\n'] ++ "-9223372036854775808" ++ Utf8.ofChars ['\u3000']) {} =
      .done { stack := [.integer Int64.minValue], pointer := 1 } ∧
    Opcode.jump.readInteger "-18446744073709551616x " =
      .error (.badArgument .jump "-18446744073709551616x " (some .outOfRange)) := by
  obtain ⟨-, -, -, htexts, hwords⟩ := arguments_by_grammar .integer []
  have hseven : Literal "-007" (-7) := .minus (by decide +kernel)
  have hshort := (htexts "-007").2 (by decide)
  have hlarge : Overflows (Text.trim "-18446744073709551616x ") :=
    overflows_iff.mpr (by decide +kernel)
  refine ⟨(hshort.ok_iff (-7)).mpr ⟨hseven, by decide⟩, ?_, ?_⟩
  · exact hwords Int64.minValue ['\u0085', '\n'] ['\u3000'] {}
      (List.all_eq_true.mp (by decide)) (List.all_eq_true.mp (by decide))
  · exact (arguments_by_grammar .jump _).1.outOfRange_iff.mpr (.inr hlarge)

/-- The digits count there, and not the number. This text is no integer, and the longest one
it begins with stands for a number below zero, which passes no upper bound. All the same it
is reported as out of range. -/
theorem negative_prefix_out_of_range :
    let arg : Bytes := "-18446744073709551616x"
    (∀ z, ¬Literal (Text.trim arg) z) ∧
    LongestPrefix (Text.trim arg) "-18446744073709551616" (-2 ^ 64) ∧
    (∀ part z, LongestPrefix (Text.trim arg) part z → ¬2 ^ 64 - 1 < z) ∧
    Opcode.integer.readInteger arg =
      .error (.badArgument .integer arg (some .outOfRange)) := by
  intro arg
  have hlongest : LongestPrefix (Text.trim arg) "-18446744073709551616" (-2 ^ 64) :=
    longestPrefix_iff.mpr ⟨by decide +kernel, by decide +kernel, by decide +kernel⟩
  have hlarge : Overflows (Text.trim arg) := ⟨_, _, hlongest, by decide⟩
  refine ⟨?_, hlongest, ?_, ?_⟩
  · intro z hz
    exact absurd (literal_iff.mp hz).1 (by decide +kernel)
  · intro part z hother
    have hsame : z = -2 ^ 64 :=
      (longestPrefix_iff.mp hother).2.2.trans (longestPrefix_iff.mp hlongest).2.2.symm
    omega
  · exact (byGrammar_readInteger .integer arg).outOfRange_iff.mpr (.inr hlarge)

end Numeral

end StackStep
