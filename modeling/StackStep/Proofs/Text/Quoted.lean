import Mathlib.Algebra.Group.Nat.Defs
import StackStep.Proofs.Text.Utf8
import StackStep.Text.Quoted

/-!
Quoted text read back.

Nothing in the program reads quoted text, but it can be read. What follows a backslash
says what has been escaped and how many digits stand for it, and a piece that is not
escaped begins with neither a backslash nor a quote. So the pieces are found one after
another, and the quote at the end is not mistaken for one of them. A stray byte and a
control character are both written with two digits, and are told apart by the number,
since a stray byte is beyond ASCII.

Which characters are shown as they are makes no difference to this.
-/

namespace StackStep

namespace Bytes

def unhex (bs : Bytes) : Nat := bs.foldl (fun n b => n * 16 + (hexValue? b).getD 0) 0

theorem hexValue?_hexDigit {d : Nat} (h : d < 16) : hexValue? (hexDigit d) = some d := by
  revert d
  decide

theorem unhex_hex (width n : Nat) : unhex (hex width n) = n % 16 ^ width := by
  induction width generalizing n with
  | zero => simp [unhex, hex, Nat.mod_one]
  | succ width ih =>
      have hdigit := hexValue?_hexDigit (Nat.mod_lt n (by decide : 0 < 16))
      have htail : unhex (hex width (n / 16) ++ [hexDigit (n % 16)]) =
          unhex (hex width (n / 16)) * 16 + n % 16 := by
        simp [unhex, List.foldl_append, hdigit]
      rw [hex, htail, ih, Nat.pow_succ', Nat.mod_mul]
      omega

theorem unhex_take_hex {width n : Nat} (h : n < 16 ^ width) (rest : Bytes) :
    unhex ((hex width n ++ rest).take width) = n := by
  rw [List.take_left' (length_hex width n), unhex_hex, Nat.mod_eq_of_lt h]

theorem drop_hex (width n : Nat) (rest : Bytes) : (hex width n ++ rest).drop width = rest :=
  List.drop_left' (length_hex width n)

end Bytes

namespace Utf8

/-- Only an ASCII character begins with its own byte. -/
theorem eq_of_encode_append {c : Char} {b : UInt8} {rest rest' : Bytes} (hb : b < 0x80)
    (h : encode c ++ rest = b :: rest') : c = Char.ofNat b.toNat := by
  have hpieces := pieces_encode_append c rest
  rw [h, pieces_one hb] at hpieces
  injection hpieces with hpiece _
  exact (Piece.char.inj hpiece).symm

end Utf8

namespace Text

open Utf8 (Piece)

/-- The pieces that bytes can be cut into. -/
def Proper : Piece → Prop
  | .char _ => True
  | .stray b => 0x80 ≤ b

theorem proper_of_mem_pieces {bs : Bytes} {piece : Piece} (h : piece ∈ Utf8.pieces bs) :
    Proper piece := by
  cases piece with
  | char c => trivial
  | stray b => exact Utf8.le_of_stray_mem h

/-! ### One piece -/

/-- The character that a backslash and one further byte stand for. -/
def lettered (b : UInt8) : Char :=
  match b.toNat with
  | 97 => Char.ofNat 0x07
  | 98 => Char.ofNat 0x08
  | 102 => Char.ofNat 0x0C
  | 110 => Char.ofNat 0x0A
  | 114 => Char.ofNat 0x0D
  | 116 => Char.ofNat 0x09
  | 118 => Char.ofNat 0x0B
  | n => Char.ofNat n

def ofByte (n : Nat) : Piece := if n < 0x80 then .char (Char.ofNat n) else .stray n.toUInt8

def unquotePiece : Bytes → Option (Piece × Bytes)
  | 92 :: 120 :: rest => some (ofByte (Bytes.unhex (rest.take 2)), rest.drop 2)
  | 92 :: 117 :: rest => some (.char (Char.ofNat (Bytes.unhex (rest.take 4))), rest.drop 4)
  | 92 :: 85 :: rest => some (.char (Char.ofNat (Bytes.unhex (rest.take 8))), rest.drop 8)
  | 92 :: letter :: rest => some (.char (lettered letter), rest)
  | bs => (Utf8.pieces bs).head?.map fun piece => (piece, bs.drop piece.bytes.length)

theorem unquotePiece_encode {c : Char} (hc : c ≠ '\\') (rest : Bytes) :
    unquotePiece (Utf8.encode c ++ rest) = some (.char c, rest) := by
  have hhead (bs : Bytes) : Utf8.encode c ++ rest ≠ 92 :: bs := by
    intro heq
    exact hc (Utf8.eq_of_encode_append (by decide) heq)
  unfold unquotePiece
  split
  · next heq => exact absurd heq (hhead _)
  · next heq => exact absurd heq (hhead _)
  · next heq => exact absurd heq (hhead _)
  · next heq => exact absurd heq (hhead _)
  · rw [Utf8.pieces_encode_append]
    simp

theorem unquotePiece_byte {n : Nat} (h : n < 256) (rest : Bytes) :
    unquotePiece (92 :: 120 :: (Bytes.hex 2 n ++ rest)) = some (ofByte n, rest) := by
  rw [unquotePiece, Bytes.unhex_take_hex h, Bytes.drop_hex]

/-- The control characters that have a letter. -/
theorem unquotePiece_letter {c : Char} {letter : UInt8} (h : controlLetter? c = some letter)
    (rest : Bytes) : unquotePiece (92 :: letter :: rest) = some (.char c, rest) := by
  unfold controlLetter? at h
  split at h
  case h_8 => cases h
  all_goals
    next hn =>
      cases h
      rw [← Char.ofNat_toNat c, hn]
      rfl

theorem unquotePiece_quoteChar (c : Char) (rest : Bytes) :
    unquotePiece (quoteChar c ++ rest) = some (.char c, rest) := by
  have hmax := Utf8.toNat_lt c
  unfold quoteChar
  split
  · next hquote =>
      subst hquote
      rfl
  · split
    · next hslash =>
        subst hslash
        rfl
    · next hslash =>
        split
        · exact unquotePiece_encode hslash rest
        · split
          · next letter hletter => exact unquotePiece_letter hletter rest
          · split
            · next hcontrol =>
                refine (unquotePiece_byte (by omega) rest).trans ?_
                rw [ofByte, if_pos (by omega), Char.ofNat_toNat]
            · split
              · next hsmall =>
                  have hwidth : c.toNat < 16 ^ 4 := by omega
                  change unquotePiece (92 :: 117 :: (Bytes.hex 4 c.toNat ++ rest)) = _
                  rw [unquotePiece, Bytes.unhex_take_hex hwidth, Bytes.drop_hex, Char.ofNat_toNat]
              · have hwidth : c.toNat < 16 ^ 8 := by omega
                change unquotePiece (92 :: 85 :: (Bytes.hex 8 c.toNat ++ rest)) = _
                rw [unquotePiece, Bytes.unhex_take_hex hwidth, Bytes.drop_hex, Char.ofNat_toNat]

theorem unquotePiece_quotePiece {piece : Piece} (h : Proper piece) (rest : Bytes) :
    unquotePiece (quotePiece piece ++ rest) = some (piece, rest) := by
  cases piece with
  | char c => exact unquotePiece_quoteChar c rest
  | stray b =>
      have hle : 0x80 ≤ b.toNat := UInt8.le_iff_toNat_le.mp h
      refine (unquotePiece_byte b.toNat_lt rest).trans ?_
      rw [ofByte, if_neg (Nat.not_lt.mpr hle)]
      simp

theorem quotePiece_append_inj {p q : Piece} (hp : Proper p) (hq : Proper q) {rest rest' : Bytes}
    (h : quotePiece p ++ rest = quotePiece q ++ rest') : p = q ∧ rest = rest' := by
  have hread := unquotePiece_quotePiece hp rest
  rw [h, unquotePiece_quotePiece hq, Option.some_inj, Prod.mk.injEq] at hread
  exact ⟨hread.1.symm, hread.2.symm⟩

/-- No piece is taken for the quote at the end. -/
theorem quotePiece_append_ne {piece : Piece} (h : Proper piece) {rest rest' : Bytes} :
    quotePiece piece ++ rest ≠ 34 :: rest' := by
  intro heq
  have hread := unquotePiece_quotePiece h rest
  have hslash : '"' ≠ '\\' := by decide
  have hquote : unquotePiece (34 :: rest') = some (.char '"', rest') :=
    unquotePiece_encode hslash rest'
  rw [heq, hquote] at hread
  cases hread
  cases heq

/-! ### Whole texts -/

theorem flatMap_quotePiece_inj {ps qs : List Piece} (hps : ∀ p ∈ ps, Proper p)
    (hqs : ∀ q ∈ qs, Proper q) {rest rest' : Bytes}
    (h : ps.flatMap quotePiece ++ 34 :: rest = qs.flatMap quotePiece ++ 34 :: rest') :
    ps = qs ∧ rest = rest' := by
  induction ps generalizing qs with
  | nil =>
      cases qs with
      | nil =>
          cases h
          exact ⟨rfl, rfl⟩
      | cons q qs =>
          rw [List.flatMap_cons, List.append_assoc] at h
          exact absurd h.symm (quotePiece_append_ne (hqs q List.mem_cons_self))
  | cons p ps ih =>
      cases qs with
      | nil =>
          rw [List.flatMap_cons, List.append_assoc] at h
          exact absurd h (quotePiece_append_ne (hps p List.mem_cons_self))
      | cons q qs =>
          rw [List.forall_mem_cons] at hps hqs
          rw [List.flatMap_cons, List.flatMap_cons, List.append_assoc, List.append_assoc] at h
          obtain ⟨rfl, htail⟩ := quotePiece_append_inj hps.1 hqs.1 h
          obtain ⟨rfl, hrest⟩ := ih hps.2 hqs.2 htail
          exact ⟨rfl, hrest⟩

/-- Quoted texts are told apart, whatever follows them. -/
theorem quote_append_inj {s t rest rest' : Bytes} (h : quote s ++ rest = quote t ++ rest') :
    s = t ∧ rest = rest' := by
  have hbody : (Utf8.pieces s).flatMap quotePiece ++ 34 :: rest =
      (Utf8.pieces t).flatMap quotePiece ++ 34 :: rest' := by
    simpa [quote] using h
  obtain ⟨hpieces, hrest⟩ := flatMap_quotePiece_inj (fun p hp => proper_of_mem_pieces hp)
    (fun q hq => proper_of_mem_pieces hq) hbody
  refine ⟨?_, hrest⟩
  rw [← Utf8.ofPieces_pieces s, hpieces, Utf8.ofPieces_pieces]

end Text

end StackStep
