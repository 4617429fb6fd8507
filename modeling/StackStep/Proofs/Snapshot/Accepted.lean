import StackStep.Proofs.Cbor.Extension
import StackStep.Proofs.Snapshot.Decoded

/-!
Files that are accepted.

There are many ways to write a snapshot, and the reader takes most of them. What it makes of
them can always be written in the one way of the library and is read back the same, so a file
that was accepted once stays acceptable after it is rewritten. A file that was cut off while
it was written, or that was written over a longer one, is never accepted in its place.
-/

namespace StackStep.Snapshot

open Cbor (Item)

theorem FromFile.storable {size : Nat} {s : Snapshot} (h : s.FromFile size) : s.Storable where
  texts_valid := fun _ ht => (h.readText ht).1
  stack_le := h.stack_le
  env_le := h.env_le

theorem FromFile.addressable {size : Nat} {s : Snapshot} (h : s.FromFile size)
    (hsize : size < UInt64.size) : s.Addressable where
  texts_lt := fun _ ht => Nat.lt_of_le_of_lt (h.readText ht).2 hsize
  stack_lt := Nat.lt_of_le_of_lt h.stack_le (by decide)
  env_lt := Nat.lt_of_le_of_lt h.env_le (by decide)

theorem decode_encode_of_decode {bs : Bytes} {s : Snapshot} (hsize : bs.length < UInt64.size)
    (h : decode bs = .ok s) : decode s.encode = .ok s := by
  have hfrom := fromFile_of_decode h
  exact decode_encode_of_storable (hfrom.addressable hsize) hfrom.storable

/-- What is accepted in any form is accepted in the one that is written, and both mean the
same. -/
theorem decode_rewritten (bs : Bytes) (s : Snapshot) (hsize : bs.length < UInt64.size)
    (h : decode bs = .ok s) :
    s.Storable ∧ decode s.encode = .ok s ∧ (decode s.encode).map encode = .ok s.encode := by
  have hback := decode_encode_of_decode hsize h
  refine ⟨(fromFile_of_decode h).storable, hback, ?_⟩
  rw [hback]
  rfl

/-- A tag around the whole, open lengths, a number in more bytes than it needs, a field
number as text, a text in pieces and a field that is not known. -/
theorem decode_rewritten_liberal :
    let bs : Bytes :=
      [0xD9, 0xD9, 0xF7, 0xBF, 0x01, 0x18, 0x01, 0x61, 0x33, 0x05, 0x06, 0x9F, 0xBF, 0x01, 0x01,
        0x03, 0x7F, 0x61, 0x61, 0x61, 0x62, 0xFF, 0xFF, 0xFF, 0x18, 0x63, 0xF6, 0xFF]
    let s : Snapshot :=
      { version := 1, pointer := 5, stack := some [{ kind := .text, text := "ab" }] }
    bs.length < UInt64.size ∧ decode bs = .ok s ∧ s.encode ≠ bs ∧ decode s.encode = .ok s := by
  intro bs s
  have hsize : bs.length < UInt64.size := by decide
  have hdecode : decode bs = .ok s := rfl
  exact ⟨hsize, hdecode, by decide, (decode_rewritten bs s hsize hdecode).2.1⟩

/-! ### Cut and extended files -/

theorem decode_of_read?_eq_none {bs : Bytes} (h : Item.read? bs = none) :
    decode bs = .error .malformed := by
  rw [decode, h]

theorem exists_read?_of_decode {bs : Bytes} {s : Snapshot} (h : decode bs = .ok s) :
    ∃ item, Item.read? bs = some item := by
  cases hread : Item.read? bs with
  | none =>
      rw [decode_of_read?_eq_none hread] at h
      cases h
  | some item => exact ⟨item, rfl⟩

theorem decode_of_cut {bs part : Bytes} {s : Snapshot} (h : decode bs = .ok s)
    (hpart : part <+: bs) (hne : part ≠ bs) : decode part = .error .malformed := by
  obtain ⟨item, hread⟩ := exists_read?_of_decode h
  exact decode_of_read?_eq_none (Item.read?_of_cut hread hpart hne)

theorem decode_append {bs more : Bytes} {s : Snapshot} (h : decode bs = .ok s)
    (hmore : more ≠ []) : decode (bs ++ more) = .error .malformed := by
  obtain ⟨item, hread⟩ := exists_read?_of_decode h
  exact decode_of_read?_eq_none (Item.read?_append hread hmore)

/-- Of an accepted file no proper beginning is accepted and no continuation, nor any proper
beginning of what it is rewritten as. -/
theorem decode_cut_or_extended (bs : Bytes) (s : Snapshot) (h : decode bs = .ok s) :
    (∀ part, part <+: bs → part ≠ bs → decode part = .error .malformed) ∧
      (∀ more, more ≠ [] → decode (bs ++ more) = .error .malformed) ∧
      (bs.length < UInt64.size →
        ∀ part, part <+: s.encode → part ≠ s.encode → decode part = .error .malformed) := by
  refine ⟨fun _ => decode_of_cut h, fun _ => decode_append h, ?_⟩
  intro hsize part
  exact decode_of_cut (decode_encode_of_decode hsize h)

/-- A map of open length, which ends only with its stop byte, and its rewritten form without
the last byte. -/
theorem decode_cut_or_extended_open :
    let bs : Bytes := [0xBF, 0x01, 0x01, 0xFF]
    let s : Snapshot := { version := 1 }
    decode bs = .ok s ∧ bs.length < UInt64.size ∧
      decode [] = .error .malformed ∧ decode [0xBF, 0x01, 0x01] = .error .malformed ∧
      decode [0xBF, 0x01, 0x01, 0xFF, 0xFF] = .error .malformed ∧
      decode s.encode.dropLast = .error .malformed := by
  intro bs s
  have hdecode : decode bs = .ok s := rfl
  have hsize : bs.length < UInt64.size := by decide
  obtain ⟨hcut, hextended, hrewritten⟩ := decode_cut_or_extended bs s hdecode
  refine ⟨hdecode, hsize, ?_, ?_, ?_, ?_⟩
  · exact hcut [] List.nil_prefix (by decide)
  · exact hcut [0xBF, 0x01, 0x01] ⟨[0xFF], rfl⟩ (by decide)
  · exact hextended [0xFF] (by decide)
  · exact hrewritten hsize _ (List.dropLast_prefix _) (by decide)

end StackStep.Snapshot
