import StackStep.Proofs.Cbor.ReadWrite
import StackStep.Proofs.Result
import StackStep.Snapshot.Wire

/-!
A snapshot that is written and read back.

Writing never fails, but reading refuses a text that is not UTF-8 and an array
with too many elements, so not everything that is written can be read. The
laws below are equations with the test on their right side, one for each kind
of field, then one for each of the three records. They add up to `Storable`,
the exact condition on a snapshot to come back, and to the fact that what
comes back is the snapshot itself.
-/

namespace StackStep

open Cbor (Item)
open Cbor.Item (field fieldIf)

namespace Cbor.Item

/-! ### Fields of a record

Fields stand in ascending order, so no field number has been seen before. A
field that was left out is one whose zero is already there. -/

variable {α : Type} {fields : Fields α} {seen : List Nat} {k : UInt64}
  {put : α → Item → Except DecodeError α}

theorem readEntries_field (hseen : k.toNat ∉ seen) (hput : fields k.toNat = some put)
    (a : α) (item : Item) (entries : List (Item × Item)) :
    readEntries fields seen a (field k item ++ entries) =
      put a item >>= fun a => readEntries fields (k.toNat :: seen) a entries := by
  simp only [field, List.singleton_append, readEntries, readKey]
  simp [hseen, hput]

/-- A field that may be left out, where the record is the same with it and
without it. What follows cannot tell whether the field number was seen. -/
theorem readEntries_fieldIf (hseen : k.toNat ∉ seen) (hput : fields k.toNat = some put)
    {present : Bool} {a a' : α} {item : Item} {entries : List (Item × Item)}
    {result : Except DecodeError α}
    (hpresent : present = true → put a item = .ok a') (habsent : present = false → a = a')
    (hrest : ∀ seen', seen' = seen ∨ seen' = k.toNat :: seen →
      readEntries fields seen' a' entries = result) :
    readEntries fields seen a (fieldIf present k item ++ entries) = result := by
  cases present with
  | false =>
      rw [habsent rfl]
      exact hrest seen (.inl rfl)
  | true =>
      rw [fieldIf, if_pos rfl, readEntries_field hseen hput, hpresent rfl, ok_bind]
      exact hrest _ (.inr rfl)

/-- The last field, which may be left out and may be refused. -/
theorem readEntries_last (hseen : k.toNat ∉ seen) (hput : fields k.toNat = some put)
    {present : Bool} {a : α} {item : Item} {result : Except DecodeError α}
    (hpresent : present = true → put a item = result)
    (habsent : present = false → .ok a = result) :
    readEntries fields seen a (fieldIf present k item) = result := by
  cases present with
  | false => exact habsent rfl
  | true =>
      rw [fieldIf, if_pos rfl, ← List.append_nil (field k item),
        readEntries_field hseen hput, hpresent rfl]
      cases result <;> rfl

/-! ### Contents of a field -/

theorem readNumber_of_number? {item : Item} {low high n : Int}
    (huntag : item.untag = .ok item) (hnull : item.isNull = false)
    (hn : item.number? = some n) (hlow : low ≤ n) (hhigh : n ≤ high) :
    item.readNumber low high = .ok n := by
  simp [readNumber, huntag, hnull, hn, hlow, hhigh]

theorem readByte_unsigned (b : UInt8) : (Item.unsigned b.toUInt64).readByte = .ok b := by
  have hb := b.toNat_lt
  have hhigh : (b.toUInt64.toNat : Int) ≤ 255 := by
    rw [UInt8.toNat_toUInt64]
    omega
  rw [readByte, readNumber_of_number? rfl rfl rfl (by omega) hhigh]
  simp [Nat.toUInt8]

/-- The least number, `-2 ^ 63`, is written like any other negative one:
`-1 - n` does not overflow for a negative `n`. -/
theorem number?_ofInt64 (n : Int64) : (Item.ofInt64 n).number? = some n.toInt := by
  unfold ofInt64
  split
  · next h =>
      have hneg : n.toInt < 0 := by simpa [Int64.lt_iff_toInt_lt] using h
      have hmin := n.le_toInt
      have hdiff : (-1 - n).toInt = -1 - n.toInt := by
        rw [Int64.toInt_sub, show (-1 : Int64).toInt = -1 from rfl]
        apply Int.bmod_eq_of_le <;> omega
      have hnonneg : 0 ≤ -1 - n := by
        rw [Int64.le_iff_toInt_le, hdiff, show (0 : Int64).toInt = 0 from rfl]
        omega
      have hback : -1 - (-1 - n.toInt) = n.toInt := by omega
      rw [number?, Int64.toNat_toUInt64_of_le hnonneg, Int64.toNatClampNeg, hdiff,
        Int.toNat_of_nonneg (by omega), hback]
  · next h =>
      have hnonneg : 0 ≤ n := Int64.not_lt.mp h
      have hint : 0 ≤ n.toInt := by simpa [Int64.le_iff_toInt_le] using hnonneg
      rw [number?, Int64.toNat_toUInt64_of_le hnonneg, Int64.toNatClampNeg,
        Int.toNat_of_nonneg hint]

theorem readInt64_ofInt64 (n : Int64) : (Item.ofInt64 n).readInt64 = .ok n := by
  have huntag : (Item.ofInt64 n).untag = .ok (.ofInt64 n) := by
    unfold ofInt64
    split <;> rfl
  have hnull : (Item.ofInt64 n).isNull = false := by
    unfold ofInt64
    split <;> rfl
  rw [readInt64, readNumber_of_number? huntag hnull (number?_ofInt64 n)
    n.minValue_le_toInt n.toInt_le]
  rw [ok_bind, Int64.ofInt_toInt, pure_eq_ok]

theorem readBool_ofBool (b : Bool) : (Item.ofBool b).readBool = .ok b := by
  cases b <;> rfl

theorem readText_ofText (t : Bytes) :
    (Item.ofText t).readText = if Utf8.valid t then .ok t else .error .invalidUtf8 := by
  simp [ofText, readText, untag, checkedText]

theorem readRunId_ofBytes (id : RunId) : (Item.ofBytes id.bytes).readRunId = .ok id := by
  simp [ofBytes, readRunId, untag]

theorem readAll_map {β : Type} {read : Item → Except DecodeError β} {write : β → Item}
    {ok : β → Bool} {e : DecodeError} {xs : List β}
    (h : ∀ x ∈ xs, read (write x) = if ok x then .ok x else .error e) :
    readAll read (xs.map write) = if xs.all ok then .ok xs else .error e := by
  induction xs with
  | nil => rfl
  | cons x xs ih =>
      have hx := h x List.mem_cons_self
      have hxs := ih fun y hy => h y (List.mem_cons_of_mem x hy)
      simp only [List.map_cons, readAll, hx, hxs]
      cases hok : ok x with
      | false => simp [hok]
      | true => cases hall : xs.all ok <;> simp [hok, hall]

theorem readList_array {β : Type} {read : Item → Except DecodeError β} {write : β → Item}
    {ok : β → Bool} {e : DecodeError} {xs : List β}
    (h : ∀ x ∈ xs, read (write x) = if ok x then .ok x else .error e) :
    (Item.array (xs.map write)).readList read =
      if xs.all ok then .ok (some xs) else .error e := by
  simp only [readList, untag, ok_bind, readAll_map h, check_bind, pure_eq_ok]

end Cbor.Item

/-! ### The three records -/

theorem Slot.ofItem_toItem (s : Slot) :
    Slot.ofItem s.toItem = if Utf8.valid s.text then .ok s else .error .invalidUtf8 := by
  obtain ⟨kind, int, text⟩ := s
  have hint : (do return { kind := kind, int := ← (Item.ofInt64 int).readInt64 }) =
      (.ok { kind := kind, int := int } : Except DecodeError Slot) := by
    rw [Item.readInt64_ofInt64, ok_bind, pure_eq_ok]
  simp only [Slot.ofItem, Slot.toItem, Slot.entries, Item.readRecord, Item.untag, ok_bind,
    List.append_assoc]
  rw [Item.readEntries_field (by decide) rfl, Item.readByte_unsigned, ok_bind, pure_eq_ok, ok_bind]
  refine Item.readEntries_fieldIf (by decide) rfl (fun _ => hint) ?_ ?_
  · intro hzero
    simp_all
  intro seen hseen
  refine Item.readEntries_last ?_ rfl ?_ ?_
  · rcases hseen with rfl | rfl <;> decide
  · intro _
    rw [Item.readText_ofText, check_bind]
    rfl
  · intro hempty
    obtain rfl : text = [] := by simpa using hempty
    rfl

theorem Binding.ofItem_toItem (b : Binding) :
    Binding.ofItem b.toItem =
      if Utf8.valid b.name && Utf8.valid b.value.text then .ok b else .error .invalidUtf8 := by
  obtain ⟨name, value⟩ := b
  simp only [Binding.ofItem, Binding.toItem, Binding.entries, Item.readRecord, Item.untag, ok_bind]
  rw [Item.readEntries_field (by decide) rfl, Item.readText_ofText]
  cases hname : Utf8.valid name with
  | false => rfl
  | true =>
      rw [if_pos rfl, ok_bind, pure_eq_ok, ok_bind, ← List.append_nil (field _ _),
        Item.readEntries_field (by decide) rfl, Slot.ofItem_toItem]
      cases hvalue : Utf8.valid value.text with
      | false => rfl
      | true => rfl

theorem Snapshot.readList_stackItem (stack : Option (List Slot)) :
    (stackItem stack).readList Slot.ofItem =
      if (stack.getD []).all (fun slot => Utf8.valid slot.text) then .ok stack
      else .error .invalidUtf8 := by
  cases stack with
  | none => rfl
  | some slots => exact Item.readList_array fun slot _ => Slot.ofItem_toItem slot

theorem Snapshot.ofItem_toItem (s : Snapshot) :
    Snapshot.ofItem s.toItem =
      if (s.stack.getD []).all (fun slot => Utf8.valid slot.text) &&
        s.env.all (fun b => Utf8.valid b.name && Utf8.valid b.value.text)
      then .ok s else .error .invalidUtf8 := by
  obtain ⟨version, runId, pointer, terminated, line, stack, env⟩ := s
  have hline : (do return {
        version, runId, pointer, terminated, line := ← (Item.ofInt64 line).readInt64 }) =
      (.ok { version, runId, pointer, terminated, line } : Except DecodeError Snapshot) := by
    rw [Item.readInt64_ofInt64, ok_bind, pure_eq_ok]
  simp only [Snapshot.ofItem, Snapshot.toItem, Snapshot.entries, Item.readRecord, Item.untag,
    ok_bind, List.append_assoc]
  rw [Item.readEntries_field (by decide) rfl, Item.readByte_unsigned, ok_bind, pure_eq_ok, ok_bind,
    Item.readEntries_field (by decide) rfl, Item.readRunId_ofBytes, ok_bind, pure_eq_ok, ok_bind,
    Item.readEntries_field (by decide) rfl, Item.readInt64_ofInt64, ok_bind, pure_eq_ok, ok_bind,
    Item.readEntries_field (by decide) rfl, Item.readBool_ofBool, ok_bind, pure_eq_ok, ok_bind]
  refine Item.readEntries_fieldIf (by decide) rfl (fun _ => hline) ?_ ?_
  · intro hzero
    simp_all
  intro seen hseen
  rw [Item.readEntries_field (by rcases hseen with rfl | rfl <;> decide) rfl, readList_stackItem]
  cases hvalid : (stack.getD []).all (fun slot => Utf8.valid slot.text) with
  | false => rfl
  | true =>
      rw [if_pos rfl, ok_bind, pure_eq_ok, ok_bind]
      refine Item.readEntries_last (by rcases hseen with rfl | rfl <;> decide) rfl ?_ ?_
      · intro _
        rw [Item.readList_array fun b _ => Binding.ofItem_toItem b, check_bind]
        rfl
      · intro hempty
        obtain rfl : env = [] := by simpa using hempty
        rfl

/-! ### The limits of the reader

A snapshot nests four levels deep, far from the limit, and no record has more
than seven fields. So of all limits only the two counts can be passed. -/

namespace Cbor.Item

theorem eq_of_mem_field {k : UInt64} {item : Item} {e : Item × Item}
    (h : e ∈ field k item) : e = (.unsigned k, item) :=
  List.mem_singleton.mp h

theorem eq_of_mem_fieldIf {present : Bool} {k : UInt64} {item : Item} {e : Item × Item}
    (h : e ∈ fieldIf present k item) : e = (.unsigned k, item) := by
  cases present with
  | false => cases h
  | true => exact eq_of_mem_field h

@[simp] theorem length_field (k : UInt64) (item : Item) : (field k item).length = 1 := rfl

theorem length_fieldIf_le (present : Bool) (k : UInt64) (item : Item) :
    (fieldIf present k item).length ≤ 1 := by
  cases present <;> simp [fieldIf]

theorem plain_map_of_fields {entries : List (Item × Item)} (hlen : entries.length < UInt64.size)
    (h : ∀ e ∈ entries, ∃ k item, e = (.unsigned k, item) ∧ Plain item) :
    Plain (.map entries) := by
  refine .map hlen ?_ ?_
  · intro e he
    obtain ⟨k, item, rfl, -⟩ := h e he
    exact .unsigned k
  · intro e he
    obtain ⟨k, item, rfl, hitem⟩ := h e he
    exact hitem

theorem plain_ofInt64 (n : Int64) : Plain (.ofInt64 n) := by
  unfold ofInt64
  split
  · exact .negative _
  · exact .unsigned _

theorem plain_ofBool (b : Bool) : Plain (.ofBool b) := by
  cases b <;> exact .simple (by decide)

theorem within_ofInt64 (levels : Nat) (n : Int64) : (Item.ofInt64 n).within levels = true := by
  unfold ofInt64
  split <;> cases levels <;> rfl

theorem within_unsigned (levels : Nat) (n : UInt64) :
    (Item.unsigned n).within levels = true := by
  cases levels <;> rfl

theorem within_ofText (levels : Nat) (t : Bytes) : (Item.ofText t).within levels = true := by
  cases levels <;> rfl

theorem within_ofBytes (levels : Nat) (t : Bytes) : (Item.ofBytes t).within levels = true := by
  cases levels <;> rfl

theorem within_simple (levels : Nat) (n : UInt8) : (Item.simple n).within levels = true := by
  cases levels <;> rfl

theorem within_array_map {β : Type} {levels : Nat} {write : β → Item}
    (h : ∀ b, (write b).within levels = true) (bs : List β) :
    (Item.array (bs.map write)).within (levels + 1) = decide (bs.length ≤ maxCount) := by
  have hall : (bs.map write).all (within levels) = true := by
    rw [List.all_eq_true]
    intro item hitem
    obtain ⟨b, -, rfl⟩ := List.mem_map.mp hitem
    exact h b
  rw [within, hall, List.length_map, Bool.and_true]

theorem within_map (levels : Nat) {entries : List (Item × Item)} (h : entries.length ≤ maxCount) :
    (Item.map entries).within (levels + 1) =
      entries.all fun e => e.1.within levels && e.2.within levels := by
  simp [within, h]

theorem all_within_field (levels : Nat) (k : UInt64) (item : Item) :
    ((field k item).all fun e => e.1.within levels && e.2.within levels) =
      item.within levels := by
  simp [field, within_unsigned]

theorem all_within_fieldIf (levels : Nat) (present : Bool) (k : UInt64) (item : Item) :
    ((fieldIf present k item).all fun e => e.1.within levels && e.2.within levels) =
      (!present || item.within levels) := by
  cases present <;> simp [fieldIf, all_within_field]

end Cbor.Item

namespace Slot

theorem length_entries_le (s : Slot) : s.entries.length ≤ 3 := by
  have hint := Item.length_fieldIf_le (s.int != 0) 2 (.ofInt64 s.int)
  have htext := Item.length_fieldIf_le (s.text != []) 3 (.ofText s.text)
  simp only [entries, List.length_append, Item.length_field]
  omega

theorem plain_toItem {s : Slot} (h : s.text.length < UInt64.size) : s.toItem.Plain := by
  refine Item.plain_map_of_fields (Nat.lt_of_le_of_lt s.length_entries_le (by decide)) ?_
  intro e he
  simp only [entries, List.mem_append] at he
  rcases he with (he | he) | he
  · exact ⟨_, _, Item.eq_of_mem_field he, .unsigned _⟩
  · exact ⟨_, _, Item.eq_of_mem_fieldIf he, Item.plain_ofInt64 _⟩
  · exact ⟨_, _, Item.eq_of_mem_fieldIf he, .text h⟩

theorem within_toItem (levels : Nat) (s : Slot) : s.toItem.within (levels + 1) = true := by
  rw [toItem, Item.within_map levels (Nat.le_trans s.length_entries_le (by decide)), entries]
  simp [Item.all_within_field, Item.all_within_fieldIf, Item.within_unsigned,
    Item.within_ofInt64, Item.within_ofText]

end Slot

namespace Binding

theorem plain_toItem {b : Binding} (hname : b.name.length < UInt64.size)
    (hvalue : b.value.text.length < UInt64.size) : b.toItem.Plain := by
  refine Item.plain_map_of_fields (by simp [entries, UInt64.size]) ?_
  intro e he
  simp only [entries, List.mem_append] at he
  rcases he with he | he
  · exact ⟨_, _, Item.eq_of_mem_field he, .text hname⟩
  · exact ⟨_, _, Item.eq_of_mem_field he, Slot.plain_toItem hvalue⟩

theorem within_toItem (levels : Nat) (b : Binding) : b.toItem.within (levels + 2) = true := by
  have hlen : b.entries.length ≤ Cbor.maxCount := by simp [entries, Cbor.maxCount]
  rw [toItem, Item.within_map (levels + 1) hlen, entries]
  simp [Item.all_within_field, Item.within_ofText, Slot.within_toItem]

end Binding

namespace Snapshot

def texts (s : Snapshot) : List Bytes :=
  (s.stack.getD []).map Slot.text ++ s.env.flatMap fun b => [b.name, b.value.text]

/-- What fits in memory: the length of a list or a text is a number of 64 bits. -/
structure Addressable (s : Snapshot) : Prop where
  texts_lt : ∀ t ∈ s.texts, t.length < UInt64.size
  stack_lt : (s.stack.getD []).length < UInt64.size
  env_lt : s.env.length < UInt64.size

/-- What can be read back: texts in UTF-8, and neither list longer than the
reader takes. -/
structure Storable (s : Snapshot) : Prop where
  texts_valid : ∀ t ∈ s.texts, Utf8.valid t
  stack_le : (s.stack.getD []).length ≤ Cbor.maxCount
  env_le : s.env.length ≤ Cbor.maxCount

theorem length_entries_le (s : Snapshot) : s.entries.length ≤ 7 := by
  have hline := Item.length_fieldIf_le (s.line != 0) 5 (.ofInt64 s.line)
  have henv := Item.length_fieldIf_le (s.env != []) 7 (.array (s.env.map Binding.toItem))
  simp only [entries, List.length_append, Item.length_field]
  omega

theorem plain_stackItem {stack : Option (List Slot)}
    (hlen : (stack.getD []).length < UInt64.size)
    (htexts : ∀ slot ∈ stack.getD [], slot.text.length < UInt64.size) :
    (stackItem stack).Plain := by
  cases stack with
  | none => exact .simple (by decide)
  | some slots =>
      refine .array (by simpa using hlen) ?_
      intro item hitem
      obtain ⟨slot, hslot, rfl⟩ := List.mem_map.mp hitem
      exact Slot.plain_toItem (htexts slot hslot)

theorem plain_toItem {s : Snapshot} (h : s.Addressable) : s.toItem.Plain := by
  have hid : s.runId.bytes.length < UInt64.size := by
    rw [s.runId.length_bytes]
    decide
  refine Item.plain_map_of_fields (Nat.lt_of_le_of_lt s.length_entries_le (by decide)) ?_
  intro e he
  simp only [entries, List.mem_append] at he
  rcases he with (((((he | he) | he) | he) | he) | he) | he
  · exact ⟨_, _, Item.eq_of_mem_field he, .unsigned _⟩
  · exact ⟨_, _, Item.eq_of_mem_field he, .bytes hid⟩
  · exact ⟨_, _, Item.eq_of_mem_field he, Item.plain_ofInt64 _⟩
  · exact ⟨_, _, Item.eq_of_mem_field he, Item.plain_ofBool _⟩
  · exact ⟨_, _, Item.eq_of_mem_fieldIf he, Item.plain_ofInt64 _⟩
  · refine ⟨_, _, Item.eq_of_mem_field he, plain_stackItem h.stack_lt ?_⟩
    intro slot hslot
    exact h.texts_lt _ (List.mem_append_left _ (List.mem_map_of_mem hslot))
  · refine ⟨_, _, Item.eq_of_mem_fieldIf he, .array (by simpa using h.env_lt) ?_⟩
    intro item hitem
    obtain ⟨b, hb, rfl⟩ := List.mem_map.mp hitem
    have htext (t : Bytes) (ht : t ∈ [b.name, b.value.text]) : t.length < UInt64.size :=
      h.texts_lt t (List.mem_append_right _ (List.mem_flatMap.mpr ⟨b, hb, ht⟩))
    exact Binding.plain_toItem (htext _ (by simp)) (htext _ (by simp))

theorem within_stackItem (levels : Nat) (stack : Option (List Slot)) :
    (stackItem stack).within (levels + 2) = decide ((stack.getD []).length ≤ Cbor.maxCount) := by
  cases stack with
  | none => rfl
  | some slots => exact Item.within_array_map (Slot.within_toItem levels) slots

theorem within_toItem (levels : Nat) (s : Snapshot) :
    s.toItem.within (levels + 4) =
      (decide ((s.stack.getD []).length ≤ Cbor.maxCount) &&
        decide (s.env.length ≤ Cbor.maxCount)) := by
  have henv : (!(s.env != []) || (Item.array (s.env.map Binding.toItem)).within (levels + 3)) =
      decide (s.env.length ≤ Cbor.maxCount) := by
    rw [Item.within_array_map (Binding.within_toItem levels)]
    cases s.env <;> rfl
  rw [toItem, Item.within_map (levels + 3) (Nat.le_trans s.length_entries_le (by decide)), entries]
  simp only [List.all_append, Item.all_within_field, Item.all_within_fieldIf,
    Item.within_unsigned, Item.within_ofBytes, Item.within_ofInt64, Item.ofBool,
    Item.within_simple, within_stackItem, henv]
  simp

/-! ### Whole snapshots -/

theorem all_valid_iff (s : Snapshot) :
    ((s.stack.getD []).all (fun slot => Utf8.valid slot.text) &&
        s.env.all (fun b => Utf8.valid b.name && Utf8.valid b.value.text)) = true ↔
      ∀ t ∈ s.texts, Utf8.valid t := by
  simp only [texts, Bool.and_eq_true, List.all_eq_true, List.mem_append, List.mem_map,
    List.mem_flatMap, List.mem_cons, List.not_mem_nil, or_false]
  constructor
  · rintro ⟨hstack, henv⟩ t (⟨slot, hslot, rfl⟩ | ⟨b, hb, rfl | rfl⟩)
    · exact hstack slot hslot
    · exact (henv b hb).1
    · exact (henv b hb).2
  · intro h
    refine ⟨fun slot hslot => h _ (.inl ⟨slot, hslot, rfl⟩), fun b hb => ⟨?_, ?_⟩⟩
    · exact h _ (.inr ⟨b, hb, .inl rfl⟩)
    · exact h _ (.inr ⟨b, hb, .inr rfl⟩)

theorem decode_encode {s : Snapshot} (h : s.Addressable) :
    decode s.encode =
      if (s.stack.getD []).length ≤ Cbor.maxCount ∧ s.env.length ≤ Cbor.maxCount then
        ofItem s.toItem
      else .error .malformed := by
  have hread := Item.read?_write (plain_toItem h)
  rw [show Cbor.maxLevels = 28 + 4 from rfl, within_toItem] at hread
  rw [decode, encode, hread]
  by_cases hcounts : (s.stack.getD []).length ≤ Cbor.maxCount ∧ s.env.length ≤ Cbor.maxCount
  · simp [hcounts.1, hcounts.2]
  · rw [if_neg (by simpa using hcounts), if_neg hcounts]

/-- A storable snapshot comes back as it was. -/
theorem decode_encode_of_storable {s : Snapshot} (h : s.Addressable) (hs : s.Storable) :
    decode s.encode = .ok s := by
  rw [decode_encode h, if_pos ⟨hs.stack_le, hs.env_le⟩, ofItem_toItem,
    if_pos (s.all_valid_iff.mpr hs.texts_valid)]

theorem storable_of_decode_encode {s s' : Snapshot} (h : s.Addressable)
    (hread : decode s.encode = .ok s') : s.Storable := by
  rw [decode_encode h] at hread
  split at hread
  · next hcounts =>
      rw [ofItem_toItem] at hread
      split at hread
      · next hvalid => exact ⟨s.all_valid_iff.mp hvalid, hcounts.1, hcounts.2⟩
      · cases hread
  · cases hread

/-- Writing and reading back succeeds exactly on the storable snapshots, and
then nothing has changed: a stack that is not there stays so, an empty one
stays empty, and both fields of every saved value come back, whichever of them
its kind asks for. -/
theorem decode_encode_iff (s : Snapshot) (h : s.Addressable) :
    ((∃ s', decode s.encode = .ok s') ↔ s.Storable) ∧
      ∀ s', decode s.encode = .ok s' → s' = s := by
  refine ⟨⟨?_, ?_⟩, ?_⟩
  · rintro ⟨s', hread⟩
    exact storable_of_decode_encode h hread
  · intro hs
    exact ⟨s, decode_encode_of_storable h hs⟩
  · intro s' hread
    have hs := storable_of_decode_encode h hread
    rw [decode_encode_of_storable h hs] at hread
    exact (Except.ok.inj hread).symm

/-- A snapshot with the least pointer, a kind that no value has, both payloads
in one slot and two bindings of one name. -/
theorem decode_encode_iff_extremes :
    let s : Snapshot :=
      { version := 255, pointer := Int64.minValue, terminated := true, line := -1
        stack := some [{ kind := ⟨255⟩, int := Int64.minValue, text := "é" }, {}]
        env := [{ name := "x", value := { int := 24 } }, { name := "x" }] }
    s.Addressable ∧ s.Storable ∧ (∃ s', decode s.encode = .ok s') ∧
      ∀ s', decode s.encode = .ok s' → s' = s := by
  intro s
  have haddressable : s.Addressable := ⟨by decide, by decide, by decide⟩
  have hstorable : s.Storable := ⟨by decide, by decide, by decide⟩
  obtain ⟨hiff, heq⟩ := decode_encode_iff s haddressable
  exact ⟨haddressable, hstorable, hiff.mpr hstorable, heq⟩

end Snapshot

end StackStep
