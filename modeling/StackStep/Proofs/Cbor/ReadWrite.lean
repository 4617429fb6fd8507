import StackStep.Cbor.Reader

/-!
What the reader makes of written items.

Every statement leaves the rest of the input open, because an element of an
array is always read with the other elements still behind it. The reader
refuses an array or a map for its size alone, so the law is not that writing
can be undone but an equation with a test on its right side:
`Item.within levels` says exactly which written items come back, and the
others are not read at all. The test is a function, and a format that is
built from items can compute its own limits from it.

Only items of the plain form are covered: no tags, no floats and no strings
in pieces. Nothing else is ever written by the library.
-/

namespace StackStep.Cbor

/-! ### Heads

The five widths of a number differ only in how many bytes follow the initial
one, so they share one lemma about a number of known width. -/

theorem Major.code_lt (m : Major) : m.code < 7 := by
  cases m <;> decide

theorem Major.toNat_initial (m : Major) {info : Nat} (h : info < 32) :
    (m.initial info).toNat = m.code * 32 + info := by
  have hm := m.code_lt
  have hlt : m.code * 32 + info < 2 ^ 8 := by omega
  rw [initial, Nat.toUInt8, UInt8.toNat_ofNat', Nat.mod_eq_of_lt hlt]

theorem readHead_initial (m : Major) {info : Nat} (h : info < 31) (rest : Bytes) :
    readHead (m.initial info :: rest) =
      (readNumber info rest).map fun r => (.counted m r.1, r.2) := by
  have hinfo : (m.initial info).toNat % 32 = info := by
    rw [m.toNat_initial (by omega)]
    omega
  have hcode : (m.initial info).toNat / 32 = m.code := by
    rw [m.toNat_initial (by omega)]
    omega
  have hopen : info ≠ 31 := by omega
  simp only [readHead, hinfo, hcode, Major.ofCode?_code, if_neg hopen]
  cases readNumber info rest <;> rfl

theorem readNumber_small {n : UInt64} (h : n < 24) (rest : Bytes) :
    readNumber n.toNat rest = some (n, rest) := by
  have hn : n.toNat < 24 := by simpa [UInt64.lt_iff_toNat_lt] using h
  rw [readNumber, if_pos hn]
  simp [Nat.toUInt64]

theorem lt_of_infoWidth? {info width : Nat} (h : infoWidth? info = some width) :
    info < 31 := by
  unfold infoWidth? at h
  split at h
  · omega
  split at h
  · omega
  split at h
  · omega
  split at h
  · omega
  · cases h

theorem readHead_ofNumber (m : Major) {info width : Nat} (hinfo : 24 ≤ info)
    (hwidth : infoWidth? info = some width) {n : UInt64}
    (hn : n.toNat < Nat.pow 256 width) (rest : Bytes) :
    readHead (m.initial info :: (Bytes.ofNumber width n.toNat ++ rest)) =
      some (.counted m n, rest) := by
  have hmax := lt_of_infoWidth? hwidth
  have htake := take_append (Bytes.ofNumber width n.toNat) rest
  rw [Bytes.length_ofNumber] at htake
  have hvalue : (Bytes.ofNumber width n.toNat).toNumber.toUInt64 = n := by
    rw [Bytes.toNumber_ofNumber, Nat.mod_eq_of_lt hn]
    simp [Nat.toUInt64]
  rw [readHead_initial m hmax, readNumber, if_neg (by omega)]
  simp [hwidth, htake, hvalue]

theorem readHead_writeHead (m : Major) (n : UInt64) (rest : Bytes) :
    readHead (writeHead m n ++ rest) = some (.counted m n, rest) := by
  unfold writeHead
  split
  · next h =>
      have hn : n.toNat < 24 := by simpa [UInt64.lt_iff_toNat_lt] using h
      rw [List.singleton_append, readHead_initial m (by omega), readNumber_small h]
      rfl
  split
  · next h => exact readHead_ofNumber m (by decide) rfl (UInt64.lt_iff_toNat_lt.mp h) rest
  split
  · next h => exact readHead_ofNumber m (by decide) rfl (UInt64.lt_iff_toNat_lt.mp h) rest
  split
  · next h => exact readHead_ofNumber m (by decide) rfl (UInt64.lt_iff_toNat_lt.mp h) rest
  · exact readHead_ofNumber m (by decide) rfl n.toNat_lt rest

theorem readHead_writeSimple {n : UInt8} (h : n < 24) (rest : Bytes) :
    readHead (writeSimple n ++ rest) = some (.simple n, rest) := by
  have hn : n.toNat < 24 := by simpa [UInt8.lt_iff_toNat_lt] using h
  have hbyte : (0xE0 + n).toNat = 224 + n.toNat := by
    rw [UInt8.toNat_add, show (0xE0 : UInt8).toNat = 224 from rfl]
    omega
  have hinfo : (0xE0 + n).toNat % 32 = n.toNat := by omega
  have hcode : (0xE0 + n).toNat / 32 = 7 := by omega
  rw [writeSimple, if_pos h, List.singleton_append]
  simp only [readHead, hinfo, hcode, Major.ofCode?, readSpecial, if_pos hn]
  simp [Nat.toUInt8]

/-! ### Sequences -/

theorem toNat_length {α : Type} {xs : List α} (h : xs.length < UInt64.size) :
    xs.length.toUInt64.toNat = xs.length := by
  rw [Nat.toUInt64, UInt64.toNat_ofNat', Nat.mod_eq_of_lt h]

theorem readMany_flatMap {α : Type} {read : Reader α} {write : α → Bytes} {ok : α → Bool}
    {xs : List α}
    (h : ∀ x ∈ xs, ∀ rest, read (write x ++ rest) = if ok x then some (x, rest) else none)
    (rest : Bytes) :
    readMany read xs.length (xs.flatMap write ++ rest) =
      if xs.all ok then some (xs, rest) else none := by
  induction xs with
  | nil => rfl
  | cons x xs ih =>
      have hx := h x List.mem_cons_self (xs.flatMap write ++ rest)
      have hxs := ih fun y hy => h y (List.mem_cons_of_mem x hy)
      simp only [List.flatMap_cons, List.append_assoc, List.length_cons, readMany, hx]
      cases hok : ok x with
      | false => simp [hok]
      | true => cases hall : xs.all ok <;> simp [hok, hall, hxs]

theorem readCounted_flatMap {α : Type} {read : Reader α} {write : α → Bytes}
    {ok : α → Bool} {xs : List α} (hlen : xs.length < UInt64.size)
    (h : ∀ x ∈ xs, ∀ rest, read (write x ++ rest) = if ok x then some (x, rest) else none)
    (rest : Bytes) :
    readCounted read (some xs.length.toUInt64) (xs.flatMap write ++ rest) =
      if xs.length ≤ maxCount && xs.all ok then some (xs, rest) else none := by
  rw [readCounted, toNat_length hlen, readMany_flatMap h]
  by_cases hmax : xs.length ≤ maxCount
  · simp [hmax]
  · simp [hmax]

theorem readPair_append {α β : Type} {first : Reader α} {second : Reader β}
    {left right : Bytes} {a : α} {b : β} {okLeft okRight : Bool}
    (hfirst : ∀ rest, first (left ++ rest) = if okLeft then some (a, rest) else none)
    (hsecond : ∀ rest, second (right ++ rest) = if okRight then some (b, rest) else none)
    (rest : Bytes) :
    readPair first second (left ++ right ++ rest) =
      if okLeft && okRight then some ((a, b), rest) else none := by
  simp only [readPair, List.append_assoc, hfirst]
  cases okLeft with
  | false => rfl
  | true => cases okRight <;> simp [hsecond]

/-- What reads the elements of an array where `levels` more may be opened. -/
def elementReader : (levels : Nat) → Option (Reader Item)
  | 0 => none
  | levels + 1 => some (readers levels).item

theorem readers_item (levels : Nat) :
    (readers levels).item = readItem (elementReader levels) (some (readers levels).content) := by
  cases levels <;> rfl

namespace Item

theorem writeAll_eq_flatMap (items : List Item) : writeAll items = items.flatMap write := by
  induction items with
  | nil => simp [writeAll]
  | cons item items ih => simp [writeAll, ih]

theorem writeEntries_eq_flatMap (entries : List (Item × Item)) :
    writeEntries entries = entries.flatMap fun e => write e.1 ++ write e.2 := by
  induction entries with
  | nil => simp [writeEntries]
  | cons e entries ih =>
      obtain ⟨key, value⟩ := e
      simp [writeEntries, ih]

/-! ### Items -/

/-- The items that are written with their length in front and without tags.
A length is a number of 64 bits, as every length in memory is. -/
inductive Plain : Item → Prop where
  | unsigned (n : UInt64) : Plain (.unsigned n)
  | negative (n : UInt64) : Plain (.negative n)
  | bytes {piece : Bytes} (h : piece.length < UInt64.size) : Plain (.bytes [piece])
  | text {piece : Bytes} (h : piece.length < UInt64.size) : Plain (.text [piece])
  | array {items : List Item} (h : items.length < UInt64.size)
      (hitems : ∀ item ∈ items, Plain item) : Plain (.array items)
  | map {entries : List (Item × Item)} (h : entries.length < UInt64.size)
      (hkeys : ∀ e ∈ entries, Plain e.1) (hvalues : ∀ e ∈ entries, Plain e.2) :
      Plain (.map entries)
  | simple {n : UInt8} (h : n < 24) : Plain (.simple n)

/-- Whether no array and no map in a plain item has too many elements, or
stands under more than `levels` others. -/
def within : (levels : Nat) → Item → Bool
  | 0, .array _ => false
  | 0, .map _ => false
  | levels + 1, .array items => items.length ≤ maxCount && items.all (within levels)
  | levels + 1, .map entries =>
      entries.length ≤ maxCount && entries.all fun e => within levels e.1 && within levels e.2
  | _, _ => true

/-- The law of the reader: a plain item comes back with what follows it left
over, if it is within the limits, and otherwise nothing is read. -/
theorem read_write {item : Item} (h : Plain item) (levels : Nat) (rest : Bytes) :
    (readers levels).item (item.write ++ rest) =
      if item.within levels then some (item, rest) else none := by
  -- An element is followed by its siblings and read one level deeper, so both what
  -- follows and the levels vary along the induction.
  induction h generalizing levels rest with
  | unsigned n => simp [readers_item, write, readItem, readHead_writeHead, within]
  | negative n => simp [readers_item, write, readItem, readHead_writeHead, within]
  | bytes hlen =>
      simp [readers_item, write, writeString, writePiece, readItem, readHead_writeHead,
        toNat_length hlen, take_append, within]
  | text hlen =>
      simp [readers_item, write, writeString, writePiece, readItem, readHead_writeHead,
        toNat_length hlen, take_append, within]
  | @array items hlen _ ih =>
      rw [readers_item, write, writeAll_eq_flatMap, List.append_assoc]
      cases levels with
      | zero => simp [readItem, readHead_writeHead, within, elementReader]
      | succ levels =>
          have hread := readCounted_flatMap hlen (fun item hitem => ih item hitem levels) rest
          simp only [readItem, readHead_writeHead, elementReader, within, Option.bind_eq_bind,
            Option.bind_some, hread]
          split
          · next hok => exact (if_pos hok).symm
          · next hok => exact (if_neg hok).symm
  | @map entries hlen _ _ ihKeys ihValues =>
      rw [readers_item, write, writeEntries_eq_flatMap, List.append_assoc]
      cases levels with
      | zero => simp [readItem, readHead_writeHead, within, elementReader]
      | succ levels =>
          have hread := readCounted_flatMap hlen
            (fun e he => readPair_append (ihKeys e he levels) (ihValues e he levels)) rest
          simp only [readItem, readHead_writeHead, elementReader, within, Option.bind_eq_bind,
            Option.bind_some, hread]
          split
          · next hok => exact (if_pos hok).symm
          · next hok => exact (if_neg hok).symm
  | simple hn => simp [readers_item, write, readItem, readHead_writeSimple hn, within]

/-- What reading whole makes of a written item. -/
theorem read?_write {item : Item} (h : Plain item) :
    read? item.write = if item.within maxLevels then some item else none := by
  have hread := read_write h maxLevels []
  rw [List.append_nil] at hread
  rw [read?, hread]
  cases item.within maxLevels <;> rfl

end Item

end StackStep.Cbor
