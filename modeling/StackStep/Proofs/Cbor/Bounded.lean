import StackStep.Cbor.Reader

/-!
What every item that is read satisfies, whatever bytes it was read from.

A reader only takes bytes off the front, so no string in an item is longer
than the input, and an array is refused before it has too many elements. The
two facts travel together through the readers as one predicate on the item,
`Item.Bounded`, with the length of the input as its bound.
-/

namespace StackStep.Cbor

/-- Every result has property `P` of the length of the input, and what is left
over is no longer than the input. -/
def Reader.Yields {α : Type} (read : Reader α) (P : Nat → α → Prop) : Prop :=
  ∀ bs a rest, read bs = some (a, rest) → P bs.length a ∧ rest.length ≤ bs.length

/-! ### Heads and strings -/

theorem length_take {n : Nat} {bs front rest : Bytes} (h : take n bs = some (front, rest)) :
    front.length + rest.length = bs.length := by
  induction n generalizing bs front with
  | zero =>
      simp only [take, Option.some.injEq, Prod.mk.injEq] at h
      obtain ⟨rfl, rfl⟩ := h
      simp
  | succ n ih =>
      cases bs with
      | nil => simp [take] at h
      | cons b bs =>
          simp only [take, Option.bind_eq_bind, Option.bind_eq_some_iff, Prod.exists] at h
          obtain ⟨tail, rest', htail, h⟩ := h
          simp only [pure, Option.some.injEq, Prod.mk.injEq] at h
          obtain ⟨rfl, rfl⟩ := h
          have := ih htail
          simp only [List.length_cons]
          omega

theorem length_readNumber {info : Nat} {bs rest : Bytes} {n : UInt64}
    (h : readNumber info bs = some (n, rest)) : rest.length ≤ bs.length := by
  unfold readNumber at h
  split at h
  · cases h
    exact Nat.le_refl _
  · simp only [Option.bind_eq_bind, Option.bind_eq_some_iff, Prod.exists] at h
    obtain ⟨width, -, digits, rest', htake, h⟩ := h
    have hlen := length_take htake
    cases h
    omega

theorem length_readSpecial {info : Nat} {bs rest : Bytes} {head : Head}
    (h : readSpecial info bs = some (head, rest)) : rest.length ≤ bs.length := by
  unfold readSpecial at h
  split at h
  · cases h
    exact Nat.le_refl _
  split at h
  · cases h
    exact Nat.le_refl _
  · simp only [Option.bind_eq_bind, Option.bind_eq_some_iff, Prod.exists] at h
    obtain ⟨width, -, content, rest', htake, h⟩ := h
    have hlen := length_take htake
    split at h
    · split at h
      · cases h
      · cases h
        omega
    · cases h
      omega

theorem length_readHead {bs rest : Bytes} {head : Head} (h : readHead bs = some (head, rest)) :
    rest.length ≤ bs.length := by
  cases bs with
  | nil => cases h
  | cons initial bs =>
      simp only [readHead] at h
      split at h
      · have hlen := length_readSpecial h
        simp only [List.length_cons]
        omega
      split at h
      · cases h
        simp
      · simp only [Option.bind_eq_bind, Option.bind_eq_some_iff, Prod.exists] at h
        obtain ⟨n, rest', hnumber, h⟩ := h
        have hlen := length_readNumber hnumber
        cases h
        simp only [List.length_cons]
        omega

theorem length_readPiece {m : Major} {bs piece rest : Bytes}
    (h : readPiece m bs = some (piece, rest)) : piece.length + rest.length ≤ bs.length := by
  simp only [readPiece, Option.bind_eq_bind, Option.bind_eq_some_iff, Prod.exists] at h
  obtain ⟨head, rest', hhead, h⟩ := h
  have hlen := length_readHead hhead
  split at h
  · split at h
    · next heq _ =>
        have htake := length_take h
        cases heq
        omega
    · cases h
  · cases h

/-- The pieces of a string of open length, put together. -/
theorem length_readPieces {m : Major} {limit : Nat} {bs rest : Bytes} {pieces : List Bytes}
    (h : readUntilStop (readPiece m) limit bs = some (pieces, rest)) :
    pieces.flatten.length + rest.length ≤ bs.length := by
  induction limit generalizing bs pieces with
  | zero =>
      simp only [readUntilStop, Option.bind_eq_bind, Option.bind_eq_some_iff] at h
      obtain ⟨rest', hstop, h⟩ := h
      cases h
      simp [Bytes.eq_append_of_after? hstop]
  | succ limit ih =>
      simp only [readUntilStop] at h
      split at h
      · next hstop =>
          cases h
          simp [Bytes.eq_append_of_after? hstop]
      · simp only [Option.bind_eq_bind, Option.bind_eq_some_iff, Prod.exists] at h
        obtain ⟨piece, rest₁, hpiece, pieces', rest₂, hpieces, h⟩ := h
        cases h
        have hhead := length_readPiece hpiece
        have htail := ih hpieces
        simp only [List.flatten_cons, List.length_append]
        omega

/-! ### Sequences -/

section Sequences

variable {α : Type} {read : Reader α} {P : Nat → α → Prop}

theorem yields_readMany (hread : read.Yields P) (hmono : ∀ m n a, m ≤ n → P m a → P n a)
    (n : Nat) :
    Reader.Yields (readMany read n) fun size as => as.length = n ∧ ∀ a ∈ as, P size a := by
  induction n with
  | zero =>
      intro bs as rest h
      cases h
      simp
  | succ n ih =>
      intro bs as rest h
      simp only [readMany, Option.bind_eq_bind, Option.bind_eq_some_iff, Prod.exists] at h
      obtain ⟨a, rest₁, ha, as', rest₂, has, h⟩ := h
      cases h
      obtain ⟨hP, hle₁⟩ := hread _ _ _ ha
      obtain ⟨⟨hlen, hall⟩, hle₂⟩ := ih _ _ _ has
      refine ⟨⟨by simp [hlen], ?_⟩, by omega⟩
      intro x hx
      rcases List.mem_cons.mp hx with rfl | hx
      · exact hP
      · exact hmono _ _ _ hle₁ (hall x hx)

theorem yields_readUntilStop (hread : read.Yields P)
    (hmono : ∀ m n a, m ≤ n → P m a → P n a) (limit : Nat) :
    Reader.Yields (readUntilStop read limit)
      fun size as => as.length ≤ limit ∧ ∀ a ∈ as, P size a := by
  induction limit with
  | zero =>
      intro bs as rest h
      simp only [readUntilStop, Option.bind_eq_bind, Option.bind_eq_some_iff] at h
      obtain ⟨rest', hstop, h⟩ := h
      cases h
      simp [Bytes.eq_append_of_after? hstop]
  | succ limit ih =>
      intro bs as rest h
      simp only [readUntilStop] at h
      split at h
      · next hstop =>
          cases h
          simp [Bytes.eq_append_of_after? hstop]
      · simp only [Option.bind_eq_bind, Option.bind_eq_some_iff, Prod.exists] at h
        obtain ⟨a, rest₁, ha, as', rest₂, has, h⟩ := h
        cases h
        obtain ⟨hP, hle₁⟩ := hread _ _ _ ha
        obtain ⟨⟨hlen, hall⟩, hle₂⟩ := ih _ _ _ has
        refine ⟨⟨by simpa using hlen, ?_⟩, by omega⟩
        intro x hx
        rcases List.mem_cons.mp hx with rfl | hx
        · exact hP
        · exact hmono _ _ _ hle₁ (hall x hx)

theorem yields_readCounted (hread : read.Yields P) (hmono : ∀ m n a, m ≤ n → P m a → P n a)
    (count : Option UInt64) :
    Reader.Yields (readCounted read count)
      fun size as => as.length ≤ maxCount ∧ ∀ a ∈ as, P size a := by
  intro bs as rest h
  cases count with
  | none => exact yields_readUntilStop hread hmono maxCount bs as rest h
  | some n =>
      simp only [readCounted] at h
      split at h
      · next hn =>
          obtain ⟨⟨hlen, hall⟩, hle⟩ := yields_readMany hread hmono n.toNat bs as rest h
          exact ⟨⟨by omega, hall⟩, hle⟩
      · cases h

theorem yields_readPair (hread : read.Yields P) (hmono : ∀ m n a, m ≤ n → P m a → P n a) :
    Reader.Yields (readPair read read) fun size e => P size e.1 ∧ P size e.2 := by
  intro bs e rest h
  simp only [readPair, Option.bind_eq_bind, Option.bind_eq_some_iff, Prod.exists] at h
  obtain ⟨a, rest₁, ha, b, rest₂, hb, h⟩ := h
  cases h
  obtain ⟨hPa, hle₁⟩ := hread _ _ _ ha
  obtain ⟨hPb, hle₂⟩ := hread _ _ _ hb
  exact ⟨⟨hPa, hmono _ _ _ hle₁ hPb⟩, by omega⟩

end Sequences

namespace Item

/-! ### Items -/

/-- No string is longer than `size` and no array has more elements than the
reader takes, at any depth. -/
inductive Bounded (size : Nat) : Item → Prop where
  | unsigned (n : UInt64) : Bounded size (.unsigned n)
  | negative (n : UInt64) : Bounded size (.negative n)
  | bytes {pieces : List Bytes} (h : pieces.flatten.length ≤ size) : Bounded size (.bytes pieces)
  | text {pieces : List Bytes} (h : pieces.flatten.length ≤ size) : Bounded size (.text pieces)
  | array {items : List Item} (h : items.length ≤ maxCount)
      (hitems : ∀ item ∈ items, Bounded size item) : Bounded size (.array items)
  | map {entries : List (Item × Item)} (hkeys : ∀ e ∈ entries, Bounded size e.1)
      (hvalues : ∀ e ∈ entries, Bounded size e.2) : Bounded size (.map entries)
  | tag (number : UInt64) {content : Item} (h : Bounded size content) :
      Bounded size (.tag number content)
  | simple (n : UInt8) : Bounded size (.simple n)
  | float (bits : Bytes) : Bounded size (.float bits)

theorem Bounded.mono {m n : Nat} {item : Item} (hle : m ≤ n) (h : Bounded m item) :
    Bounded n item := by
  induction h with
  | unsigned n => exact .unsigned n
  | negative n => exact .negative n
  | bytes h => exact .bytes (Nat.le_trans h hle)
  | text h => exact .text (Nat.le_trans h hle)
  | array h _ ih => exact .array h ih
  | map _ _ ihKeys ihValues => exact .map ihKeys ihValues
  | tag number _ ih => exact .tag number ih
  | simple n => exact .simple n
  | float bits => exact .float bits

theorem yields_readItems {read : Reader Item} (hread : read.Yields Bounded)
    (count : Option UInt64) {bs rest : Bytes} {items : List Item}
    (h : readCounted read count bs = some (items, rest)) :
    Bounded bs.length (.array items) ∧ rest.length ≤ bs.length := by
  obtain ⟨⟨hcount, hitems⟩, hle⟩ :=
    yields_readCounted hread (fun _ _ _ => Bounded.mono) count bs items rest h
  exact ⟨.array hcount hitems, hle⟩

theorem yields_readEntries {read : Reader Item} (hread : read.Yields Bounded)
    (count : Option UInt64) {bs rest : Bytes} {entries : List (Item × Item)}
    (h : readCounted (readPair read read) count bs = some (entries, rest)) :
    Bounded bs.length (.map entries) ∧ rest.length ≤ bs.length := by
  have hpair := yields_readPair hread fun _ _ _ => Bounded.mono
  obtain ⟨⟨-, hentries⟩, hle⟩ := yields_readCounted hpair
    (fun _ _ _ hle h => ⟨h.1.mono hle, h.2.mono hle⟩) count bs entries rest h
  exact ⟨.map (fun e he => (hentries e he).1) (fun e he => (hentries e he).2), hle⟩

theorem yields_readItem {element content : Option (Reader Item)}
    (helement : ∀ read, element = some read → read.Yields Bounded)
    (hcontent : ∀ read, content = some read → read.Yields Bounded) :
    (readItem element content).Yields Bounded := by
  intro bs item rest h
  simp only [readItem, Option.bind_eq_bind, Option.bind_eq_some_iff, Prod.exists] at h
  obtain ⟨head, rest₁, hhead, h⟩ := h
  have hlen := length_readHead hhead
  -- What follows the head is no longer than the input, so a bound there will do.
  suffices hrest : Bounded rest₁.length item ∧ rest.length ≤ rest₁.length from
    ⟨hrest.1.mono hlen, Nat.le_trans hrest.2 hlen⟩
  cases head with
  | counted m n =>
      cases m with
      | unsigned => cases h; exact ⟨.unsigned n, Nat.le_refl _⟩
      | negative => cases h; exact ⟨.negative n, Nat.le_refl _⟩
      | bytes =>
          simp only [Option.bind_eq_some_iff, Prod.exists] at h
          obtain ⟨piece, rest₂, htake, h⟩ := h
          have hsize := length_take htake
          cases h
          exact ⟨.bytes (by simp; omega), by omega⟩
      | text =>
          simp only [Option.bind_eq_some_iff, Prod.exists] at h
          obtain ⟨piece, rest₂, htake, h⟩ := h
          have hsize := length_take htake
          cases h
          exact ⟨.text (by simp; omega), by omega⟩
      | array =>
          simp only [Option.bind_eq_some_iff, Prod.exists] at h
          obtain ⟨read, hread, items, rest₂, hitems, h⟩ := h
          cases h
          exact yields_readItems (helement read hread) _ hitems
      | map =>
          simp only [Option.bind_eq_some_iff, Prod.exists] at h
          obtain ⟨read, hread, entries, rest₂, hentries, h⟩ := h
          cases h
          exact yields_readEntries (helement read hread) _ hentries
      | tag =>
          simp only [Option.bind_eq_some_iff, Prod.exists] at h
          obtain ⟨read, hread, inner, rest₂, hinner, h⟩ := h
          cases h
          obtain ⟨hbounded, hle⟩ := hcontent read hread _ _ _ hinner
          exact ⟨.tag n hbounded, hle⟩
  | opened m =>
      cases m with
      | bytes =>
          simp only [Option.bind_eq_some_iff, Prod.exists] at h
          obtain ⟨pieces, rest₂, hpieces, h⟩ := h
          have hsize := length_readPieces hpieces
          cases h
          exact ⟨.bytes (by omega), by omega⟩
      | text =>
          simp only [Option.bind_eq_some_iff, Prod.exists] at h
          obtain ⟨pieces, rest₂, hpieces, h⟩ := h
          have hsize := length_readPieces hpieces
          cases h
          exact ⟨.text (by omega), by omega⟩
      | array =>
          simp only [Option.bind_eq_some_iff, Prod.exists] at h
          obtain ⟨read, hread, items, rest₂, hitems, h⟩ := h
          cases h
          exact yields_readItems (helement read hread) _ hitems
      | map =>
          simp only [Option.bind_eq_some_iff, Prod.exists] at h
          obtain ⟨read, hread, entries, rest₂, hentries, h⟩ := h
          cases h
          exact yields_readEntries (helement read hread) _ hentries
      | unsigned | negative | tag => cases h
  | simple n => cases h; exact ⟨.simple n, Nat.le_refl _⟩
  | float bits => cases h; exact ⟨.float bits, Nat.le_refl _⟩
  | stop => cases h

/-- Both readers of a depth, since what stands under a tag is read by the one
and everything else by the other. -/
theorem yields_readers (levels : Nat) :
    (readers levels).item.Yields Bounded ∧ (readers levels).content.Yields Bounded := by
  induction levels with
  | zero =>
      have hcontent : (readers 0).content.Yields Bounded :=
        yields_readItem (by simp) (by simp)
      exact ⟨yields_readItem (by simp) (by rintro _ ⟨⟩; exact hcontent), hcontent⟩
  | succ levels ih =>
      have hcontent : (readers (levels + 1)).content.Yields Bounded :=
        yields_readItem (by rintro _ ⟨⟩; exact ih.1) (by rintro _ ⟨⟩; exact ih.2)
      exact ⟨yields_readItem (by rintro _ ⟨⟩; exact ih.1) (by rintro _ ⟨⟩; exact hcontent),
        hcontent⟩

theorem bounded_of_read? {bs : Bytes} {item : Item} (h : read? bs = some item) :
    item.Bounded bs.length := by
  unfold read? at h
  split at h
  · next hread =>
      cases h
      exact ((yields_readers maxLevels).1 _ _ _ hread).1
  · cases h

end Item

end StackStep.Cbor
