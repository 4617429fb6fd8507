import StackStep.Cbor.Reader

/-!
Bytes added behind an item.

A reader takes what it needs off the front and does not look at the rest, so more bytes at the
end change nothing but what is left over. An item is therefore never the beginning of a longer
one: bytes that are one whole item are not an item any more when something is added, or when
something is cut off. The one place where the end of the input could be noticed is in a
sequence up to a stop byte: where the input ends there is no stop byte, and with more bytes
there might be one. But nothing is read from no bytes at all, so no sequence gets past there.
-/

namespace StackStep.Cbor

/-- More bytes at the end only add to what is left over. -/
def Reader.Local {α : Type} (read : Reader α) : Prop :=
  ∀ bs a rest, read bs = some (a, rest) → ∀ more, read (bs ++ more) = some (a, rest ++ more)

section Combinators

variable {α β : Type}

theorem local_pure (a : α) : Reader.Local fun bs => some (a, bs) := by
  rintro bs _ _ ⟨⟩ more
  rfl

theorem local_fail : Reader.Local fun _ => (none : Option (α × Bytes)) := by
  rintro bs a rest ⟨⟩

theorem Reader.Local.bind {read : Reader α} {next : α → Reader β} (hread : read.Local)
    (hnext : ∀ a, (next a).Local) : Reader.Local fun bs => read bs >>= fun r => next r.1 r.2 := by
  intro bs b rest h more
  obtain ⟨⟨a, rest₁⟩, ha, hb⟩ := Option.bind_eq_some_iff.mp h
  have hmore := hnext a rest₁ b rest hb more
  simp only [hread bs a rest₁ ha more, Option.bind_eq_bind, Option.bind_some, hmore]

end Combinators

/-! ### Heads and strings -/

theorem local_take (n : Nat) : (take n).Local := by
  induction n with
  | zero => exact local_pure []
  | succ n ih =>
      intro bs front rest h more
      cases bs with
      | nil => cases h
      | cons b bs => exact (ih.bind fun tail => local_pure (b :: tail)) bs front rest h more

theorem local_readNumber (info : Nat) : (readNumber info).Local := by
  unfold readNumber
  split
  · exact local_pure _
  · cases infoWidth? info with
    | none => exact local_fail
    | some width => exact (local_take width).bind fun digits => local_pure digits.toNumber.toUInt64

/-- The content of a simple value or a float, once it is cut off. -/
theorem local_special (content : Bytes) :
    Reader.Local fun bs =>
      match content with
      | [n] => if n < 32 then none else some (Head.simple n, bs)
      | bits => some (.float bits, bs) := by
  match content with
  | [] => exact local_pure _
  | [n] =>
      by_cases hn : n < 32
      · simp only [if_pos hn]
        exact local_fail
      · simp only [if_neg hn]
        exact local_pure _
  | _ :: _ :: _ => exact local_pure _

theorem local_readSpecial (info : Nat) : (readSpecial info).Local := by
  unfold readSpecial
  split
  · exact local_pure _
  split
  · exact local_pure _
  · cases infoWidth? info with
    | none => exact local_fail
    | some width => exact (local_take width).bind local_special

theorem local_readHead : readHead.Local := by
  intro bs head rest h more
  cases bs with
  | nil => cases h
  | cons initial bs =>
      have hlocal : Reader.Local fun bs => readHead (initial :: bs) := by
        simp only [readHead]
        split
        · exact local_readSpecial _
        split
        · exact local_pure _
        · next m _ _ => exact (local_readNumber _).bind fun n => local_pure (Head.counted m n)
      exact hlocal bs head rest h more

theorem local_readPiece (m : Major) : (readPiece m).Local := by
  intro bs piece rest h more
  obtain ⟨⟨head, rest₁⟩, hhead, h⟩ := Option.bind_eq_some_iff.mp h
  have hmore := local_readHead bs head rest₁ hhead more
  simp only [readPiece, hmore, Option.bind_eq_bind, Option.bind_some]
  cases head with
  | counted m' n =>
      by_cases hm : m' = m
      · simp only [if_pos hm] at h ⊢
        exact local_take n.toNat rest₁ piece rest h more
      · simp only [if_neg hm] at h
        cases h
  | opened _ | simple _ | float _ | stop => cases h

/-! ### Sequences -/

section Sequences

variable {α : Type} {read : Reader α}

theorem local_readMany (hread : read.Local) (n : Nat) : (readMany read n).Local := by
  induction n with
  | zero => exact local_pure []
  | succ n ih => exact hread.bind fun a => ih.bind fun as => local_pure (a :: as)

theorem after?_append_of_eq_some {start bs rest : Bytes} (h : Bytes.after? start bs = some rest)
    (more : Bytes) : Bytes.after? start (bs ++ more) = some (rest ++ more) := by
  rw [Bytes.eq_append_of_after? h, List.append_assoc, Bytes.after?_append]

theorem after?_append_of_eq_none {b : UInt8} {bs : Bytes} (hne : bs ≠ [])
    (h : Bytes.after? [b] bs = none) (more : Bytes) : Bytes.after? [b] (bs ++ more) = none := by
  cases bs with
  | nil => exact absurd rfl hne
  | cons c bs =>
      by_cases hbc : b = c
      · subst hbc
        have hstart : Bytes.after? [b] (b :: bs) = some bs := Bytes.after?_append [b] bs
        rw [hstart] at h
        cases h
      · exact if_neg hbc

theorem local_readUntilStop (hread : read.Local) (hnil : read [] = none) (limit : Nat) :
    (readUntilStop read limit).Local := by
  induction limit with
  | zero =>
      intro bs as rest h more
      obtain ⟨rest', hstop, h⟩ := Option.bind_eq_some_iff.mp h
      cases h
      simp only [readUntilStop, after?_append_of_eq_some hstop more]
      rfl
  | succ limit ih =>
      intro bs as rest h more
      simp only [readUntilStop] at h ⊢
      split at h
      · next hstop =>
          cases h
          simp only [after?_append_of_eq_some hstop more]
      · next hstop =>
          -- Without bytes there is no stop byte, and with more there might be one.
          have hne : bs ≠ [] := by
            rintro rfl
            rw [hnil] at h
            cases h
          simp only [after?_append_of_eq_none hne hstop more]
          exact (hread.bind fun a => ih.bind fun as => local_pure (a :: as)) bs as rest h more

/-- A sequence that has ended is not read differently under a higher limit. -/
theorem readUntilStop_of_le {limit limit' : Nat} {bs rest : Bytes} {as : List α}
    (h : readUntilStop read limit bs = some (as, rest)) (hle : limit ≤ limit') :
    readUntilStop read limit' bs = some (as, rest) := by
  induction limit generalizing limit' bs as with
  | zero =>
      obtain ⟨rest', hstop, hend⟩ := Option.bind_eq_some_iff.mp h
      cases limit' with
      | zero => exact h
      | succ limit' =>
          simp only [readUntilStop, hstop]
          exact hend
  | succ limit ih =>
      obtain ⟨limit', rfl⟩ : ∃ n, limit' = n + 1 := ⟨limit' - 1, by omega⟩
      simp only [readUntilStop] at h ⊢
      split at h
      · exact h
      · obtain ⟨⟨a, rest₁⟩, ha, h⟩ := Option.bind_eq_some_iff.mp h
        obtain ⟨⟨as', rest₂⟩, has, h⟩ := Option.bind_eq_some_iff.mp h
        cases h
        have has' := ih has (Nat.le_of_succ_le_succ hle)
        simp only [ha, has', Option.bind_eq_bind, Option.bind_some]
        rfl

theorem local_readCounted (hread : read.Local) (hnil : read [] = none)
    (count : Option UInt64) : (readCounted read count).Local := by
  intro bs as rest h more
  cases count with
  | none => exact local_readUntilStop hread hnil maxCount bs as rest h more
  | some n =>
      simp only [readCounted] at h ⊢
      split at h
      · next hn =>
          rw [if_pos hn]
          exact local_readMany hread n.toNat bs as rest h more
      · cases h

theorem local_readPair (hread : read.Local) : (readPair read read).Local :=
  hread.bind fun a => hread.bind fun b => local_pure (a, b)

end Sequences

/-- The pieces of a string of open length are read with a limit that depends on the input,
but only on its length, and a longer input has a higher limit. -/
theorem local_readPieces (m : Major) :
    Reader.Local fun bs => readUntilStop (readPiece m) bs.length bs := by
  intro bs pieces rest h more
  have hmore := local_readUntilStop (local_readPiece m) rfl bs.length bs pieces rest h more
  have hle : bs.length ≤ (bs ++ more).length := by simp
  exact readUntilStop_of_le hmore hle

/-! ### Items -/

section Items

variable {element content : Option (Reader Item)}

theorem local_readItems (helement : ∀ read, element = some read → read.Local ∧ read [] = none)
    (count : Option UInt64) :
    Reader.Local fun bs => element >>= fun read =>
      readCounted read count bs >>= fun r => some (Item.array r.1, r.2) := by
  cases element with
  | none => exact local_fail
  | some read =>
      obtain ⟨hread, hnil⟩ := helement read rfl
      exact (local_readCounted hread hnil count).bind fun items => local_pure (Item.array items)

theorem local_readEntries (helement : ∀ read, element = some read → read.Local ∧ read [] = none)
    (count : Option UInt64) :
    Reader.Local fun bs => element >>= fun read =>
      readCounted (readPair read read) count bs >>= fun r => some (Item.map r.1, r.2) := by
  cases element with
  | none => exact local_fail
  | some read =>
      obtain ⟨hread, hnil⟩ := helement read rfl
      have hpair : readPair read read [] = none := by simp [readPair, hnil]
      exact (local_readCounted (local_readPair hread) hpair count).bind fun entries =>
        local_pure (Item.map entries)

theorem local_readItem
    (helement : ∀ read, element = some read → read.Local ∧ read [] = none)
    (hcontent : ∀ read, content = some read → read.Local) :
    (readItem element content).Local := by
  intro bs item rest h more
  obtain ⟨⟨head, rest₁⟩, hhead, h⟩ := Option.bind_eq_some_iff.mp h
  have hmore := local_readHead bs head rest₁ hhead more
  simp only [readItem, hmore, Option.bind_eq_bind, Option.bind_some]
  cases head with
  | counted m n =>
      cases m with
      | unsigned => exact local_pure (.unsigned n) rest₁ item rest h more
      | negative => exact local_pure (.negative n) rest₁ item rest h more
      | bytes =>
          exact ((local_take n.toNat).bind fun piece => local_pure (Item.bytes [piece]))
            rest₁ item rest h more
      | text =>
          exact ((local_take n.toNat).bind fun piece => local_pure (Item.text [piece]))
            rest₁ item rest h more
      | array => exact local_readItems helement (some n) rest₁ item rest h more
      | map => exact local_readEntries helement (some n) rest₁ item rest h more
      | tag =>
          cases content with
          | none => cases h
          | some read =>
              exact ((hcontent read rfl).bind fun inner => local_pure (Item.tag n inner))
                rest₁ item rest h more
  | opened m =>
      cases m with
      | bytes =>
          exact ((local_readPieces .bytes).bind fun pieces => local_pure (Item.bytes pieces))
            rest₁ item rest h more
      | text =>
          exact ((local_readPieces .text).bind fun pieces => local_pure (Item.text pieces))
            rest₁ item rest h more
      | array => exact local_readItems helement none rest₁ item rest h more
      | map => exact local_readEntries helement none rest₁ item rest h more
      | unsigned | negative | tag => cases h
  | simple n => exact local_pure (.simple n) rest₁ item rest h more
  | float bits => exact local_pure (.float bits) rest₁ item rest h more
  | stop => cases h

end Items

/-- Both readers of a depth. -/
theorem local_readers (levels : Nat) :
    ((readers levels).item.Local ∧ (readers levels).item [] = none) ∧
      (readers levels).content.Local := by
  induction levels with
  | zero =>
      have hcontent : (readers 0).content.Local := local_readItem (by simp) (by simp)
      exact ⟨⟨local_readItem (by simp) (by rintro _ ⟨⟩; exact hcontent), rfl⟩, hcontent⟩
  | succ levels ih =>
      have hcontent : (readers (levels + 1)).content.Local :=
        local_readItem (by rintro _ ⟨⟩; exact ih.1) (by rintro _ ⟨⟩; exact ih.2)
      exact ⟨⟨local_readItem (by rintro _ ⟨⟩; exact ih.1) (by rintro _ ⟨⟩; exact hcontent), rfl⟩,
        hcontent⟩

namespace Item

/-- One whole item with something behind it is not one whole item. -/
theorem read?_append {bs more : Bytes} {item : Item} (h : read? bs = some item)
    (hmore : more ≠ []) : read? (bs ++ more) = none := by
  unfold read? at h
  split at h
  · next hread =>
      have hlonger := (local_readers maxLevels).1.1 _ _ _ hread more
      obtain ⟨b, more, rfl⟩ := List.exists_cons_of_ne_nil hmore
      rw [read?, hlonger]
      rfl
  · cases h

/-- Nor is one that lacks its end. -/
theorem read?_of_cut {bs part : Bytes} {item : Item} (h : read? bs = some item)
    (hpart : part <+: bs) (hne : part ≠ bs) : read? part = none := by
  obtain ⟨more, rfl⟩ := hpart
  have hmore : more ≠ [] := by
    rintro rfl
    exact hne (List.append_nil part).symm
  cases hread : read? part with
  | none => rfl
  | some item' =>
      rw [read?_append hread hmore] at h
      cases h

end Item

end StackStep.Cbor
