import StackStep.Proofs.Cbor.ReadWrite

/-!
Written items can be told apart.

The law of the reader says so for every item that is read back, but some are not: the reader
refuses what is too large, and what is written is not bounded. So the argument here is about
the bytes alone. An item begins with its head, the head gives the number of its parts, and
the parts are told apart one after another. Whatever follows an item is told apart with it,
which is what makes the induction go through.
-/

namespace StackStep.Cbor

theorem flatMap_append_inj {α : Type} {write : α → Bytes} {xs ys : List α} {rest rest' : Bytes}
    (hinj : ∀ x ∈ xs, ∀ y ∈ ys, ∀ r r', write x ++ r = write y ++ r' → x = y ∧ r = r')
    (hlen : xs.length = ys.length)
    (h : xs.flatMap write ++ rest = ys.flatMap write ++ rest') : xs = ys ∧ rest = rest' := by
  induction xs generalizing ys with
  | nil =>
      obtain rfl := List.length_eq_zero_iff.mp hlen.symm
      exact ⟨rfl, h⟩
  | cons x xs ih =>
      cases ys with
      | nil => cases hlen
      | cons y ys =>
          rw [List.flatMap_cons, List.flatMap_cons, List.append_assoc, List.append_assoc] at h
          obtain ⟨rfl, htail⟩ := hinj x List.mem_cons_self y List.mem_cons_self _ _ h
          have hinj' : ∀ x ∈ xs, ∀ y ∈ ys, ∀ r r', write x ++ r = write y ++ r' →
              x = y ∧ r = r' := fun x hx y hy =>
            hinj x (List.mem_cons_of_mem _ hx) y (List.mem_cons_of_mem _ hy)
          obtain ⟨rfl, hrest⟩ := ih hinj' (Nat.succ.inj hlen) htail
          exact ⟨rfl, hrest⟩

namespace Item

def head : Item → Head
  | .unsigned n => .counted .unsigned n
  | .negative n => .counted .negative n
  | .bytes pieces => .counted .bytes pieces.flatten.length.toUInt64
  | .text pieces => .counted .text pieces.flatten.length.toUInt64
  | .array items => .counted .array items.length.toUInt64
  | .map entries => .counted .map entries.length.toUInt64
  | .tag number _ => .counted .tag number
  | .simple n => .simple n
  | .float bits => .float bits

def body : Item → Bytes
  | .bytes pieces | .text pieces => pieces.flatten
  | .array items => items.flatMap write
  | .map entries => entries.flatMap fun e => write e.1 ++ write e.2
  | .tag _ content => content.write
  | .unsigned _ | .negative _ | .simple _ | .float _ => []

theorem readHead_write {item : Item} (h : Plain item) (rest : Bytes) :
    readHead (item.write ++ rest) = some (item.head, item.body ++ rest) := by
  cases h with
  | unsigned n => exact readHead_writeHead _ _ _
  | negative n => exact readHead_writeHead _ _ _
  | bytes _ =>
      simp [write, writeString, writePiece, readHead_writeHead, head, body]
  | text _ =>
      simp [write, writeString, writePiece, readHead_writeHead, head, body]
  | array _ _ =>
      rw [write, writeAll_eq_flatMap, List.append_assoc, readHead_writeHead]
      rfl
  | map _ _ _ =>
      rw [write, writeEntries_eq_flatMap, List.append_assoc, readHead_writeHead]
      rfl
  | simple hn => exact readHead_writeSimple hn rest

theorem head_eq_of_write_append {a b : Item} (ha : Plain a) (hb : Plain b) {rest rest' : Bytes}
    (h : a.write ++ rest = b.write ++ rest') :
    a.head = b.head ∧ a.body ++ rest = b.body ++ rest' := by
  have hread := readHead_write ha rest
  rw [h, readHead_write hb, Option.some_inj, Prod.mk.injEq] at hread
  exact ⟨hread.1.symm, hread.2.symm⟩

theorem length_eq_of_counted {α β : Type} {m : Major} {xs : List α} {ys : List β}
    (hxs : xs.length < UInt64.size) (hys : ys.length < UInt64.size)
    (h : Head.counted m xs.length.toUInt64 = .counted m ys.length.toUInt64) :
    xs.length = ys.length := by
  injection h with _ h
  rw [← toNat_length hxs, ← toNat_length hys, h]

/-- Two plain items that begin the same bytes are the same item, and the same bytes follow. -/
theorem write_append_inj {a b : Item} (ha : Plain a) (hb : Plain b) {rest rest' : Bytes}
    (h : a.write ++ rest = b.write ++ rest') : a = b ∧ rest = rest' := by
  -- Both items have the same head, so they are of one kind and have equally many parts. Only
  -- the parts are left to compare, each with all that follows it.
  induction ha generalizing b rest rest' with
  | unsigned n =>
      obtain ⟨hhead, hbody⟩ := head_eq_of_write_append (.unsigned n) hb h
      cases hb with
      | unsigned m =>
          cases hhead
          exact ⟨rfl, hbody⟩
      | _ => cases hhead
  | negative n =>
      obtain ⟨hhead, hbody⟩ := head_eq_of_write_append (.negative n) hb h
      cases hb with
      | negative m =>
          cases hhead
          exact ⟨rfl, hbody⟩
      | _ => cases hhead
  | @bytes piece hlen =>
      obtain ⟨hhead, hbody⟩ := head_eq_of_write_append (.bytes hlen) hb h
      cases hb with
      | @bytes piece' hlen' =>
          simp only [head, body, List.flatten_singleton] at hhead hbody
          obtain ⟨rfl, hrest⟩ := List.append_inj hbody (length_eq_of_counted hlen hlen' hhead)
          exact ⟨rfl, hrest⟩
      | _ => cases hhead
  | @text piece hlen =>
      obtain ⟨hhead, hbody⟩ := head_eq_of_write_append (.text hlen) hb h
      cases hb with
      | @text piece' hlen' =>
          simp only [head, body, List.flatten_singleton] at hhead hbody
          obtain ⟨rfl, hrest⟩ := List.append_inj hbody (length_eq_of_counted hlen hlen' hhead)
          exact ⟨rfl, hrest⟩
      | _ => cases hhead
  | @array items hlen hitems ih =>
      obtain ⟨hhead, hbody⟩ := head_eq_of_write_append (.array hlen hitems) hb h
      cases hb with
      | @array items' hlen' hitems' =>
          have hinj : ∀ x ∈ items, ∀ y ∈ items', ∀ r r', write x ++ r = write y ++ r' →
              x = y ∧ r = r' := fun x hx y hy _ _ => ih x hx (hitems' y hy)
          obtain ⟨rfl, hrest⟩ :=
            flatMap_append_inj hinj (length_eq_of_counted hlen hlen' hhead) hbody
          exact ⟨rfl, hrest⟩
      | _ => cases hhead
  | @map entries hlen hkeys hvalues ihKeys ihValues =>
      obtain ⟨hhead, hbody⟩ := head_eq_of_write_append (.map hlen hkeys hvalues) hb h
      cases hb with
      | @map entries' hlen' hkeys' hvalues' =>
          have hinj : ∀ x ∈ entries, ∀ y ∈ entries', ∀ r r',
              (write x.1 ++ write x.2) ++ r = (write y.1 ++ write y.2) ++ r' →
              x = y ∧ r = r' := by
            intro x hx y hy r r' h
            rw [List.append_assoc, List.append_assoc] at h
            obtain ⟨hkey, hvalue⟩ := ihKeys x hx (hkeys' y hy) h
            obtain ⟨hvalue, hrest⟩ := ihValues x hx (hvalues' y hy) hvalue
            exact ⟨Prod.ext hkey hvalue, hrest⟩
          obtain ⟨rfl, hrest⟩ :=
            flatMap_append_inj hinj (length_eq_of_counted hlen hlen' hhead) hbody
          exact ⟨rfl, hrest⟩
      | _ => cases hhead
  | simple hn =>
      obtain ⟨hhead, hbody⟩ := head_eq_of_write_append (.simple hn) hb h
      cases hb with
      | simple hn' =>
          cases hhead
          exact ⟨rfl, hbody⟩
      | _ => cases hhead

theorem write_inj {a b : Item} (ha : Plain a) (hb : Plain b) (h : a.write = b.write) : a = b := by
  have hnil : a.write ++ [] = b.write ++ [] := by rw [h]
  exact (write_append_inj ha hb hnil).1

end Item

end StackStep.Cbor
