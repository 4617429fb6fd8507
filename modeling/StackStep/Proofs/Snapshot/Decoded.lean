import StackStep.Proofs.Cbor.Bounded
import StackStep.Proofs.Snapshot.Canonical
import StackStep.Proofs.Text.Utf8

/-!
What every snapshot that is read satisfies, and every state that is loaded.

Reading is liberal: fields come in any order, under tags, in pieces, twice or
not at all. None of this matters to what is read in the end. Every text in it
was checked and is no longer than the file, and both lists passed the reader's
limit. So what can be read can also be written and read again, and a state that
was loaded is as small as the snapshot it came from.
-/

namespace StackStep

open Cbor (Item)
open Cbor.Item (Bounded)

/-- A text as it comes out of a file of `size` bytes. -/
def ReadText (size : Nat) (t : Bytes) : Prop := Utf8.valid t ∧ t.length ≤ size

theorem readText_nil (size : Nat) : ReadText size [] := ⟨rfl, Nat.zero_le size⟩

namespace Cbor.Item

variable {size : Nat}

theorem bounded_untag {item item' : Item} (h : Bounded size item)
    (huntag : item.untag = .ok item') : Bounded size item' := by
  induction h with
  | tag number hcontent ih =>
      simp only [untag] at huntag
      split at huntag
      · split at huntag
        · cases huntag
          exact .tag number hcontent
        · exact ih huntag
      · cases huntag
  | unsigned n => cases huntag; exact .unsigned n
  | negative n => cases huntag; exact .negative n
  | bytes h => cases huntag; exact .bytes h
  | text h => cases huntag; exact .text h
  | array h hitems => cases huntag; exact .array h hitems
  | map hkeys hvalues => cases huntag; exact .map hkeys hvalues
  | simple n => cases huntag; exact .simple n
  | float bits => cases huntag; exact .float bits

theorem readText_of_checkedText {pieces : List Bytes} {t : Bytes}
    (hsize : pieces.flatten.length ≤ size) (h : checkedText pieces = .ok t) :
    ReadText size t := by
  unfold checkedText at h
  split at h
  · next hvalid =>
      cases h
      exact ⟨Utf8.valid_flatten (List.all_eq_true.mp hvalid), hsize⟩
  · cases h

theorem readText_of_readText {item : Item} {t : Bytes} (h : Bounded size item)
    (hread : item.readText = .ok t) : ReadText size t := by
  rw [readText, bind_eq_ok] at hread
  obtain ⟨item', huntag, hread⟩ := hread
  have hbounded := bounded_untag h huntag
  split at hread
  · cases hbounded with
    | text hsize => exact readText_of_checkedText hsize hread
  · split at hread
    · cases hread
      exact readText_nil size
    · cases hread

theorem readAll_ok {β : Type} {read : Item → Except DecodeError β} {P : β → Prop}
    {items : List Item} {bs : List β}
    (hread : ∀ item ∈ items, ∀ b, read item = .ok b → P b)
    (h : readAll read items = .ok bs) : bs.length = items.length ∧ ∀ b ∈ bs, P b := by
  induction items generalizing bs with
  | nil =>
      cases h
      simp
  | cons item items ih =>
      simp only [readAll, bind_eq_ok, pure_eq_ok] at h
      obtain ⟨b, hb, bs', hbs, h⟩ := h
      cases h
      obtain ⟨hlen, hall⟩ := ih (fun i hi => hread i (List.mem_cons_of_mem item hi)) hbs
      refine ⟨by simp [hlen], ?_⟩
      intro x hx
      rcases List.mem_cons.mp hx with rfl | hx
      · exact hread item List.mem_cons_self _ hb
      · exact hall x hx

theorem readList_ok {β : Type} {read : Item → Except DecodeError β} {P : β → Prop}
    (hread : ∀ item b, Bounded size item → read item = .ok b → P b)
    {item : Item} {bs : Option (List β)} (hbounded : Bounded size item)
    (h : item.readList read = .ok bs) :
    (bs.getD []).length ≤ maxCount ∧ ∀ b ∈ bs.getD [], P b := by
  rw [readList, bind_eq_ok] at h
  obtain ⟨item', huntag, h⟩ := h
  have hbounded' := bounded_untag hbounded huntag
  split at h
  · rw [bind_eq_ok] at h
    obtain ⟨bs', hall, h⟩ := h
    cases h
    cases hbounded' with
    | array hcount hitems =>
        obtain ⟨hlen, hP⟩ := readAll_ok (fun i hi b => hread i b (hitems i hi)) hall
        exact ⟨by simpa [hlen] using hcount, hP⟩
  · split at h
    · cases h
      simp
    · cases h

/-! ### Records

An invariant of a record that no field breaks holds of every record that is
read, since each entry of the map fills in one field or is skipped. -/

variable {α : Type} {fields : Fields α} {P : α → Prop}

theorem readEntries_preserves
    (hput : ∀ k put, fields k = some put → ∀ a item a', Bounded size item → P a →
      put a item = .ok a' → P a')
    {seen : List Nat} {a a' : α} {entries : List (Item × Item)}
    (hentries : ∀ e ∈ entries, Bounded size e.2) (ha : P a)
    (h : readEntries fields seen a entries = .ok a') : P a' := by
  induction entries generalizing seen a with
  | nil =>
      cases h
      exact ha
  | cons e entries ih =>
      obtain ⟨key, item⟩ := e
      have hitem := hentries _ List.mem_cons_self
      have hrest := fun e he => hentries e (List.mem_cons_of_mem _ he)
      simp only [readEntries, bind_eq_ok] at h
      obtain ⟨k, -, h⟩ := h
      split at h
      · exact ih hrest ha h
      split at h
      · exact ih hrest ha h
      split at h
      · exact ih hrest ha h
      · next put hfield =>
          rw [bind_eq_ok] at h
          obtain ⟨b, hb, h⟩ := h
          exact ih hrest (hput _ put hfield a item b hitem ha hb) h

theorem readRecord_preserves
    (hput : ∀ k put, fields k = some put → ∀ a item a', Bounded size item → P a →
      put a item = .ok a' → P a')
    {zero a : α} {item : Item} (hzero : P zero) (hitem : Bounded size item)
    (h : item.readRecord fields zero = .ok a) : P a := by
  rw [readRecord, bind_eq_ok] at h
  obtain ⟨item', huntag, h⟩ := h
  have hbounded := bounded_untag hitem huntag
  split at h
  · cases hbounded with
    | map _ hvalues => exact readEntries_preserves hput hvalues hzero h
  · split at h
    · cases h
      exact hzero
    · cases h

end Cbor.Item

namespace Slot

theorem readText_of_fields {size k : Nat} {put : Slot → Item → Except DecodeError Slot}
    (hk : fields k = some put) (s : Slot) (item : Item) (s' : Slot) (hitem : Bounded size item)
    (hs : ReadText size s.text) (h : put s item = .ok s') : ReadText size s'.text := by
  unfold fields at hk
  split at hk <;> cases hk
  all_goals
    simp only [bind_eq_ok, pure_eq_ok] at h
    obtain ⟨value, hvalue, h⟩ := h
    cases h
  · exact hs
  · exact hs
  · exact Item.readText_of_readText hitem hvalue

theorem readText_of_ofItem {size : Nat} {item : Item} {s : Slot} (hitem : Bounded size item)
    (h : ofItem item = .ok s) : ReadText size s.text :=
  Item.readRecord_preserves (P := fun s : Slot => ReadText size s.text)
    (fun _ _ => readText_of_fields) (readText_nil size) hitem h

end Slot

namespace Binding

def FromFile (size : Nat) (b : Binding) : Prop :=
  ReadText size b.name ∧ ReadText size b.value.text

theorem fromFile_of_fields {size k : Nat} {put : Binding → Item → Except DecodeError Binding}
    (hk : fields k = some put) (b : Binding) (item : Item) (b' : Binding)
    (hitem : Bounded size item) (hb : b.FromFile size) (h : put b item = .ok b') :
    b'.FromFile size := by
  unfold fields at hk
  split at hk <;> cases hk
  all_goals
    simp only [bind_eq_ok, pure_eq_ok] at h
    obtain ⟨value, hvalue, h⟩ := h
    cases h
  · exact ⟨Item.readText_of_readText hitem hvalue, hb.2⟩
  · exact ⟨hb.1, Slot.readText_of_ofItem hitem hvalue⟩

theorem fromFile_of_ofItem {size : Nat} {item : Item} {b : Binding} (hitem : Bounded size item)
    (h : ofItem item = .ok b) : b.FromFile size :=
  Item.readRecord_preserves (P := FromFile size) (fun _ _ => fromFile_of_fields)
    ⟨readText_nil size, readText_nil size⟩ hitem h

end Binding

namespace Snapshot

structure FromFile (size : Nat) (s : Snapshot) : Prop where
  stack_texts : ∀ slot ∈ s.stack.getD [], ReadText size slot.text
  stack_le : (s.stack.getD []).length ≤ Cbor.maxCount
  env_texts : ∀ b ∈ s.env, b.FromFile size
  env_le : s.env.length ≤ Cbor.maxCount

theorem fromFile_of_fields {size k : Nat} {put : Snapshot → Item → Except DecodeError Snapshot}
    (hk : fields k = some put) (s : Snapshot) (item : Item) (s' : Snapshot)
    (hitem : Bounded size item) (hs : s.FromFile size) (h : put s item = .ok s') :
    s'.FromFile size := by
  unfold fields at hk
  split at hk <;> cases hk
  all_goals
    simp only [bind_eq_ok, pure_eq_ok] at h
    obtain ⟨value, hvalue, h⟩ := h
    cases h
  -- The first five fields hold neither texts nor lists.
  iterate 5 exact ⟨hs.stack_texts, hs.stack_le, hs.env_texts, hs.env_le⟩
  · obtain ⟨hle, htexts⟩ := Item.readList_ok (fun _ _ => Slot.readText_of_ofItem) hitem hvalue
    exact ⟨htexts, hle, hs.env_texts, hs.env_le⟩
  · obtain ⟨hle, htexts⟩ := Item.readList_ok (fun _ _ => Binding.fromFile_of_ofItem) hitem hvalue
    exact ⟨hs.stack_texts, hs.stack_le, htexts, hle⟩

theorem fromFile_of_decode {bs : Bytes} {s : Snapshot} (h : decode bs = .ok s) :
    s.FromFile bs.length := by
  unfold decode at h
  split at h
  · cases h
  · next item hread =>
      refine Item.readRecord_preserves (P := FromFile bs.length)
        (fun _ _ => fromFile_of_fields) ?_ (Item.bounded_of_read? hread) h
      exact ⟨by simp, by simp, by simp, by simp⟩

theorem FromFile.readText {size : Nat} {s : Snapshot} (h : s.FromFile size) {t : Bytes}
    (ht : t ∈ s.texts) : ReadText size t := by
  rcases List.mem_append.mp ht with ht | ht
  · obtain ⟨slot, hslot, rfl⟩ := List.mem_map.mp ht
    exact h.stack_texts slot hslot
  · obtain ⟨b, hb, ht⟩ := List.mem_flatMap.mp ht
    rcases List.mem_cons.mp ht with rfl | ht
    · exact (h.env_texts b hb).1
    · obtain rfl := List.mem_singleton.mp ht
      exact (h.env_texts b hb).2

end Snapshot

/-! ### Loaded states -/

namespace Dict

variable {α : Type}

theorem length_foldl_insert_le (es : List (Bytes × α)) (d : Dict α) :
    (es.foldl (fun d e => d.insert e.1 e.2) d).entries.length ≤ d.entries.length + es.length := by
  induction es generalizing d with
  | nil => simp
  | cons e es ih =>
      have hrest := ih (d.insert e.1 e.2)
      have hinsert : (d.insert e.1 e.2).entries.length ≤ d.entries.length + 1 :=
        length_insertEntry_le e.1 e.2 d.entries
      simp only [List.foldl_cons, List.length_cons]
      omega

end Dict

namespace Snapshot

theorem text_of_mem_value {slot : Slot} {t : Bytes} (ht : t ∈ slot.value.texts) :
    t = slot.text := by
  unfold Slot.value at ht
  split at ht
  · exact List.mem_singleton.mp ht
  · cases ht

theorem of_toState {s : Snapshot} {st : State} (h : s.toState = .ok st) :
    0 ≤ st.pointer ∧ st.depth = (s.stack.getD []).length ∧
      st.env.entries.length ≤ s.env.length ∧ ∀ t ∈ st.texts, t ∈ s.texts := by
  have hs := restorable_of_toState h
  rw [toState_of_restorable hs] at h
  cases h
  have hlen := Dict.length_foldl_insert_le (s.env.map fun b => (b.name, b.value.value)) {}
  refine ⟨hs.pointer_nonneg, by simp [State.depth], by simpa [Dict.ofList] using hlen, ?_⟩
  intro t ht
  rcases State.mem_texts.mp ht with ⟨v, hv, ht⟩ | ⟨e, he, ht⟩
  · obtain ⟨slot, hslot, rfl⟩ := List.mem_map.mp (List.mem_reverse.mp hv)
    rw [text_of_mem_value ht]
    exact List.mem_append_left _ (List.mem_map_of_mem hslot)
  · obtain ⟨b, hb, rfl⟩ := List.mem_map.mp (mem_of_mem_latest (Dict.mem_ofList_iff.mp he))
    refine List.mem_append_right _ (List.mem_flatMap.mpr ⟨b, hb, ?_⟩)
    rcases ht with rfl | ht
    · exact List.mem_cons_self
    · rw [text_of_mem_value ht]
      exact List.mem_cons_of_mem _ List.mem_cons_self

end Snapshot

end StackStep
