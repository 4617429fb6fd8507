import StackStep.Proofs.Dict
import StackStep.Proofs.Machine.Growth
import StackStep.Proofs.Snapshot.RoundTrip

/-!
A state that is saved and restored.

Once its bytes are read, the only check that a saved state can fail is the one
on the pointer: its version is the current one and its values have kinds that
are known. The variables are saved in order, so putting them back one after
another builds the same dictionary. Together with what the bytes can hold this
gives `State.Storable`, the exact condition on a state to survive being saved.
-/

namespace StackStep

namespace Dict

variable {α : Type}

theorem ofList_entries (d : Dict α) : ofList d.entries = d := by
  refine eq_of_entries (eq_of_ascending Prod.fst (ofList d.entries).sorted d.sorted ?_)
  intro x
  rw [mem_ofList_iff, latest_of_pairwise (ne_of_ascending d.sorted)]

end Dict

namespace Snapshot

theorem stackValues_map (index : Nat) (vs : List Value) :
    stackValues index (vs.map Slot.ofValue) = .ok vs := by
  induction vs generalizing index with
  | nil => rfl
  | cons v vs ih => simp [stackValues, ih]

theorem envValues_map (es : List (Bytes × Value)) :
    envValues (es.map fun b => { name := b.1, value := .ofValue b.2 }) = .ok es := by
  induction es with
  | nil => rfl
  | cons e es ih => simp [envValues, ih]

theorem toState_ofState (id : RunId) (st : State) :
    (ofState id st).toState =
      if st.pointer < 0 then .error (.negativePointer st.pointer) else .ok st := by
  have hversion : ¬(ofState id st).version ≠ currentVersion := fun h => h rfl
  rw [toState, if_neg hversion]
  split
  · next hneg => exact (if_pos hneg).symm
  · next hnonneg =>
      refine Eq.trans ?_ (if_neg hnonneg).symm
      simp only [ofState, Option.getD_some, stackValues_map, envValues_map, ok_bind,
        Dict.ofList_entries, List.reverse_reverse, pure_eq_ok]

end Snapshot

/-! ### States that survive -/

namespace State

/-- What fits in memory: the length of a list or a text is a number of 64 bits. -/
structure Addressable (st : State) : Prop where
  texts_lt : ∀ t ∈ st.texts, t.length < UInt64.size
  depth_lt : st.depth < UInt64.size
  env_lt : st.env.entries.length < UInt64.size

/-- What can be saved and loaded again: the pointer is not negative, every text
is UTF-8, and neither the stack nor the variables are more than the reader
takes. -/
structure Storable (st : State) : Prop where
  pointer_nonneg : 0 ≤ st.pointer
  texts_valid : ∀ t ∈ st.texts, Utf8.valid t
  depth_le : st.depth ≤ Cbor.maxCount
  env_le : st.env.entries.length ≤ Cbor.maxCount

theorem storable_iff {st : State} :
    st.Storable ↔ 0 ≤ st.pointer ∧ (∀ t ∈ st.texts, Utf8.valid t) ∧
      st.depth ≤ Cbor.maxCount ∧ st.env.entries.length ≤ Cbor.maxCount :=
  ⟨fun ⟨hpointer, hvalid, hdepth, henv⟩ => ⟨hpointer, hvalid, hdepth, henv⟩,
    fun ⟨hpointer, hvalid, hdepth, henv⟩ => ⟨hpointer, hvalid, hdepth, henv⟩⟩

instance : DecidablePred Storable := fun _ => decidable_of_iff' _ storable_iff

theorem Storable.addressable {st : State} (hs : st.Storable)
    (htexts : ∀ t ∈ st.texts, t.length < UInt64.size) : st.Addressable where
  texts_lt := htexts
  depth_lt := Nat.lt_of_le_of_lt hs.depth_le (by decide)
  env_lt := Nat.lt_of_le_of_lt hs.env_le (by decide)

end State

namespace Snapshot

theorem forall_text_ofValue {P : Bytes → Prop} (hnil : P []) (v : Value) :
    P (Slot.ofValue v).text ↔ ∀ t ∈ v.texts, P t := by
  cases v with
  | integer n => simpa [Slot.ofValue, Value.texts] using hnil
  | text t => simp [Slot.ofValue, Value.texts]

/-- The texts of a saved state are those of the state. A saved integer has an
empty text beside it, which is never in the way. -/
theorem forall_texts_ofState {P : Bytes → Prop} (hnil : P []) (id : RunId) (st : State) :
    (∀ t ∈ (ofState id st).texts, P t) ↔ ∀ t ∈ st.texts, P t := by
  have hvalue := forall_text_ofValue hnil
  simp only [texts, ofState, State.texts, Option.getD_some, List.forall_mem_append,
    List.forall_mem_flatMap, List.forall_mem_map, List.forall_mem_cons, List.mem_reverse,
    List.not_mem_nil, false_implies, implies_true, and_true, hvalue]

theorem storable_ofState_iff (id : RunId) (st : State) :
    (ofState id st).Storable ↔ (∀ t ∈ st.texts, Utf8.valid t) ∧ st.depth ≤ Cbor.maxCount ∧
      st.env.entries.length ≤ Cbor.maxCount := by
  have htexts := forall_texts_ofState (P := fun t => Utf8.valid t) rfl id st
  have hstack : ((ofState id st).stack.getD []).length = st.depth := by
    simp [ofState, State.depth]
  have henv : (ofState id st).env.length = st.env.entries.length := by simp [ofState]
  constructor
  · rintro ⟨hvalid, hle, hle'⟩
    exact ⟨htexts.mp hvalid, hstack ▸ hle, henv ▸ hle'⟩
  · rintro ⟨hvalid, hle, hle'⟩
    exact ⟨htexts.mpr hvalid, hstack ▸ hle, henv ▸ hle'⟩

theorem addressable_ofState (id : RunId) {st : State} (h : st.Addressable) :
    (ofState id st).Addressable where
  texts_lt := by
    have htexts := forall_texts_ofState (P := fun t => t.length < UInt64.size) (by simp) id st
    exact htexts.mpr h.texts_lt
  stack_lt := by simpa [ofState, State.depth] using h.depth_lt
  env_lt := by simpa [ofState] using h.env_lt

/-- A storable state is saved in bytes that read back as the same snapshot, and
from it the same state. -/
theorem decode_ofState (id : RunId) {st : State} (h : st.Addressable) (hs : st.Storable) :
    decode (ofState id st).encode = .ok (ofState id st) ∧ (ofState id st).toState = .ok st := by
  constructor
  · refine decode_encode_of_storable (addressable_ofState id h) ?_
    exact (storable_ofState_iff id st).mpr ⟨hs.texts_valid, hs.depth_le, hs.env_le⟩
  · rw [toState_ofState, if_neg (Int64.not_lt.mpr hs.pointer_nonneg)]

/-- And only a storable state is. -/
theorem storable_of_decode_ofState {id : RunId} {st st' : State} {s : Snapshot}
    (h : st.Addressable) (hread : decode (ofState id st).encode = .ok s)
    (hstate : s.toState = .ok st') : st.Storable := by
  have hsnapshot := storable_of_decode_encode (addressable_ofState id h) hread
  obtain ⟨hvalid, hdepth, henv⟩ := (storable_ofState_iff id st).mp hsnapshot
  rw [decode_encode_of_storable (addressable_ofState id h) hsnapshot] at hread
  obtain rfl := Except.ok.inj hread
  rw [toState_ofState] at hstate
  split at hstate
  · cases hstate
  · next hpointer => exact ⟨Int64.not_lt.mp hpointer, hvalid, hdepth, henv⟩

end Snapshot

end StackStep
