import StackStep.Proofs.Cbor.Unambiguous
import StackStep.Proofs.Dict
import StackStep.Proofs.Snapshot.Restore

/-!
The bytes of a snapshot tell what was saved.

Different snapshots are written as different items, and different items as different bytes.
This holds of all snapshots, also of those that the reader refuses for their texts or their
size. A state is saved with its variables in order, so what it is saved as depends neither on
how they came to be bound nor on anything but the run and the state.
-/

namespace StackStep

open Cbor (Item)
open Cbor.Item (field fieldIf)

namespace Cbor.Item

/-! ### Fields

A field that was left out is told from one that was not by its number, which no later field
has. -/

variable {k : UInt64} {rest rest' : List (Item × Item)}

theorem field_append_inj {item item' : Item}
    (h : field k item ++ rest = field k item' ++ rest') : item = item' ∧ rest = rest' := by
  simpa [field] using h

theorem field_inj {item item' : Item} (h : field k item = field k item') : item = item' := by
  simpa [field] using h

theorem key_ne_of_mem_field {j : UInt64} {item : Item} (hne : j ≠ k) :
    ∀ e ∈ field j item, e.1 ≠ .unsigned k := by
  intro e he
  rw [eq_of_mem_field he]
  simpa using hne

theorem key_ne_of_mem_fieldIf {j : UInt64} {present : Bool} {item : Item} (hne : j ≠ k) :
    ∀ e ∈ fieldIf present j item, e.1 ≠ .unsigned k := by
  intro e he
  rw [eq_of_mem_fieldIf he]
  simpa using hne

theorem ne_field_append {item : Item} (hrest : ∀ e ∈ rest, e.1 ≠ .unsigned k) :
    rest ≠ field k item ++ rest' := by
  rintro rfl
  exact hrest (.unsigned k, item) (List.mem_append_left _ List.mem_cons_self) rfl

theorem fieldIf_append_inj {present present' : Bool} {item item' : Item}
    (hrest : ∀ e ∈ rest, e.1 ≠ .unsigned k) (hrest' : ∀ e ∈ rest', e.1 ≠ .unsigned k)
    (h : fieldIf present k item ++ rest = fieldIf present' k item' ++ rest') :
    present = present' ∧ (present = true → item = item') ∧ rest = rest' := by
  cases present with
  | false =>
      cases present' with
      | false => exact ⟨rfl, Bool.noConfusion, h⟩
      | true => exact absurd h (ne_field_append hrest)
  | true =>
      cases present' with
      | false => exact absurd h.symm (ne_field_append hrest')
      | true =>
          obtain ⟨rfl, hrest⟩ := field_append_inj h
          exact ⟨rfl, fun _ => rfl, hrest⟩

/-- A field that is left out where it would hold `zero`. -/
theorem fieldIf_ne_append_inj {β : Type} [BEq β] [LawfulBEq β] {write : β → Item} {zero x y : β}
    (hwrite : Function.Injective write)
    (hrest : ∀ e ∈ rest, e.1 ≠ .unsigned k) (hrest' : ∀ e ∈ rest', e.1 ≠ .unsigned k)
    (h : fieldIf (x != zero) k (write x) ++ rest = fieldIf (y != zero) k (write y) ++ rest') :
    x = y ∧ rest = rest' := by
  obtain ⟨hpresent, hitem, hrest⟩ := fieldIf_append_inj hrest hrest' h
  refine ⟨?_, hrest⟩
  by_cases hx : x = zero
  · have hy : y = zero := by simpa [hx] using hpresent
    rw [hx, hy]
  · exact hwrite (hitem (bne_iff_ne.mpr hx))

/-- The last field, where it is such a one. -/
theorem fieldIf_ne_inj {β : Type} [BEq β] [LawfulBEq β] {write : β → Item} {zero x y : β}
    (hwrite : Function.Injective write)
    (h : fieldIf (x != zero) k (write x) = fieldIf (y != zero) k (write y)) : x = y := by
  rw [← List.append_nil (fieldIf _ _ (write x)), ← List.append_nil (fieldIf _ _ (write y))] at h
  exact (fieldIf_ne_append_inj hwrite (by simp) (by simp) h).1

/-! ### Contents of a field

Everything but a text is read back whatever it is. -/

theorem injective_of_read {β : Type} {read : Item → Except DecodeError β} {write : β → Item}
    (h : ∀ x, read (write x) = .ok x) : Function.Injective write := by
  intro x y hxy
  have hread := h x
  rw [hxy, h y] at hread
  exact (Except.ok.inj hread).symm

theorem ofText_injective : Function.Injective ofText := by
  intro s t h
  cases h
  rfl

theorem array_map_injective {β : Type} {write : β → Item} (hwrite : Function.Injective write) :
    Function.Injective fun xs : List β => Item.array (xs.map write) := by
  intro xs ys h
  injection h with h
  exact (List.map_inj_right fun _ _ hxy => hwrite hxy).mp h

end Cbor.Item

/-! ### The three records -/

theorem Slot.toItem_injective : Function.Injective Slot.toItem := by
  rintro ⟨⟨code⟩, int, text⟩ ⟨⟨code'⟩, int', text'⟩ h
  injection h with h
  simp only [entries, List.append_assoc] at h
  obtain ⟨hkind, h⟩ := Item.field_append_inj h
  obtain ⟨hint, h⟩ := Item.fieldIf_ne_append_inj (Item.injective_of_read Item.readInt64_ofInt64)
    (Item.key_ne_of_mem_fieldIf (by decide)) (Item.key_ne_of_mem_fieldIf (by decide)) h
  have htext := Item.fieldIf_ne_inj Item.ofText_injective h
  have hcode := Item.injective_of_read Item.readByte_unsigned hkind
  subst hcode hint htext
  rfl

theorem Binding.toItem_injective : Function.Injective Binding.toItem := by
  rintro ⟨name, value⟩ ⟨name', value'⟩ h
  injection h with h
  obtain ⟨hname, h⟩ := Item.field_append_inj h
  have hname : name = name' := Item.ofText_injective hname
  have hvalue : value = value' := Slot.toItem_injective (Item.field_inj h)
  rw [hname, hvalue]

namespace Snapshot

theorem stackItem_injective : Function.Injective stackItem := by
  intro stack stack' h
  cases stack with
  | none =>
      cases stack' with
      | none => rfl
      | some slots' => cases h
  | some slots =>
      cases stack' with
      | none => cases h
      | some slots' =>
          have hslots : slots = slots' := Item.array_map_injective Slot.toItem_injective h
          rw [hslots]

theorem toItem_injective : Function.Injective toItem := by
  rintro ⟨version, id, pointer, terminated, line, stack, env⟩
    ⟨version', id', pointer', terminated', line', stack', env'⟩ h
  injection h with h
  simp only [entries, List.append_assoc] at h
  obtain ⟨hversion, h⟩ := Item.field_append_inj h
  obtain ⟨hid, h⟩ := Item.field_append_inj h
  obtain ⟨hpointer, h⟩ := Item.field_append_inj h
  obtain ⟨hterminated, h⟩ := Item.field_append_inj h
  -- No field after the line has its number.
  have hrest (stack : Option (List Slot)) (env : List Binding) :
      ∀ e ∈ field 6 (stackItem stack) ++
        fieldIf (env != []) 7 (.array (env.map Binding.toItem)), e.1 ≠ .unsigned 5 := by
    rw [List.forall_mem_append]
    exact ⟨Item.key_ne_of_mem_field (by decide), Item.key_ne_of_mem_fieldIf (by decide)⟩
  obtain ⟨hline, h⟩ := Item.fieldIf_ne_append_inj (Item.injective_of_read Item.readInt64_ofInt64)
    (hrest stack env) (hrest stack' env') h
  obtain ⟨hstack, h⟩ := Item.field_append_inj h
  have henv : env = env' :=
    Item.fieldIf_ne_inj (Item.array_map_injective Binding.toItem_injective) h
  have hversion : version = version' := Item.injective_of_read Item.readByte_unsigned hversion
  have hid : id = id' := Item.injective_of_read Item.readRunId_ofBytes hid
  have hpointer : pointer = pointer' := Item.injective_of_read Item.readInt64_ofInt64 hpointer
  have hterminated : terminated = terminated' :=
    Item.injective_of_read Item.readBool_ofBool hterminated
  have hstack : stack = stack' := stackItem_injective hstack
  subst hversion hid hpointer hterminated hline hstack henv
  rfl

/-- Different snapshots have different bytes. -/
theorem encode_inj {s s' : Snapshot} (h : s.Addressable) (h' : s'.Addressable) :
    s.encode = s'.encode ↔ s = s' := by
  constructor
  · intro hencode
    exact toItem_injective (Item.write_inj (plain_toItem h) (plain_toItem h') hencode)
  · rintro rfl
    rfl

/-! ### Saved states -/

theorem ofValue_injective : Function.Injective Slot.ofValue := by
  intro v w h
  have hvalue := Slot.toValue?_ofValue v
  rw [h, Slot.toValue?_ofValue, Option.some_inj] at hvalue
  exact hvalue.symm

theorem ofState_inj {id id' : RunId} {st st' : State} (h : ofState id st = ofState id' st') :
    id = id' ∧ st = st' := by
  obtain ⟨stack, pointer, terminated, env, line⟩ := st
  obtain ⟨stack', pointer', terminated', env', line'⟩ := st'
  simp only [ofState, mk.injEq, true_and, Option.some_inj] at h
  obtain ⟨hid, hpointer, hterminated, hline, hstack, henv⟩ := h
  have hstack : stack = stack' :=
    List.reverse_inj.mp ((List.map_inj_right fun _ _ h => ofValue_injective h).mp hstack)
  have henv : env = env' := by
    refine Dict.eq_of_entries ((List.map_inj_right ?_).mp henv)
    rintro ⟨name, v⟩ ⟨name', v'⟩ h
    injection h with hname hvalue
    exact Prod.ext hname (ofValue_injective hvalue)
  subst hid hpointer hterminated hline hstack henv
  exact ⟨rfl, rfl⟩

/-- Two saved states have the same bytes exactly if they belong to one run and agree in all
their parts, the variables in what is bound to each name. In which order they were bound
makes no difference. -/
theorem encode_ofState_eq_iff (id₁ id₂ : RunId) (st₁ st₂ : State)
    (h₁ : st₁.Addressable) (h₂ : st₂.Addressable) :
    (ofState id₁ st₁).encode = (ofState id₂ st₂).encode ↔
      id₁ = id₂ ∧ st₁.stack = st₂.stack ∧ st₁.pointer = st₂.pointer ∧
        st₁.terminated = st₂.terminated ∧ st₁.line = st₂.line ∧
        ∀ name, st₁.env.find? name = st₂.env.find? name := by
  rw [encode_inj (addressable_ofState id₁ h₁) (addressable_ofState id₂ h₂)]
  constructor
  · intro h
    obtain ⟨rfl, rfl⟩ := ofState_inj h
    exact ⟨rfl, rfl, rfl, rfl, rfl, fun _ => rfl⟩
  · rintro ⟨rfl, hstack, hpointer, hterminated, hline, hfind⟩
    have henv : st₁.env = st₂.env := Dict.eq_of_find? hfind
    rw [ofState, ofState, hstack, hpointer, hterminated, hline, henv]

/-- Texts that are not UTF-8, a negative pointer, and two variables bound in either order. -/
theorem encode_ofState_eq_iff_unreadable :
    let st : State := { stack := [.text [0xFF]], pointer := -1 }
    let st₁ := (st.bind "b" (.integer 1)).bind "a" (.text [0xC0])
    let st₂ := (st.bind "a" (.text [0xC0])).bind "b" (.integer 1)
    let st₃ := { st₁ with line := -1 }
    st₁.Addressable ∧ st₂.Addressable ∧ st₃.Addressable ∧
      (ofState .zero st₁).encode = (ofState .zero st₂).encode ∧
      (ofState .zero st₁).encode ≠ (ofState .zero st₃).encode := by
  intro st st₁ st₂ st₃
  have h₁ : st₁.Addressable := ⟨by decide, by decide, by decide⟩
  have h₂ : st₂.Addressable := ⟨by decide, by decide, by decide⟩
  have h₃ : st₃.Addressable := ⟨by decide, by decide, by decide⟩
  have henv : st₁.env = st₂.env := by decide
  refine ⟨h₁, h₂, h₃, (encode_ofState_eq_iff _ _ _ _ h₁ h₂).mpr ?_, ?_⟩
  · exact ⟨rfl, rfl, rfl, rfl, rfl, fun name => congrArg (fun env => env.find? name) henv⟩
  · intro h
    obtain ⟨-, -, -, -, hline, -⟩ := (encode_ofState_eq_iff _ _ _ _ h₁ h₃).mp h
    exact absurd hline (by decide)

end Snapshot

end StackStep
