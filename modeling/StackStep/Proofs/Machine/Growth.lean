import StackStep.Proofs.Machine.Step

/-!
How much one step can add to a state.

No instruction computes a text: what is on the stack or bound to a name after a
step was there before, or is the argument. And a step at most doubles the stack,
by duplicating all of it, or puts one value on it, and binds at most one name.
A state that was loaded within limits is therefore not far outside them after
one step.
-/

namespace StackStep

def Value.texts : Value → List Bytes
  | .integer _ => []
  | .text t => [t]

def State.texts (st : State) : List Bytes :=
  st.stack.flatMap Value.texts ++ st.env.entries.flatMap fun b => b.1 :: b.2.texts

theorem State.mem_texts {st : State} {t : Bytes} :
    t ∈ st.texts ↔ (∃ v ∈ st.stack, t ∈ v.texts) ∨
      ∃ b ∈ st.env.entries, t = b.1 ∨ t ∈ b.2.texts := by
  simp only [texts, List.mem_append, List.mem_flatMap, List.mem_cons]

theorem Env.texts_lookup {env : Env} {name t : Bytes} (h : t ∈ (env.lookup name).texts) :
    ∃ b ∈ env.entries, t ∈ b.2.texts := by
  unfold lookup at h
  cases hfind : env.find? name with
  | none =>
      rw [hfind] at h
      cases h
  | some v =>
      rw [hfind] at h
      obtain ⟨before, behind, hentries, -⟩ := List.lookup_eq_some_iff.mp hfind
      exact ⟨(name, v), by simp [hentries], h⟩

theorem Dict.length_insertEntry_le {α : Type} (key : Bytes) (v : α) (es : List (Bytes × α)) :
    (insertEntry key v es).length ≤ es.length + 1 := by
  induction es with
  | nil => simp [insertEntry]
  | cons e es ih =>
      obtain ⟨k, w⟩ := e
      simp only [insertEntry]
      split
      · simp
      · split
        · simp
        · simpa using ih

namespace Opcode

variable {op : Opcode} {arg : Bytes} {st st' : State}

theorem integer_of_onIntegers {f : Int64 → Int64 → Except Fault Value} {tos nos v : Value}
    (hf : ∀ t n, f t n = .ok v → ∃ m, v = .integer m) (h : onIntegers f tos nos = .ok v) :
    ∃ m, v = .integer m := by
  unfold onIntegers at h
  split at h
  · exact hf _ _ h
  · cases h
  · cases h

/-- An operation on two operands gives an integer, a truth value being one. -/
theorem integer_of_operation? {f : Value → Value → Except Fault Value} {tos nos v : Value}
    (hop : op.operation? = some f) (h : f tos nos = .ok v) : ∃ m, v = .integer m := by
  cases op with
  | add | sub | mul | smaller | notSmaller =>
      cases hop
      refine integer_of_onIntegers ?_ h
      intro t n hf
      cases hf
      exact ⟨_, rfl⟩
  | div =>
      cases hop
      refine integer_of_onIntegers ?_ h
      intro t n hf
      split at hf
      · cases hf
      · cases hf
        exact ⟨_, rfl⟩
  | same | differ =>
      cases hop
      cases h
      exact ⟨_, rfl⟩
  | halt | line | store | load | integer | text | dup | drop | swap | jump | jumpIfFalse
  | jumpIfTrue | repeatStep => cases hop

/-- Where a value on the stack comes from. -/
theorem stack_of_done (h : op.apply arg st = .done st') {v : Value} (hv : v ∈ st'.stack) :
    v ∈ st.stack ∨ v = st.env.lookup arg ∨ v = .text arg ∨ ∃ m, v = .integer m := by
  cases step_of_apply h with
  | halt | line | jump => exact .inl hv
  | store hstack | jumpIf _ _ hstack | jumpUnless _ _ hstack =>
      exact .inl (hstack ▸ List.mem_cons_of_mem _ hv)
  | load =>
      rcases List.mem_cons.mp hv with rfl | hv
      · exact .inr (.inl rfl)
      · exact .inl hv
  | integer =>
      rcases List.mem_cons.mp hv with rfl | hv
      · exact .inr (.inr (.inr ⟨_, rfl⟩))
      · exact .inl hv
  | text =>
      rcases List.mem_cons.mp hv with rfl | hv
      · exact .inr (.inr (.inl rfl))
      · exact .inl hv
  | operate hop hstack hresult =>
      rcases List.mem_cons.mp hv with rfl | hv
      · exact .inr (.inr (.inr (integer_of_operation? hop hresult)))
      · exact .inl (hstack ▸ List.mem_cons_of_mem _ (List.mem_cons_of_mem _ hv))
  | dup =>
      rcases List.mem_append.mp hv with hv | hv
      · exact .inl (List.mem_of_mem_take hv)
      · exact .inl hv
  | drop => exact .inl (List.mem_of_mem_drop hv)
  | swap hstack =>
      refine .inl (hstack ▸ ?_)
      exact (List.Perm.swap _ _ _).mem_iff.mp hv
  | repeatLeave _ hstack =>
      exact .inl (hstack ▸ List.mem_cons_of_mem _ (List.mem_cons_of_mem _ hv))
  | repeatBack _ hstack =>
      rcases List.mem_cons.mp hv with rfl | hv
      · exact .inr (.inr (.inr ⟨_, rfl⟩))
      · exact .inl (hstack ▸ List.mem_cons_of_mem _ hv)

/-- Where a binding comes from. -/
theorem env_of_done (h : op.apply arg st = .done st') {b : Bytes × Value}
    (hb : b ∈ st'.env.entries) : b ∈ st.env.entries ∨ b.1 = arg ∧ b.2 ∈ st.stack := by
  cases step_of_apply h with
  | store hstack =>
      rcases Dict.mem_insertEntry hb with rfl | hb
      · exact .inr ⟨rfl, hstack ▸ List.mem_cons_self⟩
      · exact .inl hb
  | _ => exact .inl hb

theorem texts_of_done (h : op.apply arg st = .done st') {t : Bytes} (ht : t ∈ st'.texts) :
    t = arg ∨ t ∈ st.texts := by
  rw [State.mem_texts] at ht ⊢
  rcases ht with ⟨v, hv, ht⟩ | ⟨b, hb, ht⟩
  · rcases stack_of_done h hv with hv | rfl | rfl | ⟨m, rfl⟩
    · exact .inr (.inl ⟨v, hv, ht⟩)
    · obtain ⟨b, hb, ht⟩ := Env.texts_lookup ht
      exact .inr (.inr ⟨b, hb, .inr ht⟩)
    · exact .inl (List.mem_singleton.mp ht)
    · cases ht
  · rcases env_of_done h hb with hb | ⟨hname, hv⟩
    · exact .inr (.inr ⟨b, hb, ht⟩)
    · rcases ht with rfl | ht
      · exact .inl hname
      · exact .inr (.inl ⟨b.2, hv, ht⟩)

theorem depth_of_done (h : op.apply arg st = .done st') : st'.depth ≤ 2 * st.depth + 1 := by
  unfold State.depth
  cases step_of_apply h with
  | halt | line | jump | load | integer | text =>
      simp only [State.stack_terminate, State.stack_jump, State.stack_advance,
        State.stack_push, List.length_cons]
      omega
  | store hstack | jumpIf _ _ hstack | jumpUnless _ _ hstack | operate _ hstack | swap hstack
  | repeatLeave _ hstack | repeatBack _ hstack =>
      simp only [State.stack_jump, State.stack_advance, State.stack_bind, hstack,
        List.length_cons]
      omega
  | dup =>
      simp only [State.stack_advance, List.length_append, List.length_take]
      omega
  | drop =>
      simp only [State.stack_advance, List.length_drop]
      omega

theorem length_env_of_done (h : op.apply arg st = .done st') :
    st'.env.entries.length ≤ st.env.entries.length + 1 := by
  cases step_of_apply h with
  | store hstack => exact Dict.length_insertEntry_le _ _ _
  | _ => exact Nat.le_succ _

end Opcode

end StackStep
