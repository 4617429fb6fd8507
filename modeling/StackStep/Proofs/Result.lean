/-!
Chains of checks. Everything that reads or loads is written in `Except`, one
check after another, and is opened here one check at a time: a result that is
known goes on by rewriting, and a chain that succeeded is taken apart by
`bind_eq_ok`. What works on files is a chain in a state, and goes on from the state
that its first part leaves.
-/

namespace StackStep

variable {ε α β : Type}

@[simp] theorem ok_bind (a : α) (f : α → Except ε β) : (Except.ok a >>= f) = f a := rfl

@[simp] theorem error_bind (e : ε) (f : α → Except ε β) :
    (Except.error e >>= f) = .error e := rfl

@[simp] theorem pure_eq_ok (a : α) : (pure a : Except ε α) = .ok a := rfl

theorem bind_eq_ok {x : Except ε α} {f : α → Except ε β} {b : β} :
    (x >>= f) = .ok b ↔ ∃ a, x = .ok a ∧ f a = .ok b := by
  cases x with
  | error e => simp
  | ok a => simp

theorem map_some_eq_ok {x : Except ε α} {a : Option α} :
    x.map some = .ok a ↔ ∃ b, x = .ok b ∧ some b = a := by
  cases x with
  | error e => simp [Except.map]
  | ok b => simp [Except.map]

/-- A check in front of a chain stands for itself. -/
theorem check_bind {c : Bool} (a : α) (e : ε) (f : α → Except ε β) :
    ((if c then .ok a else .error e) >>= f) = if c then f a else .error e := by
  cases c <;> rfl

theorem run_bind {σ : Type} {x : StateM σ α} {a : α} {s s' : σ} (h : x.run s = (a, s'))
    (f : α → StateM σ β) : (x >>= f).run s = (f a).run s' := by
  rw [StateT.run_bind, h]
  rfl

end StackStep
