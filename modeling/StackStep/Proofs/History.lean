/-!
Histories.

A machine or a service takes one input after another, and what it holds in the end
was put there by one of them. `trail` keeps every input with the state it came upon.
If a part of the state is changed by some inputs only, and each of them tells what
it makes of it, then that part is in the end what the latest of them has told. This
is `view_foldl`, and with it a law about histories of any length is a law about one
input.
-/

namespace StackStep

variable {σ α β γ : Type}

/-- Every input, with the state before it. -/
def trail (next : σ → α → σ) (s : σ) : List α → List (σ × α)
  | [] => []
  | a :: as => (s, a) :: trail next (next s a) as

/-- What the latest element tells, of those that tell anything. -/
def lastSome? (tells : α → Option β) (xs : List α) : Option β :=
  xs.reverse.findSome? tells

variable {tells : α → Option β} {xs : List α}

theorem lastSome?_cons (tells : α → Option β) (x : α) (xs : List α) :
    lastSome? tells (x :: xs) = (lastSome? tells xs).or (tells x) := by
  rw [lastSome?, List.reverse_cons, List.findSome?_append]
  rw [List.findSome?_singleton, lastSome?]

/-- The element that has the last word. -/
theorem lastSome?_eq_some_iff {b : β} :
    lastSome? tells xs = some b ↔
      ∃ earlier x later, xs = earlier ++ x :: later ∧ tells x = some b ∧
        ∀ y ∈ later, tells y = none := by
  rw [lastSome?, List.findSome?_eq_some_iff]
  constructor
  · rintro ⟨later, x, earlier, hxs, hx, hlater⟩
    refine ⟨earlier.reverse, x, later.reverse, ?_, hx, ?_⟩
    · rw [← List.reverse_reverse xs, hxs]
      simp
    · intro y hy
      exact hlater y (List.mem_reverse.mp hy)
  · rintro ⟨earlier, x, later, rfl, hx, hlater⟩
    refine ⟨later.reverse, x, earlier.reverse, by simp, hx, ?_⟩
    intro y hy
    exact hlater y (List.mem_reverse.mp hy)

theorem lastSome?_map (f : β → γ) (tells : α → Option β) (xs : List α) :
    lastSome? (fun x => (tells x).map f) xs = (lastSome? tells xs).map f := by
  rw [lastSome?, lastSome?, List.map_findSome?]
  rfl

theorem lastSome?_filterMap (g : γ → Option α) (tells : α → Option β) (xs : List γ) :
    lastSome? tells (xs.filterMap g) = lastSome? (fun x => (g x).bind tells) xs := by
  induction xs with
  | nil => rfl
  | cons x xs ih =>
      rw [lastSome?_cons, ← ih, List.filterMap_cons]
      cases hx : g x with
      | none => simp
      | some a => rw [lastSome?_cons, Option.bind_some]

/-- A part of the state after some inputs. -/
theorem view_foldl {next : σ → α → σ} (view : σ → β) (tells : σ × α → Option β)
    (h : ∀ s a, view (next s a) = (tells (s, a)).getD (view s)) (s : σ) (as : List α) :
    view (as.foldl next s) = (lastSome? tells (trail next s as)).getD (view s) := by
  induction as generalizing s with
  | nil => rfl
  | cons a as ih =>
      rw [List.foldl_cons, ih, trail, lastSome?_cons, h, Option.getD_or]

end StackStep
