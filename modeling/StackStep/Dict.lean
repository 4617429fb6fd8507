import StackStep.Bytes

/-!
Finite maps from byte strings. The entries are kept in strictly ascending order of the
keys' bytes, so two maps that hold the same values under the same keys are equal, and the
order of printing and saving is the order of the list.
-/

namespace StackStep

structure Dict (α : Type) where
  entries : List (Bytes × α) := []
  sorted : entries.Pairwise (fun a b => a.1 < b.1) := by simp
  deriving DecidableEq, Repr

namespace Dict

variable {α : Type}

theorem lt_of_not_lt_of_ne {a b : Bytes} (h : ¬a < b) (hne : a ≠ b) : b < a :=
  Decidable.byContradiction fun h' => hne (List.le_antisymm h' h)

/-- Puts an entry in its place, over an older one of the same key. -/
def insertEntry (key : Bytes) (v : α) : List (Bytes × α) → List (Bytes × α)
  | [] => [(key, v)]
  | (k, w) :: rest =>
    if key < k then (key, v) :: (k, w) :: rest
    else if key = k then (key, v) :: rest
    else (k, w) :: insertEntry key v rest

theorem mem_insertEntry {key : Bytes} {v : α} {es : List (Bytes × α)} {x : Bytes × α}
    (h : x ∈ insertEntry key v es) : x = (key, v) ∨ x ∈ es := by
  induction es with
  | nil => simpa [insertEntry] using h
  | cons e rest ih =>
    obtain ⟨k, w⟩ := e
    simp only [insertEntry] at h
    split at h
    · simpa using h
    · split at h
      · rcases List.mem_cons.1 h with h | h
        · exact .inl h
        · exact .inr (List.mem_cons_of_mem _ h)
      · rcases List.mem_cons.1 h with h | h
        · exact .inr (h ▸ List.mem_cons_self)
        · exact (ih h).imp_right (List.mem_cons_of_mem _)

theorem pairwise_insertEntry (key : Bytes) (v : α) {es : List (Bytes × α)}
    (h : es.Pairwise fun a b => a.1 < b.1) :
    (insertEntry key v es).Pairwise fun a b => a.1 < b.1 := by
  induction es with
  | nil => simp [insertEntry]
  | cons e rest ih =>
    obtain ⟨k, w⟩ := e
    rw [List.pairwise_cons] at h
    simp only [insertEntry]
    split
    · next hlt =>
      refine List.pairwise_cons.2 ⟨?_, List.pairwise_cons.2 h⟩
      intro x hx
      rcases List.mem_cons.1 hx with rfl | hx
      · exact hlt
      · exact List.lt_trans hlt (h.1 x hx)
    · next hlt =>
      split
      · next heq =>
        subst heq
        exact List.pairwise_cons.2 ⟨h.1, h.2⟩
      · next hne =>
        refine List.pairwise_cons.2 ⟨?_, ih h.2⟩
        intro x hx
        rcases mem_insertEntry hx with rfl | hx
        · exact lt_of_not_lt_of_ne hlt hne
        · exact h.1 x hx

def insert (d : Dict α) (key : Bytes) (v : α) : Dict α where
  entries := insertEntry key v d.entries
  sorted := pairwise_insertEntry key v d.sorted

def erase (d : Dict α) (key : Bytes) : Dict α where
  entries := d.entries.filter fun e => e.1 ≠ key
  sorted := d.sorted.filter _

def find? (d : Dict α) (key : Bytes) : Option α := d.entries.lookup key

/-- Puts entries in one after another, so that of two with one key the later stands. -/
def ofList (es : List (Bytes × α)) : Dict α := es.foldl (fun d e => d.insert e.1 e.2) {}

def isEmpty (d : Dict α) : Bool := d.entries.isEmpty

theorem lookup_cons (key k : Bytes) (v : α) (es : List (Bytes × α)) :
    List.lookup k ((key, v) :: es) = if k = key then some v else es.lookup k := by
  by_cases h : k = key
  · simp [h]
  · have hne : (k == key) = false := by simpa using h
    rw [List.lookup_cons, hne, if_neg h]

theorem lookup_insertEntry (key k : Bytes) (v : α) (es : List (Bytes × α)) :
    (insertEntry key v es).lookup k = if k = key then some v else es.lookup k := by
  induction es with
  | nil => simp only [insertEntry, lookup_cons]
  | cons e rest ih =>
    obtain ⟨k', w⟩ := e
    simp only [insertEntry]
    split
    · simp only [lookup_cons]
    · split
      · next heq =>
        subst heq
        by_cases hk : k = key <;> simp only [lookup_cons, hk, if_true, if_false]
      · next hne =>
        by_cases hk : k = k'
        · subst hk
          simp only [lookup_cons, if_true, if_neg (Ne.symm hne)]
        · simp only [lookup_cons, if_neg hk, ih]

theorem find?_insert (d : Dict α) (key k : Bytes) (v : α) :
    (d.insert key v).find? k = if k = key then some v else d.find? k :=
  lookup_insertEntry key k v d.entries

end Dict

end StackStep
