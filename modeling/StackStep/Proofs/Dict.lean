import StackStep.Dict

/-!
A dictionary as a set of entries.

The keys of a dictionary ascend strictly, so its entries are known once it is known which
they are, and these are known from what is found under each key. A dictionary that is built
entry by entry holds the latest entry of each key, and `latest` picks these out of a list
without building anything.
-/

namespace StackStep

theorem ne_of_ascending {β : Type} {key : β → Bytes} {xs : List β}
    (h : xs.Pairwise fun a b => key a < key b) : xs.Pairwise fun a b => key a ≠ key b := by
  refine h.imp ?_
  intro a b hlt heq
  exact List.lt_irrefl (key b) (heq ▸ hlt)

/-- Strictly ascending keys leave no choice in how a list is arranged. -/
theorem eq_of_ascending {β : Type} (key : β → Bytes) {xs ys : List β}
    (hxs : xs.Pairwise fun a b => key a < key b) (hys : ys.Pairwise fun a b => key a < key b)
    (h : ∀ x, x ∈ xs ↔ x ∈ ys) : xs = ys := by
  have nodup {zs : List β} (hzs : zs.Pairwise fun a b => key a < key b) : zs.Nodup :=
    (ne_of_ascending hzs).imp fun hne heq => hne (congrArg key heq)
  have hperm : xs.Perm ys := (List.perm_ext_iff_of_nodup (nodup hxs) (nodup hys)).mpr h
  refine hperm.eq_of_pairwise ?_ hxs hys
  intro a b _ _ hab hba
  exact absurd hba (List.lt_asymm hab)

/-! ### The latest of each key -/

/-- The elements of a list that no later one of the same key replaces. -/
def latest {β : Type} (key : β → Bytes) : List β → List β
  | [] => []
  | b :: bs => if bs.any fun c => key c = key b then latest key bs else b :: latest key bs

section Latest

variable {β γ : Type} {key : β → Bytes}

theorem mem_latest_cons {x b : β} {bs : List β} :
    x ∈ latest key (b :: bs) ↔ x ∈ latest key bs ∨ x = b ∧ ∀ c ∈ bs, key c ≠ key b := by
  simp only [latest]
  split
  · next hany =>
      obtain ⟨c, hc, heq⟩ : ∃ c ∈ bs, key c = key b := by simpa using hany
      constructor
      · exact .inl
      · rintro (hx | ⟨-, hlast⟩)
        · exact hx
        · exact absurd heq (hlast c hc)
  · next hany =>
      have hlast : ∀ c ∈ bs, key c ≠ key b := by simpa using hany
      rw [List.mem_cons]
      constructor
      · rintro (rfl | hx)
        · exact .inr ⟨rfl, hlast⟩
        · exact .inl hx
      · rintro (hx | ⟨rfl, -⟩)
        · exact .inr hx
        · exact .inl rfl

theorem mem_of_mem_latest {x : β} {bs : List β} (h : x ∈ latest key bs) : x ∈ bs := by
  induction bs with
  | nil => exact h
  | cons b bs ih =>
      rcases mem_latest_cons.mp h with h | ⟨rfl, -⟩
      · exact List.mem_cons_of_mem b (ih h)
      · exact List.mem_cons_self

theorem pairwise_latest (bs : List β) :
    (latest key bs).Pairwise fun a b => key a ≠ key b := by
  induction bs with
  | nil => exact .nil
  | cons b bs ih =>
      simp only [latest]
      split
      · exact ih
      · next hany =>
          have hlast : ∀ c ∈ bs, key c ≠ key b := by simpa using hany
          refine List.pairwise_cons.mpr ⟨?_, ih⟩
          intro c hc
          exact (hlast c (mem_of_mem_latest hc)).symm

/-- Nothing is replaced where all keys differ. -/
theorem latest_of_pairwise {bs : List β} (h : bs.Pairwise fun a b => key a ≠ key b) :
    latest key bs = bs := by
  induction bs with
  | nil => rfl
  | cons b bs ih =>
      rw [List.pairwise_cons] at h
      have hany : ¬(bs.any fun c => key c = key b) = true := by
        simpa using fun c hc => (h.1 c hc).symm
      rw [latest, if_neg hany, ih h.2]

theorem latest_map (key : γ → Bytes) (f : β → γ) (bs : List β) :
    latest key (bs.map f) = (latest (key ∘ f) bs).map f := by
  induction bs with
  | nil => rfl
  | cons b bs ih =>
      have hany : ((bs.map f).any fun c => key c = key (f b)) =
          bs.any fun c => (key ∘ f) c = (key ∘ f) b := by
        rw [List.any_map]
        rfl
      rw [List.map_cons, latest, latest, hany, ih]
      split
      · rfl
      · rfl

end Latest

namespace Dict

variable {α : Type}

theorem eq_of_entries {d d' : Dict α} (h : d.entries = d'.entries) : d = d' := by
  obtain ⟨entries, sorted⟩ := d
  obtain ⟨entries', sorted'⟩ := d'
  subst h
  rfl

theorem find?_eq_some_iff {d : Dict α} {key : Bytes} {v : α} :
    d.find? key = some v ↔ (key, v) ∈ d.entries := by
  rw [find?, List.lookup_eq_some_iff]
  constructor
  · rintro ⟨before, after, hentries, -⟩
    rw [hentries]
    exact List.mem_append_right before List.mem_cons_self
  · intro h
    obtain ⟨before, after, hentries⟩ := List.append_of_mem h
    refine ⟨before, after, hentries, ?_⟩
    have hsorted := d.sorted
    rw [hentries, List.pairwise_append] at hsorted
    intro e he
    have hlt : e.1 < key := hsorted.2.2 e he (key, v) List.mem_cons_self
    have hne : key ≠ e.1 := by
      rintro rfl
      exact List.lt_irrefl _ hlt
    simpa using hne

/-- Dictionaries in which the same is found under every key are equal. -/
theorem eq_of_find? {d d' : Dict α} (h : ∀ key, d.find? key = d'.find? key) : d = d' := by
  refine eq_of_entries (eq_of_ascending Prod.fst d.sorted d'.sorted ?_)
  rintro ⟨key, v⟩
  rw [← find?_eq_some_iff, ← find?_eq_some_iff, h key]

theorem find?_erase (d : Dict α) (key k : Bytes) :
    (d.erase key).find? k = if k = key then none else d.find? k := by
  ext v
  rw [find?_eq_some_iff, erase, List.mem_filter, ← find?_eq_some_iff]
  by_cases hk : k = key
  · simp [hk]
  · simp [hk]

theorem mem_insert_iff {d : Dict α} {key : Bytes} {v : α} {x : Bytes × α} :
    x ∈ (d.insert key v).entries ↔ x = (key, v) ∨ x ∈ d.entries ∧ x.1 ≠ key := by
  obtain ⟨k, w⟩ := x
  rw [← find?_eq_some_iff, ← find?_eq_some_iff, find?_insert]
  by_cases hk : k = key
  · simp [hk, eq_comm]
  · simp [hk]

/-- Entries that are put in one after another stand with those that were there before,
as far as they do not replace them. -/
theorem mem_foldl_insert_iff {es : List (Bytes × α)} {d : Dict α} {x : Bytes × α} :
    x ∈ (es.foldl (fun d e => d.insert e.1 e.2) d).entries ↔
      x ∈ latest Prod.fst es ∨ x ∈ d.entries ∧ ∀ e ∈ es, e.1 ≠ x.1 := by
  induction es generalizing d with
  | nil => simp [latest]
  | cons e es ih =>
      rw [List.foldl_cons, ih, mem_insert_iff, mem_latest_cons, List.forall_mem_cons]
      constructor
      · rintro (hx | ⟨rfl | ⟨hx, hne⟩, hlast⟩)
        · exact .inl (.inl hx)
        · exact .inl (.inr ⟨rfl, hlast⟩)
        · exact .inr ⟨hx, hne.symm, hlast⟩
      · rintro ((hx | ⟨rfl, hlast⟩) | ⟨hx, hne, hlast⟩)
        · exact .inl hx
        · exact .inr ⟨.inl rfl, hlast⟩
        · exact .inr ⟨.inr ⟨hx, hne.symm⟩, hlast⟩

theorem mem_ofList_iff {es : List (Bytes × α)} {x : Bytes × α} :
    x ∈ (ofList es).entries ↔ x ∈ latest Prod.fst es := by
  rw [ofList, mem_foldl_insert_iff]
  simp

end Dict

end StackStep
