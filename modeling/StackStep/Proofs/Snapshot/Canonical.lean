import StackStep.Proofs.Dict
import StackStep.Proofs.Snapshot.Restore

/-!
Restoring a state and saving it again.

A file may hold a snapshot that no state is saved as: without a stack, with a number beside
a text, with variables out of order or given twice. Restoring the state forgets all this, so
saving it again gives not the snapshot back but its canonical form. The form is defined here
on the snapshot alone, with the variables picked out and sorted as a list, so that neither
states nor dictionaries come into it. That it is what comes back says in one equation what
restoring keeps.
-/

namespace StackStep

/-! ### The form -/

def Kind.InUse (k : Kind) : Prop := k = .integer ∨ k = .text

namespace Slot

/-- An integer without its text, a text without its number. -/
def canonical (s : Slot) : Slot where
  kind := s.kind
  int := if s.kind = .text then 0 else s.int
  text := if s.kind = .integer then [] else s.text

/-- Only the field that the kind asks for is filled in. -/
structure IsCanonical (s : Slot) : Prop where
  text_eq_nil : s.kind = .integer → s.text = []
  int_eq_zero : s.kind = .text → s.int = 0

end Slot

def Binding.canonical (b : Binding) : Binding := { b with value := b.value.canonical }

namespace Snapshot

/-- One variable for each name, the last that was given, in ascending order of the names. -/
def canonicalEnv (bs : List Binding) : List Binding :=
  ((latest Binding.name bs).map Binding.canonical).mergeSort fun a b => a.name ≤ b.name

/-- The snapshot that says the same in the one form in which states are saved. -/
def canonical (s : Snapshot) : Snapshot :=
  { s with
    stack := some ((s.stack.getD []).map Slot.canonical)
    env := canonicalEnv s.env }

def slots (s : Snapshot) : List Slot := s.stack.getD [] ++ s.env.map Binding.value

structure IsCanonical (s : Snapshot) : Prop where
  stack_isSome : s.stack.isSome
  slots_canonical : ∀ slot ∈ s.slots, slot.IsCanonical
  env_ascending : s.env.Pairwise fun a b => a.name < b.name

end Snapshot

namespace Slot

theorem isCanonical_canonical (s : Slot) : s.canonical.IsCanonical :=
  ⟨fun h => if_pos h, fun h => if_pos h⟩

theorem canonical_eq_self_iff {s : Slot} : s.canonical = s ↔ s.IsCanonical := by
  constructor
  · intro h
    rw [← h]
    exact s.isCanonical_canonical
  · intro h
    obtain ⟨kind, int, text⟩ := s
    have hint : (if kind = .text then 0 else int) = int := by
      split
      · next hkind => exact (h.int_eq_zero hkind).symm
      · rfl
    have htext : (if kind = .integer then [] else text) = text := by
      split
      · next hkind => exact (h.text_eq_nil hkind).symm
      · rfl
    rw [canonical, hint, htext]

end Slot

theorem map_eq_self_iff {β : Type} {f : β → β} {xs : List β} :
    xs.map f = xs ↔ ∀ x ∈ xs, f x = x := by
  have h := List.map_inj_left (l := xs) (f := f) (g := id)
  rwa [List.map_id] at h

namespace Snapshot

theorem forall_mem_slots {P : Slot → Prop} {s : Snapshot} :
    (∀ slot ∈ s.slots, P slot) ↔
      (∀ slot ∈ s.stack.getD [], P slot) ∧ ∀ b ∈ s.env, P b.value := by
  simp only [slots, List.forall_mem_append, List.forall_mem_map]

theorem mem_canonicalEnv {x : Binding} {bs : List Binding} :
    x ∈ canonicalEnv bs ↔ ∃ b ∈ latest Binding.name bs, b.canonical = x := by
  rw [canonicalEnv, List.mem_mergeSort, List.mem_map]

theorem canonicalEnv_ascending (bs : List Binding) :
    (canonicalEnv bs).Pairwise fun a b => a.name < b.name := by
  -- Sorting alone gives `≤`. That no name is left twice is what `latest` is for.
  have hle : (canonicalEnv bs).Pairwise fun a b => decide (a.name ≤ b.name) = true := by
    refine List.pairwise_mergeSort ?_ ?_ _
    · intro a b c hab hbc
      rw [decide_eq_true_eq] at hab hbc ⊢
      exact List.le_trans hab hbc
    · intro a b
      simpa using List.le_total a.name b.name
  have hne : (canonicalEnv bs).Pairwise fun a b => a.name ≠ b.name := by
    have hperm := List.mergeSort_perm ((latest Binding.name bs).map Binding.canonical)
      fun a b => a.name ≤ b.name
    rw [canonicalEnv, hperm.pairwise_iff fun h => h.symm, List.pairwise_map]
    exact pairwise_latest bs
  refine (hle.and hne).imp ?_
  rintro a b ⟨hab, hab'⟩
  exact Dict.lt_of_not_lt_of_ne (of_decide_eq_true hab) hab'.symm

theorem canonicalEnv_eq_self_iff {bs : List Binding} :
    canonicalEnv bs = bs ↔
      (∀ b ∈ bs, b.value.IsCanonical) ∧ bs.Pairwise fun a b => a.name < b.name := by
  constructor
  · intro h
    refine ⟨?_, h ▸ canonicalEnv_ascending bs⟩
    intro b hb
    rw [← h, mem_canonicalEnv] at hb
    obtain ⟨c, -, rfl⟩ := hb
    exact c.value.isCanonical_canonical
  · rintro ⟨hvalues, hlt⟩
    have hmap : bs.map Binding.canonical = bs := by
      rw [map_eq_self_iff]
      intro b hb
      rw [Binding.canonical, Slot.canonical_eq_self_iff.mpr (hvalues b hb)]
    rw [canonicalEnv, latest_of_pairwise (ne_of_ascending hlt), hmap]
    refine List.mergeSort_of_pairwise (hlt.imp ?_)
    intro a b hab
    exact decide_eq_true (List.le_of_lt hab)

theorem canonical_eq_self_iff {s : Snapshot} : s.canonical = s ↔ s.IsCanonical := by
  obtain ⟨version, runId, pointer, terminated, line, stack, env⟩ := s
  simp only [canonical, mk.injEq, true_and, canonicalEnv_eq_self_iff]
  cases stack with
  | none =>
      constructor
      · rintro ⟨⟨⟩, -⟩
      · rintro ⟨⟨⟩, -, -⟩
  | some slots =>
      rw [Option.getD_some, Option.some_inj, map_eq_self_iff]
      constructor
      · rintro ⟨hstack, hvalues, hlt⟩
        refine ⟨rfl, forall_mem_slots.mpr ⟨?_, hvalues⟩, hlt⟩
        intro slot hslot
        exact Slot.canonical_eq_self_iff.mp (hstack slot hslot)
      · rintro ⟨-, hslots, hlt⟩
        obtain ⟨hstack, hvalues⟩ := forall_mem_slots.mp hslots
        refine ⟨?_, hvalues, hlt⟩
        intro slot hslot
        exact Slot.canonical_eq_self_iff.mpr (hstack slot hslot)

end Snapshot

/-! ### Restoring

Both lists of values are read up to the first whose kind is not in use. -/

inductive SnapshotFault where
  | versionMismatch
  | corrupt
  deriving DecidableEq, Repr

def SnapshotFault.message : SnapshotFault → Bytes
  | .versionMismatch => "snapshot version mismatch"
  | .corrupt => "corrupt snapshot"

namespace SnapshotError

def fault : SnapshotError → SnapshotFault
  | .versionMismatch _ => .versionMismatch
  | .negativePointer _ | .stackKind _ _ | .envKind _ _ => .corrupt

/-- Every error says which of the two it is. -/
theorem fault_message_isInfix (e : SnapshotError) : e.fault.message <:+: e.message := by
  cases e with
  | versionMismatch got =>
      have hwords : ("snapshot version mismatch: got " : Bytes) =
          ("snapshot version mismatch" : Bytes) ++ (": got " : Bytes) := by
        simp only [← Bytes.ofString_append, String.reduceAppend]
      refine ⟨[], (": got " : Bytes) ++ Bytes.ofNat got.toNat ++ (", want " : Bytes) ++
        Bytes.ofNat Snapshot.currentVersion.toNat, ?_⟩
      simp only [message, fault, SnapshotFault.message, hwords, List.append_assoc, List.nil_append]
  | negativePointer pointer =>
      have hwords : ("corrupt snapshot: negative pointer " : Bytes) =
          ("corrupt snapshot" : Bytes) ++ (": negative pointer " : Bytes) := by
        simp only [← Bytes.ofString_append, String.reduceAppend]
      refine ⟨[], (": negative pointer " : Bytes) ++ Bytes.ofInt64 pointer, ?_⟩
      simp only [message, fault, SnapshotFault.message, hwords, List.append_assoc, List.nil_append]
  | stackKind index kind =>
      have hwords : ("]: corrupt snapshot: unknown value kind " : Bytes) = ("]: " : Bytes) ++
          (("corrupt snapshot" : Bytes) ++ (": unknown value kind " : Bytes)) := by
        simp only [← Bytes.ofString_append, String.reduceAppend]
      refine ⟨("stack[" : Bytes) ++ Bytes.ofNat index ++ ("]: " : Bytes),
        (": unknown value kind " : Bytes) ++ Bytes.ofNat kind.code.toNat, ?_⟩
      simp only [message, fault, SnapshotFault.message, hwords, List.append_assoc]
  | envKind name kind =>
      have hwords : (": corrupt snapshot: unknown value kind " : Bytes) = (": " : Bytes) ++
          (("corrupt snapshot" : Bytes) ++ (": unknown value kind " : Bytes)) := by
        simp only [← Bytes.ofString_append, String.reduceAppend]
      refine ⟨("env " : Bytes) ++ Text.quote name ++ (": " : Bytes),
        (": unknown value kind " : Bytes) ++ Bytes.ofNat kind.code.toNat, ?_⟩
      simp only [message, fault, SnapshotFault.message, hwords, List.append_assoc]

end SnapshotError

namespace Slot

def value (s : Slot) : Value := if s.kind = .text then .text s.text else .integer s.int

theorem toValue?_of_inUse {s : Slot} (h : s.kind.InUse) : s.toValue? = some s.value := by
  obtain ⟨kind, int, text⟩ := s
  obtain rfl | rfl := h
  · rfl
  · rfl

theorem toValue?_of_not_inUse {s : Slot} (h : ¬s.kind.InUse) : s.toValue? = none := by
  unfold Kind.InUse at h
  rw [not_or] at h
  rw [toValue?, if_neg h.1, if_neg h.2]

theorem ofValue_value {s : Slot} (h : s.kind.InUse) : ofValue s.value = s.canonical := by
  obtain ⟨kind, int, text⟩ := s
  obtain rfl | rfl := h
  · rfl
  · rfl

end Slot

namespace Snapshot

theorem stackValues_of_inUse {slots : List Slot} (h : ∀ slot ∈ slots, slot.kind.InUse)
    (index : Nat) : stackValues index slots = .ok (slots.map Slot.value) := by
  induction slots generalizing index with
  | nil => rfl
  | cons slot slots ih =>
      rw [List.forall_mem_cons] at h
      simp [stackValues, Slot.toValue?_of_inUse h.1, ih h.2]

theorem stackValues_of_not_inUse {slots : List Slot} (h : ¬∀ slot ∈ slots, slot.kind.InUse)
    (index : Nat) : ∃ e, stackValues index slots = .error e ∧ e.fault = .corrupt := by
  induction slots generalizing index with
  | nil => exact absurd (by simp) h
  | cons slot slots ih =>
      rw [List.forall_mem_cons] at h
      by_cases hslot : slot.kind.InUse
      · obtain ⟨e, he, hfault⟩ := ih (fun hslots => h ⟨hslot, hslots⟩) (index + 1)
        exact ⟨e, by simp [stackValues, Slot.toValue?_of_inUse hslot, he], hfault⟩
      · exact ⟨_, by simp [stackValues, Slot.toValue?_of_not_inUse hslot]; rfl, rfl⟩

theorem envValues_of_inUse {bs : List Binding} (h : ∀ b ∈ bs, b.value.kind.InUse) :
    envValues bs = .ok (bs.map fun b => (b.name, b.value.value)) := by
  induction bs with
  | nil => rfl
  | cons b bs ih =>
      rw [List.forall_mem_cons] at h
      simp [envValues, Slot.toValue?_of_inUse h.1, ih h.2]

theorem envValues_of_not_inUse {bs : List Binding} (h : ¬∀ b ∈ bs, b.value.kind.InUse) :
    ∃ e, envValues bs = .error e ∧ e.fault = .corrupt := by
  induction bs with
  | nil => exact absurd (by simp) h
  | cons b bs ih =>
      rw [List.forall_mem_cons] at h
      by_cases hvalue : b.value.kind.InUse
      · obtain ⟨e, he, hfault⟩ := ih fun hbs => h ⟨hvalue, hbs⟩
        exact ⟨e, by simp [envValues, Slot.toValue?_of_inUse hvalue, he], hfault⟩
      · exact ⟨_, by simp [envValues, Slot.toValue?_of_not_inUse hvalue]; rfl, rfl⟩

/-- What is asked of a snapshot to hold a state. -/
structure Restorable (s : Snapshot) : Prop where
  version_eq : s.version = currentVersion
  pointer_nonneg : 0 ≤ s.pointer
  kinds_inUse : ∀ slot ∈ s.slots, slot.kind.InUse

theorem toState_of_restorable {s : Snapshot} (h : s.Restorable) :
    s.toState = .ok {
      stack := ((s.stack.getD []).map Slot.value).reverse
      pointer := s.pointer
      terminated := s.terminated
      line := s.line
      env := .ofList (s.env.map fun b => (b.name, b.value.value)) } := by
  obtain ⟨hstack, henv⟩ := forall_mem_slots.mp h.kinds_inUse
  have hversion : ¬s.version ≠ currentVersion := fun hne => hne h.version_eq
  rw [toState, if_neg hversion, if_neg (Int64.not_lt.mpr h.pointer_nonneg),
    stackValues_of_inUse hstack, envValues_of_inUse henv]
  rfl

theorem toState_of_not_restorable {s : Snapshot} (h : ¬s.Restorable) :
    ∃ e, s.toState = .error e ∧
      e.fault = if s.version = currentVersion then .corrupt else .versionMismatch := by
  unfold toState
  split
  · exact ⟨_, rfl, rfl⟩
  · next hversion =>
      rw [ne_eq, Decidable.not_not] at hversion
      split
      · exact ⟨_, rfl, rfl⟩
      · next hpointer =>
          by_cases hstack : ∀ slot ∈ s.stack.getD [], slot.kind.InUse
          · have henv : ¬∀ b ∈ s.env, b.value.kind.InUse := by
              intro henv
              exact h ⟨hversion, Int64.not_lt.mp hpointer, forall_mem_slots.mpr ⟨hstack, henv⟩⟩
            obtain ⟨e, he, hfault⟩ := envValues_of_not_inUse henv
            rw [stackValues_of_inUse hstack, he]
            exact ⟨e, rfl, hfault⟩
          · obtain ⟨e, he, hfault⟩ := stackValues_of_not_inUse hstack 0
            rw [he]
            exact ⟨e, rfl, hfault⟩

end Snapshot

/-! ### Saving again -/

def Binding.ofEntry (e : Bytes × Value) : Binding := { name := e.1, value := .ofValue e.2 }

namespace Snapshot

/-- Collecting the variables in a dictionary comes to the same as picking out the latest
and sorting them. -/
theorem entries_ofList_eq_canonicalEnv {bs : List Binding}
    (h : ∀ b ∈ bs, b.value.kind.InUse) :
    (Dict.ofList (bs.map fun b => (b.name, b.value.value))).entries.map Binding.ofEntry =
      canonicalEnv bs := by
  have hmap : (bs.map fun b => (b.name, b.value.value)).map Binding.ofEntry =
      bs.map Binding.canonical := by
    rw [List.map_map]
    refine List.map_congr_left ?_
    intro b hb
    simp only [Function.comp_apply, Binding.ofEntry, Binding.canonical,
      Slot.ofValue_value (h b hb)]
  have hentries := latest_map Binding.name Binding.ofEntry
    (bs.map fun b => (b.name, b.value.value))
  have hbindings := latest_map Binding.name Binding.canonical bs
  -- Both sides ascend, so it is enough that they have the same members, and the members of
  -- the dictionary are the latest entries.
  refine eq_of_ascending Binding.name ?_ (canonicalEnv_ascending bs) ?_
  · rw [List.pairwise_map]
    exact (Dict.ofList _).sorted
  · intro x
    calc
      x ∈ (Dict.ofList (bs.map fun b => (b.name, b.value.value))).entries.map Binding.ofEntry ↔
          x ∈ (latest Prod.fst (bs.map fun b => (b.name, b.value.value))).map Binding.ofEntry := by
        simp only [List.mem_map, Dict.mem_ofList_iff]
      _ ↔ x ∈ latest Binding.name (bs.map Binding.canonical) := by
        rw [← hmap, hentries]
        rfl
      _ ↔ x ∈ canonicalEnv bs := by
        rw [hbindings, List.mem_map, mem_canonicalEnv]
        rfl

theorem restorable_of_toState {s : Snapshot} {st : State} (h : s.toState = .ok st) :
    s.Restorable := by
  by_cases hs : s.Restorable
  · exact hs
  · obtain ⟨e, he, -⟩ := toState_of_not_restorable hs
    rw [he] at h
    cases h

theorem exists_toState_iff {s : Snapshot} : (∃ st, s.toState = .ok st) ↔ s.Restorable :=
  ⟨fun ⟨_, h⟩ => restorable_of_toState h, fun h => ⟨_, toState_of_restorable h⟩⟩

theorem fault_of_toState {s : Snapshot} {e : SnapshotError} (h : s.toState = .error e) :
    e.fault = if s.version = currentVersion then .corrupt else .versionMismatch := by
  have hs : ¬s.Restorable := by
    intro hs
    rw [toState_of_restorable hs] at h
    cases h
  obtain ⟨e', he', hfault⟩ := toState_of_not_restorable hs
  rw [he'] at h
  cases h
  exact hfault

theorem ofState_of_toState {s : Snapshot} {st : State} (h : s.toState = .ok st) :
    ofState s.runId st = s.canonical := by
  have hs := restorable_of_toState h
  obtain ⟨hstack, henv⟩ := forall_mem_slots.mp hs.kinds_inUse
  rw [toState_of_restorable hs] at h
  cases h
  have hslots : ((s.stack.getD []).map Slot.value).map Slot.ofValue =
      (s.stack.getD []).map Slot.canonical := by
    rw [List.map_map]
    exact List.map_congr_left fun slot hslot => Slot.ofValue_value (hstack slot hslot)
  simp only [ofState, canonical, List.reverse_reverse, hslots, hs.version_eq, mk.injEq, true_and]
  exact entries_ofList_eq_canonicalEnv henv

def resave (s : Snapshot) : Except SnapshotError Snapshot := do
  return ofState s.runId (← s.toState)

theorem resave_of_toState {s : Snapshot} {st : State} (h : s.toState = .ok st) :
    s.resave = .ok (ofState s.runId st) := by
  rw [resave, h, ok_bind, pure_eq_ok]

theorem resave_eq_self_iff {s : Snapshot} :
    s.resave = .ok s ↔ s.Restorable ∧ s.IsCanonical := by
  rw [← exists_toState_iff, ← canonical_eq_self_iff]
  constructor
  · intro h
    obtain ⟨st, hst, -⟩ := bind_eq_ok.mp h
    refine ⟨⟨st, hst⟩, ?_⟩
    rw [resave_of_toState hst, ofState_of_toState hst] at h
    exact Except.ok.inj h
  · rintro ⟨⟨st, hst⟩, hcanonical⟩
    rw [resave_of_toState hst, ofState_of_toState hst, hcanonical]

/-- A state that was restored has a pointer that is not negative, so it passes every check
when it is restored again. -/
theorem resave_resave (s : Snapshot) : (s.resave >>= resave) = s.resave := by
  cases hst : s.toState with
  | error e =>
      have hresave : s.resave = .error e := by rw [resave, hst, error_bind]
      rw [hresave, error_bind]
  | ok st =>
      have hpointer : st.pointer = s.pointer := congrArg pointer (ofState_of_toState hst)
      have hnonneg : ¬st.pointer < 0 := by
        rw [hpointer]
        exact Int64.not_lt.mpr (restorable_of_toState hst).pointer_nonneg
      have hback : (ofState s.runId st).toState = .ok st := by
        rw [toState_ofState, if_neg hnonneg]
      rw [resave_of_toState hst, ok_bind, resave_of_toState hback]
      rfl

/-- Saving undoes restoring up to the canonical form, and restoring undoes saving wherever
the pointer may be restored. Nothing but the version, the pointer and the kinds can stand in
the way, and an error says whether it is the version. -/
theorem toState_contract (s : Snapshot) (id : RunId) (st : State) :
    ((∃ st, s.toState = .ok st) ↔ s.Restorable) ∧
      (∀ e, s.toState = .error e →
        e.fault = (if s.version = currentVersion then .corrupt else .versionMismatch) ∧
          e.fault.message <:+: e.message) ∧
      (∀ st, s.toState = .ok st → ofState s.runId st = s.canonical) ∧
      (s.resave = .ok s ↔ s.Restorable ∧ s.IsCanonical) ∧
      (s.resave >>= resave) = s.resave ∧
      ((∃ st', (ofState id st).toState = .ok st') ↔ 0 ≤ st.pointer) ∧
      ∀ st', (ofState id st).toState = .ok st' → st' = st := by
  have hback := toState_ofState id st
  refine ⟨exists_toState_iff, ?_, fun _ => ofState_of_toState, resave_eq_self_iff,
    resave_resave s, ?_, ?_⟩
  · intro e he
    exact ⟨fault_of_toState he, e.fault_message_isInfix⟩
  · rw [hback, ← Int64.not_lt]
    constructor
    · rintro ⟨st', hst'⟩ hneg
      rw [if_pos hneg] at hst'
      cases hst'
    · intro hnonneg
      exact ⟨st, if_neg hnonneg⟩
  · intro st' hst'
    rw [hback] at hst'
    split at hst'
    · cases hst'
    · exact (Except.ok.inj hst').symm

/-- A snapshot without order in its variables, one of which is given twice, and with both
fields filled in on its stack. -/
theorem toState_contract_mixed :
    let s : Snapshot :=
      { version := 1, pointer := 7, line := -3
        stack := some [{ kind := .integer, int := 5, text := "x" },
          { kind := .text, int := 5, text := "x" }]
        env := [{ name := "b", value := { int := 1 } }, { name := "a", value := { int := 2 } },
          { name := "b", value := { kind := .text, int := 3, text := "y" } }] }
    let t : Snapshot :=
      { version := 1, pointer := 7, line := -3
        stack := some [{ kind := .integer, int := 5 }, { kind := .text, text := "x" }]
        env := [{ name := "a", value := { int := 2 } },
          { name := "b", value := { kind := .text, text := "y" } }] }
    s.resave = .ok t ∧ s.canonical = t ∧ t.resave = .ok t := by
  intro s t
  obtain ⟨-, -, hcanonical, -, htwice, -⟩ := toState_contract s .zero {}
  have hresave : s.resave = .ok t := rfl
  obtain ⟨st, hst, h⟩ := bind_eq_ok.mp hresave
  refine ⟨hresave, ?_, ?_⟩
  · rw [← hcanonical st hst]
    exact Except.ok.inj h
  · rw [hresave, ok_bind] at htwice
    exact htwice

end Snapshot

end StackStep
