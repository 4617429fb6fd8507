import StackStep.Files.Tree
import StackStep.Proofs.Path
import StackStep.Proofs.Result

/-!
What is found in a tree of files.

A tree is asked about a path, and follows it name by name from the root. A path that has
been cleaned goes down with every name, so what it is asked about is the place with these
names: whether something is there and everything on the way is a directory (`HasEntry`).
To be there is not yet to be found. A disk refuses a path that is too long, has a name that
is too long or holds a zero byte, it looks up no name in a directory that may not be
searched, and it does not stop at a link that leads nowhere (`Finds`).
-/

namespace StackStep.FileTree

open Config (directoryOf)
open StackStep.Path (IsName)

structure HasEntry (t : FileTree) (place : Location) : Prop where
  way : ∀ n < place.length, ∃ access, t.node? (place.take n) = some (.directory access)
  there : (t.node? place).isSome

/-- A disk takes the path from the root to a place. -/
structure Nameable (place : Location) : Prop where
  names : ∀ name ∈ place, name.length ≤ maxName
  path : (directoryOf place).length ≤ maxPath
  nonzero : 0 ∉ directoryOf place

/-- There is an entry, and nothing keeps a disk from finding it. -/
structure Finds (t : FileTree) (place : Location) : Prop where
  entry : t.HasEntry place
  nameable : Nameable place
  searchable : ∀ n < place.length, ∀ access,
    t.node? (place.take n) = some (.directory access) → access.search
  unbroken : ∀ error, t.node? place ≠ some (.broken error)

def Searchable (t : FileTree) (place : Location) : Prop :=
  ∃ access, t.node? place = some (.directory access) ∧ access.search

variable {t : FileTree} {place next : Location} {name : Bytes}

/-! ### Names -/

theorem directoryAt_eq_ok_iff {access : Access} :
    t.directoryAt place = .ok access ↔ t.node? place = some (.directory access) := by
  unfold directoryAt
  split
  · next hnode => simp [hnode]
  · next hnode => simp [hnode]
  · next hnone _ hnode =>
      rw [hnode]
      simp only [reduceCtorEq, Option.some.injEq, false_iff]
      exact hnone access
  · next hnode => simp [hnode]

theorem named_eq_ok_iff (h : IsName name) :
    t.named place name = .ok next ↔
      t.Searchable place ∧ name.length ≤ maxName ∧ place ++ [name] = next := by
  rw [named, if_neg h.ne_nil, bind_eq_ok]
  simp only [directoryAt_eq_ok_iff, Searchable, if_neg h.ne_current, if_neg h.ne_parent]
  constructor
  · rintro ⟨access, hnode, hnext⟩
    split at hnext
    · cases hnext
    · next hsearch =>
        split at hnext
        · cases hnext
        · next hshort =>
            cases hnext
            exact ⟨⟨access, hnode, by simpa using hsearch⟩, Nat.not_lt.mp hshort, rfl⟩
  · rintro ⟨⟨access, hnode, hsearch⟩, hlength, rfl⟩
    refine ⟨access, hnode, ?_⟩
    rw [if_neg (by simpa using hsearch), if_neg (Nat.not_lt.mpr hlength)]
    rfl

theorem enter_eq_ok_iff (h : IsName name) :
    t.enter place name = .ok next ↔
      t.Searchable place ∧ name.length ≤ maxName ∧ place ++ [name] = next ∧
        ∃ access, t.node? next = some (.directory access) := by
  simp only [enter, bind_eq_ok, named_eq_ok_iff h, directoryAt_eq_ok_iff, pure_eq_ok]
  constructor
  · rintro ⟨_, ⟨hsearch, hlength, rfl⟩, access, hnode, hnext⟩
    cases hnext
    exact ⟨hsearch, hlength, rfl, access, hnode⟩
  · rintro ⟨hsearch, hlength, rfl, access, hnode⟩
    exact ⟨_, ⟨hsearch, hlength, rfl⟩, access, hnode, rfl⟩

/-- Names are followed down as long as each leads to a directory that may be searched. The
last one is asked for this by the name that comes after it. -/
theorem foldlM_enter_eq_ok_iff {names : List Bytes} (h : ∀ name ∈ names, IsName name) :
    names.foldlM t.enter place = .ok next ∧ t.Searchable next ↔
      (∀ name ∈ names, name.length ≤ maxName) ∧ place ++ names = next ∧
        ∀ n ≤ names.length, t.Searchable (place ++ names.take n) := by
  induction names generalizing place with
  | nil =>
      simp only [List.foldlM_nil, pure_eq_ok, Except.ok.injEq, List.append_nil, List.take_nil,
        List.not_mem_nil, false_imp_iff, implies_true, true_and]
      constructor
      · rintro ⟨rfl, hsearch⟩
        exact ⟨rfl, fun _ _ => hsearch⟩
      · rintro ⟨rfl, hsearch⟩
        exact ⟨rfl, hsearch 0 (Nat.zero_le _)⟩
  | cons name names ih =>
      rw [List.forall_mem_cons] at h
      rw [List.foldlM_cons, bind_eq_ok, List.forall_mem_cons]
      constructor
      · rintro ⟨⟨_, hname, hnames⟩, hlast⟩
        obtain ⟨hsearch, hlength, rfl, -⟩ := (enter_eq_ok_iff h.1).mp hname
        obtain ⟨hlengths, rfl, hway⟩ := (ih h.2).mp ⟨hnames, hlast⟩
        refine ⟨⟨hlength, hlengths⟩, by simp, ?_⟩
        intro n hn
        cases n with
        | zero => simpa using hsearch
        | succ n => simpa using hway n (Nat.le_of_succ_le_succ hn)
      · rintro ⟨⟨hlength, hlengths⟩, rfl, hway⟩
        have hhere : t.Searchable place := by simpa using hway 0 (Nat.zero_le _)
        have hbelow : ∀ n ≤ names.length, t.Searchable (place ++ [name] ++ names.take n) := by
          intro n hn
          simpa using hway (n + 1) (Nat.succ_le_succ hn)
        have hnext : t.Searchable (place ++ [name]) := by simpa using hbelow 0 (Nat.zero_le _)
        obtain ⟨access, hdirectory, -⟩ := hnext
        have hrest : names.foldlM t.enter (place ++ [name]) = .ok (place ++ name :: names) ∧
            t.Searchable (place ++ name :: names) :=
          (ih h.2).mpr ⟨hlengths, by simp, hbelow⟩
        refine ⟨⟨place ++ [name], ?_, hrest.1⟩, hrest.2⟩
        exact (enter_eq_ok_iff h.1).mpr ⟨hhere, hlength, rfl, access, hdirectory⟩

/-! ### Whole paths -/

theorem start_directoryOf_eq_ok_iff (hne : place ≠ []) (h : ∀ name ∈ place, IsName name)
    {from? : Location × List Bytes} :
    t.start (directoryOf place) = .ok from? ↔
      (directoryOf place).length ≤ maxPath ∧ 0 ∉ directoryOf place ∧ ([], [] :: place) = from? := by
  rw [start, if_neg (show directoryOf place ≠ [] from List.cons_ne_nil _ _),
    Path.split_directoryOf hne h]
  split
  · next hzero => simp [hzero]
  · next hzero =>
      split
      · next hlong => simp [Nat.not_le.mpr hlong]
      · next hshort =>
          rw [if_pos (Path.isAbsolute_directoryOf place)]
          simp [hzero, Nat.not_lt.mp hshort]

theorem locate_eq_ok_iff {node : FileNode} (h : ∀ n ∈ place, IsName n) (hname : IsName name) :
    t.locate (directoryOf (place ++ [name])) = .ok node ↔
      Nameable (place ++ [name]) ∧ (∀ n ≤ place.length, t.Searchable (place.take n)) ∧
        t.node? (place ++ [name]) = some node ∧ ∀ error, node ≠ .broken error := by
  have hall : ∀ n ∈ place ++ [name], IsName n :=
    List.forall_mem_append.mpr ⟨h, by simpa using hname⟩
  have hroot : t.enter [] [] = .ok [] := rfl
  have hdrop : (([] : Bytes) :: (place ++ [name])).dropLast = [] :: place := by
    rw [← List.cons_append, List.dropLast_concat]
  have hlast : (([] : Bytes) :: (place ++ [name])).getLast?.getD [] = name := by
    rw [← List.cons_append, List.getLast?_concat, Option.getD_some]
  rw [locate, bind_eq_ok]
  constructor
  · rintro ⟨_, hstart, hnode⟩
    obtain ⟨hpath, hzero, rfl⟩ := (start_directoryOf_eq_ok_iff (by simp) hall).mp hstart
    dsimp only at hnode
    rw [hdrop, hlast, List.foldlM_cons, hroot, ok_bind, bind_eq_ok] at hnode
    obtain ⟨_, hentered, hnode⟩ := hnode
    rw [bind_eq_ok] at hnode
    obtain ⟨_, hnamed, hnode⟩ := hnode
    obtain ⟨hsearch, hlength, rfl⟩ := (named_eq_ok_iff hname).mp hnamed
    obtain ⟨hlengths, rfl, hway⟩ := (foldlM_enter_eq_ok_iff h).mp ⟨hentered, hsearch⟩
    have hnames : ∀ n ∈ place ++ [name], n.length ≤ maxName :=
      List.forall_mem_append.mpr ⟨hlengths, by simpa using hlength⟩
    refine ⟨⟨hnames, hpath, hzero⟩, hway, ?_⟩
    split at hnode
    · cases hnode
    · next found hother hfound =>
        cases hnode
        exact ⟨hfound, hother⟩
    · cases hnode
  · rintro ⟨⟨hlengths, hpath, hzero⟩, hway, hnode, hunbroken⟩
    rw [List.forall_mem_append, List.forall_mem_singleton] at hlengths
    obtain ⟨hentered, hsearch⟩ :=
      (foldlM_enter_eq_ok_iff h).mpr ⟨hlengths.1, List.nil_append place, hway⟩
    refine ⟨_, (start_directoryOf_eq_ok_iff (by simp) hall).mpr ⟨hpath, hzero, rfl⟩, ?_⟩
    dsimp only
    rw [hdrop, hlast, List.foldlM_cons, hroot, ok_bind, hentered, ok_bind,
      (named_eq_ok_iff hname).mpr ⟨hsearch, hlengths.2, rfl⟩, ok_bind, hnode]
    split
    · next heq =>
        cases heq
        exact absurd rfl (hunbroken _)
    · next heq =>
        cases heq
        rfl
    · next heq => cases heq

theorem read_of_long {path : Bytes} (hzero : 0 ∉ path) (hlong : maxPath < path.length) :
    t.read path = .error ⟨.opening, path, .nameTooLong⟩ := by
  have hne : path ≠ [] := by
    rintro rfl
    cases hlong
  have hstart : t.start path = .error .nameTooLong := by
    rw [start, if_neg hne, if_neg hzero, if_pos hlong]
  rw [read, locate, hstart]
  rfl

theorem finds_concat_iff :
    t.Finds (place ++ [name]) ↔
      Nameable (place ++ [name]) ∧ (∀ n ≤ place.length, t.Searchable (place.take n)) ∧
        ∃ node, t.node? (place ++ [name]) = some node ∧ ∀ error, node ≠ .broken error := by
  have htake {n : Nat} (hn : n < (place ++ [name]).length) :
      n ≤ place.length ∧ (place ++ [name]).take n = place.take n := by
    rw [List.length_append, List.length_singleton] at hn
    exact ⟨Nat.le_of_lt_succ hn, List.take_append_of_le_length (Nat.le_of_lt_succ hn)⟩
  constructor
  · rintro ⟨⟨hway, hthere⟩, hnameable, hsearchable, hunbroken⟩
    refine ⟨hnameable, ?_, ?_⟩
    · intro n hn
      have hlt : n < (place ++ [name]).length := by simpa using Nat.lt_succ_of_le hn
      obtain ⟨access, hdirectory⟩ := hway n hlt
      have hsearch := hsearchable n hlt access hdirectory
      rw [(htake hlt).2] at hdirectory
      exact ⟨access, hdirectory, hsearch⟩
    · obtain ⟨node, hnode⟩ := Option.isSome_iff_exists.mp hthere
      refine ⟨node, hnode, ?_⟩
      rintro error rfl
      exact hunbroken error hnode
  · rintro ⟨hnameable, hway, node, hnode, hunbroken⟩
    refine ⟨⟨?_, Option.isSome_iff_exists.mpr ⟨node, hnode⟩⟩, hnameable, ?_, ?_⟩
    · intro n hn
      obtain ⟨access, hdirectory, -⟩ := hway n (htake hn).1
      exact ⟨access, by rw [(htake hn).2, hdirectory]⟩
    · intro n hn access hdirectory
      obtain ⟨access', hdirectory', hsearch⟩ := hway n (htake hn).1
      rw [(htake hn).2, hdirectory'] at hdirectory
      cases hdirectory
      exact hsearch
    · intro error hbroken
      rw [hnode] at hbroken
      cases hbroken
      exact hunbroken error rfl

theorem pathExists_iff {path : Bytes} : t.pathExists path ↔ ∃ node, t.locate path = .ok node := by
  unfold pathExists
  split
  · next node hnode => simp [hnode]
  · next e he => simp [he]

theorem pathExists_directoryOf (h : ∀ n ∈ place, IsName n) (hname : IsName name) :
    t.pathExists (directoryOf (place ++ [name])) ↔ t.Finds (place ++ [name]) := by
  simp only [pathExists_iff, locate_eq_ok_iff h hname, finds_concat_iff, exists_and_left]

/-- What is found is read as it is there. -/
theorem read_directoryOf (h : ∀ n ∈ place, IsName n) (hname : IsName name)
    (hfinds : t.Finds (place ++ [name])) :
    ∃ node, t.node? (place ++ [name]) = some node ∧
      t.read (directoryOf (place ++ [name])) = node.read (directoryOf (place ++ [name])) := by
  obtain ⟨hnameable, hway, node, hnode, hunbroken⟩ := finds_concat_iff.mp hfinds
  have hlocate := (locate_eq_ok_iff h hname).mpr ⟨hnameable, hway, hnode, hunbroken⟩
  refine ⟨node, hnode, ?_⟩
  rw [read, hlocate]

end StackStep.FileTree
