import Mathlib.Logic.Function.Iterate
import StackStep.Config
import StackStep.Proofs.Text.Lines

/-!
Paths from the root.

A path from the root that has been cleaned is the text of its names. None of them is
empty, `.` or `..`, and none holds a separator, so the names are found again in the text
(`names_directoryOf`), and going up by the letters of a path is dropping its last name
(`directory_directoryOf`). The way up therefore ends, after as many steps as there are
names, at the root, which is the only path that is its own directory.
-/

namespace StackStep.Path

open Config (directoryOf)

/-- A name that stands for itself. -/
structure IsName (name : Bytes) : Prop where
  ne_nil : name ≠ []
  ne_current : name ≠ current
  ne_parent : name ≠ parent
  unseparated : separator ∉ name

theorem follow_of_isName {name : Bytes} (h : IsName name) (absolute : Bool) (seen : List Bytes) :
    follow absolute seen name = name :: seen := by
  rw [follow.eq_def, if_neg (not_or.mpr ⟨h.ne_nil, h.ne_current⟩), if_neg h.ne_parent]

theorem foldl_follow {names : List Bytes} (h : ∀ name ∈ names, IsName name) (absolute : Bool)
    (seen : List Bytes) : names.foldl (follow absolute) seen = names.reverse ++ seen := by
  induction names generalizing seen with
  | nil => rfl
  | cons name names ih =>
      rw [List.forall_mem_cons] at h
      rw [List.foldl_cons, follow_of_isName h.1, ih h.2, List.reverse_cons, List.append_assoc,
        List.singleton_append]

/-! ### Names and texts -/

section Names

variable {path : Bytes} {names : List Bytes}

theorem isAbsolute_directoryOf (names : List Bytes) : isAbsolute (directoryOf names) := rfl

theorem isAbsolute_append (h : isAbsolute path) (rest : Bytes) : isAbsolute (path ++ rest) := by
  cases path with
  | nil => cases h
  | cons b path => exact h

theorem isName_follow {seen : List Bytes} {name : Bytes} (hseen : ∀ n ∈ seen, IsName n)
    (hname : separator ∉ name) : ∀ n ∈ follow true seen name, IsName n := by
  unfold follow
  split
  · exact hseen
  · next hself =>
      split
      · split
        · simp
        · next last rest =>
            rw [List.forall_mem_cons] at hseen
            rw [if_neg hseen.1.ne_parent]
            exact hseen.2
      · next hparent =>
          rw [List.forall_mem_cons]
          rw [not_or] at hself
          exact ⟨⟨hself.1, hself.2, hparent, hname⟩, hseen⟩

theorem isName_foldl_follow {parts seen : List Bytes} (hseen : ∀ n ∈ seen, IsName n)
    (hparts : ∀ part ∈ parts, separator ∉ part) :
    ∀ n ∈ parts.foldl (follow true) seen, IsName n := by
  induction parts generalizing seen with
  | nil => exact hseen
  | cons part parts ih =>
      rw [List.forall_mem_cons] at hparts
      exact ih (isName_follow hseen hparts.1) hparts.2

/-- Above the root there is nothing, so no `..` is left of a path from the root. -/
theorem isName_of_mem_names (h : isAbsolute path) : ∀ name ∈ Path.names path, IsName name := by
  intro name hname
  rw [Path.names, h, List.mem_reverse] at hname
  exact isName_foldl_follow (by simp) (fun _ hpart => Bytes.not_mem_of_mem_split hpart) name hname

theorem split_directoryOf (hne : names ≠ []) (h : ∀ name ∈ names, IsName name) :
    Bytes.split separator (directoryOf names) = [] :: names := by
  rw [directoryOf, Bytes.split, if_pos rfl,
    Bytes.split_join hne fun name hname => (h name hname).unseparated]

theorem names_directoryOf (h : ∀ name ∈ names, IsName name) :
    Path.names (directoryOf names) = names := by
  by_cases hroot : names = []
  · subst hroot
    rfl
  · rw [Path.names, split_directoryOf hroot h, List.foldl_cons]
    change (names.foldl (follow true) []).reverse = names
    rw [foldl_follow h, List.append_nil, List.reverse_reverse]

theorem clean_of_isAbsolute (h : isAbsolute path) : clean path = directoryOf (Path.names path) :=
  if_pos h

theorem join_of_isAbsolute (h : isAbsolute path) (rest : Bytes) :
    join path rest = directoryOf (Path.names (path ++ separator :: rest)) := by
  have hne : path ≠ [] := by
    rintro rfl
    cases h
  rw [join, if_neg hne, clean_of_isAbsolute (isAbsolute_append h _)]

/-- What follows a path from the root is followed from where the path leads. -/
theorem names_append (h : isAbsolute path) (rest : Bytes) :
    Path.names (path ++ separator :: rest) =
      ((Bytes.split separator rest).foldl (follow true) (Path.names path).reverse).reverse := by
  rw [Path.names, isAbsolute_append h, Bytes.split_append_sep, List.foldl_append, Path.names, h,
    List.reverse_reverse]

theorem directoryOf_eq_flatMap (h : names ≠ []) :
    directoryOf names = names.flatMap (separator :: ·) := by
  induction names with
  | nil => exact absurd rfl h
  | cons name names ih =>
      by_cases hlast : names = []
      · subst hlast
        simp [directoryOf, Bytes.join]
      · rw [List.flatMap_cons, ← ih hlast, directoryOf, Bytes.join_cons _ _ hlast, directoryOf,
          List.append_assoc, List.singleton_append, List.cons_append]

/-! ### Down and up -/

theorem join_directoryOf (h : ∀ name ∈ names, IsName name) {name : Bytes} (hname : IsName name) :
    join (directoryOf names) name = directoryOf (names ++ [name]) := by
  rw [join_of_isAbsolute (isAbsolute_directoryOf names),
    names_append (isAbsolute_directoryOf names), names_directoryOf h,
    Bytes.split_of_not_mem hname.unseparated, List.foldl_cons, follow_of_isName hname,
    List.foldl_nil, List.reverse_cons, List.reverse_reverse]

theorem upToLast (front : Bytes) {name : Bytes} (h : separator ∉ name) :
    ((front ++ separator :: name).reverse.dropWhile (· ≠ separator)).reverse =
      front ++ [separator] := by
  have hname : ∀ b ∈ name.reverse, decide (b ≠ separator) = true := by
    intro b hb
    exact decide_eq_true (ne_of_mem_of_not_mem (List.mem_reverse.mp hb) h)
  rw [List.reverse_append, List.reverse_cons, List.append_assoc,
    List.dropWhile_append_of_pos hname]
  simp

/-- The directory above is the one without the last name, and the root is above itself. -/
theorem directory_directoryOf (h : ∀ name ∈ names, IsName name) :
    directory (directoryOf names.reverse) = directoryOf names.tail.reverse := by
  cases names with
  | nil => rfl
  | cons name above =>
      rw [List.forall_mem_cons] at h
      have hconcat : directoryOf (name :: above).reverse =
          above.reverse.flatMap (separator :: ·) ++ separator :: name := by
        rw [directoryOf_eq_flatMap (by simp), List.reverse_cons, List.flatMap_append,
          List.flatMap_singleton]
      rw [directory, hconcat, upToLast _ h.1.unseparated, List.tail_cons]
      by_cases htop : above = []
      · subst htop
        rfl
      · have habove : ∀ n ∈ above.reverse, IsName n := fun n hn => h.2 n (List.mem_reverse.mp hn)
        rw [← directoryOf_eq_flatMap (by simpa using htop), clean_of_isAbsolute
          (isAbsolute_append (isAbsolute_directoryOf _) _), names_append (isAbsolute_directoryOf _),
          names_directoryOf habove]
        change directoryOf above.reverse.reverse.reverse = _
        rw [List.reverse_reverse]

theorem directory_iterate (h : ∀ name ∈ names, IsName name) (n : Nat) :
    directory^[n] (directoryOf names.reverse) = directoryOf (names.drop n).reverse := by
  induction n with
  | zero => rfl
  | succ n ih =>
      have hdrop : ∀ name ∈ names.drop n, IsName name :=
        fun name hname => h name (List.mem_of_mem_drop hname)
      rw [Function.iterate_succ_apply', ih, directory_directoryOf hdrop, List.tail_drop]

theorem directoryOf_inj {names' : List Bytes} (h : ∀ name ∈ names, IsName name)
    (h' : ∀ name ∈ names', IsName name) (heq : directoryOf names = directoryOf names') :
    names = names' := by
  rw [← names_directoryOf h, heq, names_directoryOf h']

/-- Only the root is its own directory. -/
theorem directory_eq_self_iff (h : ∀ name ∈ names, IsName name) :
    directory (directoryOf names.reverse) = directoryOf names.reverse ↔ names = [] := by
  rw [directory_directoryOf h]
  constructor
  · intro heq
    have htail := directoryOf_inj (fun n hn => h n (List.mem_of_mem_tail (List.mem_reverse.mp hn)))
      (fun n hn => h n (List.mem_reverse.mp hn)) heq
    have hlength := congrArg List.length htail
    rw [List.length_reverse, List.length_reverse, List.length_tail] at hlength
    exact List.length_eq_zero_iff.mp (by omega)
  · rintro rfl
    rfl

end Names

/-! ### Clean paths -/

structure IsClean (path : Bytes) : Prop where
  absolute : isAbsolute path
  clean_eq : clean path = path

theorem isClean_directoryOf {names : List Bytes} (h : ∀ name ∈ names, IsName name) :
    IsClean (directoryOf names) := by
  refine ⟨isAbsolute_directoryOf names, ?_⟩
  rw [clean_of_isAbsolute (isAbsolute_directoryOf names), names_directoryOf h]

theorem isClean_directoryOf_names {path : Bytes} (h : isAbsolute path) :
    IsClean (directoryOf (names path)) :=
  isClean_directoryOf (isName_of_mem_names h)

/-- A path made absolute has been cleaned. -/
theorem isClean_absolute {cwd : Bytes} (h : isAbsolute cwd) (path : Bytes) :
    IsClean (absolute cwd path) := by
  unfold absolute
  split
  · next hpath =>
      rw [clean_of_isAbsolute hpath]
      exact isClean_directoryOf_names hpath
  · rw [join_of_isAbsolute h]
    exact isClean_directoryOf_names (isAbsolute_append h _)

theorem isAbsolute_join {dir : Bytes} (h : isAbsolute dir) (path : Bytes) :
    isAbsolute (join dir path) := by
  rw [join_of_isAbsolute h]
  exact isAbsolute_directoryOf _

namespace IsClean

variable {path : Bytes}

theorem absolute_eq (h : IsClean path) (cwd : Bytes) : Path.absolute cwd path = path := by
  rw [Path.absolute, if_pos h.absolute, h.clean_eq]

theorem directoryOf_names (h : IsClean path) : directoryOf (names path) = path := by
  rw [← clean_of_isAbsolute h.absolute, h.clean_eq]

/-- The names of a clean path, the last one first. -/
theorem exists_names (h : IsClean path) :
    ∃ names : List Bytes, (∀ name ∈ names, IsName name) ∧ path = directoryOf names.reverse := by
  refine ⟨(names path).reverse, ?_, ?_⟩
  · intro name hname
    exact isName_of_mem_names h.absolute name (List.mem_reverse.mp hname)
  · rw [List.reverse_reverse, h.directoryOf_names]

theorem join_eq (h : IsClean path) {name : Bytes} (hname : IsName name) :
    join path name = directoryOf (names path ++ [name]) := by
  rw [← join_directoryOf (isName_of_mem_names h.absolute) hname, h.directoryOf_names]

theorem iterate_directory (h : IsClean path) (n : Nat) : IsClean (directory^[n] path) := by
  obtain ⟨names, hnames, rfl⟩ := h.exists_names
  rw [directory_iterate hnames]
  refine isClean_directoryOf fun name hname => ?_
  exact hnames name (List.mem_of_mem_drop (List.mem_reverse.mp hname))

/-- Going up, the root is reached, and stays. -/
theorem exists_depth (h : IsClean path) :
    ∃ depth, directory^[depth] path = [separator] ∧
      ∀ n, directory (directory^[n] path) = directory^[n] path ↔ depth ≤ n := by
  obtain ⟨names, hnames, rfl⟩ := h.exists_names
  refine ⟨names.length, ?_, fun n => ?_⟩
  · rw [directory_iterate hnames, List.drop_length]
    rfl
  · have hdrop : ∀ name ∈ names.drop n, IsName name :=
      fun name hname => hnames name (List.mem_of_mem_drop hname)
    rw [directory_iterate hnames, directory_eq_self_iff hdrop, List.drop_eq_nil_iff]

end IsClean

end StackStep.Path
