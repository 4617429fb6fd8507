import Mathlib.Data.Nat.Find
import StackStep.Proofs.Files

/-!
The search for settings.

The search is written on the names of a path, from the last one to none, and so it ends.
What it does is said on the path itself, as a way up: from the directory where it starts,
made absolute, to the directory above, until that is the directory it came from. The
settings of the first directory on this way in which an entry of their name is found are
the ones that count, and if they cannot be used the search does not go on. It does go on
past an entry that is there but is not found, as on a path that is too long.
-/

namespace StackStep.Config

open StackStep.Path (IsName)

theorem isName_fileName : IsName fileName := ⟨by decide, by decide, by decide, by decide⟩

/-! ### One directory -/

def fileIn (dir : Bytes) : Bytes := Path.join dir fileName

def placeIn (dir : Bytes) : Location := Path.names dir ++ [fileName]

def settingsIn (t : FileTree) (dir : Bytes) : Except ConfigError Config :=
  match t.read (fileIn dir) with
  | .error failure => .error (.unreadable (fileIn dir) failure)
  | .ok data =>
    match parse? data with
    | none => .error (.malformed (fileIn dir))
    | some c =>
      .ok { c with directory := Path.absolute (directoryOf t.workingDirectory) dir }.withDefaults

theorem run_load (t : FileTree) (dir : Bytes) :
    (load FileTree.disk dir).run t = (settingsIn t dir, t) := by
  have hread (path : Bytes) : (FileTree.disk.read path).run t = (t.read path, t) := rfl
  rw [load, run_bind (hread _), settingsIn, fileIn]
  cases t.read (Path.join dir fileName) with
  | error failure => rfl
  | ok data =>
      dsimp only
      cases parse? data with
      | none => rfl
      | some c => rfl

section Settings

variable {t : FileTree} {dir : Bytes}

theorem settingsIn_of_unreadable {failure : FileFailure}
    (h : t.read (fileIn dir) = .error failure) :
    settingsIn t dir = .error (.unreadable (fileIn dir) failure) := by
  rw [settingsIn, h]

theorem settingsIn_of_malformed {data : Bytes} (hread : t.read (fileIn dir) = .ok data)
    (hparse : parse? data = none) : settingsIn t dir = .error (.malformed (fileIn dir)) := by
  rw [settingsIn, hread]
  dsimp only
  rw [hparse]

theorem fileIn_eq (hdir : Path.IsClean dir) : fileIn dir = directoryOf (placeIn dir) :=
  hdir.join_eq isName_fileName

theorem pathExists_fileIn (hdir : Path.IsClean dir) :
    t.pathExists (fileIn dir) ↔ t.Finds (placeIn dir) := by
  rw [fileIn_eq hdir]
  exact FileTree.pathExists_directoryOf (Path.isName_of_mem_names hdir.absolute) isName_fileName

theorem placeIn_directoryOf {names : List Bytes} (h : ∀ name ∈ names, IsName name) :
    placeIn (directoryOf names) = names ++ [fileName] := by
  rw [placeIn, Path.names_directoryOf h]

theorem read_fileIn (hdir : Path.IsClean dir) (hfinds : t.Finds (placeIn dir)) :
    ∃ node, t.node? (placeIn dir) = some node ∧ t.read (fileIn dir) = node.read (fileIn dir) := by
  rw [fileIn_eq hdir]
  exact FileTree.read_directoryOf (Path.isName_of_mem_names hdir.absolute) isName_fileName hfinds

end Settings

theorem isAbsolute_resolve {c : Config} (hdir : Path.isAbsolute c.directory) (path : Bytes) :
    Path.isAbsolute (c.resolve path) := by
  have hne : c.directory ≠ [] := by
    intro hnil
    rw [hnil] at hdir
    cases hdir
  rw [resolve]
  split
  · next h => exact h.resolve_left hne
  · exact Path.isAbsolute_join hdir path

/-- Settings that are used: they know their directory, lack nothing, and name their files
from the root. -/
structure Usable (c : Config) (dir : Bytes) : Prop where
  directory : c.directory = dir
  snapshotPath : c.snapshotPath ≠ []
  serverName : c.serverName ≠ []
  resolvedSnapshotPath : Path.isAbsolute c.resolvedSnapshotPath
  resolvedLogFile : ∀ path, c.resolvedLogFile? = some path → Path.isAbsolute path

theorem usable_withDefaults {c : Config} (hdir : Path.isAbsolute c.directory) :
    c.withDefaults.Usable c.directory := by
  have hfilled : Path.isAbsolute c.withDefaults.directory := hdir
  refine ⟨rfl, ?_, ?_, isAbsolute_resolve hfilled _, ?_⟩
  · change (if c.snapshotPath = [] then defaultSnapshotPath else c.snapshotPath) ≠ []
    split
    · decide
    · assumption
  · change (if c.serverName = [] then defaultServerName else c.serverName) ≠ []
    split
    · decide
    · assumption
  · intro path hpath
    rw [resolvedLogFile?] at hpath
    split at hpath
    · cases hpath
    · cases hpath
      exact isAbsolute_resolve hfilled _

theorem usable_of_settingsIn {t : FileTree} {dir : Bytes} {c : Config} (hdir : Path.IsClean dir)
    (h : settingsIn t dir = .ok c) : c.Usable dir := by
  rw [settingsIn, hdir.absolute_eq] at h
  split at h
  · cases h
  · split at h
    · cases h
    · next c' _ =>
        cases h
        exact usable_withDefaults (c := { c' with directory := dir }) hdir.absolute

/-! ### The way up -/

section Search

variable {t : FileTree} {dir : Bytes} {k : Nat}

def searchFrom (t : FileTree) (dir : Bytes) : Except ConfigError (Option Config) × FileTree :=
  (loadNearest FileTree.disk (Path.names dir).reverse).run t

/-- One directory of the search: if it has settings they are used, and otherwise the search
goes on in the directory above, unless that is the same. -/
theorem searchFrom_eq (h : Path.IsClean dir) :
    searchFrom t dir =
      if t.pathExists (fileIn dir) then ((settingsIn t dir).map some, t)
      else if Path.directory dir = dir then (.ok none, t)
      else searchFrom t (Path.directory dir) := by
  have hexists (path : Bytes) :
      (FileTree.disk.pathExists path).run t = (t.pathExists path, t) := rfl
  obtain ⟨names, hnames, rfl⟩ := h.exists_names
  have hfound (names : List Bytes) (h : ∀ name ∈ names, IsName name) :
      searchFrom t (directoryOf names.reverse) = (loadNearest FileTree.disk names).run t := by
    rw [searchFrom, Path.names_directoryOf fun n hn => h n (List.mem_reverse.mp hn),
      List.reverse_reverse]
  simp only [Path.directory_eq_self_iff hnames]
  rw [fileIn, Path.directory_directoryOf hnames, hfound names hnames,
    hfound names.tail fun n hn => hnames n (List.mem_of_mem_tail hn)]
  cases names with
  | nil =>
      rw [loadNearest, run_bind (hexists _), List.reverse_nil, if_pos rfl]
      split
      · rw [run_bind (run_load t _)]
        rfl
      · rfl
  | cons name above =>
      rw [loadNearest, run_bind (hexists _), if_neg (List.cons_ne_nil _ _)]
      split
      · rw [run_bind (run_load t _)]
        rfl
      · rfl

/-- The first directory with settings decides. -/
theorem searchFrom_of_first (h : Path.IsClean dir)
    (hfound : t.pathExists (fileIn (Path.directory^[k] dir)))
    (hfirst : ∀ j < k, ¬t.pathExists (fileIn (Path.directory^[j] dir))) :
    searchFrom t dir = ((settingsIn t (Path.directory^[k] dir)).map some, t) := by
  induction k generalizing dir with
  | zero =>
      have hhere : t.pathExists (fileIn dir) := hfound
      rw [searchFrom_eq h, if_pos hhere]
      rfl
  | succ k ih =>
      have hhere : ¬t.pathExists (fileIn dir) := hfirst 0 (Nat.succ_pos k)
      have hnotRoot : Path.directory dir ≠ dir := by
        intro hroot
        rw [Function.iterate_fixed hroot] at hfound
        exact hhere hfound
      have hnext := ih (h.iterate_directory 1) hfound
        fun j hj => hfirst (j + 1) (Nat.succ_lt_succ hj)
      rw [searchFrom_eq h, if_neg hhere, if_neg hnotRoot]
      exact hnext

theorem searchFrom_of_none (h : Path.IsClean dir)
    (hnone : ∀ j, ¬t.pathExists (fileIn (Path.directory^[j] dir))) :
    searchFrom t dir = (.ok none, t) := by
  obtain ⟨depth, -, hdepth⟩ := h.exists_depth
  -- The root is reached at last, so the induction is on how far it is away.
  have htop : Path.directory (Path.directory^[depth] dir) = Path.directory^[depth] dir :=
    (hdepth depth).mpr (Nat.le_refl depth)
  clear hdepth
  induction depth generalizing dir with
  | zero =>
      have hhere : ¬t.pathExists (fileIn dir) := hnone 0
      have hroot : Path.directory dir = dir := htop
      rw [searchFrom_eq h, if_neg hhere, if_pos hroot]
  | succ depth ih =>
      have hhere : ¬t.pathExists (fileIn dir) := hnone 0
      rw [searchFrom_eq h, if_neg hhere]
      split
      · rfl
      · exact ih (h.iterate_directory 1) (fun j => hnone (j + 1)) htop

end Search

/-- The directories from where a search starts up to the root. -/
def wayUp (t : FileTree) (start : Bytes) (k : Nat) : Bytes :=
  Path.directory^[k] (Path.absolute (directoryOf t.workingDirectory) start)

/-- The first directory on the way up in which settings are found. -/
structure IsNearest (t : FileTree) (start : Bytes) (k : Nat) : Prop where
  found : t.Finds (placeIn (wayUp t start k))
  first : ∀ j < k, ¬t.Finds (placeIn (wayUp t start j))

section Nearest

variable {t : FileTree} {start : Bytes} {k : Nat}

theorem isClean_wayUp (t : FileTree) (start : Bytes) (k : Nat) : Path.IsClean (wayUp t start k) :=
  (Path.isClean_absolute (Path.isAbsolute_directoryOf t.workingDirectory) start).iterate_directory k

/-- On the way up from names, the last ones are left out. -/
theorem wayUp_directoryOf (t : FileTree) {names : List Bytes} (h : ∀ name ∈ names, IsName name)
    (k : Nat) : wayUp t (directoryOf names) k = directoryOf (names.take (names.length - k)) := by
  have hup : Path.directory^[k] (directoryOf names.reverse.reverse) =
      directoryOf (names.reverse.drop k).reverse :=
    Path.directory_iterate (fun name hname => h name (List.mem_reverse.mp hname)) k
  rw [List.reverse_reverse, List.drop_reverse, List.reverse_reverse] at hup
  rw [wayUp, (Path.isClean_directoryOf h).absolute_eq, hup]

theorem isNearest_iff :
    IsNearest t start k ↔
      t.pathExists (fileIn (wayUp t start k)) ∧
        ∀ j < k, ¬t.pathExists (fileIn (wayUp t start j)) := by
  simp only [pathExists_fileIn (isClean_wayUp t start _)]
  exact ⟨fun h => ⟨h.found, h.first⟩, fun h => ⟨h.1, h.2⟩⟩

instance : Decidable (IsNearest t start k) := decidable_of_iff _ isNearest_iff.symm

theorem isNearest_or_none (t : FileTree) (start : Bytes) :
    (∃ k, IsNearest t start k) ∨ ∀ k, ¬t.Finds (placeIn (wayUp t start k)) := by
  classical
  by_cases hany : ∃ k, t.Finds (placeIn (wayUp t start k))
  · exact .inl ⟨Nat.find hany, Nat.find_spec hany, fun j hj => Nat.find_min hany hj⟩
  · exact .inr (not_exists.mp hany)

theorem run_find (t : FileTree) (start : Bytes) :
    (find FileTree.disk start).run t =
      searchFrom t (wayUp t start 0) := rfl

theorem run_find_of_isNearest (h : IsNearest t start k) :
    (find FileTree.disk start).run t = ((settingsIn t (wayUp t start k)).map some, t) := by
  obtain ⟨hfound, hfirst⟩ := isNearest_iff.mp h
  rw [run_find, searchFrom_of_first (isClean_wayUp t start 0) hfound hfirst]
  rfl

theorem run_find_of_none (h : ∀ k, ¬t.Finds (placeIn (wayUp t start k))) :
    (find FileTree.disk start).run t = (.ok none, t) := by
  have hnone (j : Nat) : ¬t.pathExists (fileIn (wayUp t start j)) :=
    mt (pathExists_fileIn (isClean_wayUp t start j)).mp (h j)
  rw [run_find, searchFrom_of_none (isClean_wayUp t start 0) hnone]

/-- What is found was loaded from the first directory with settings. -/
theorem exists_isNearest_of_find {c : Config}
    (h : ((find FileTree.disk start).run t).1 = .ok (some c)) :
    ∃ k, IsNearest t start k ∧ settingsIn t (wayUp t start k) = .ok c := by
  rcases isNearest_or_none t start with ⟨k, hk⟩ | hnone
  · simp only [run_find_of_isNearest hk, map_some_eq_ok] at h
    obtain ⟨_, hsettings, hc⟩ := h
    cases hc
    exact ⟨k, hk, hsettings⟩
  · rw [run_find_of_none hnone] at h
    cases h

theorem find_eq_none_iff :
    ((find FileTree.disk start).run t).1 = .ok none ↔
      ∀ k, ¬t.Finds (placeIn (wayUp t start k)) := by
  constructor
  · intro h
    rcases isNearest_or_none t start with ⟨k, hk⟩ | hnone
    · simp only [run_find_of_isNearest hk, map_some_eq_ok] at h
      obtain ⟨c, -, hc⟩ := h
      cases hc
    · exact hnone
  · intro hnone
    rw [run_find_of_none hnone]

theorem run_find_snd (t : FileTree) (start : Bytes) : ((find FileTree.disk start).run t).2 = t := by
  rcases isNearest_or_none t start with ⟨k, hk⟩ | hnone
  · rw [run_find_of_isNearest hk]
  · rw [run_find_of_none hnone]

end Nearest

/-- The settings that are found from a directory. Going up from it, the directories end at the
root. The first of them in which an entry of the settings' name is found decides: its
settings are loaded, and if what is there cannot be read or makes no sense, that is the
answer. Nothing is found if there is no such directory. Settings that are found are those
of that directory and can be used. -/
theorem nearest_settings (t : FileTree) (start : Bytes) :
    let dir := wayUp t start
    let found := ((find FileTree.disk start).run t).1
    ((find FileTree.disk start).run t).2 = t ∧
    (∃ depth, dir depth = [Path.separator] ∧ ∀ k, Path.directory (dir k) = dir k ↔ depth ≤ k) ∧
    (found = .ok none ↔ ∀ k, ¬t.Finds (placeIn (dir k))) ∧
    (∀ k, IsNearest t start k →
      found = ((load FileTree.disk (dir k)).run t).1.map some ∧
      ∃ node, t.node? (placeIn (dir k)) = some node ∧
        (∀ failure, node.read (fileIn (dir k)) = .error failure →
          found = .error (.unreadable (fileIn (dir k)) failure)) ∧
        ∀ data, node.read (fileIn (dir k)) = .ok data → parse? data = none →
          found = .error (.malformed (fileIn (dir k)))) ∧
    ∀ c, found = .ok (some c) → ∃ k, IsNearest t start k ∧ c.Usable (dir k) := by
  intro dir found
  have hclean (k : Nat) : Path.IsClean (dir k) := isClean_wayUp t start k
  refine ⟨run_find_snd t start, (hclean 0).exists_depth, find_eq_none_iff, ?_, ?_⟩
  · intro k hk
    have hfound : found = (settingsIn t (dir k)).map some :=
      congrArg Prod.fst (run_find_of_isNearest hk)
    obtain ⟨node, hnode, hread⟩ := read_fileIn (hclean k) hk.found
    rw [hfound, run_load]
    refine ⟨rfl, node, hnode, ?_, ?_⟩
    · intro failure hfailure
      rw [settingsIn_of_unreadable (hread.trans hfailure)]
      rfl
    · intro data hdata hparse
      rw [settingsIn_of_malformed (hread.trans hdata) hparse]
      rfl
  · intro c hfound
    obtain ⟨k, hk, hsettings⟩ := exists_isNearest_of_find hfound
    exact ⟨k, hk, usable_of_settingsIn (hclean k) hsettings⟩

/-- Settings that are a directory, or that may not be read, are in the way of those above
them. Settings in a directory that may not be searched are not. -/
theorem nearest_settings_in_the_way :
    let t : FileTree :=
      { nodes := [(["a"], .directory), (["a", "dbn.toml"], .file "[log]\nfile = \"x\"\n"),
          (["a", "b"], .directory), (["a", "b", "dbn.toml"], .directory),
          (["a", "c"], .directory), (["a", "c", "dbn.toml"], .file [] { read := false }),
          (["a", "d"], .directory { search := false }), (["a", "d", "dbn.toml"], .file [])]
        workingDirectory := ["a"] }
    ((find FileTree.disk "b").run t).1 =
        .error (.unreadable "/a/b/dbn.toml" ⟨.reading, "/a/b/dbn.toml", .isDirectory⟩) ∧
      ((find FileTree.disk "c").run t).1 =
        .error (.unreadable "/a/c/dbn.toml" ⟨.opening, "/a/c/dbn.toml", .denied⟩) ∧
      ∃ c, ((find FileTree.disk "b/../d").run t).1 = .ok (some c) ∧ c.Usable "/a" ∧
        c.resolvedLogFile? = some "/a/x" := by
  intro t
  have hrefused {start path : Bytes} {node : FileNode} {failure : FileFailure}
      (hnearest : IsNearest t start 0) (hfile : fileIn (wayUp t start 0) = path)
      (hnode : t.node? (placeIn (wayUp t start 0)) = some node)
      (hread : node.read path = .error failure) :
      ((find FileTree.disk start).run t).1 = .error (.unreadable path failure) := by
    subst hfile
    obtain ⟨-, -, -, hloads, -⟩ := nearest_settings t start
    obtain ⟨-, _, hthere, hunreadable, -⟩ := hloads 0 hnearest
    rw [hnode, Option.some.injEq] at hthere
    exact hunreadable failure (hthere ▸ hread)
  have habove : IsNearest t "b/../d" 1 := by decide +kernel
  refine ⟨?_, ?_, ?_⟩
  · have hnode : t.node? (placeIn (wayUp t "b" 0)) = some .directory := by decide +kernel
    exact hrefused (by decide +kernel) (by decide +kernel) hnode rfl
  · have hnode : t.node? (placeIn (wayUp t "c" 0)) = some (.file [] { read := false }) := by
      decide +kernel
    exact hrefused (by decide +kernel) (by decide +kernel) hnode rfl
  · obtain ⟨-, -, -, hnearest, husable⟩ := nearest_settings t "b/../d"
    obtain ⟨hloaded, -⟩ := hnearest 1 habove
    have hdir : wayUp t "b/../d" 1 = "/a" := by decide +kernel
    have hread : t.read (fileIn "/a") = .ok "[log]\nfile = \"x\"\n" := by rfl
    have hparse : parse? "[log]\nfile = \"x\"\n" = some { logFile := "x" } := by decide +kernel
    rw [hdir, run_load, settingsIn, hread] at hloaded
    dsimp only at hloaded
    rw [hparse] at hloaded
    obtain ⟨k, -, hc⟩ := husable _ hloaded
    have hsame : wayUp t "b/../d" k = "/a" := hc.directory.symm.trans (by decide +kernel)
    rw [hsame] at hc
    exact ⟨_, hloaded, hc, by decide +kernel⟩

/-- An entry that is there and is not found. The directory where the search starts has a path
that a disk takes, and settings whose path it does not take. Loading them fails, and the
search goes on to the settings of the root. -/
theorem entry_passed_over :
    let names : Location := List.replicate 15 (List.replicate 255 97) ++ [List.replicate 250 97]
    let start := directoryOf names
    let t := (({} : FileTree).makeFile (names ++ [fileName]) []).makeFile [fileName]
      "[lsp]\nname = \"top\"\n"
    start.length = 4091 ∧ wayUp t start 0 = start ∧ t.HasEntry (placeIn start) ∧
      ((load FileTree.disk start).run t).1 =
        .error (.unreadable (fileIn start) ⟨.opening, fileIn start, .nameTooLong⟩) ∧
      ((find FileTree.disk start).run t).1 =
        .ok (some { Config.default with serverName := "top", directory := "/" }) := by
  intro names start t
  have hnames : ∀ name ∈ names, IsName name := by
    rw [List.forall_mem_append, List.forall_mem_singleton]
    refine ⟨fun name hname => ?_, ⟨by decide, by decide, by decide, by decide +kernel⟩⟩
    rw [List.eq_of_mem_replicate hname]
    exact ⟨by decide, by decide, by decide, by decide +kernel⟩
  have hplace (k : Nat) : placeIn (wayUp t start k) = names.take (16 - k) ++ [fileName] := by
    rw [wayUp_directoryOf t hnames, placeIn_directoryOf]
    · rfl
    · exact fun name hname => hnames name (List.mem_of_mem_take hname)
  have hfile : fileIn start = directoryOf (names ++ [fileName]) := by
    rw [fileIn_eq (Path.isClean_directoryOf hnames), placeIn_directoryOf hnames]
  have hlong : (directoryOf (names ++ [fileName])).length = 4100 := by decide +kernel
  have hway : ∀ n < 17, t.node? ((names ++ [fileName]).take n) = some (.directory {}) := by
    decide +kernel
  have habsent : ∀ n < 15, t.node? (names.take (n + 1) ++ [fileName]) = none := by
    decide +kernel
  have hroot : t.Finds ([] ++ [fileName]) :=
    (FileTree.pathExists_directoryOf (by simp) isName_fileName).mp (by decide +kernel)
  have hnearest : IsNearest t start 16 := by
    refine ⟨by rwa [hplace], fun j hj hfinds => ?_⟩
    rw [hplace] at hfinds
    cases j with
    | zero =>
        have hpath : 4100 ≤ FileTree.maxPath := hlong ▸ hfinds.nameable.path
        exact absurd hpath (by decide)
    | succ j =>
        have hthere := hfinds.entry.there
        rw [show 16 - (j + 1) = 14 - j + 1 by omega, habsent (14 - j) (by omega)] at hthere
        cases hthere
  refine ⟨by decide +kernel, ?_, ?_, ?_, ?_⟩
  · rw [wayUp_directoryOf t hnames, Nat.sub_zero, List.take_length]
  · rw [placeIn_directoryOf hnames]
    exact ⟨fun n hn => ⟨{}, hway n hn⟩, by decide +kernel⟩
  · have hzero : 0 ∉ fileIn start := by
      rw [hfile]
      decide +kernel
    have hread : t.read (fileIn start) = .error ⟨.opening, fileIn start, .nameTooLong⟩ :=
      FileTree.read_of_long hzero (by rw [hfile, hlong]; decide)
    rw [run_load, settingsIn_of_unreadable hread]
  · have hdir : wayUp t start 16 = "/" := wayUp_directoryOf t hnames 16
    have hread : t.read (fileIn "/") = .ok "[lsp]\nname = \"top\"\n" := by rfl
    have hparse : parse? "[lsp]\nname = \"top\"\n" = some { serverName := "top" } := by
      decide +kernel
    rw [run_find_of_isNearest hnearest, hdir, settingsIn, hread]
    dsimp only
    rw [hparse]
    rfl

end StackStep.Config
