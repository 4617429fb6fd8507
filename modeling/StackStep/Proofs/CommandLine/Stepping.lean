import StackStep.CommandLine.Step
import StackStep.Program
import StackStep.Proofs.Snapshot.Decoded

/-!
Stepping a saved state, against stepping a state in memory.

Between two steps a run lives in its file only. Every step reads the file, carries
out one instruction and writes the file again, and an instruction that fails may
have taken operands from the state it was given. A step in memory is defined here
without files, and the two are compared: as long as the states can be saved, the
file holds after any calls the state that memory holds, under the identifier the
run was created with. A state that cannot be saved is written all the same, and
the file is lost.
-/

namespace StackStep

/-- Files as a map from paths to contents, on which every write succeeds. -/
abbrev FileMap := Bytes → Option Bytes

namespace FileMap

def read (files : FileMap) (path : Bytes) : Except FileFailure Bytes :=
  match files path with
  | some data => .ok data
  | none => .error ⟨.opening, path, .notFound⟩

def write (files : FileMap) (path data : Bytes) : FileMap :=
  fun other => if other = path then some data else files other

/-- A map of files, used as a disk whose relative paths start from the root. -/
def disk : Disk (StateM FileMap) where
  workingDirectory := fun files => ("/", files)
  pathExists path := fun files => ((files path).isSome, files)
  read path := fun files => (files.read path, files)
  write path data := fun files => (.ok (), files.write path data)
  touch path := fun files => (.ok (), files.write path ((files path).getD []))

@[simp] theorem write_self (files : FileMap) (path data : Bytes) :
    files.write path data path = some data := if_pos rfl

theorem write_of_ne (files : FileMap) {path other : Bytes} (h : other ≠ path) (data : Bytes) :
    files.write path data other = files other := if_neg h

def Saves (files : FileMap) (path : Bytes) (id : RunId) (st : State) : Prop :=
  ∃ data s, files path = some data ∧ Snapshot.decode data = .ok s ∧ s.runId = id ∧
    s.toState = .ok st

/-- A storable state is in the file it has been written to. -/
theorem saves_write (files : FileMap) (path : Bytes) (id : RunId) {st : State}
    (h : st.Addressable) (hs : st.Storable) :
    (files.write path (Snapshot.ofState id st).encode).Saves path id st := by
  obtain ⟨hdecode, hstate⟩ := Snapshot.decode_ofState id h hs
  exact ⟨_, _, write_self files path _, hdecode, rfl, hstate⟩

/-- A file to which a state has been written holds no state, unless this one is
storable. -/
theorem storable_of_saves_write {files : FileMap} {path : Bytes} {id id' : RunId} {st st' : State}
    (h : st.Addressable)
    (hsaves : (files.write path (Snapshot.ofState id st).encode).Saves path id' st') :
    st.Storable := by
  obtain ⟨data, s, hfile, hdecode, -, hstate⟩ := hsaves
  rw [write_self] at hfile
  cases hfile
  exact Snapshot.storable_of_decode_ofState h hdecode hstate

end FileMap

/-! ### One step -/

namespace CommandLine

variable {files files' : FileMap} {path name arg : Bytes} {id : RunId} {s : Snapshot}
  {st st' : State} {r : Registry}

def snapshotAt (files : FileMap) (path : Bytes) : Except StepError Snapshot :=
  match files.read path with
  | .error failure => .error (.unreadable path failure)
  | .ok data =>
    match Snapshot.decode data with
    | .error cause => .error (.undecodable path cause)
    | .ok s => .ok s

theorem snapshotAt_eq_ok :
    snapshotAt files path = .ok s ↔
      ∃ data, files path = some data ∧ Snapshot.decode data = .ok s := by
  unfold snapshotAt FileMap.read
  cases files path with
  | none => simp
  | some data => cases hdecode : Snapshot.decode data <;> simp [hdecode]

theorem run_readSnapshot (files : FileMap) (path : Bytes) :
    (readSnapshot FileMap.disk path).run files = (snapshotAt files path, files) := by
  have hread : (FileMap.disk.read path).run files = (files.read path, files) := rfl
  rw [readSnapshot, run_bind hread, snapshotAt]
  cases files.read path with
  | error failure => rfl
  | ok data =>
      dsimp only
      cases Snapshot.decode data with
      | error cause => rfl
      | ok s => rfl

theorem run_loadState (files : FileMap) (path : Bytes) :
    (loadState FileMap.disk path).run files =
      match snapshotAt files path with
      | .error e => (.error e, files)
      | .ok s =>
        match s.toState with
        | .error cause => (.error (.noState none cause), files)
        | .ok st => (.ok st, files) := by
  rw [loadState, run_bind (run_readSnapshot files path)]
  cases snapshotAt files path with
  | error e => rfl
  | ok s =>
      dsimp only
      cases s.toState with
      | error cause => rfl
      | ok st => rfl

theorem run_applyOpcode (files : FileMap) (path : Bytes) (r : Registry) (name arg : Bytes) :
    (applyOpcode FileMap.disk path r name arg).run files =
      match snapshotAt files path with
      | .error e => (.error e, files)
      | .ok s =>
        match stepSnapshot r path name arg s with
        | .error e => (.error e, files)
        | .ok st => (.ok st, files.write path (Snapshot.ofState s.runId st).encode) := by
  rw [applyOpcode, run_bind (run_readSnapshot files path)]
  cases snapshotAt files path with
  | error e => rfl
  | ok s =>
      dsimp only
      cases stepSnapshot r path name arg s with
      | error e => rfl
      | ok st => rfl

theorem stepSnapshot_eq_ok :
    stepSnapshot r path name arg s = .ok st' ↔
      ∃ st, s.toState = .ok st ∧ st.terminated = false ∧ r.call name arg st = .done st' := by
  unfold stepSnapshot
  cases s.toState with
  | error cause => simp
  | ok st =>
      cases hterminated : st.terminated <;> cases hcall : r.call name arg st <;>
        simp [hterminated, hcall]

theorem loadState_eq_ok :
    ((loadState FileMap.disk path).run files).1 = .ok st ↔ ∃ id, files.Saves path id st := by
  rw [run_loadState]
  constructor
  · intro h
    split at h
    · cases h
    · next s hs =>
        split at h
        · cases h
        · next hstate =>
            cases h
            obtain ⟨data, hfile, hdecode⟩ := snapshotAt_eq_ok.mp hs
            exact ⟨s.runId, data, s, hfile, hdecode, rfl, hstate⟩
  · rintro ⟨id, data, s, hfile, hdecode, -, hstate⟩
    rw [snapshotAt_eq_ok.mpr ⟨data, hfile, hdecode⟩]
    dsimp only
    rw [hstate]

theorem run_applyOpcode_of_saves (h : files.Saves path id st) (hrunning : st.terminated = false)
    (hcall : r.call name arg st = .done st') :
    (applyOpcode FileMap.disk path r name arg).run files =
      (.ok st', files.write path (Snapshot.ofState id st').encode) := by
  obtain ⟨data, s, hfile, hdecode, rfl, hstate⟩ := h
  rw [run_applyOpcode, snapshotAt_eq_ok.mpr ⟨data, hfile, hdecode⟩]
  dsimp only
  rw [stepSnapshot_eq_ok.mpr ⟨st, hstate, hrunning, hcall⟩]

/-- A step that succeeds found a state in the file. -/
theorem saves_of_run_applyOpcode
    (h : (applyOpcode FileMap.disk path r name arg).run files = (.ok st', files')) :
    ∃ id st, files.Saves path id st ∧ r.call name arg st = .done st' ∧
      files' = files.write path (Snapshot.ofState id st').encode := by
  rw [run_applyOpcode] at h
  split at h
  · cases h
  · next s hs =>
      split at h
      · cases h
      · next hstep =>
          cases h
          obtain ⟨data, hfile, hdecode⟩ := snapshotAt_eq_ok.mp hs
          obtain ⟨st, hstate, -, hcall⟩ := stepSnapshot_eq_ok.mp hstep
          exact ⟨s.runId, st, ⟨data, s, hfile, hdecode, rfl, hstate⟩, hcall, rfl⟩

end CommandLine

/-! ### States in memory

A call on a state in memory changes it only if it succeeds, as on a file. What
the call itself leaves behind when it fails is dropped. -/

namespace State

variable {st st' : State} {ins : Instruction}

def follow (st : State) (ins : Instruction) : State :=
  if st.terminated then st
  else
    match Registry.builtin.call ins.name ins.arg st with
    | .done st' => st'
    | .failed _ _ => st

def after (st : State) (calls : List Instruction) : State := calls.foldl follow st

theorem follow_of_terminated (h : st.terminated = true) : st.follow ins = st := if_pos h

theorem follow_of_done (hrunning : st.terminated = false)
    (hcall : Registry.builtin.call ins.name ins.arg st = .done st') : st.follow ins = st' := by
  simp [follow, hrunning, hcall]

theorem follow_of_failed {cause : CallError}
    (hcall : Registry.builtin.call ins.name ins.arg st = .failed cause st') :
    st.follow ins = st := by
  simp [follow, hcall]

/-- The only text that a call can add is its argument. -/
theorem texts_follow {t : Bytes} (ht : t ∈ (st.follow ins).texts) :
    t = ins.arg ∨ t ∈ st.texts := by
  cases hterminated : st.terminated with
  | true => exact .inr (follow_of_terminated hterminated ▸ ht)
  | false =>
      cases hcall : Registry.builtin.call ins.name ins.arg st with
      | failed cause st' => exact .inr (follow_of_failed hcall ▸ ht)
      | done st' =>
          rw [follow_of_done hterminated hcall] at ht
          obtain ⟨op, -, happly⟩ := Registry.builtin_call_eq_done.mp hcall
          exact Opcode.texts_of_done happly ht

end State

/-! ### Runs -/

namespace FileMap

open CommandLine

variable {files : FileMap} {path : Bytes} {id : RunId} {st : State}

def follow (path : Bytes) (files : FileMap) (ins : Instruction) : FileMap :=
  ((applyOpcode disk path .builtin ins.name ins.arg).run files).2

/-- The files after a run is created at a path and some calls are made on it. -/
def session (files : FileMap) (path : Bytes) (id : RunId) (calls : List Instruction) : FileMap :=
  calls.foldl (follow path) ((createRun disk path id).run files).2

/-- A step on a file that holds a state: nothing happens, in the file as in
memory, or the call succeeds and what it leads to is written. -/
theorem Saves.step_cases (h : files.Saves path id st) (ins : Instruction) :
    ((¬∃ st', st.terminated = false ∧ Registry.builtin.call ins.name ins.arg st = .done st') ∧
      st.follow ins = st ∧
      ∃ e, (applyOpcode disk path .builtin ins.name ins.arg).run files = (.error e, files)) ∨
    (st.terminated = false ∧
      Registry.builtin.call ins.name ins.arg st = .done (st.follow ins) ∧
      (applyOpcode disk path .builtin ins.name ins.arg).run files =
        (.ok (st.follow ins),
          files.write path (Snapshot.ofState id (st.follow ins)).encode)) := by
  obtain ⟨data, s, hfile, hdecode, rfl, hstate⟩ := h
  rw [run_applyOpcode, snapshotAt_eq_ok.mpr ⟨data, hfile, hdecode⟩]
  simp only [stepSnapshot, hstate]
  cases hterminated : st.terminated with
  | true =>
      refine .inl ⟨by simp, State.follow_of_terminated hterminated, .terminated path, ?_⟩
      rfl
  | false =>
      cases hcall : Registry.builtin.call ins.name ins.arg st with
      | failed cause st' =>
          refine .inl ⟨by simp, State.follow_of_failed hcall, .call cause, ?_⟩
          rfl
      | done st' =>
          rw [State.follow_of_done hterminated hcall]
          exact .inr ⟨rfl, rfl, rfl⟩

/-- A step on the file is a step in memory, if what it leads to can be saved. -/
theorem Saves.follow (h : files.Saves path id st) {ins : Instruction}
    (htexts : ∀ t ∈ (st.follow ins).texts, t.length < UInt64.size) (hs : (st.follow ins).Storable) :
    (files.follow path ins).Saves path id (st.follow ins) := by
  rcases h.step_cases ins with ⟨-, hsame, e, hrun⟩ | ⟨-, -, hrun⟩
  · rw [FileMap.follow, hrun, hsame]
    exact h
  · rw [FileMap.follow, hrun]
    exact saves_write files path id (hs.addressable htexts) hs

/-- A run: after any calls the file holds what memory holds, if every state on
the way can be saved. -/
theorem Saves.foldl_follow {calls : List Instruction} (h : files.Saves path id st)
    (htexts : ∀ t ∈ st.texts, t.length < UInt64.size)
    (hargs : ∀ ins ∈ calls, ins.arg.length < UInt64.size)
    (hs : ∀ n ≤ calls.length, (st.after (calls.take n)).Storable) :
    (calls.foldl (FileMap.follow path) files).Saves path id (st.after calls) := by
  -- The bound on the texts goes along with the state: a text is written behind a
  -- head, and a head takes no longer length.
  induction calls generalizing files st with
  | nil => exact h
  | cons ins calls ih =>
      have hnext : ∀ t ∈ (st.follow ins).texts, t.length < UInt64.size := by
        intro t ht
        rcases State.texts_follow ht with rfl | ht
        · exact hargs ins List.mem_cons_self
        · exact htexts t ht
      refine ih (h.follow hnext (hs 1 (by simp))) hnext ?_ ?_
      · exact fun ins' hins' => hargs ins' (List.mem_cons_of_mem ins hins')
      · exact fun n hn => hs (n + 1) (Nat.succ_le_succ hn)

theorem saves_createRun (files : FileMap) (path : Bytes) (id : RunId) :
    ((createRun disk path id).run files).2.Saves path id {} :=
  saves_write files path id ⟨by decide, by decide, by decide⟩ (by decide)

theorem saves_session (files : FileMap) (path : Bytes) (id : RunId) {calls : List Instruction}
    (hargs : ∀ ins ∈ calls, ins.arg.length < UInt64.size)
    (hs : ∀ n ≤ calls.length, (State.after {} (calls.take n)).Storable) :
    (files.session path id calls).Saves path id (State.after {} calls) :=
  (saves_createRun files path id).foldl_follow (by decide) hargs hs

theorem follow_of_ne {other : Bytes} (h : other ≠ path) (ins : Instruction) :
    files.follow path ins other = files other := by
  rw [follow, run_applyOpcode]
  split
  · rfl
  · split
    · rfl
    · exact write_of_ne files h _

theorem session_of_ne (files : FileMap) (id : RunId) (calls : List Instruction) {other : Bytes}
    (h : other ≠ path) : files.session path id calls other = files other := by
  have hfold (fs : FileMap) : calls.foldl (follow path) fs other = fs other := by
    induction calls generalizing fs with
    | nil => rfl
    | cons ins calls ih => rw [List.foldl_cons, ih, follow_of_ne h]
  rw [session, hfold]
  exact write_of_ne files h _

end FileMap

namespace CommandLine

/-- Stepping the file of a run refines stepping a state in memory. As long as
every state so far can be saved, the file holds the state that memory holds under
the identifier of the run, no other file is touched, and a further call succeeds
exactly if it does in memory. It then returns the next state, and otherwise it
leaves all files as they are. -/
theorem stepping_refines_memory (files : FileMap) (path : Bytes) (id : RunId)
    (calls : List Instruction) (hargs : ∀ ins ∈ calls, ins.arg.length < UInt64.size)
    (hs : ∀ n ≤ calls.length, (State.after {} (calls.take n)).Storable) :
    ((createRun FileMap.disk path id).run files).1 = .ok () ∧
    (files.session path id calls).Saves path id (State.after {} calls) ∧
    (∀ other, other ≠ path → files.session path id calls other = files other) ∧
    ∀ ins : Instruction,
      let step := (applyOpcode FileMap.disk path .builtin ins.name ins.arg).run
        (files.session path id calls)
      ((∃ st, step.1 = .ok st) ↔ ∃ st, (State.after {} calls).terminated = false ∧
        Registry.builtin.call ins.name ins.arg (State.after {} calls) = .done st) ∧
      (∀ st, step.1 = .ok st → st = State.after {} (calls ++ [ins])) ∧
      ∀ e, step.1 = .error e → step.2 = files.session path id calls := by
  have hsaves := FileMap.saves_session files path id hargs hs
  refine ⟨rfl, hsaves, fun other hother => FileMap.session_of_ne files id calls hother, ?_⟩
  intro ins step
  have hafter : State.after {} (calls ++ [ins]) = (State.after {} calls).follow ins := by
    simp [State.after]
  rcases hsaves.step_cases ins with ⟨hnone, -, e, hrun⟩ | ⟨hrunning, hcall, hrun⟩
  · have hstep : step = (.error e, files.session path id calls) := hrun
    rw [hstep]
    exact ⟨by simpa using hnone, by simp, fun _ _ => rfl⟩
  · have hstep : step.1 = .ok (State.after {} (calls ++ [ins])) := by
      rw [hafter]
      exact congrArg Prod.fst hrun
    rw [hstep]
    refine ⟨⟨fun _ => ⟨_, hrunning, hcall⟩, fun _ => ⟨_, rfl⟩⟩, ?_, by simp⟩
    intro st hst
    exact (Except.ok.inj hst).symm

/-- The sum fails on a text and takes both operands, but not from the file. -/
theorem stepping_refines_memory_after_failures :
    let calls : List Instruction :=
      [⟨"LOAD_STRING", "é"⟩, ⟨"LOAD_INTEGER", "7"⟩, ⟨"BINARY_ADD", []⟩, ⟨"NONE", [255]⟩,
        ⟨"STORE", "x"⟩, ⟨"END", []⟩, ⟨"JUMP", "3"⟩]
    let st : State :=
      { stack := [.text "é"], pointer := 3, terminated := true
        env := Dict.ofList [("x", .integer 7)] }
    (∀ ins ∈ calls, ins.arg.length < UInt64.size) ∧
      (∀ n ≤ calls.length, (State.after {} (calls.take n)).Storable) ∧
      (FileMap.session (fun _ => none) "s" .zero calls).Saves "s" .zero st := by
  intro calls st
  have hargs : ∀ ins ∈ calls, ins.arg.length < UInt64.size := by decide
  have hs : ∀ n ≤ calls.length, (State.after {} (calls.take n)).Storable := by decide
  have hafter : State.after {} calls = st := by decide
  refine ⟨hargs, hs, ?_⟩
  rw [← hafter]
  exact (stepping_refines_memory (fun _ => none) "s" .zero calls hargs hs).2.1

end CommandLine

/-! ### After one step

A state that comes from a file can be saved again, but the state that a step makes
of it need not be: an instruction takes any bytes as an argument, the pointer
wraps, and the stack and the variables grow. -/

namespace FileMap.Saves

variable {files : FileMap} {path : Bytes} {id id' : RunId} {st st' : State}

theorem storable (h : files.Saves path id st) : st.Storable := by
  obtain ⟨data, s, -, hdecode, -, hstate⟩ := h
  have hfrom := Snapshot.fromFile_of_decode hdecode
  obtain ⟨hpointer, hdepth, henv, htexts⟩ := Snapshot.of_toState hstate
  refine ⟨hpointer, fun t ht => (hfrom.readText (htexts t ht)).1, ?_, ?_⟩
  · exact hdepth ▸ hfrom.stack_le
  · exact Nat.le_trans henv hfrom.env_le

theorem texts_lt (h : files.Saves path id st)
    (hsize : ∀ data, files path = some data → data.length < UInt64.size) :
    ∀ t ∈ st.texts, t.length < UInt64.size := by
  obtain ⟨data, s, hfile, hdecode, -, hstate⟩ := h
  obtain ⟨-, -, -, htexts⟩ := Snapshot.of_toState hstate
  intro t ht
  have hle := ((Snapshot.fromFile_of_decode hdecode).readText (htexts t ht)).2
  exact Nat.lt_of_le_of_lt hle (hsize data hfile)

theorem unique (h : files.Saves path id st) (h' : files.Saves path id' st') : st = st' := by
  obtain ⟨data, s, hfile, hdecode, -, hstate⟩ := h
  obtain ⟨data', s', hfile', hdecode', -, hstate'⟩ := h'
  obtain rfl : data = data' := Option.some.inj (hfile.symm.trans hfile')
  obtain rfl : s = s' := Except.ok.inj (hdecode.symm.trans hdecode')
  exact Except.ok.inj (hstate.symm.trans hstate')

end FileMap.Saves

theorem Registry.addressable_of_call {name arg : Bytes} {st st' : State}
    (h : builtin.call name arg st = .done st') (hs : st.Storable)
    (htexts : ∀ t ∈ st.texts, t.length < UInt64.size) (harg : arg.length < UInt64.size) :
    st'.Addressable := by
  obtain ⟨op, -, happly⟩ := builtin_call_eq_done.mp h
  -- The state after the call need not be storable, so its size is known only from
  -- how much one call adds.
  have hmax : 2 * Cbor.maxCount + 1 < UInt64.size := by decide
  have hdepth := Opcode.depth_of_done happly
  have henv := Opcode.length_env_of_done happly
  have hdepth_le := hs.depth_le
  have henv_le := hs.env_le
  refine ⟨fun t ht => ?_, by omega, by omega⟩
  rcases Opcode.texts_of_done happly ht with rfl | ht
  · exact harg
  · exact htexts t ht

namespace CommandLine

variable {files files' : FileMap} {path name arg : Bytes} {st st' : State}

/-- Of a state that has been written, this state is loaded or nothing. -/
theorem loadState_write_eq_ok {id : RunId} (h : st.Addressable)
    (hfiles : files' = files.write path (Snapshot.ofState id st).encode) :
    ((loadState FileMap.disk path).run files').1 = .ok st' ↔ st.Storable ∧ st' = st := by
  rw [loadState_eq_ok, hfiles]
  constructor
  · rintro ⟨id', hsaves⟩
    have hs := FileMap.storable_of_saves_write h hsaves
    exact ⟨hs, hsaves.unique (FileMap.saves_write files path id h hs)⟩
  · rintro ⟨hs, rfl⟩
    exact ⟨id, FileMap.saves_write files path id h hs⟩

/-- A step that succeeds leaves a file that can be loaded exactly if the state it
returns can be saved, and then what is loaded is this state. -/
theorem loadState_after_applyOpcode
    (hsize : ∀ data, files path = some data → data.length < UInt64.size)
    (harg : arg.length < UInt64.size)
    (h : (applyOpcode FileMap.disk path .builtin name arg).run files = (.ok st, files')) :
    ((∃ st', ((loadState FileMap.disk path).run files').1 = .ok st') ↔ st.Storable) ∧
      ∀ st', ((loadState FileMap.disk path).run files').1 = .ok st' → st' = st := by
  obtain ⟨id, before, hbefore, hcall, hfiles⟩ := saves_of_run_applyOpcode h
  have haddressable : st.Addressable :=
    Registry.addressable_of_call hcall hbefore.storable (hbefore.texts_lt hsize) harg
  have hload (st' : State) : ((loadState FileMap.disk path).run files').1 = .ok st' ↔
      st.Storable ∧ st' = st := loadState_write_eq_ok haddressable hfiles
  constructor
  · constructor
    · rintro ⟨st', hst'⟩
      exact ((hload st').mp hst').1
    · intro hs
      exact ⟨st, (hload st).mpr ⟨hs, rfl⟩⟩
  · intro st' hst'
    exact ((hload st').mp hst').2

/-- The first step of a new run, with a text that can be loaded again. -/
theorem loadState_after_applyOpcode_loadString :
    let files := ((createRun FileMap.disk "s" .zero).run fun _ => none).2
    let st : State := { stack := [.text "é"], pointer := 1 }
    let files' := files.write "s" (Snapshot.ofState .zero st).encode
    (∀ data, files "s" = some data → data.length < UInt64.size) ∧
      (applyOpcode FileMap.disk "s" .builtin "LOAD_STRING" "é").run files = (.ok st, files') ∧
      st.Storable ∧ ((loadState FileMap.disk "s").run files').1 = .ok st := by
  intro files st files'
  have hsize : ∀ data, files "s" = some data → data.length < UInt64.size := by
    rintro data ⟨⟩
    decide
  have hcall : Registry.builtin.call "LOAD_STRING" "é" {} = .done st := by decide
  have hrun := run_applyOpcode_of_saves (FileMap.saves_createRun (fun _ => none) "s" .zero)
    rfl hcall
  have hs : st.Storable := by decide
  obtain ⟨hiff, heq⟩ := loadState_after_applyOpcode hsize (by decide) hrun
  obtain ⟨st', hload⟩ := hiff.mpr hs
  exact ⟨hsize, hrun, hs, heq st' hload ▸ hload⟩

/-- A text that is not UTF-8 is taken as an argument and saved, and the run cannot
be loaded again. -/
theorem loadState_fails_after_loadString :
    let files := ((createRun FileMap.disk "s" .zero).run fun _ => none).2
    let step := (applyOpcode FileMap.disk "s" .builtin "LOAD_STRING" [255]).run files
    ((loadState FileMap.disk "s").run files).1 = .ok {} ∧
      step.1 = .ok { stack := [.text [255]], pointer := 1 } ∧
      ∀ st, ((loadState FileMap.disk "s").run step.2).1 ≠ .ok st := by
  intro files step
  let st : State := { stack := [.text [255]], pointer := 1 }
  have hsaves := FileMap.saves_createRun (fun _ => none) "s" .zero
  have hcall : Registry.builtin.call "LOAD_STRING" [255] {} = .done st := by decide
  have hrun := run_applyOpcode_of_saves hsaves rfl hcall
  have haddressable : st.Addressable := ⟨by decide, by decide, by decide⟩
  have hnot : ¬st.Storable := by decide
  refine ⟨loadState_eq_ok.mpr ⟨_, hsaves⟩, congrArg Prod.fst hrun, ?_⟩
  intro st' hload
  exact hnot ((loadState_write_eq_ok haddressable (congrArg Prod.snd hrun)).mp hload).1

end CommandLine

end StackStep
