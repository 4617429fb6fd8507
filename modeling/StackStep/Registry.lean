import StackStep.Instruction

/-!
A registry names instructions. It is built from a table of rows and refuses a row without
a name, a row without a handler and a second row of one name, whichever comes first. What
it holds afterwards is distinct non-empty names in the order of the rows.
-/

namespace StackStep

/-- What carries out an instruction, given its argument text. -/
abbrev Handler := Bytes → State → Outcome Fault

/-- One row of a table a registry is built from. -/
structure Row where
  info : OpcodeInfo
  handler : Option Handler

/-- A registered instruction. -/
structure Entry where
  info : OpcodeInfo
  handler : Handler

namespace Entry

def name (e : Entry) : Bytes := e.info.name

end Entry

inductive RegistryError where
  | emptyName (index : Nat)
  | noHandler (name : Bytes)
  | duplicate (name : Bytes)
  deriving DecidableEq, Repr

namespace RegistryError

def message : RegistryError → Bytes
  | .emptyName index => ("opcode " : Bytes) ++ Bytes.ofNat index ++ (": empty name" : Bytes)
  | .noHandler name => ("opcode " : Bytes) ++ name ++ (": nil handler" : Bytes)
  | .duplicate name => ("duplicate opcode: " : Bytes) ++ name

/-- The wording where a table was taken to be right. -/
def fatalMessage (e : RegistryError) : Bytes :=
  ("vm: invalid opcode table: " : Bytes) ++ e.message

end RegistryError

structure Registry where
  entries : List Entry
  named : ∀ e ∈ entries, e.name ≠ []
  distinct : (entries.map Entry.name).Nodup

namespace Registry

/-- Checks the rows from `index` on, with the names before them in `seen`. -/
def check (seen : List Bytes) (index : Nat) : List Row → Except RegistryError (List Entry)
  | [] => .ok []
  | row :: rest =>
    if row.info.name = [] then .error (.emptyName index)
    else
      match row.handler with
      | none => .error (.noHandler row.info.name)
      | some handler =>
        if row.info.name ∈ seen then .error (.duplicate row.info.name)
        else
          match check (row.info.name :: seen) (index + 1) rest with
          | .ok entries => .ok (⟨row.info, handler⟩ :: entries)
          | .error e => .error e

theorem check_ok {seen : List Bytes} {index : Nat} {rows : List Row} {entries : List Entry}
    (h : check seen index rows = .ok entries) :
    (∀ e ∈ entries, e.name ≠ [] ∧ e.name ∉ seen) ∧ (entries.map Entry.name).Nodup := by
  induction rows generalizing seen index entries with
  | nil =>
    simp only [check, Except.ok.injEq] at h
    subst h
    simp
  | cons row rest ih =>
    simp only [check] at h
    split at h
    · cases h
    · next hname =>
      split at h
      · cases h
      · next handler _ =>
        split at h
        · cases h
        · next hseen =>
          split at h
          · next tail htail =>
            obtain ⟨hnames, hnodup⟩ := ih htail
            cases h
            refine ⟨?_, ?_⟩
            · intro e he
              rcases List.mem_cons.1 he with rfl | he
              · exact ⟨hname, hseen⟩
              · exact ⟨(hnames e he).1, fun hs => (hnames e he).2 (List.mem_cons_of_mem _ hs)⟩
            · refine List.nodup_cons.2 ⟨?_, hnodup⟩
              intro hmem
              obtain ⟨e, he, heq⟩ := List.mem_map.1 hmem
              exact (hnames e he).2 (heq ▸ List.mem_cons_self)
          · cases h

/-- Builds a registry, or reports the first row that cannot be taken. -/
def ofRows (rows : List Row) : Except RegistryError Registry :=
  match h : check [] 0 rows with
  | .ok entries => .ok ⟨entries, fun e he => ((check_ok h).1 e he).1, (check_ok h).2⟩
  | .error e => .error e

def names (r : Registry) : List Bytes := r.entries.map Entry.name

def find? (r : Registry) (name : Bytes) : Option Entry := r.entries.find? (·.name == name)

def info? (r : Registry) (name : Bytes) : Option OpcodeInfo := (r.find? name).map Entry.info

end Registry

/-- Why a named call fails. -/
inductive CallError where
  | unknownOpcode (name : Bytes)
  /-- The handler failed. The pointer is the one it was called at. -/
  | opcode (name : Bytes) (pointer : Int64) (fault : Fault)
  deriving DecidableEq, Repr

namespace CallError

def message : CallError → Bytes
  | .unknownOpcode name => ("unknown opcode: " : Bytes) ++ Text.quote name
  | .opcode name pointer fault =>
    name ++ (" at " : Bytes) ++ Bytes.ofInt64 pointer ++ (": " : Bytes) ++ fault.message

end CallError

namespace Registry

/-- Carries out the instruction of the given name. -/
def call (r : Registry) (name arg : Bytes) (st : State) : Outcome CallError :=
  match r.find? name with
  | none => .failed (.unknownOpcode name) st
  | some e =>
    match e.handler arg st with
    | .done st' => .done st'
    | .failed fault st' => .failed (.opcode name st.pointer fault) st'

/-- The built-in instructions, in their fixed order. -/
def builtin : Registry where
  entries := Opcode.all.map fun op => ⟨op.info, op.apply⟩
  named := by
    intro e he
    obtain ⟨op, -, rfl⟩ := List.mem_map.1 he
    simpa [Entry.name] using op.name_ne_nil
  distinct := by
    rw [List.map_map]
    change (Opcode.all.map fun op => op.info.name).Nodup
    decide

end Registry

end StackStep
