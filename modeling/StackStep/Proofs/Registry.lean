import StackStep.Registry

/-!
From a table to calls.

A table is checked row by row, each row against the names before it. `Refused earlier row e`
says for which reason a row cannot be taken behind the rows before it: of the rules that
it breaks the first one counts, an empty name, then no handler, then a name that has come
before. A table is `Acceptable` if no rule is broken by any row. The check of a table comes
to its end if the table is acceptable, and otherwise to the first row that is refused; both
follow from what it does with one row behind an acceptable table.

What is registered is the table itself, row for row. A name is found if it is one of the
table, and a call by it is a run of its own handler and nothing else, with the name and the
pointer from before the run put to the fault.
-/

namespace StackStep

def Entry.row (e : Entry) : Row := ⟨e.info, some e.handler⟩

namespace Registry

/-! ### Tables -/

inductive Refused (earlier : List Row) (row : Row) : RegistryError → Prop where
  | emptyName (hname : row.info.name = []) : Refused earlier row (.emptyName earlier.length)
  | noHandler (hname : row.info.name ≠ []) (hhandler : row.handler = none) :
      Refused earlier row (.noHandler row.info.name)
  | duplicate (hname : row.info.name ≠ []) (hhandler : row.handler ≠ none)
      (hseen : row.info.name ∈ earlier.map fun row => row.info.name) :
      Refused earlier row (.duplicate row.info.name)

structure Acceptable (rows : List Row) : Prop where
  named : ∀ row ∈ rows, row.info.name ≠ []
  handled : ∀ row ∈ rows, row.handler ≠ none
  distinct : (rows.map fun row => row.info.name).Nodup

variable {earlier later rows : List Row} {row : Row} {e : RegistryError}

theorem acceptable_nil : Acceptable [] := ⟨by simp, by simp, List.nodup_nil⟩

theorem Acceptable.of_append (h : Acceptable (earlier ++ later)) : Acceptable earlier := by
  refine ⟨fun row hrow => h.named row ?_, fun row hrow => h.handled row ?_, ?_⟩
  · exact List.mem_append_left later hrow
  · exact List.mem_append_left later hrow
  · have hdistinct := h.distinct
    rw [List.map_append] at hdistinct
    exact (List.nodup_append.mp hdistinct).1

theorem acceptable_concat_iff :
    Acceptable (earlier ++ [row]) ↔ Acceptable earlier ∧ row.info.name ≠ [] ∧ row.handler ≠ none ∧
      row.info.name ∉ earlier.map fun row => row.info.name := by
  have hmem : row ∈ earlier ++ [row] := List.mem_append_right earlier List.mem_cons_self
  constructor
  · intro h
    have hdistinct := h.distinct
    rw [List.map_append, List.map_singleton, List.nodup_append] at hdistinct
    refine ⟨h.of_append, h.named row hmem, h.handled row hmem, ?_⟩
    intro hseen
    exact hdistinct.2.2 _ hseen _ List.mem_cons_self rfl
  · rintro ⟨h, hname, hhandler, hnew⟩
    refine ⟨?_, ?_, ?_⟩
    · exact List.forall_mem_append.mpr ⟨h.named, List.forall_mem_singleton.mpr hname⟩
    · exact List.forall_mem_append.mpr ⟨h.handled, List.forall_mem_singleton.mpr hhandler⟩
    · rw [List.map_append, List.map_singleton, List.nodup_append]
      refine ⟨h.distinct, List.nodup_cons.mpr ⟨List.not_mem_nil, List.nodup_nil⟩, ?_⟩
      intro name hseen name' hname' heq
      rw [List.mem_singleton.mp hname'] at heq
      exact hnew (heq ▸ hseen)

theorem Acceptable.exists_handler (h : Acceptable (earlier ++ [row])) :
    ∃ handler, row.handler = some handler :=
  Option.ne_none_iff_exists'.mp (acceptable_concat_iff.mp h).2.2.1

/-- A row can be taken, or there is a reason against it. -/
theorem refused_or_acceptable (h : Acceptable earlier) (row : Row) :
    (∃ e, Refused earlier row e) ∨ Acceptable (earlier ++ [row]) := by
  by_cases hname : row.info.name = []
  · exact .inl ⟨_, .emptyName hname⟩
  by_cases hhandler : row.handler = none
  · exact .inl ⟨_, .noHandler hname hhandler⟩
  by_cases hseen : row.info.name ∈ earlier.map fun row => row.info.name
  · exact .inl ⟨_, .duplicate hname hhandler hseen⟩
  exact .inr (acceptable_concat_iff.mpr ⟨h, hname, hhandler, hseen⟩)

theorem Refused.not_acceptable (h : Refused earlier row e) :
    ¬Acceptable (earlier ++ row :: later) := by
  intro hwhole
  rw [← List.singleton_append, ← List.append_assoc] at hwhole
  obtain ⟨-, hname, hhandler, hnew⟩ := acceptable_concat_iff.mp hwhole.of_append
  cases h with
  | emptyName h => exact hname h
  | noHandler _ h => exact hhandler h
  | duplicate _ _ h => exact hnew h

/-! ### The check of a table -/

/-- The names before a row, the latest first. -/
def seen (earlier : List Row) : List Bytes := (earlier.map fun row => row.info.name).reverse

theorem check_of_refused (h : Refused earlier row e) :
    check (seen earlier) earlier.length (row :: later) = .error e := by
  rw [check]
  cases h with
  | emptyName hname => rw [if_pos hname]
  | noHandler hname hhandler => rw [if_neg hname, hhandler]
  | duplicate hname hhandler hseen =>
      obtain ⟨handler, hsome⟩ := Option.ne_none_iff_exists'.mp hhandler
      simp only [if_neg hname, hsome]
      exact if_pos (List.mem_reverse.mpr hseen)

theorem check_of_acceptable {handler : Handler} (hhandler : row.handler = some handler)
    (h : Acceptable (earlier ++ [row])) :
    check (seen earlier) earlier.length (row :: later) =
      (check (seen (earlier ++ [row])) (earlier ++ [row]).length later).map
        (⟨row.info, handler⟩ :: ·) := by
  obtain ⟨-, hname, -, hnew⟩ := acceptable_concat_iff.mp h
  have hunseen : row.info.name ∉ seen earlier := fun hmem => hnew (List.mem_reverse.mp hmem)
  have hseen : seen (earlier ++ [row]) = row.info.name :: seen earlier := by
    simp [seen]
  simp only [check, if_neg hname, hhandler, if_neg hunseen]
  rw [hseen, List.length_append, List.length_singleton]
  cases check (row.info.name :: seen earlier) (earlier.length + 1) later with
  | ok entries => rfl
  | error e => rfl

/-- A table is checked to its end, or to a row that is refused. -/
theorem check_cases (h : Acceptable earlier) (rows : List Row) :
    (∃ entries : List Entry, rows = entries.map Entry.row ∧ Acceptable (earlier ++ rows) ∧
      check (seen earlier) earlier.length rows = .ok entries) ∨
    ∃ before row after e, rows = before ++ row :: after ∧ Acceptable (earlier ++ before) ∧
      Refused (earlier ++ before) row e ∧
      check (seen earlier) earlier.length rows = .error e := by
  induction rows generalizing earlier with
  | nil => exact .inl ⟨[], rfl, by rwa [List.append_nil], rfl⟩
  | cons row rows ih =>
      rcases refused_or_acceptable h row with ⟨e, hrefused⟩ | hrow
      · refine .inr ⟨[], row, rows, e, rfl, ?_, ?_, check_of_refused hrefused⟩
        · rwa [List.append_nil]
        · rwa [List.append_nil]
      · obtain ⟨handler, hhandler⟩ := hrow.exists_handler
        rw [check_of_acceptable hhandler hrow]
        rcases ih hrow with ⟨entries, hentries, hrows, hcheck⟩ |
          ⟨before, row', after, e, rfl, hbefore, hrefused, hcheck⟩
        · refine .inl ⟨⟨row.info, handler⟩ :: entries, ?_, ?_, ?_⟩
          · rw [List.map_cons, ← hentries, Entry.row, ← hhandler]
          · rwa [List.append_assoc] at hrows
          · rw [hcheck]
            rfl
        · refine .inr ⟨row :: before, row', after, e, rfl, ?_, ?_, ?_⟩
          · rwa [List.append_assoc] at hbefore
          · rwa [List.append_assoc] at hrefused
          · rw [hcheck]
            rfl

/-- The check of a table ends at the first row that is refused. -/
theorem check_of_first_refused {before : List Row} (hbefore : Acceptable (earlier ++ before))
    (h : Refused (earlier ++ before) row e) :
    check (seen earlier) earlier.length (before ++ row :: later) = .error e := by
  induction before generalizing earlier with
  | nil =>
      rw [List.append_nil] at h
      exact check_of_refused h
  | cons r before ih =>
      rw [← List.singleton_append, ← List.append_assoc] at hbefore h
      have hr : Acceptable (earlier ++ [r]) := hbefore.of_append
      obtain ⟨handler, hhandler⟩ := hr.exists_handler
      rw [List.cons_append, check_of_acceptable hhandler hr, ih hbefore h]
      rfl

/-! ### Registries from tables -/

variable {r : Registry}

theorem map_entries_ofRows (rows : List Row) : (ofRows rows).map entries = check [] 0 rows := by
  unfold ofRows
  split
  · next hcheck => exact hcheck.symm
  · next hcheck => exact hcheck.symm

theorem check_of_ofRows (h : ofRows rows = .ok r) : check [] 0 rows = .ok r.entries := by
  rw [← map_entries_ofRows, h]
  rfl

theorem ofRows_eq_error_iff : ofRows rows = .error e ↔ check [] 0 rows = .error e := by
  rw [← map_entries_ofRows]
  cases ofRows rows with
  | ok r => simp [Except.map]
  | error e' => simp [Except.map]

/-- What is registered is the table, row for row. -/
theorem entries_of_ofRows (h : ofRows rows = .ok r) :
    rows = r.entries.map Entry.row ∧ Acceptable rows := by
  have hcheck := check_of_ofRows h
  rcases check_cases acceptable_nil rows with ⟨entries, hentries, hrows, hok⟩ |
    ⟨before, row, after, e, -, -, -, herror⟩
  · have heq : r.entries = entries := Except.ok.inj (hcheck.symm.trans hok)
    rw [heq]
    exact ⟨hentries, hrows⟩
  · cases hcheck.symm.trans herror

/-- A table is refused for the first of its rows that is. -/
theorem ofRows_refused_iff :
    ofRows rows = .error e ↔ ∃ earlier row later, rows = earlier ++ row :: later ∧
      Acceptable earlier ∧ Refused earlier row e := by
  rw [ofRows_eq_error_iff]
  constructor
  · intro herror
    rcases check_cases acceptable_nil rows with ⟨entries, -, -, hok⟩ |
      ⟨before, row, after, e', hrows, hbefore, hrefused, herror'⟩
    · cases herror.symm.trans hok
    · obtain rfl := Except.error.inj (herror.symm.trans herror')
      exact ⟨before, row, after, hrows, hbefore, hrefused⟩
  · rintro ⟨earlier, row, later, rfl, hearlier, hrefused⟩
    have hstart : Acceptable ([] ++ earlier) := hearlier
    exact check_of_first_refused hstart hrefused

theorem exists_ofRows_iff : (∃ r, ofRows rows = .ok r) ↔ Acceptable rows := by
  constructor
  · rintro ⟨r, h⟩
    exact (entries_of_ofRows h).2
  · intro hrows
    cases hof : ofRows rows with
    | ok r => exact ⟨r, rfl⟩
    | error e =>
        obtain ⟨earlier, row, later, rfl, -, hrefused⟩ := ofRows_refused_iff.mp hof
        exact absurd hrows hrefused.not_acceptable

/-! ### Names and calls -/

theorem find?_of_nodup {β : Type} {key : β → Bytes} {xs : List β} (h : (xs.map key).Nodup)
    {x : β} (hx : x ∈ xs) : xs.find? (key · == key x) = some x := by
  induction xs with
  | nil => cases hx
  | cons y xs ih =>
      rw [List.map_cons, List.nodup_cons] at h
      rcases List.mem_cons.mp hx with rfl | hx
      · exact List.find?_cons_of_pos (by simp)
      · have hne : key y ≠ key x := by
          intro heq
          exact h.1 (heq ▸ List.mem_map_of_mem hx)
        rw [List.find?_cons_of_neg (by simpa using hne)]
        exact ih h.2 hx

theorem find?_name {entry : Entry} (h : entry ∈ r.entries) : r.find? entry.name = some entry :=
  find?_of_nodup r.distinct h

theorem isSome_find?_iff {name : Bytes} : (r.find? name).isSome ↔ name ∈ r.names := by
  rw [find?, List.find?_isSome, names, List.mem_map]
  simp

theorem find?_of_not_mem {name : Bytes} (h : name ∉ r.names) : r.find? name = none := by
  rw [← Option.not_isSome_iff_eq_none, isSome_find?_iff]
  exact h

/-- A call by a registered name is a run of the handler. -/
theorem call_name {entry : Entry} (h : entry ∈ r.entries) (arg : Bytes) (st : State) :
    (r.call entry.name arg st).state = (entry.handler arg st).state ∧
      (r.call entry.name arg st).reason? =
        (entry.handler arg st).reason?.map (.opcode entry.name st.pointer) := by
  simp only [call, find?_name h]
  cases entry.handler arg st with
  | done st' => exact ⟨rfl, rfl⟩
  | failed fault st' => exact ⟨rfl, rfl⟩

/-- A table is registered if every row has a name and a handler and no name comes twice.
Otherwise the first row is reported that cannot be taken behind those before it, for its
name being empty, else for having no handler, else for its name having come before. A
registry from a table has the names of the rows in their order. It finds them and no
others, each with the handler and the metadata of its row. A call by such a name changes the
state as the handler does on its own, and gives the handler's fault with the name and the
pointer before the call. A call by any other name fails for want of the name and changes
nothing. -/
theorem registered_and_called (rows : List Row) :
    ((∃ r, ofRows rows = .ok r) ↔ Acceptable rows) ∧
    (∀ e, ofRows rows = .error e ↔ ∃ earlier row later, rows = earlier ++ row :: later ∧
      Acceptable earlier ∧ Refused earlier row e) ∧
    ∀ r, ofRows rows = .ok r →
      r.names = rows.map (fun row => row.info.name) ∧
      (∀ name, ((r.find? name).isSome ↔ name ∈ r.names) ∧
        ((r.info? name).isSome ↔ name ∈ r.names)) ∧
      (∀ row ∈ rows, ∃ handler, row.handler = some handler ∧
        (r.find? row.info.name).map Entry.handler = some handler ∧
        r.info? row.info.name = some row.info ∧
        ∀ arg st, (r.call row.info.name arg st).state = (handler arg st).state ∧
          (r.call row.info.name arg st).reason? =
            (handler arg st).reason?.map (.opcode row.info.name st.pointer)) ∧
      ∀ name, name ∉ r.names → ∀ arg st,
        r.call name arg st = .failed (.unknownOpcode name) st := by
  refine ⟨exists_ofRows_iff, fun e => ofRows_refused_iff, ?_⟩
  intro r hof
  obtain ⟨rfl, -⟩ := entries_of_ofRows hof
  refine ⟨?_, ?_, ?_, ?_⟩
  · rw [names, List.map_map]
    rfl
  · intro name
    rw [info?, Option.isSome_map]
    exact ⟨isSome_find?_iff, isSome_find?_iff⟩
  · intro row hrow
    obtain ⟨entry, hentry, rfl⟩ := List.mem_map.mp hrow
    have hfind : r.find? entry.row.info.name = some entry := find?_name hentry
    refine ⟨entry.handler, rfl, ?_, ?_, call_name hentry⟩
    · rw [hfind]
      rfl
    · rw [info?, hfind]
      rfl
  · intro name hname arg st
    rw [call, find?_of_not_mem hname]

/-- A handler that moves the pointer before it fails, and two rows that break more than one
rule. -/
theorem registered_and_called_moving :
    let move : Row :=
      ⟨⟨"MOVE", 0, 0, [], []⟩, some fun _ st => .failed .divisionByZero (st.jump 99)⟩
    let stop : Row := ⟨⟨"STOP", 0, 0, [], []⟩, some fun _ st => .done st.terminate⟩
    let st : State := { pointer := 7 }
    (∃ r, ofRows [move, stop] = .ok r ∧ r.names = [move.info.name, stop.info.name] ∧
      (r.call "MOVE" [] st).state.pointer = 99 ∧
      (r.call "MOVE" [] st).reason? = some (.opcode "MOVE" 7 .divisionByZero) ∧
      r.call "move" [] st = .failed (.unknownOpcode "move") st) ∧
    ofRows [move, stop, ⟨⟨[], 0, 0, [], []⟩, none⟩, move] = .error (.emptyName 2) ∧
    ofRows [move, stop, { move with handler := none }] = .error (.noHandler "MOVE") := by
  intro move stop st
  have hrows : Acceptable [move, stop] := by
    refine ⟨?_, ?_, by decide +kernel⟩
    · simp only [List.forall_mem_cons]
      exact ⟨by decide, by decide, by simp⟩
    · simp [move, stop]
  refine ⟨?_, ?_, ?_⟩
  · obtain ⟨hok, -, hcalls⟩ := registered_and_called [move, stop]
    obtain ⟨r, hof⟩ := hok.mpr hrows
    obtain ⟨hnames, -, hknown, hunknown⟩ := hcalls r hof
    obtain ⟨handler, hhandler, -, -, hcall⟩ := hknown move List.mem_cons_self
    cases hhandler
    refine ⟨r, hof, hnames, (congrArg State.pointer (hcall [] st).1).trans rfl, (hcall [] st).2, ?_⟩
    refine hunknown "move" ?_ [] st
    rw [hnames]
    decide
  · refine ((registered_and_called _).2.1 _).mpr ⟨[move, stop], _, [move], rfl, hrows, ?_⟩
    exact .emptyName rfl
  · refine ((registered_and_called _).2.1 _).mpr ⟨[move, stop], _, [], rfl, hrows, ?_⟩
    exact .noHandler (by decide) rfl

end Registry

end StackStep
