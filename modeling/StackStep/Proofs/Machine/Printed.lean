import StackStep.Proofs.Dict
import StackStep.Proofs.Text.Numeral
import StackStep.Proofs.Text.Quoted
import StackStep.State

/-!
The printed state tells the state.

A state is printed in one line, without escapes or lengths, and still the line can be
taken apart from the left. A number ends where something follows that is not part of
one, a quoted text ends with its quote, and after each value of a list stands a comma
or the bracket that closes it. What is printed bare are the names of variables. A name
ends at its colon if it has none inside, and only then; so everything before the
variables is told in any case, and they and the line after them if no name has a colon.
-/

namespace StackStep

namespace Bytes

/-- The bytes that an integer is printed with, among others. -/
def isNumeric (b : UInt8) : Bool := 45 ≤ b && b ≤ 57

/-- What can stand after a number without being taken for a part of it. -/
def Stops (rest : Bytes) : Prop := ∀ b ∈ rest.head?, ¬isNumeric b

theorem stops_cons {b : UInt8} (h : ¬isNumeric b) (rest : Bytes) : Stops (b :: rest) := by
  rintro _ ⟨⟩
  exact h

theorem isNumeric_of_mem_ofInt64 {n : Int64} {b : UInt8} (hb : b ∈ ofInt64 n) : isNumeric b := by
  simpa [isNumeric] using bounds_of_mem_ofInt hb

theorem ofInt64_ne_nil (n : Int64) : ofInt64 n ≠ [] := by
  unfold ofInt64 ofInt
  split
  · exact ofNat_ne_nil _
  · exact List.cons_ne_nil _ _

theorem takeWhile_ofInt64_append (n : Int64) {rest : Bytes} (h : Stops rest) :
    (ofInt64 n ++ rest).takeWhile isNumeric = ofInt64 n := by
  rw [List.takeWhile_append_of_pos fun b hb => isNumeric_of_mem_ofInt64 hb]
  cases rest with
  | nil => simp
  | cons b rest => simp [List.takeWhile_cons_of_neg (h b rfl)]

theorem ofInt64_injective {n m : Int64} (h : ofInt64 n = ofInt64 m) : n = m := by
  have hread := Numeral.read_ofInt64 n
  rw [h, Numeral.read_ofInt64] at hread
  cases hread
  rfl

theorem ofInt64_append_inj {n m : Int64} {rest rest' : Bytes} (hrest : Stops rest)
    (hrest' : Stops rest') (h : ofInt64 n ++ rest = ofInt64 m ++ rest') :
    n = m ∧ rest = rest' := by
  have htext : ofInt64 n = ofInt64 m := by
    rw [← takeWhile_ofInt64_append n hrest, h, takeWhile_ofInt64_append m hrest']
  rw [htext] at h
  exact ⟨ofInt64_injective htext, List.append_cancel_left h⟩

theorem ofBool_append_inj {b b' : Bool} {rest rest' : Bytes}
    (h : ofBool b ++ rest = ofBool b' ++ rest') : b = b' ∧ rest = rest' := by
  cases b with
  | false =>
      cases b' with
      | false => exact ⟨rfl, List.append_cancel_left h⟩
      | true => cases h
  | true =>
      cases b' with
      | false => cases h
      | true => exact ⟨rfl, List.append_cancel_left h⟩

/-! ### Lists with commas -/

section Join

variable {α : Type} {write : α → Bytes} {close : UInt8}

/-- The first of a list, and what stands behind it. -/
theorem join_cons_append (x : α) (xs : List α) (rest : Bytes) :
    join ", " ((x :: xs).map write) ++ close :: rest =
      write x ++ if xs = [] then close :: rest
        else 44 :: 32 :: (join ", " (xs.map write) ++ close :: rest) := by
  cases xs with
  | nil => rfl
  | cons y xs =>
      rw [if_neg (List.cons_ne_nil y xs), List.map_cons, List.map_cons, join, List.append_assoc,
        List.append_assoc]
      · rfl
      · exact List.cons_ne_nil _ _

theorem join_append_inj (hcomma : close ≠ 44) (hclose : ¬isNumeric close) {xs ys : List α}
    (hwrite : ∀ x ∈ xs, ∀ y ∈ ys, ∀ r r', Stops r → Stops r' → write x ++ r = write y ++ r' →
      x = y ∧ r = r')
    (hxs : xs ≠ []) (hys : ys ≠ []) {rest rest' : Bytes}
    (h : join ", " (xs.map write) ++ close :: rest = join ", " (ys.map write) ++ close :: rest') :
    xs = ys ∧ rest = rest' := by
  induction xs generalizing ys with
  | nil => exact absurd rfl hxs
  | cons x xs ih =>
      obtain ⟨y, ys, rfl⟩ := List.exists_cons_of_ne_nil hys
      have hstops (zs : List α) (r : Bytes) :
          Stops (if zs = [] then close :: r
            else 44 :: 32 :: (join ", " (zs.map write) ++ close :: r)) := by
        split
        · exact stops_cons hclose r
        · exact stops_cons (by decide) _
      rw [join_cons_append, join_cons_append] at h
      obtain ⟨rfl, htail⟩ := hwrite x List.mem_cons_self y List.mem_cons_self _ _ (hstops xs rest)
        (hstops ys rest') h
      by_cases hx : xs = []
      · by_cases hy : ys = []
        · rw [if_pos hx, if_pos hy] at htail
          subst hx hy
          exact ⟨rfl, (List.cons.inj htail).2⟩
        · rw [if_pos hx, if_neg hy] at htail
          exact absurd (List.cons.inj htail).1 hcomma
      · by_cases hy : ys = []
        · rw [if_neg hx, if_pos hy] at htail
          exact absurd (List.cons.inj htail).1.symm hcomma
        · rw [if_neg hx, if_neg hy] at htail
          have hwrite' : ∀ x ∈ xs, ∀ y ∈ ys, ∀ r r', Stops r → Stops r' →
              write x ++ r = write y ++ r' → x = y ∧ r = r' := fun x hx y hy =>
            hwrite x (List.mem_cons_of_mem _ hx) y (List.mem_cons_of_mem _ hy)
          obtain ⟨rfl, hrest⟩ := ih hwrite' hx hy (List.cons.inj (List.cons.inj htail).2).2
          exact ⟨rfl, hrest⟩

end Join

end Bytes

open Bytes (Stops stops_cons)

/-! ### Values -/

namespace Value

/-- A value begins with a quote or with a byte of a number. -/
theorem head_render (v : Value) (rest : Bytes) :
    ∃ b bs, v.render ++ rest = b :: bs ∧ (b = 34 ↔ v.kind = .text) ∧ b ≠ 93 := by
  cases v with
  | text t => exact ⟨34, _, rfl, iff_of_true rfl rfl, by decide⟩
  | integer n =>
      obtain ⟨b, bs, hbs⟩ := List.exists_cons_of_ne_nil (Bytes.ofInt64_ne_nil n)
      have hb : Bytes.isNumeric b := Bytes.isNumeric_of_mem_ofInt64 (hbs ▸ List.mem_cons_self)
      refine ⟨b, bs ++ rest, by rw [render, hbs, List.cons_append], iff_of_false ?_ ?_, ?_⟩
      · rintro rfl
        cases hb
      · simp only [kind_integer]
        decide
      · rintro rfl
        cases hb

theorem render_append_inj {v w : Value} {rest rest' : Bytes} (hrest : Stops rest)
    (hrest' : Stops rest') (h : v.render ++ rest = w.render ++ rest') : v = w ∧ rest = rest' := by
  obtain ⟨b, bs, hv, hkind, -⟩ := v.head_render rest
  obtain ⟨b', bs', hw, hkind', -⟩ := w.head_render rest'
  have hsame : v.kind = .text ↔ w.kind = .text := by
    rw [hv, hw] at h
    rw [← hkind, ← hkind', (List.cons.inj h).1]
  cases v with
  | integer n =>
      cases w with
      | integer m =>
          obtain ⟨rfl, hrest⟩ := Bytes.ofInt64_append_inj hrest hrest' h
          exact ⟨rfl, hrest⟩
      | text u => exact absurd (hsame.mpr rfl) (by simp only [kind_integer]; decide)
  | text t =>
      cases w with
      | integer m => exact absurd (hsame.mp rfl) (by simp only [kind_integer]; decide)
      | text u =>
          obtain ⟨rfl, hrest⟩ := Text.quote_append_inj h
          exact ⟨rfl, hrest⟩

/-- Values in a list, which may be empty: no value begins with the bracket at its end. -/
theorem join_render_append_inj {vs ws : List Value} {rest rest' : Bytes}
    (h : Bytes.join ", " (vs.map render) ++ 93 :: rest =
      Bytes.join ", " (ws.map render) ++ 93 :: rest') : vs = ws ∧ rest = rest' := by
  have hnil {v : Value} {vs : List Value} {r r' : Bytes} :
      93 :: r ≠ Bytes.join ", " ((v :: vs).map render) ++ 93 :: r' := by
    intro heq
    rw [Bytes.join_cons_append] at heq
    obtain ⟨b, bs, hbs, -, hb⟩ := v.head_render
      (if vs = [] then 93 :: r' else 44 :: 32 :: (Bytes.join ", " (vs.map render) ++ 93 :: r'))
    rw [hbs] at heq
    exact hb (List.cons.inj heq).1.symm
  cases vs with
  | nil =>
      cases ws with
      | nil => exact ⟨rfl, (List.cons.inj h).2⟩
      | cons w ws => exact absurd h hnil
  | cons v vs =>
      cases ws with
      | nil => exact absurd h.symm hnil
      | cons w ws =>
          exact Bytes.join_append_inj (by decide) (by decide)
            (fun _ _ _ _ _ _ hr hr' heq => render_append_inj hr hr' heq)
            (List.cons_ne_nil v vs) (List.cons_ne_nil w ws) h

end Value

/-! ### Variables -/

namespace Env

def renderEntry (e : Bytes × Value) : Bytes := e.1 ++ (": " : Bytes) ++ e.2.render

theorem render_append (env : Env) (rest : Bytes) :
    env.render ++ rest =
      123 :: (Bytes.join ", " (env.entries.map renderEntry) ++ 125 :: rest) := by
  rw [render, List.append_assoc, List.append_assoc]
  rfl

/-- A name without a colon ends at the first one. -/
theorem takeWhile_renderEntry {e : Bytes × Value} (h : 58 ∉ e.1) (rest : Bytes) :
    (renderEntry e ++ rest).takeWhile (· != 58) = e.1 := by
  have hname : ∀ b ∈ e.1, (b != 58) = true := by
    intro b hb
    exact bne_iff_ne.mpr fun heq => h (heq ▸ hb)
  rw [renderEntry, List.append_assoc, List.append_assoc, List.takeWhile_append_of_pos hname]
  exact List.append_nil _

theorem renderEntry_append_inj {e e' : Bytes × Value} (he : 58 ∉ e.1) (he' : 58 ∉ e'.1)
    {rest rest' : Bytes} (hrest : Stops rest) (hrest' : Stops rest')
    (h : renderEntry e ++ rest = renderEntry e' ++ rest') : e = e' ∧ rest = rest' := by
  have hname : e.1 = e'.1 := by
    rw [← takeWhile_renderEntry he rest, h, takeWhile_renderEntry he']
  simp only [renderEntry, hname, List.append_assoc] at h
  have hvalue := List.append_cancel_left (List.append_cancel_left h)
  obtain ⟨hvalue, hrest⟩ := Value.render_append_inj hrest hrest' hvalue
  exact ⟨Prod.ext hname hvalue, hrest⟩

theorem render_append_inj {env env' : Env} (henv : env.entries ≠ []) (henv' : env'.entries ≠ [])
    (hnames : ∀ e ∈ env.entries, 58 ∉ e.1) (hnames' : ∀ e ∈ env'.entries, 58 ∉ e.1)
    {rest rest' : Bytes} (h : env.render ++ rest = env'.render ++ rest') :
    env = env' ∧ rest = rest' := by
  rw [render_append, render_append, List.cons.injEq] at h
  have hwrite : ∀ e ∈ env.entries, ∀ e' ∈ env'.entries, ∀ r r', Stops r → Stops r' →
      renderEntry e ++ r = renderEntry e' ++ r' → e = e' ∧ r = r' := by
    intro e he e' he' r r' hr hr'
    exact renderEntry_append_inj (hnames e he) (hnames' e' he') hr hr'
  obtain ⟨hentries, hrest⟩ :=
    Bytes.join_append_inj (by decide) (by decide) hwrite henv henv' h.2
  exact ⟨Dict.eq_of_entries hentries, hrest⟩

end Env

/-! ### States -/

namespace State

theorem renderStack_append (st : State) (rest : Bytes) :
    st.renderStack ++ rest =
      91 :: (Bytes.join ", " (st.stack.reverse.map Value.render) ++ 93 :: rest) := by
  rw [renderStack, List.append_assoc, List.append_assoc]
  rfl

theorem renderStack_append_inj {st st' : State} {rest rest' : Bytes}
    (h : st.renderStack ++ rest = st'.renderStack ++ rest') :
    st.stack = st'.stack ∧ rest = rest' := by
  rw [renderStack_append, renderStack_append, List.cons.injEq] at h
  obtain ⟨hstack, hrest⟩ := Value.join_render_append_inj h.2
  exact ⟨List.reverse_inj.mp hstack, hrest⟩

def renderLine (st : State) : Bytes :=
  if 0 < st.line then (" line=" : Bytes) ++ Bytes.ofInt64 st.line else []

def renderEnv (st : State) : Bytes :=
  if st.env.isEmpty then [] else (" env=" : Bytes) ++ st.env.render

theorem render_eq (st : State) :
    st.render =
      ("pointer=" : Bytes) ++ (Bytes.ofInt64 st.pointer ++ ((" terminated=" : Bytes) ++
        (Bytes.ofBool st.terminated ++ ((" stack=" : Bytes) ++
          (st.renderStack ++ (st.renderEnv ++ st.renderLine)))))) := by
  simp only [render, renderEnv, renderLine, List.append_assoc]

/-- What stands before the variables is told in any case. -/
theorem of_render_eq {st st' : State} (h : st.render = st'.render) :
    st.pointer = st'.pointer ∧ st.terminated = st'.terminated ∧ st.stack = st'.stack ∧
      st.renderEnv ++ st.renderLine = st'.renderEnv ++ st'.renderLine := by
  have hspace (text : Bytes) : Stops ((" terminated=" : Bytes) ++ text) :=
    stops_cons (by decide) _
  rw [render_eq, render_eq] at h
  obtain ⟨hpointer, h⟩ :=
    Bytes.ofInt64_append_inj (hspace _) (hspace _) (List.append_cancel_left h)
  obtain ⟨hterminated, h⟩ := Bytes.ofBool_append_inj (List.append_cancel_left h)
  obtain ⟨hstack, h⟩ := renderStack_append_inj (List.append_cancel_left h)
  exact ⟨hpointer, hterminated, hstack, h⟩

theorem line_of_renderLine_eq {st st' : State} (h : st.renderLine = st'.renderLine) :
    st.line = st'.line ∨ st.line ≤ 0 ∧ st'.line ≤ 0 := by
  unfold renderLine at h
  split at h
  · split at h
    · exact .inl (Bytes.ofInt64_injective (List.append_cancel_left h))
    · cases h
  · next hline =>
      split at h
      · cases h
      · next hline' => exact .inr ⟨Int64.not_lt.mp hline, Int64.not_lt.mp hline'⟩

/-- Variables are not taken for the line. -/
theorem renderEnv_append_ne {st st' : State} (h : ¬st.env.isEmpty) (rest : Bytes) :
    st.renderEnv ++ rest ≠ st'.renderLine := by
  intro heq
  rw [renderEnv, if_neg h, renderLine] at heq
  split at heq
  · cases heq
  · cases heq

theorem env_of_renderEnv_eq {st st' : State} (hnames : ∀ e ∈ st.env.entries, 58 ∉ e.1)
    (hnames' : ∀ e ∈ st'.env.entries, 58 ∉ e.1)
    (h : st.renderEnv ++ st.renderLine = st'.renderEnv ++ st'.renderLine) :
    st.env = st'.env ∧ st.renderLine = st'.renderLine := by
  by_cases hempty : st.env.isEmpty
  · have hnil : st.renderEnv = [] := by rw [renderEnv, if_pos hempty]
    by_cases hempty' : st'.env.isEmpty
    · have hnil' : st'.renderEnv = [] := by rw [renderEnv, if_pos hempty']
      rw [hnil, hnil', List.nil_append, List.nil_append] at h
      refine ⟨Dict.eq_of_entries ?_, h⟩
      rw [List.isEmpty_iff.mp hempty, List.isEmpty_iff.mp hempty']
    · rw [hnil, List.nil_append] at h
      exact absurd h.symm (renderEnv_append_ne hempty' _)
  · by_cases hempty' : st'.env.isEmpty
    · have hnil' : st'.renderEnv = [] := by rw [renderEnv, if_pos hempty']
      rw [hnil', List.nil_append] at h
      exact absurd h (renderEnv_append_ne hempty _)
    · rw [renderEnv, renderEnv, if_neg hempty, if_neg hempty', List.append_assoc,
        List.append_assoc] at h
      have hentries : st.env.entries ≠ [] := fun hnil => hempty (List.isEmpty_iff.mpr hnil)
      have hentries' : st'.env.entries ≠ [] := fun hnil => hempty' (List.isEmpty_iff.mpr hnil)
      exact Env.render_append_inj hentries hentries' hnames hnames' (List.append_cancel_left h)

/-- The printed state tells the state. Two states that are printed alike have the same
pointer, the same mark of the end and the same stack. If no name of a variable has a colon,
they also have the same variables, and the same line unless it is not positive in either. -/
theorem printed_alike (st st' : State) (h : st.render = st'.render) :
    st.pointer = st'.pointer ∧ st.terminated = st'.terminated ∧ st.stack = st'.stack ∧
      ((∀ e ∈ st.env.entries, 58 ∉ e.1) → (∀ e ∈ st'.env.entries, 58 ∉ e.1) →
        st.env = st'.env ∧ (st.line = st'.line ∨ st.line ≤ 0 ∧ st'.line ≤ 0)) := by
  obtain ⟨hpointer, hterminated, hstack, hrest⟩ := of_render_eq h
  refine ⟨hpointer, hterminated, hstack, ?_⟩
  intro hnames hnames'
  obtain ⟨henv, hline⟩ := env_of_renderEnv_eq hnames hnames' hrest
  exact ⟨henv, line_of_renderLine_eq hline⟩

/-- A stray byte, a text that looks like the end of a list, a name that looks like the end of
the variables, and lines that are not printed. -/
theorem printed_alike_unprinted_line :
    let st : State := { stack := [.text [0xFF, 0xC3, 0xA9], .text "\", ]", .integer (-1)],
                        env := Dict.ofList [("\x7d, a", .text "b: 1")], line := -3 }
    st.render = { st with line := 0 }.render ∧ st.stack = { st with line := 0 }.stack ∧
      st.env = { st with line := 0 }.env ∧
      (st.line = 0 ∨ st.line ≤ 0 ∧ (0 : Int64) ≤ 0) := by
  intro st
  have hrender : st.render = { st with line := 0 }.render := rfl
  obtain ⟨-, -, hstack, hrest⟩ := printed_alike st { st with line := 0 } hrender
  obtain ⟨henv, hline⟩ := hrest (by decide) (by decide)
  exact ⟨hrender, hstack, henv, hline⟩

/-- A colon in a name can stand for a second variable. -/
example :
    ({ env := Dict.ofList [("a: 1, b", .integer 2)] } : State).render =
      ({ env := Dict.ofList [("a", .integer 1), ("b", .integer 2)] } : State).render := by
  decide +kernel

end State

end StackStep
