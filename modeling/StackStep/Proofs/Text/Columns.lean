import Mathlib.Algebra.GroupWithZero.Nat
import Mathlib.Data.List.Forall2
import StackStep.Proofs.Text.Boundary
import StackStep.Text.Columns

/-!
Tables laid out in columns.

The layout does not know of tables. A column lasts as long as neighbouring lines have a
cell in it, so in general the same place of a text belongs to many columns one below the
other, each with its own width. Here all lines but the blank one at the end have equally
many cells. Then every column runs through all of them, and the layout is a table in the
plain sense (`IsTable`), which is said without the algorithm: what a line looks like for
given widths, and what the widths are. That the cells of a column begin in the same place
on every line follows from this alone (`IsLine.offset`).
-/

namespace StackStep.Columns

/-! ### Cutting -/

/-- Text that is laid out as it stands: it is valid and holds none of the marks. -/
structure Plain (text : Bytes) : Prop where
  valid : Utf8.valid text
  unmarked : 9 ∉ text ∧ 10 ∉ text ∧ 11 ∉ text ∧ 12 ∉ text

instance (text : Bytes) : Decidable (Plain text) :=
  decidable_of_iff (Utf8.valid text ∧ 9 ∉ text ∧ 10 ∉ text ∧ 11 ∉ text ∧ 12 ∉ text)
    ⟨fun h => ⟨h.1, h.2⟩, fun h => ⟨h.valid, h.unmarked⟩⟩

theorem escape_not_mem_encode (c : Char) : escape ∉ Utf8.encode c := by
  have hmax := Utf8.toNat_lt c
  rw [Utf8.encode_eq]
  split_ifs <;>
    simp only [escape, List.mem_cons, List.not_mem_nil, or_false, ← UInt8.toNat_inj,
      UInt8.toNat_ofNat', UInt8.reduceToNat] <;>
    omega

/-- No stretch of plain text is escaped: the byte that would open one is never valid. -/
theorem Plain.escape_not_mem {text : Bytes} (h : Plain text) : escape ∉ text := by
  obtain ⟨cs, rfl⟩ := Utf8.exists_chars h.valid
  intro hmem
  obtain ⟨c, -, hc⟩ := List.mem_flatMap.mp hmem
  exact escape_not_mem_encode c hc

/-- Where nothing is escaped and there is one mark, the text is split at it. -/
theorem cut_eq_split {mark : UInt8 → Bool} {sep : UInt8} {text : Bytes} (hescape : escape ∉ text)
    (hmark : ∀ b ∈ text, mark b = (b == sep)) : cut mark false text = Bytes.split sep text := by
  induction text with
  | nil => rfl
  | cons b rest ih =>
      have hb : b ≠ escape := (List.ne_of_not_mem_cons hescape).symm
      have hrest := ih (List.not_mem_of_not_mem_cons hescape)
        fun c hc => hmark c (List.mem_cons_of_mem b hc)
      obtain ⟨part, parts, hsplit⟩ := List.exists_cons_of_ne_nil (Bytes.split_ne_nil sep rest)
      rw [cut, Bytes.split, hmark b List.mem_cons_self, if_neg hb, hrest, hsplit]
      simp

/-! ### Groups -/

section Groups

variable {α : Type} {p : α → Bool}

theorem head?_groups (l : List α) : ∀ group ∈ (groups p l).head?, group.head? = l.head? := by
  cases l with
  | nil => simp [groups]
  | cons a rest =>
      unfold groups
      split
      · simp
      · split <;> simp

/-- Neighbours that share a group, up to the first that does not. -/
theorem groups_append {block rest : List α} (hne : block ≠ []) (hblock : ∀ a ∈ block, p a)
    (hrest : ∀ a ∈ rest.head?, p a = false) :
    groups p (block ++ rest) = block :: groups p rest := by
  induction block with
  | nil => exact absurd rfl hne
  | cons a block ih =>
      have ha := hblock a List.mem_cons_self
      cases block with
      | nil =>
          have hhead := head?_groups (p := p) rest
          rw [List.singleton_append, groups]
          split
          · next hnil => rw [hnil]
          · next group more hgroups =>
              rw [hgroups] at hhead ⊢
              have hgroup : group.head?.any p = false := by
                rw [hhead group rfl]
                cases rest with
                | nil => rfl
                | cons b rest => exact hrest b rfl
              rw [hgroup, Bool.and_false]
              rfl
      | cons b block =>
          have hb := hblock b (List.mem_cons_of_mem a List.mem_cons_self)
          have hgroups := ih (List.cons_ne_nil b block)
            fun c hc => hblock c (List.mem_cons_of_mem a hc)
          rw [List.cons_append, groups, hgroups]
          simp [ha, hb]

theorem groups_eq_singleton {block : List α} (hne : block ≠ []) (hblock : ∀ a ∈ block, p a) :
    groups p block = [block] := by
  have hgroups : groups p (block ++ []) = block :: groups p [] :=
    groups_append hne hblock (by simp)
  rwa [List.append_nil] at hgroups

theorem groups_of_not {l : List α} (h : ∀ a ∈ l, p a = false) : groups p l = l.map ([·]) := by
  induction l with
  | nil => rfl
  | cons a rest ih =>
      rw [groups, ih fun b hb => h b (List.mem_cons_of_mem a hb)]
      cases rest with
      | nil => rfl
      | cons b rest => simp [h a List.mem_cons_self]

end Groups

/-! ### Lines and widths -/

/-- A line of a table: every cell but the last is followed by as many spaces as it is short of
the width of its column. -/
inductive IsLine : (widths : List Nat) → (row : List Bytes) → (line : Bytes) → Prop where
  | last (cell : Bytes) : IsLine [] [cell] cell
  | padded {w spaces : Nat} {widths : List Nat} {cell line : Bytes} {row : List Bytes}
      (hw : Utf8.count cell + spaces = w) (rest : IsLine widths row line) :
      IsLine (w :: widths) (cell :: row) (cell ++ List.replicate spaces 32 ++ line)

structure IsWidth (rows : List (List Bytes)) (column w : Nat) : Prop where
  reached : ∃ row ∈ rows, Utf8.count (row.getD column []) + 2 = w
  bound : ∀ row ∈ rows, Utf8.count (row.getD column []) + 2 ≤ w

structure IsTable (rows : List (List Bytes)) (widths : List Nat) (lines : List Bytes) : Prop where
  width : ∀ column w, widths[column]? = some w → IsWidth rows column w
  line : List.Forall₂ (IsLine widths) rows lines

section Lines

variable {widths : List Nat} {row : List Bytes} {line : Bytes}

theorem pieces_spaces (n : Nat) :
    Utf8.pieces (List.replicate n 32) = List.replicate n (.char ' ') := by
  have hascii : ∀ b ∈ List.replicate n (32 : UInt8), b < 0x80 := by
    intro b hb
    rw [List.eq_of_mem_replicate hb]
    decide
  rw [Utf8.pieces_ascii hascii, List.map_replicate]
  rfl

theorem valid_spaces (n : Nat) : Utf8.valid (List.replicate n 32) := by
  rw [Utf8.valid, pieces_spaces, List.all_eq_true]
  intro piece hpiece
  rw [List.eq_of_mem_replicate hpiece]

theorem count_spaces (n : Nat) : Utf8.count (List.replicate n 32) = n := by
  rw [Utf8.count, pieces_spaces, List.length_replicate]

/-- Each cell of a line begins behind the columns before it, counted in characters. -/
theorem IsLine.offset (h : IsLine widths row line) (hvalid : ∀ cell ∈ row, Utf8.valid cell)
    {column : Nat} {cell : Bytes} (hcell : row[column]? = some cell) :
    ∃ before after, line = before ++ cell ++ after ∧ Utf8.valid before ∧
      Utf8.count before = (widths.take column).sum := by
  induction h generalizing column with
  | last last =>
      obtain ⟨hcolumn, rfl⟩ := List.getElem?_eq_some_iff.mp hcell
      obtain rfl : column = 0 := Nat.lt_one_iff.mp hcolumn
      exact ⟨[], [], by simp, rfl, rfl⟩
  | @padded w spaces widths first line row hw rest ih =>
      have hfirst := hvalid first List.mem_cons_self
      cases column with
      | zero =>
          cases hcell
          exact ⟨[], List.replicate spaces 32 ++ line, by simp, rfl, rfl⟩
      | succ column =>
          obtain ⟨before, after, rfl, hbefore, hcount⟩ :=
            ih (fun c hc => hvalid c (List.mem_cons_of_mem first hc)) hcell
          have hpadded := Utf8.valid_append hfirst (valid_spaces spaces)
          refine ⟨first ++ List.replicate spaces 32 ++ before, after, by simp,
            Utf8.valid_append hpadded hbefore, ?_⟩
          rw [Utf8.count_append hpadded, Utf8.count_append hfirst, count_spaces, hw, hcount,
            List.take_succ_cons, List.sum_cons]

theorem IsLine.not_mem (h : IsLine widths row line) {b : UInt8} (hb : b ≠ 32)
    (hrow : ∀ cell ∈ row, b ∉ cell) : b ∉ line := by
  induction h with
  | last cell => exact hrow cell List.mem_cons_self
  | padded hw rest ih =>
      rw [List.forall_mem_cons] at hrow
      simp only [List.mem_append, List.mem_replicate, not_or]
      exact ⟨⟨hrow.1, fun hspace => hb hspace.2⟩, ih hrow.2⟩

variable {rows : List (List Bytes)} {lines : List Bytes}

theorem IsTable.not_mem (h : IsTable rows widths lines) {b : UInt8} (hb : b ≠ 32)
    (hrows : ∀ row ∈ rows, ∀ cell ∈ row, b ∉ cell) : ∀ line ∈ lines, b ∉ line := by
  have hlines := h.line
  clear h
  induction hlines with
  | nil => simp
  | cons hline _ ih =>
      rw [List.forall_mem_cons] at hrows ⊢
      exact ⟨hline.not_mem hb hrows.1, ih hrows.2⟩

end Lines

/-! ### Layout of rows -/

section Rows

variable {rows : List (List Bytes)} {columns : Nat}

theorem width_eq_count {cell : Bytes} (h : escape ∉ cell) : width cell = Utf8.count cell := by
  rw [width, List.count_eq_zero_of_not_mem h]
  rfl

/-- The first column is as wide as it has to be. -/
theorem isWidth_columnWidth (hne : rows ≠ []) (hescape : ∀ row ∈ rows, escape ∉ row.headD []) :
    IsWidth rows 0 (columnWidth rows) := by
  have hwidths : rows.map (fun row => width (row.headD [])) =
      rows.map fun row => Utf8.count (row.getD 0 []) := by
    refine List.map_congr_left fun row hrow => ?_
    rw [width_eq_count (hescape row hrow)]
    cases row <;> rfl
  obtain ⟨m, hm⟩ : ∃ m, (rows.map fun row => Utf8.count (row.getD 0 [])).max? = some m :=
    Option.isSome_iff_exists.mp (List.isSome_max?_iff.mpr (mt List.map_eq_nil_iff.mp hne))
  obtain ⟨hmem, hle⟩ := List.max?_eq_some_iff.mp hm
  rw [columnWidth, hwidths, List.foldl_max, hm, Option.getD_some, Nat.zero_max]
  constructor
  · obtain ⟨row, hrow, rfl⟩ := List.mem_map.mp hmem
    exact ⟨row, hrow, rfl⟩
  · intro row hrow
    exact Nat.add_le_add_right (hle _ (List.mem_map_of_mem hrow)) 2

theorem IsWidth.of_tail {column w : Nat} (h : IsWidth (rows.map List.tail) column w) :
    IsWidth rows (column + 1) w := by
  have hcell (row : List Bytes) : row.tail.getD column [] = row.getD (column + 1) [] := by
    rw [List.getD_eq_getElem?_getD, List.getElem?_tail, List.getD_eq_getElem?_getD]
  obtain ⟨⟨_, htail, hreached⟩, hbound⟩ := h
  obtain ⟨row, hrow, rfl⟩ := List.mem_map.mp htail
  constructor
  · exact ⟨row, hrow, by rw [← hcell, hreached]⟩
  · intro row hrow
    rw [← hcell]
    exact hbound row.tail (List.mem_map_of_mem hrow)

theorem hasColumn_of_length {n : Nat} (h : ∀ row ∈ rows, row.length = n + 2) :
    ∀ row ∈ rows, hasColumn row := by
  intro row hrow
  simp [hasColumn, h row hrow]

/-- Rows that have no column left. -/
theorem align_of_single (h : ∀ row ∈ rows, row.length = 1) :
    align columns rows = rows.map List.flatten := by
  cases columns with
  | zero => rfl
  | succ columns =>
      have hlast : ∀ row ∈ rows, hasColumn row = false := by
        intro row hrow
        simp [hasColumn, h row hrow]
      rw [align, groups_of_not hlast, List.flatMap_map]
      induction rows with
      | nil => rfl
      | cons row rows ih =>
          rw [List.forall_mem_cons] at h hlast
          rw [List.flatMap_cons, ih h.2 hlast.2]
          simp [hlast.1]

/-- Rows that all have a column share it, and what stands behind it is laid out on its own. -/
theorem align_of_hasColumn (hne : rows ≠ []) (h : ∀ row ∈ rows, hasColumn row) :
    align (columns + 1) rows =
      List.zipWith (fun row line => pad (columnWidth rows) (row.headD []) ++ line) rows
        (align columns (rows.map List.tail)) := by
  obtain ⟨first, rest, rfl⟩ := List.exists_cons_of_ne_nil hne
  rw [align, groups_eq_singleton hne h]
  simp [h first List.mem_cons_self]

/-- A column ends at the first line that has no cell in it. -/
theorem align_append {below : List (List Bytes)} (hne : rows ≠ []) (h : ∀ row ∈ rows, hasColumn row)
    (hbelow : ∀ line ∈ below.head?, hasColumn line = false) :
    align (columns + 1) (rows ++ below) =
      align (columns + 1) rows ++ align (columns + 1) below := by
  rw [align, align, align, groups_append hne h hbelow, groups_eq_singleton hne h]
  simp

theorem forall₂_zipWith {α β γ : Type} {R : α → β → Prop} {S : α → γ → Prop} {f : α → β → γ}
    {as : List α} {bs : List β} (h : List.Forall₂ R as bs)
    (hf : ∀ a ∈ as, ∀ b, R a b → S a (f a b)) : List.Forall₂ S as (List.zipWith f as bs) := by
  induction h with
  | nil => exact .nil
  | cons hab _ ih =>
      rw [List.forall_mem_cons] at hf
      exact .cons (hf.1 _ hab) (ih hf.2)

/-- A line that is the first cell, padded, and a line of the cells behind it. -/
theorem isLine_pad {w : Nat} {widths : List Nat} {row : List Bytes} {line : Bytes}
    (hrow : row ≠ []) (hescape : escape ∉ row.headD [])
    (hw : Utf8.count (row.getD 0 []) ≤ w) (h : IsLine widths row.tail line) :
    IsLine (w :: widths) row (pad w (row.headD []) ++ line) := by
  obtain ⟨cell, rest, rfl⟩ := List.exists_cons_of_ne_nil hrow
  have hcount : Utf8.count cell ≤ w := hw
  rw [pad, width_eq_count hescape]
  exact .padded (by rw [List.headD_cons]; omega) h

/-- Rows of equally many cells are laid out as a table. The induction is on the columns, and
what is left of the rows behind the first column is a table again. -/
theorem exists_isTable {n : Nat} (hne : rows ≠ []) (hlength : ∀ row ∈ rows, row.length = n + 1)
    (hescape : ∀ row ∈ rows, ∀ cell ∈ row, escape ∉ cell) (hcolumns : n ≤ columns) :
    ∃ widths, widths.length = n ∧ IsTable rows widths (align columns rows) := by
  induction n generalizing rows columns with
  | zero =>
      refine ⟨[], rfl, by simp, ?_⟩
      rw [align_of_single hlength, List.forall₂_map_right_iff, List.forall₂_same]
      intro row hrow
      obtain ⟨cell, rfl⟩ := List.length_eq_one_iff.mp (hlength row hrow)
      simpa using IsLine.last cell
  | succ n ih =>
      obtain ⟨columns, rfl⟩ := Nat.exists_eq_add_of_le' (Nat.le_of_add_left_le hcolumns)
      have hcons : ∀ row ∈ rows, row ≠ [] := by
        rintro row hrow rfl
        exact absurd (hlength [] hrow) (by simp)
      have hfirst : ∀ row ∈ rows, escape ∉ row.headD [] := by
        intro row hrow
        obtain ⟨cell, rest, rfl⟩ := List.exists_cons_of_ne_nil (hcons row hrow)
        exact hescape _ hrow cell List.mem_cons_self
      have htails : ∀ row ∈ rows.map List.tail, row.length = n + 1 := by
        rw [List.forall_mem_map]
        intro row hrow
        rw [List.length_tail, hlength row hrow, Nat.add_sub_cancel]
      have htailsEscape : ∀ row ∈ rows.map List.tail, ∀ cell ∈ row, escape ∉ cell := by
        rw [List.forall_mem_map]
        intro row hrow cell hcell
        exact hescape row hrow cell (List.mem_of_mem_tail hcell)
      obtain ⟨widths, hwidths, htable⟩ :=
        ih (mt List.map_eq_nil_iff.mp hne) htails htailsEscape (Nat.le_of_succ_le_succ hcolumns)
      have hwidth := isWidth_columnWidth hne hfirst
      refine ⟨columnWidth rows :: widths, by rw [List.length_cons, hwidths], ?_, ?_⟩
      · intro column w hw
        cases column with
        | zero =>
            cases hw
            exact hwidth
        | succ column => exact (htable.width column w hw).of_tail
      · rw [align_of_hasColumn hne (hasColumn_of_length hlength)]
        refine forall₂_zipWith (List.forall₂_map_left_iff.mp htable.line) ?_
        intro row hrow line hline
        exact isLine_pad (hcons row hrow) (hfirst row hrow)
          (Nat.le_of_add_right_le (hwidth.bound row hrow)) hline

/-! ### Layout of a text -/

theorem length_le_maxCells {row : List Bytes} (h : row ∈ rows) : row.length ≤ maxCells rows := by
  rw [maxCells, List.foldl_max, Nat.zero_max]
  exact List.le_max?_getD_of_mem (List.mem_map_of_mem h)

/-- A table followed by the blank line behind its last line break. -/
theorem alignAll_concat_blank {n : Nat} (hne : rows ≠ [])
    (hlength : ∀ row ∈ rows, row.length = n + 2)
    (hescape : ∀ row ∈ rows, ∀ cell ∈ row, escape ∉ cell) :
    ∃ widths lines, widths.length = n + 1 ∧ IsTable rows widths lines ∧
      alignAll (rows ++ [[[]]]) = lines ++ [[]] := by
  obtain ⟨first, hfirst⟩ := List.exists_mem_of_ne_nil rows hne
  have hmax : n + 2 ≤ maxCells (rows ++ [[[]]]) := by
    rw [← hlength first hfirst]
    exact length_le_maxCells (List.mem_append_left _ hfirst)
  obtain ⟨columns, hcolumns⟩ : ∃ columns, maxCells (rows ++ [[[]]]) = columns + 1 :=
    Nat.exists_eq_add_of_le' (by omega)
  have hblank : align (columns + 1) [[[]]] = [[]] := align_of_single (by simp)
  obtain ⟨widths, hwidths, htable⟩ :=
    exists_isTable hne hlength hescape (show n + 1 ≤ columns + 1 by omega)
  refine ⟨widths, _, hwidths, htable, ?_⟩
  rw [alignAll, hcolumns, align_append hne (hasColumn_of_length hlength) (by simp [hasColumn]),
    hblank]

/-- The text of rows, with tabs between the cells and a line break behind each row. -/
def ofRows (rows : List (List Bytes)) : Bytes :=
  rows.flatMap fun row => Bytes.join [9] row ++ [10]

theorem not_mem_ofRows {b : UInt8} (hb : b ≠ 9 ∧ b ≠ 10)
    (h : ∀ row ∈ rows, ∀ cell ∈ row, b ∉ cell) : b ∉ ofRows rows := by
  simp only [ofRows, List.mem_flatMap, List.mem_append, List.mem_singleton, not_exists, not_and,
    not_or]
  intro row hrow
  exact ⟨Bytes.not_mem_join (by simpa using hb.1) (h row hrow), hb.2⟩

theorem lines_ofRows (hplain : ∀ row ∈ rows, ∀ cell ∈ row, Plain cell) :
    lines (ofRows rows) = rows.map (Bytes.join [9]) ++ [[]] := by
  have hescape : escape ∉ ofRows rows := not_mem_ofRows (by decide)
    fun row hrow cell hcell => (hplain row hrow cell hcell).escape_not_mem
  have htext : ofRows rows = Bytes.join [10] (rows.map (Bytes.join [9]) ++ [[]]) := by
    rw [Bytes.join_concat_nil, List.flatMap_map, ofRows]
  rw [lines, cut_eq_split hescape fun _ _ => rfl, htext]
  refine Bytes.split_join (by simp) ?_
  intro line hline
  rcases List.mem_append.mp hline with hline | hline
  · obtain ⟨row, hrow, rfl⟩ := List.mem_map.mp hline
    exact Bytes.not_mem_join (by decide) fun cell hcell => (hplain row hrow cell hcell).unmarked.2.1
  · rw [List.mem_singleton.mp hline]
    exact List.not_mem_nil

theorem cells_join {row : List Bytes} (hne : row ≠ []) (hplain : ∀ cell ∈ row, Plain cell) :
    cells (Bytes.join [9] row) = row := by
  have hescape : escape ∉ Bytes.join [9] row :=
    Bytes.not_mem_join (by decide) fun cell hcell => (hplain cell hcell).escape_not_mem
  have hvertical : 11 ∉ Bytes.join [9] row :=
    Bytes.not_mem_join (by decide) fun cell hcell => (hplain cell hcell).unmarked.2.2.1
  have hmark : ∀ b ∈ Bytes.join [9] row, isCellEnd b = (b == 9) := by
    intro b hb
    have hne : b ≠ 11 := ne_of_mem_of_not_mem hb hvertical
    simp [isCellEnd, hne]
  rw [cells, cut_eq_split hescape hmark]
  exact Bytes.split_join hne fun cell hcell => (hplain cell hcell).unmarked.1

/-- The text of rows of equally many cells is laid out as a table of these rows. -/
theorem layout_ofRows {n : Nat} (hne : rows ≠ []) (hlength : ∀ row ∈ rows, row.length = n + 2)
    (hplain : ∀ row ∈ rows, ∀ cell ∈ row, Plain cell) :
    ∃ widths lines, widths.length = n + 1 ∧ IsTable rows widths lines ∧
      layout (ofRows rows) = lines.flatMap (· ++ [10]) := by
  have hescape : ∀ row ∈ rows, ∀ cell ∈ row, escape ∉ cell :=
    fun row hrow cell hcell => (hplain row hrow cell hcell).escape_not_mem
  have hparts : parts (ofRows rows) = [ofRows rows] := by
    have hfeed : 12 ∉ ofRows rows := not_mem_ofRows (by decide)
      fun row hrow cell hcell => (hplain row hrow cell hcell).unmarked.2.2.2
    rw [parts, cut_eq_split (not_mem_ofRows (by decide) hescape) fun _ _ => rfl,
      Bytes.split_of_not_mem hfeed]
  have hcells : (lines (ofRows rows)).map cells = rows ++ [[[]]] := by
    rw [lines_ofRows hplain, List.map_append, List.map_map]
    congr 1
    refine (List.map_congr_left ?_).trans (List.map_id rows)
    intro row hrow
    refine cells_join ?_ (hplain row hrow)
    rintro rfl
    exact absurd (hlength [] hrow) (by simp)
  obtain ⟨widths, lines, hwidths, htable, halign⟩ := alignAll_concat_blank hne hlength hescape
  refine ⟨widths, lines, hwidths, htable, ?_⟩
  rw [layout, hparts, List.flatMap_singleton, hcells, halign]
  exact Bytes.join_concat_nil [10] lines

end Rows

end StackStep.Columns
