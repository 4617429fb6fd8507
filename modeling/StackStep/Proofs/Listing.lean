import StackStep.Listing
import StackStep.Proofs.Registry
import StackStep.Proofs.Text.Columns
import StackStep.Proofs.Text.Numeral

/-!
The listing of a registry as a table.

What is listed is written as rows of five cells, and the layout pads the first four. The
names, the meanings of the arguments and the documentation come from whoever made the
registry. As long as they hold nothing that the layout takes for a mark, the listing is
the table of these rows, with columns as wide as the longest entry in them.
-/

namespace StackStep.Listing

open Columns (Plain IsTable)

theorem plain_of_graphic {text : Bytes} (h : ∀ b ∈ text, 33 ≤ b ∧ b < 0x80) : Plain text := by
  have hmark {b : UInt8} (hb : b < 33) : b ∉ text := by
    intro hmem
    exact absurd (h b hmem).1 (UInt8.not_le.mpr hb)
  refine ⟨?_, hmark (by decide), hmark (by decide), hmark (by decide), hmark (by decide)⟩
  rw [Utf8.valid, Utf8.pieces_ascii fun b hb => (h b hb).2]
  simp

theorem plain_effect (n : Int) : Plain (OpcodeInfo.effect n) := by
  unfold OpcodeInfo.effect
  split
  · decide
  · exact plain_of_graphic (Bytes.graphic_of_mem_ofInt n)

theorem plain_cells {info : OpcodeInfo} (hname : Plain info.name) (harg : Plain info.arg)
    (hdoc : Plain info.doc) : ∀ cell ∈ cells info, Plain cell := by
  simp only [cells, List.forall_mem_cons]
  exact ⟨hname, plain_effect info.pops, plain_effect info.pushes, harg, hdoc, by simp⟩

theorem table_eq (infos : List OpcodeInfo) :
    table infos = Columns.layout (Columns.ofRows (header :: infos.map cells)) := by
  rw [table, Columns.ofRows, List.flatMap_cons, List.flatMap_map]
  rfl

theorem map_info?_names (r : Registry) :
    r.names.map r.info? = (r.entries.map Entry.info).map some := by
  rw [Registry.names, List.map_map, List.map_map]
  refine List.map_congr_left fun e he => ?_
  rw [Function.comp_apply, Registry.info?, Registry.find?_name he]
  rfl

theorem list_text (r : Registry) {format : Bytes}
    (h : format = [] ∨ format = Bytes.ofString "text") :
    list r format = .ok (table (r.entries.map Entry.info)) := by
  rw [list, Format.ofName?, if_pos h]
  rfl

/-- The listing as text is a heading and a line for each instruction, in the order of their
registration. The first four cells are padded with spaces to the widths of their columns,
the last is not, and the cells of a column begin in the same place on every line. -/
theorem listing_is_table (r : Registry) (format : Bytes)
    (hformat : format = [] ∨ format = Bytes.ofString "text")
    (hplain : ∀ e ∈ r.entries, Plain e.info.name ∧ Plain e.info.arg ∧ Plain e.info.doc) :
    ∃ (infos : List OpcodeInfo) (widths : List Nat) (lines : List Bytes),
      r.names.map r.info? = infos.map some ∧
      let rows := (["NAME", "POP", "PUSH", "ARG", "DOC"] : List Bytes) ::
        infos.map fun info =>
          [info.name, if info.pops < 0 then "n" else Bytes.ofInt info.pops,
            if info.pushes < 0 then "n" else Bytes.ofInt info.pushes, info.arg, info.doc]
      list r format = .ok (lines.flatMap (· ++ [10])) ∧
      lines.length = r.names.length + 1 ∧
      (∀ line ∈ lines, 10 ∉ line) ∧
      widths.length = 4 ∧
      IsTable rows widths lines ∧
      ∀ row line, (row, line) ∈ rows.zip lines → ∀ column cell, row[column]? = some cell →
        ∃ before after, line = before ++ cell ++ after ∧
          Utf8.count before = (widths.take column).sum := by
  let rows := header :: (r.entries.map Entry.info).map cells
  have hlength : ∀ row ∈ rows, row.length = 5 := by
    simp [rows, header, cells]
  have hcells : ∀ row ∈ rows, ∀ cell ∈ row, Plain cell := by
    simp only [rows, List.forall_mem_cons, List.forall_mem_map]
    refine ⟨by decide, fun e he => ?_⟩
    obtain ⟨hname, harg, hdoc⟩ := hplain e he
    exact plain_cells hname harg hdoc
  obtain ⟨widths, lines, hwidths, htable, hlayout⟩ :=
    Columns.layout_ofRows (List.cons_ne_nil _ _) hlength hcells
  refine ⟨r.entries.map Entry.info, widths, lines, map_info?_names r, ?_, ?_, ?_, hwidths,
    htable, ?_⟩
  · rw [list_text r hformat, table_eq, hlayout]
  · rw [← htable.line.length_eq]
    simp [Registry.names]
  · exact htable.not_mem (by decide) fun row hrow cell hcell =>
      (hcells row hrow cell hcell).unmarked.2.1
  · intro row line hmem column cell hcell
    have hline := (List.forall₂_iff_zip.mp htable.line).2 hmem
    obtain ⟨before, after, heq, -, hcount⟩ := hline.offset
      (fun c hc => (hcells row (List.of_mem_zip hmem).1 c hc).valid) hcell
    exact ⟨before, after, heq, hcount⟩

/-- A name of five characters and ten bytes, above one that is shorter than the heading. -/
theorem listing_is_table_accented :
    let wide : OpcodeInfo := ⟨"ÄÖÜÄÖ", -1, 0, [], "ß"⟩
    let narrow : OpcodeInfo := ⟨"B", 1, 12, "x", []⟩
    ∃ r : Registry, r.entries.map Entry.info = [wide, narrow] ∧
      ∃ (widths : List Nat) (lines : List Bytes),
        list r "text" = .ok (lines.flatMap (· ++ [10])) ∧ lines.length = 3 ∧
        widths.length = 4 ∧ widths.head? = some 7 := by
  intro wide narrow
  let handler : Handler := fun _ st => .done st
  let r : Registry := ⟨[⟨wide, handler⟩, ⟨narrow, handler⟩], by decide, by decide⟩
  have hplain : ∀ e ∈ r.entries, Plain e.info.name ∧ Plain e.info.arg ∧ Plain e.info.doc := by
    decide +kernel
  obtain ⟨infos, widths, lines, hinfos, hlist, hlines, -, hwidths, htable, -⟩ :=
    listing_is_table r "text" (.inr rfl) hplain
  have hboth : infos.map some = [wide, narrow].map some := hinfos.symm.trans (by decide)
  obtain rfl : infos = [wide, narrow] := (List.map_inj_right fun _ _ => Option.some.inj).mp hboth
  refine ⟨r, rfl, widths, lines, hlist, hlines, hwidths, ?_⟩
  obtain ⟨w, rest, rfl⟩ := List.exists_cons_of_length_eq_add_one hwidths
  obtain ⟨⟨row, hrow, hreached⟩, hbound⟩ := htable.width 0 w rfl
  have hcounts : (header :: [wide, narrow].map cells).map
      (fun row => Utf8.count (row.getD 0 []) + 2) = [6, 7, 3] := by decide +kernel
  have hmem : w ∈ [6, 7, 3] := hcounts ▸ List.mem_map.mpr ⟨row, hrow, hreached⟩
  have hle : ∀ n ∈ [6, 7, 3], n ≤ w := by
    rw [← hcounts, List.forall_mem_map]
    exact hbound
  have hseven := hle 7 (by decide)
  simp only [List.mem_cons, List.not_mem_nil, or_false] at hmem
  rw [List.head?_cons, Option.some_inj]
  omega

end StackStep.Listing
