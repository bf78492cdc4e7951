import Mathlib.Algebra.BigOperators.Group.List.Lemmas
import Mathlib.Data.List.DropRight
import Mathlib.Order.Bounds.Basic
import Tariff.Proofs.Report.Color

/-!
# Columns are aligned

Every column of a table starts at one place in all lines, and is as wide as the longest cell in it.
Only blanks at the end of a line are left out.

* `columnLengths`, `isGreatest_widths`: a column is as wide as its longest cell.
* `columnStart`: where a column starts. `LaidOut`: a text in which each cell stands where its column
  starts, with blanks behind it up to the next column.
* `Shows`: a line is such a text without the blanks at its end. `shows_rowText`: so are the lines of
  a table.
* `Shows.keepsCells`: of each cell, no more is left out than blanks at the end of the line.
* `tables_are_aligned`: what it comes to for all lines of a table.
-/

namespace Tariff.Report

open Text

variable {header row : List String} {rows : List (List String)} {sizes : List ℕ} {line : String}

/-! ## Widths -/

/-- The lengths of the cells in the column at `j`. -/
def columnLengths (table : List (List String)) (j : ℕ) : Set ℕ :=
  {n | ∃ row ∈ table, row[j]?.map String.length = some n}

theorem columnLengths_append (table more : List (List String)) (j : ℕ) :
    columnLengths (table ++ more) j = columnLengths table j ∪ columnLengths more j := by
  ext n
  simp only [columnLengths, List.mem_append, Set.mem_ofPred_eq, Set.mem_union, or_and_right,
    exists_or]

theorem columnLengths_singleton {j : ℕ} {cell : String} (h : row[j]? = some cell) :
    columnLengths [row] j = {cell.length} := by
  ext n
  simp [columnLengths, h, eq_comm]

/-- One more row widens the columns to its cells. -/
theorem widths_concat (header : List String) (rows : List (List String)) (row : List String) :
    widths header (rows ++ [row]) =
      List.zipWith max (widths header rows) (row.map String.length) := by
  unfold widths
  rw [List.foldl_append]
  rfl

/-- Each column is as wide as the longest cell in it, the header included. -/
theorem isGreatest_widths (h : ∀ row ∈ rows, row.length = header.length) {j : ℕ}
    (hj : j < header.length) :
    ∃ width, (widths header rows)[j]? = some width ∧
      IsGreatest (columnLengths (header :: rows) j) width := by
  induction rows using List.reverseRecOn with
  | nil =>
    refine ⟨header[j].length, ?_, ?_⟩
    · simp [widths, hj]
    · rw [columnLengths_singleton (List.getElem?_eq_getElem hj)]
      exact isGreatest_singleton
  | append_singleton rows row ih =>
    rw [List.forall_mem_append, List.forall_mem_singleton] at h
    obtain ⟨width, hwidth, hgreatest⟩ := ih h.1
    have hcell : row[j]? = some row[j] := List.getElem?_eq_getElem (h.2 ▸ hj)
    refine ⟨max width row[j].length, ?_, ?_⟩
    · rw [widths_concat, List.getElem?_zipWith, hwidth, List.getElem?_map, hcell]
      rfl
    · rw [← List.cons_append, columnLengths_append, columnLengths_singleton hcell]
      exact hgreatest.union isGreatest_singleton

theorem length_widths (h : ∀ row ∈ rows, row.length = header.length) :
    (widths header rows).length = header.length := by
  induction rows using List.reverseRecOn with
  | nil => simp [widths]
  | append_singleton rows row ih =>
    rw [List.forall_mem_append, List.forall_mem_singleton] at h
    rw [widths_concat, List.length_zipWith, ih h.1, List.length_map, h.2, min_self]

/-- Each cell of the row has a column that is wide enough for it. -/
def Fits (row : List String) (sizes : List ℕ) : Prop :=
  List.Forall₂ (fun cell width => cell.length ≤ width) row sizes

theorem fits_widths (h : ∀ row ∈ rows, row.length = header.length) (hrow : row ∈ header :: rows) :
    Fits row (widths header rows) := by
  have hlength : row.length = header.length := by
    rcases List.mem_cons.mp hrow with rfl | hrow
    · rfl
    · exact h row hrow
  refine List.forall₂_iff_get.mpr ⟨hlength.trans (length_widths h).symm, fun j hj hj' => ?_⟩
  obtain ⟨width, hwidth, hgreatest⟩ := isGreatest_widths h (hlength ▸ hj)
  have hlongest : row[j].length ≤ width := hgreatest.2 ⟨row, hrow, by simp [hj]⟩
  rw [List.getElem?_eq_getElem hj', Option.some.injEq] at hwidth
  rw [List.get_eq_getElem, List.get_eq_getElem, hwidth]
  exact hlongest

/-! ## Texts at full length -/

/-- Where the column at `j` starts: behind the indent and the columns in front of it, each with two
blanks behind it. -/
def columnStart (sizes : List ℕ) (j : ℕ) : ℕ :=
  2 + ((sizes.take j).map (· + 2)).sum

/-- What stands from the start of the column at `j` up to the start of the next one. -/
def stretch (sizes : List ℕ) (j : ℕ) (text : List Char) : List Char :=
  (text.take (columnStart sizes (j + 1))).drop (columnStart sizes j)

/-- Behind an indent, each cell starts where its column does and has blanks behind it up to the next
column. -/
structure LaidOut (sizes : List ℕ) (row : List String) (text : List Char) : Prop where
  indent : text.take 2 = [' ', ' ']
  length : text.length = columnStart sizes row.length
  cell : ∀ j cell width, row[j]? = some cell → sizes[j]? = some width →
    stretch sizes j text = cell.toList ++ List.replicate (width + 2 - cell.length) ' '

theorem LaidOut.exists_stretch_eq {text : List Char} (hlaid : LaidOut sizes row text)
    (hfits : Fits row sizes) {j : ℕ} {cell : String} (hcell : row[j]? = some cell) :
    ∃ blanks, stretch sizes j text = cell.toList ++ List.replicate blanks ' ' := by
  obtain ⟨hj, -⟩ := List.getElem?_eq_some_iff.mp hcell
  exact ⟨_, hlaid.cell j cell _ hcell (List.getElem?_eq_getElem (hfits.length_eq ▸ hj))⟩

theorem toList_gap : gap.toList = List.replicate 2 ' ' := rfl

/-- The cells of a row, each with the blanks up to the next column. -/
def blocks (sizes : List ℕ) (row : List String) : List (List Char) :=
  (List.zipWith paddedCell row sizes).map fun cell => cell.toList ++ gap.toList

theorem getElem?_blocks {j width : ℕ} {cell : String} (hcell : row[j]? = some cell)
    (hwidth : sizes[j]? = some width) (hle : cell.length ≤ width) :
    (blocks sizes row)[j]? =
      some (cell.toList ++ List.replicate (width + 2 - cell.length) ' ') := by
  have hblanks : width + 2 - cell.length = width - cell.length + 2 := by omega
  unfold blocks
  rw [List.getElem?_map, List.getElem?_zipWith, hcell, hwidth, hblanks, List.replicate_add]
  simp [paddedCell, toList_gap]

theorem map_length_blocks (h : Fits row sizes) :
    (blocks sizes row).map List.length = sizes.map (· + 2) := by
  unfold blocks
  induction h with
  | nil => rfl
  | @cons cell width row sizes hle _ ih =>
    simp only [List.zipWith_cons_cons, List.map_cons, ih, List.length_append, String.length_toList,
      paddedCell, String.length_append, String.length_ofList, List.length_replicate]
    rw [Nat.add_sub_cancel' hle]
    rfl

theorem Fits.le {j width : ℕ} {cell : String} (h : Fits row sizes) (hcell : row[j]? = some cell)
    (hwidth : sizes[j]? = some width) : cell.length ≤ width := by
  obtain ⟨hj, rfl⟩ := List.getElem?_eq_some_iff.mp hcell
  obtain ⟨hj', rfl⟩ := List.getElem?_eq_some_iff.mp hwidth
  exact (List.forall₂_iff_get.mp h).2 j hj hj'

theorem laidOut_blocks (h : Fits row sizes) :
    LaidOut sizes row (gap.toList ++ (blocks sizes row).flatten) := by
  have hlengths := map_length_blocks h
  rw [toList_gap]
  refine ⟨rfl, ?_, fun j cell width hcell hwidth => ?_⟩
  · rw [List.length_append, List.length_flatten, hlengths, columnStart, h.length_eq,
      List.take_length]
    rfl
  · have hblock := getElem?_blocks hcell hwidth (h.le hcell hwidth)
    obtain ⟨hj, hblock⟩ := List.getElem?_eq_some_iff.mp hblock
    have hstretch := List.drop_take_succ_flatten_eq_getElem (blocks sizes row) j hj
    rw [hlengths, ← List.map_take, ← List.map_take, hblock] at hstretch
    rw [stretch, columnStart, columnStart, Nat.add_comm 2, Nat.add_comm 2]
    exact hstretch

/-! ## Lines -/

/-- The line is a text at full length without the blanks at its end; the indent stays. -/
def Shows (sizes : List ℕ) (row : List String) (line : String) : Prop :=
  ∃ text, LaidOut sizes row text ∧ line.toList = text.take 2 ++ trimRight (text.drop 2)

theorem trimRight_append {cs blanks : List Char} (h : ∀ c ∈ blanks, isBlank c = true) :
    trimRight (cs ++ blanks) = trimRight cs := by
  unfold trimRight
  rw [List.reverse_append, List.dropWhile_append_of_pos fun c hc => h c (List.mem_reverse.mp hc)]

theorem trimRight_append_replicate (cs : List Char) (count : ℕ) :
    trimRight (cs ++ List.replicate count ' ') = trimRight cs :=
  trimRight_append fun c hc => by rw [List.eq_of_mem_replicate hc]; decide

theorem intercalate_append {α : Type} (separator : List α) (parts : List (List α))
    (h : parts ≠ []) :
    separator.intercalate parts ++ separator = (parts.map (· ++ separator)).flatten := by
  induction parts with
  | nil => exact absurd rfl h
  | cons part parts ih =>
    cases parts with
    | nil => simp
    | cons next parts =>
      rw [List.intercalate_cons_cons, List.append_assoc, ih (List.cons_ne_nil _ _)]
      simp

theorem trimRight_blocks (sizes : List ℕ) (row : List String) :
    trimRight (blocks sizes row).flatten =
      trimRight (joined gap (List.zipWith paddedCell row sizes)).toList := by
  unfold blocks joined
  rw [String.toList_intercalate]
  cases hcells : List.zipWith paddedCell row sizes with
  | nil => rfl
  | cons cell cells =>
    have hflatten := intercalate_append gap.toList ((cell :: cells).map String.toList)
      (List.cons_ne_nil _ _)
    rw [List.map_map] at hflatten
    exact (congrArg trimRight hflatten).symm.trans (trimRight_append_replicate _ 2)

/-- A row becomes such a line. -/
theorem shows_rowText (h : Fits row sizes) : Shows sizes row (gap ++ rowText sizes row) := by
  refine ⟨_, laidOut_blocks h, ?_⟩
  rw [String.toList_append, rowText, trimmedRight, String.toList_ofList, ← trimRight_blocks]
  rfl

/-- Of each cell no more is left out than blanks, and this only where the line ends. -/
def KeepsCells (sizes : List ℕ) (row : List String) (line : String) : Prop :=
  ∀ j cell, row[j]? = some cell → ∃ shown lost, cell.toList = shown ++ lost ∧
    shown <+: line.toList.drop (columnStart sizes j) ∧ (∀ c ∈ lost, isBlank c = true) ∧
    (lost ≠ [] → shown = line.toList.drop (columnStart sizes j))

theorem exists_trimRight_append (cs : List Char) :
    ∃ blanks, trimRight cs ++ blanks = cs ∧ ∀ c ∈ blanks, isBlank c = true := by
  refine ⟨(cs.reverse.takeWhile isBlank).reverse, ?_, fun c hc => ?_⟩
  · unfold trimRight
    rw [← List.reverse_append, List.takeWhile_append_dropWhile, List.reverse_reverse]
  · exact List.mem_takeWhile_imp (List.mem_reverse.mp hc)

/-- Only blanks are missing from a line. -/
theorem Shows.exists_append (h : Shows sizes row line) :
    ∃ blanks, LaidOut sizes row (line.toList ++ blanks) ∧ ∀ c ∈ blanks, isBlank c = true := by
  obtain ⟨text, hlaid, hline⟩ := h
  obtain ⟨blanks, htext, hblanks⟩ := exists_trimRight_append (text.drop 2)
  refine ⟨blanks, ?_, hblanks⟩
  rwa [hline, List.append_assoc, htext, List.take_append_drop]

/-- What a line has from the start of a column on starts with its cell, but for lost blanks. -/
theorem Shows.keepsCells (hshows : Shows sizes row line) (hfits : Fits row sizes) :
    KeepsCells sizes row line := by
  intro j cell hcell
  obtain ⟨blanks, hlaid, hblanks⟩ := hshows.exists_append
  obtain ⟨count, hstretch⟩ := hlaid.exists_stretch_eq hfits hcell
  have hstart : cell.toList <+: (line.toList ++ blanks).drop (columnStart sizes j) :=
    calc cell.toList <+: stretch sizes j (line.toList ++ blanks) :=
          hstretch ▸ List.prefix_append _ _
      _ <+: (line.toList ++ blanks).drop (columnStart sizes j) :=
          (List.take_prefix _ _).drop _
  rw [List.drop_append] at hstart
  obtain ⟨rest, hrest⟩ := hstart
  rcases List.append_eq_append_iff.mp hrest with ⟨after, hafter, -⟩ | ⟨lost, hlost, htail⟩
  · exact ⟨cell.toList, [], by simp, ⟨after, hafter.symm⟩, List.forall_mem_nil _,
      fun h => absurd rfl h⟩
  · refine ⟨_, lost, hlost, List.prefix_rfl, fun c hc => hblanks c ?_, fun _ => rfl⟩
    exact List.mem_of_mem_drop (htail ▸ List.mem_append_left _ hc)

/-- In the stretch of a column a line shows the cell, but for blanks at its end. -/
theorem Shows.trimRight_stretch (hshows : Shows sizes row line) (hfits : Fits row sizes) {j : ℕ}
    {cell : String} (hcell : row[j]? = some cell) :
    trimRight (stretch sizes j line.toList) = trimRight cell.toList := by
  obtain ⟨blanks, hlaid, hblanks⟩ := hshows.exists_append
  obtain ⟨count, hstretch⟩ := hlaid.exists_stretch_eq hfits hcell
  have htrim := congrArg trimRight hstretch
  rw [stretch, List.take_append, List.drop_append,
    trimRight_append fun c hc => hblanks c (List.mem_of_mem_take (List.mem_of_mem_drop hc)),
    trimRight_append_replicate] at htrim
  exact htrim

/-! ## Tables -/

theorem text_gap_cons (span : Span) : Line.text false [plain gap, span] = gap ++ span.text := by
  simp [Line.text, chars_false, plain, String.ofList_append]

theorem map_text_columns (header : List String) (rows : List (List String)) :
    (columns header rows).map (Line.text false) =
      (header :: rows).map fun row => gap ++ rowText (widths header rows) row := by
  simp only [columns, List.map_cons, List.map_map, Function.comp_def, text_gap_cons]
  rfl

/-- Each column of a table is as wide as its longest cell, the header included. Without color a
table has one line for the header and one for each row behind it. Each is a text that has all cells
where their columns start and blanks between them, without the blanks at its end; of a cell nothing
else is left out. -/
theorem tables_are_aligned (header : List String) (rows : List (List String))
    (h : ∀ row ∈ rows, row.length = header.length) :
    (∀ j < header.length, ∃ width, (widths header rows)[j]? = some width ∧
      IsGreatest (columnLengths (header :: rows) j) width) ∧
    List.Forall₂
      (fun row line =>
        Shows (widths header rows) row line ∧ KeepsCells (widths header rows) row line)
      (header :: rows) ((columns header rows).map (Line.text false)) := by
  refine ⟨fun j hj => isGreatest_widths h hj, ?_⟩
  rw [map_text_columns, List.forall₂_map_right_iff, List.forall₂_same]
  intro row hrow
  have hfits := fits_widths h hrow
  exact ⟨shows_rowText hfits, (shows_rowText hfits).keepsCells hfits⟩

/-- Characters of several bytes, cells without any, and cells that are or end in blanks: the last
column starts at the same place in each line that gets so far, and every line loses the blanks at
its end. -/
theorem wide_cells_are_aligned :
    (∀ row ∈ [["日本語", "\u3000"], ["", "é "], ["  ", ""]], row.length = ["A", "Bb"].length) ∧
    (columns ["A", "Bb"] [["日本語", "\u3000"], ["", "é "], ["  ", ""]]).map (Line.text false) =
      ["  A    Bb", "  日本語", "       é", "  "] ∧
    widths ["A", "Bb"] [["日本語", "\u3000"], ["", "é "], ["  ", ""]] = [3, 2] ∧
    Shows [3, 2] ["", "é "] "       é" ∧ KeepsCells [3, 2] ["  ", ""] "  " := by
  have hrows : ∀ row ∈ [["日本語", "\u3000"], ["", "é "], ["  ", ""]],
      row.length = ["A", "Bb"].length := by decide
  have hlines : (columns ["A", "Bb"] [["日本語", "\u3000"], ["", "é "], ["  ", ""]]).map
      (Line.text false) = ["  A    Bb", "  日本語", "       é", "  "] := by decide +kernel
  have hwidths : widths ["A", "Bb"] [["日本語", "\u3000"], ["", "é "], ["  ", ""]] = [3, 2] := by
    decide
  obtain ⟨-, hshown⟩ := tables_are_aligned _ _ hrows
  rw [hlines, hwidths] at hshown
  simp only [List.forall₂_cons] at hshown
  obtain ⟨-, -, ⟨hshows, -⟩, ⟨-, hkeeps⟩, -⟩ := hshown
  exact ⟨hrows, hlines, hwidths, hshows, hkeeps⟩

end Tariff.Report
