import Tariff.Proofs.Pattern
import Tariff.Proofs.Report.Columns

/-!
# Ranges are told apart

Counts are shown with a comma in front of every third digit from the end, and ranges by their counts
in full. The rules of a configuration that differ in their windows differ in what the editor shows
of them.

* `filter_groupedDigits`, `exists_groups`: digits in groups, put together and taken apart again.
* `groupedText_injective`: counts are told apart.
* `pieces_rangeText`: the words of a range. `rangeText_injective`: ranges are told apart by them.
* `windowShown`: what a line of the editor shows of a window. `windowShown_editorPage`: it is the
  window of the rule.
* `windows_are_shown_apart`: what it comes to.
-/

namespace Tariff

namespace Text

variable {cs : List Char} {n : ℕ}

/-! ## Groups of digits -/

/-- Without the commas the digits are there again. -/
theorem filter_groupedDigits (h : ',' ∉ cs) : (groupedDigits cs).filter (· ≠ ',') = cs := by
  fun_induction groupedDigits cs with
  | case1 => rfl
  | case2 c cs hcomma ih =>
    obtain ⟨hc, hcs⟩ := List.ne_and_not_mem_of_not_mem_cons h
    rw [List.filter_cons_of_pos (by simpa using hc.symm), List.filter_cons_of_neg (by simp), ih hcs]
  | case3 c cs hcomma ih =>
    obtain ⟨hc, hcs⟩ := List.ne_and_not_mem_of_not_mem_cons h
    rw [List.filter_cons_of_pos (by simpa using hc.symm), ih hcs]

/-- Digits fall into groups of three with commas between them. The first group has what is left
over, or three as well. -/
theorem exists_groups (h : cs ≠ []) :
    ∃ first rest, groupedDigits cs = [','].intercalate (first :: rest) ∧
      (first :: rest).flatten = cs ∧ first.length = (cs.length - 1) % 3 + 1 ∧
      ∀ group ∈ rest, group.length = 3 := by
  fun_induction groupedDigits cs with
  | case1 => exact absurd rfl h
  | case2 c cs hcomma ih =>
    -- A whole number of groups follows, the first of them of three digits.
    obtain ⟨first, rest, hgroups, hflatten, hfirst, hrest⟩ := ih hcomma.2
    have hpos := List.length_pos_iff.mpr hcomma.2
    refine ⟨[c], first :: rest, ?_, ?_, ?_, List.forall_mem_cons.mpr ⟨by omega, hrest⟩⟩
    · rw [List.intercalate_cons_cons, ← hgroups]
      rfl
    · rw [List.flatten_cons, hflatten]
      rfl
    · simp [hcomma.1]
  | case3 c cs hcomma ih =>
    rcases eq_or_ne cs [] with rfl | hne
    · exact ⟨[c], [], rfl, rfl, rfl, List.forall_mem_nil _⟩
    · -- The digit joins the first group, which has less than three.
      obtain ⟨first, rest, hgroups, hflatten, hfirst, hrest⟩ := ih hne
      have hpos := List.length_pos_iff.mpr hne
      have hopen : cs.length % 3 ≠ 0 := fun hmod => hcomma ⟨hmod, hne⟩
      refine ⟨c :: first, rest, ?_, ?_, ?_, hrest⟩
      · rw [hgroups]
        cases rest <;> simp
      · rw [List.flatten_cons, List.cons_append, ← List.flatten_cons, hflatten]
      · rw [List.length_cons, List.length_cons]
        omega

theorem comma_notMem_digits (n : ℕ) : ',' ∉ digits n :=
  notMem_of_isDigit (by decide) fun _ => isDigit_of_mem_digits

theorem filter_grouped (n : ℕ) : (grouped n).toList.filter (· ≠ ',') = digits n := by
  rw [grouped, String.toList_ofList]
  exact filter_groupedDigits (comma_notMem_digits n)

theorem isBlank_of_mem_grouped {c : Char} (h : c ∈ (grouped n).toList) : isBlank c = false := by
  rw [grouped, String.toList_ofList] at h
  rcases mem_groupedDigits h with rfl | hdigit
  · decide
  · exact isBlank_of_isDigit (isDigit_of_mem_digits hdigit)

theorem grouped_injective {m n : ℕ} (h : grouped m = grouped n) : m = n := by
  rw [← value_digits m, ← value_digits n, ← filter_grouped, ← filter_grouped, h]

/-- A number in groups of three digits: only the first may have less, but not none. -/
def InThousands (groups : List String) : Prop :=
  ∃ first rest, groups = first :: rest ∧ 1 ≤ first.length ∧ first.length ≤ 3 ∧
    ∀ group ∈ rest, group.length = 3

theorem inThousands_pieces_grouped (n : ℕ) : InThousands (pieces ',' (grouped n)) := by
  obtain ⟨first, rest, hgroups, hflatten, hfirst, hrest⟩ := exists_groups (digits_ne_nil n)
  have hplain : ∀ group ∈ first :: rest, ',' ∉ group := fun group hgroup hcomma =>
    comma_notMem_digits n (hflatten ▸ List.mem_flatten.mpr ⟨group, hgroup, hcomma⟩)
  have hpieces : pieces ',' (grouped n) = (first :: rest).map String.ofList := by
    rw [pieces, grouped, String.toList_ofList, hgroups,
      List.splitOn_intercalate _ hplain (List.cons_ne_nil _ _)]
  refine ⟨_, _, hpieces, ?_, ?_, List.forall_mem_map.mpr fun group hgroup => ?_⟩
  · rw [String.length_ofList]
    omega
  · rw [String.length_ofList]
    omega
  · rw [String.length_ofList]
    exact hrest group hgroup

end Text

namespace Report

open Text

/-! ## Ranges -/

theorem groupedText_injective : Function.Injective groupedText := by
  intro m n h
  exact UInt64.toNat_inj.mp (grouped_injective h)

/-- The words that a range is shown with. -/
def rangeWords (range : TokenRange) : List String :=
  if range.min = 0 then
    if range.max = 0 then ["unlimited"] else ["<=", groupedText range.max]
  else
    if range.max = 0 then [">=", groupedText range.min]
    else [groupedText range.min, "-", groupedText range.max]

theorem blank_notMem_groupedText (count : UInt64) : ' ' ∉ (groupedText count).toList :=
  fun h => absurd (isBlank_of_mem_grouped h) (by decide)

theorem rangeText_eq_joined (range : TokenRange) :
    rangeText range = joined " " (rangeWords range) := by
  unfold rangeText rangeWords
  split <;> split <;> simp [joined, ← String.toList_inj]

/-- A range falls into its words again. -/
theorem pieces_rangeText (range : TokenRange) :
    pieces ' ' (rangeText range) = rangeWords range := by
  have hgrouped := blank_notMem_groupedText
  rw [rangeText_eq_joined]
  refine pieces_joined ?_ ?_
  · unfold rangeWords
    split <;> split <;> exact List.cons_ne_nil _ _
  · unfold rangeWords
    split <;> split <;> simp [hgrouped]

theorem rangeWords_injective : Function.Injective rangeWords := by
  rintro ⟨amin, amax⟩ ⟨bmin, bmax⟩ h
  unfold rangeWords at h
  dsimp only at h
  -- Ranges of different forms differ in their first word or in how many there are; those of one
  -- form have the same counts among them.
  split at h <;> split at h <;> split at h <;> split at h <;>
    simp_all [groupedText_injective.eq_iff]

theorem rangeText_injective : Function.Injective rangeText := fun a b h =>
  rangeWords_injective (by rw [← pieces_rangeText, h, pieces_rangeText])

theorem trimRight_append_groupedText (cs : List Char) (count : UInt64) :
    trimRight (cs ++ (groupedText count).toList) = cs ++ (groupedText count).toList := by
  have hne : (groupedText count).toList ≠ [] := fun hnil =>
    digits_ne_nil count.toNat (by rw [← filter_grouped, ← groupedText, hnil]; rfl)
  refine List.rdropWhile_eq_self_iff.mpr fun h => ?_
  rw [List.getLast_append_of_ne_nil h hne, isBlank_of_mem_grouped (List.getLast_mem hne)]
  exact Bool.false_ne_true

/-- A range ends with no blank. -/
theorem trimRight_rangeText (range : TokenRange) :
    trimRight (rangeText range).toList = (rangeText range).toList := by
  unfold rangeText
  split <;> split
  · rfl
  · rw [String.toList_append, trimRight_append_groupedText]
  · rw [String.toList_append, trimRight_append_groupedText]
  · rw [String.toList_append, trimRight_append_groupedText]

/-! ## Windows in the editor -/

/-- The two sides of a window. -/
def windowTexts (bounds : TokenBounds) : List String :=
  [rangeText bounds.input, rangeText bounds.output]

theorem windowTexts_injective : Function.Injective windowTexts := by
  intro a b h
  obtain ⟨hinput, houtput⟩ : rangeText a.input = rangeText b.input ∧
      rangeText a.output = rangeText b.output := by simpa [windowTexts] using h
  obtain ⟨ainput, aoutput⟩ := a
  obtain ⟨binput, boutput⟩ := b
  cases rangeText_injective hinput
  cases rangeText_injective houtput
  rfl

/-- What a line of the editor shows of a window: its second and third column, without the blanks at
their ends. -/
def windowShown (sizes : List ℕ) (line : String) : List String :=
  [1, 2].map fun j => String.ofList (trimRight (stretch sizes j line.toList))

theorem windowShown_of_shows {sizes : List ℕ} {number : ℕ} {rule : Rule} {basis : Basis}
    {line : String} (hshows : Shows sizes (editorCells number rule basis) line)
    (hfits : Fits (editorCells number rule basis) sizes) :
    windowShown sizes line = windowTexts rule.bounds := by
  have hinput := hshows.trimRight_stretch hfits
    (show (editorCells number rule basis)[1]? = some (rangeText rule.bounds.input) from rfl)
  have houtput := hshows.trimRight_stretch hfits
    (show (editorCells number rule basis)[2]? = some (rangeText rule.bounds.output) from rfl)
  rw [trimRight_rangeText] at hinput houtput
  simp only [windowShown, List.map_cons, List.map_nil, hinput, houtput, String.ofList_toList,
    windowTexts]

/-- The rows of the editor's table. -/
def editorRows (config : TierConfig) (basis : Basis) : List (List String) :=
  config.rules.zipIdx.map fun (rule, index) => editorCells (index + 1) rule basis

/-- The header of the editor's table. -/
def editorHeader : List String :=
  ["Rule", "Input tokens", "Output tokens", "In / Out", "Equivalent"]

/-- The widths of the editor's columns. -/
def editorWidths (config : TierConfig) (basis : Basis) : List ℕ :=
  widths editorHeader (editorRows config basis)

/-- Behind its title and its header, the lines of the editor are those of its rows. -/
theorem lines_editorPage (name : String) (config : TierConfig) (basis : Basis) :
    ((editorPage name config basis).map (Line.text false)).drop 2 =
      (editorRows config basis).map fun row => gap ++ rowText (editorWidths config basis) row := by
  show ((columns editorHeader (editorRows config basis)).map (Line.text false)).drop 1 = _
  rw [map_text_columns]
  rfl

theorem fits_editorWidths {config : TierConfig} {basis : Basis} {row : List String}
    (h : row ∈ editorRows config basis) : Fits row (editorWidths config basis) := by
  refine fits_widths (fun row hrow => ?_) (List.mem_cons_of_mem editorHeader h)
  obtain ⟨numbered, -, rfl⟩ := List.mem_map.mp hrow
  rfl

/-- In its columns, each line of a rule shows the window of the rule. -/
theorem windowShown_editorPage (name : String) (config : TierConfig) (basis : Basis) :
    (((editorPage name config basis).map (Line.text false)).drop 2).map
        (windowShown (editorWidths config basis)) =
      config.rules.map fun rule => windowTexts rule.bounds := by
  have hwindow : ∀ numbered ∈ config.rules.zipIdx,
      windowShown (editorWidths config basis) (gap ++ rowText (editorWidths config basis)
        (editorCells (numbered.2 + 1) numbered.1 basis)) = windowTexts numbered.1.bounds := by
    intro numbered hnumbered
    have hfits : Fits (editorCells (numbered.2 + 1) numbered.1 basis) (editorWidths config basis) :=
      fits_editorWidths (List.mem_map_of_mem hnumbered)
    exact windowShown_of_shows (shows_rowText hfits) hfits
  rw [lines_editorPage, editorRows, List.map_map, List.map_map]
  calc _ = config.rules.zipIdx.map fun numbered => windowTexts numbered.1.bounds :=
        List.map_congr_left hwindow
    _ = (config.rules.zipIdx.map Prod.fst).map fun rule => windowTexts rule.bounds := by
        rw [List.map_map]
        rfl
    _ = config.rules.map fun rule => windowTexts rule.bounds := by rw [List.zipIdx_map_fst]

/-- Every count is shown by its decimal digits, in groups of three. No two ranges are shown alike,
and so no two windows are; the lines of the editor show the windows of the rules in their columns. -/
theorem windows_are_shown_apart :
    (∀ count, (groupedText count).toList.filter (· ≠ ',') = Nat.toDigits 10 count.toNat ∧
      InThousands (pieces ',' (groupedText count))) ∧
    Function.Injective rangeText ∧ Function.Injective windowTexts ∧
    ∀ name config basis,
      (((editorPage name config basis).map (Line.text false)).drop 2).map
          (windowShown (editorWidths config basis)) =
        config.rules.map fun rule => windowTexts rule.bounds := by
  refine ⟨fun count => ⟨?_, inThousands_pieces_grouped count.toNat⟩, rangeText_injective,
    windowTexts_injective, windowShown_editorPage⟩
  rw [← digits_eq_toDigits]
  exact filter_grouped count.toNat

example : windowTexts ⟨⟨32001, 128000⟩, ⟨1234567, 0⟩⟩ = ["32,001 - 128,000", ">= 1,234,567"] := by
  decide +kernel

end Report

end Tariff
