import Tariff.Proofs.Digits
import Tariff.Report.Prices
import Tariff.Report.Tiers

/-!
# Texts without escape characters

Every terminal code starts with an escape character. Numbers, and the words around them, are shown
without one, so a page can have one only from a name.

* `NoEscape`: a text without escape characters. `noEscape_joined`, `noEscape_fixed`, …: one lemma an
  operation on texts, and one a kind of number.
* `TierConfig.NoEscape`, `Snapshot.NoEscape`, `Quote.NoEscape`, `Resolution.NoEscape`: the same of
  the names in a value.
* `Page.NoEscape`: the same of the spans of a page. `noEscape_quotePage`, …: the pages of such
  values are such pages.
-/

namespace Tariff

namespace Text

/-- A text without escape characters. -/
def NoEscape (s : String) : Prop :=
  '\x1b' ∉ s.toList

instance (s : String) : Decidable (NoEscape s) :=
  inferInstanceAs (Decidable (_ ∉ _))

variable {s t : String} {cs : List Char}

/-! ## Operations on texts -/

@[simp]
theorem noEscape_append : NoEscape (s ++ t) ↔ NoEscape s ∧ NoEscape t := by
  simp only [NoEscape, String.toList_append, List.mem_append, not_or]

@[simp]
theorem noEscape_ofList : NoEscape (String.ofList cs) ↔ '\x1b' ∉ cs := by
  rw [NoEscape, String.toList_ofList]

theorem noEscape_joined {separator : String} {parts : List String} (hsep : NoEscape separator)
    (h : ∀ part ∈ parts, NoEscape part) : NoEscape (joined separator parts) := by
  unfold joined
  induction parts with
  | nil => exact noEscape_ofList.mpr List.not_mem_nil
  | cons part parts ih =>
    obtain ⟨hpart, hparts⟩ := List.forall_mem_cons.mp h
    cases parts with
    | nil => rwa [String.intercalate_singleton]
    | cons next parts =>
      rw [String.intercalate_cons_cons, noEscape_append, noEscape_append]
      exact ⟨⟨hpart, hsep⟩, ih hparts⟩

theorem noEscape_trimmedRight (h : NoEscape s) : NoEscape (trimmedRight s) := by
  rw [trimmedRight, noEscape_ofList, trimRight, List.mem_reverse]
  exact fun hmem => h (List.mem_reverse.mp ((List.dropWhile_suffix _).subset hmem))

/-! ## Numbers -/

@[simp]
theorem noEscape_natText (n : ℕ) : NoEscape (natText n) :=
  noEscape_ofList.mpr (notMem_of_isDigit (by decide) fun _ => isDigit_of_mem_digits)

@[simp]
theorem noEscape_intText (n : ℤ) : NoEscape (intText n) := by
  cases n with
  | ofNat n => exact noEscape_natText n
  | negSucc n => exact noEscape_append.mpr ⟨by decide, noEscape_natText (n + 1)⟩

/-- Between digits in groups there are only commas. -/
theorem mem_groupedDigits {c : Char} (h : c ∈ groupedDigits cs) : c = ',' ∨ c ∈ cs := by
  fun_induction groupedDigits cs with
  | case1 => exact .inr h
  | case2 d cs hcomma ih => grind
  | case3 d cs hcomma ih => grind

@[simp]
theorem noEscape_grouped (n : ℕ) : NoEscape (grouped n) := by
  refine noEscape_ofList.mpr fun hmem => ?_
  rcases mem_groupedDigits hmem with hcomma | hdigits
  · cases hcomma
  · exact absurd (isDigit_of_mem_digits hdigits) (by decide)

end Text

open Text

namespace Number

@[simp]
theorem noEscape_signText (negative : Bool) : NoEscape (signText negative) := by
  cases negative <;> decide

theorem escape_notMem_pointed (places units : ℕ) : '\x1b' ∉ pointed places units := by
  by_cases hplaces : places = 0
  · rw [pointed, if_pos hplaces]
    exact notMem_of_isDigit (by decide) fun _ => isDigit_of_mem_padded
  · obtain ⟨whole, behind, heq, -, -, -, hdigits, -⟩ := pointed_parts hplaces units
    have hparts := notMem_of_isDigit (d := '\x1b') (by decide) hdigits
    simp_all

@[simp]
theorem noEscape_fixed (places : ℕ) (x : Float) : NoEscape (fixed places x) := by
  unfold fixed
  split
  · decide
  · exact noEscape_append.mpr ⟨noEscape_signText _, by decide⟩
  · exact noEscape_append.mpr
      ⟨noEscape_signText _, noEscape_ofList.mpr (escape_notMem_pointed _ _)⟩

end Number

@[simp]
theorem Decimal.noEscape_text (a : Decimal) : NoEscape a.text :=
  noEscape_append.mpr
    ⟨Number.noEscape_signText _, noEscape_ofList.mpr (Number.escape_notMem_pointed _ _)⟩

/-! ## Amounts -/

@[simp]
theorem TokenUnit.noEscape_label (unit : TokenUnit) : NoEscape unit.label := by
  cases unit <;> decide

@[simp]
theorem Pricing.noEscape_label (pricing : Pricing) : NoEscape pricing.label := by
  cases pricing <;> simp +decide [Pricing.label]

namespace Report

variable {unit : TokenUnit}

@[simp]
theorem noEscape_priceText (usd : Float) : NoEscape (priceText usd) := by
  simp +decide [priceText]

@[simp]
theorem noEscape_ratioText (ratio : Float) : NoEscape (ratioText ratio) := by
  simp +decide [ratioText]

@[simp]
theorem noEscape_unitPriceText (usd : Float) : NoEscape (unitPriceText usd unit) := by
  simp +decide [unitPriceText]

@[simp]
theorem noEscape_tokensText (count : UInt64) : NoEscape (tokensText count unit) := by
  unfold tokensText
  split
  · simp
  · cases unit <;> simp +decide

@[simp]
theorem noEscape_rangeText (range : TokenRange) : NoEscape (rangeText range) := by
  unfold rangeText groupedText
  split <;> split <;> simp +decide

/-- A condition on a side called by a word. -/
theorem noEscape_sideCondition {side condition : String} {range : TokenRange}
    (hside : NoEscape side) (h : sideCondition side range unit = some condition) :
    NoEscape condition := by
  unfold sideCondition at h
  split at h
  · cases h
    split <;> simp +decide [hside]
  · split at h
    · cases h
      simp +decide [hside]
    · cases h

@[simp]
theorem noEscape_conditionText (bounds : TokenBounds) : NoEscape (conditionText bounds unit) := by
  have hsides : ∀ condition ∈ [sideCondition "input" bounds.input unit,
      sideCondition "output" bounds.output unit].filterMap id, NoEscape condition := by
    intro condition hmem
    obtain ⟨side, hside, heq⟩ := List.mem_filterMap.mp hmem
    simp only [List.mem_cons, List.not_mem_nil, or_false] at hside
    rcases hside with rfl | rfl
    · exact noEscape_sideCondition (by decide) heq
    · exact noEscape_sideCondition (by decide) heq
  unfold conditionText
  dsimp only
  split
  · decide
  · exact noEscape_joined (by decide) hsides

theorem noEscape_valueTexts (pricing : Pricing) :
    NoEscape (valueTexts pricing unit).1 ∧ NoEscape (valueTexts pricing unit).2 := by
  cases pricing <;> simp [valueTexts]

@[simp]
theorem noEscape_slashed {values : String × String} :
    NoEscape (slashed values) ↔ NoEscape values.1 ∧ NoEscape values.2 := by
  simp +decide [slashed]

@[simp]
theorem noEscape_equivalentText (pricing : Pricing) (basis : Basis) :
    NoEscape (equivalentText pricing basis) := by
  cases pricing <;> simp +decide [equivalentText]

end Report

/-! ## Names in values -/

/-- The name in a pattern has no escape characters. -/
def ModelPattern.NoEscape : ModelPattern → Prop
  | exact name => Text.NoEscape name
  | startingWith stem => Text.NoEscape stem

/-- The patterns and the names of the rules of a configuration have no escape characters. -/
structure TierConfig.NoEscape (config : TierConfig) : Prop where
  models : ∀ pattern ∈ config.models.items, pattern.NoEscape
  rules : ∀ rule ∈ config.rules, Text.NoEscape rule.name

/-- Nor have those of any configuration, or their names. -/
def Snapshot.NoEscape (snapshot : Snapshot) : Prop :=
  ∀ e ∈ snapshot.configs.entries, Text.NoEscape e.1 ∧ e.2.NoEscape

/-- The names in a quote have no escape characters. -/
def Quote.NoEscape : Quote → Prop
  | tiered config rule _ => Text.NoEscape config ∧ Text.NoEscape rule
  | metered _ | perCall _ => True

/-- The names in a row have no escape characters. -/
structure GroupQuote.NoEscape (row : GroupQuote) : Prop where
  group : Text.NoEscape row.group
  quote : row.quote.NoEscape

/-- The names in a resolution have no escape characters. -/
structure Resolution.NoEscape (tier : Resolution) : Prop where
  config : Text.NoEscape tier.config
  rule : Text.NoEscape tier.rule

theorem ModelPattern.noEscape_text {pattern : ModelPattern} (h : pattern.NoEscape) :
    Text.NoEscape pattern.text := by
  cases pattern with
  | exact name => exact h
  | startingWith stem => exact noEscape_append.mpr ⟨h, by decide⟩

theorem TierConfig.NoEscape.text {config : TierConfig} (h : config.NoEscape) :
    Text.NoEscape config.models.text := by
  refine noEscape_joined (by decide) fun part hpart => ?_
  obtain ⟨pattern, hpattern, rfl⟩ := List.mem_map.mp hpart
  exact pattern.noEscape_text (h.models pattern hpattern)

/-! ## Pages -/

namespace Report

/-- No span of the line has an escape character. -/
def Line.NoEscape (line : Line) : Prop :=
  ∀ span ∈ line, Text.NoEscape span.text

/-- No line of the page has an escape character. -/
def Page.NoEscape (page : Page) : Prop :=
  ∀ line ∈ page, line.NoEscape

section Parts

variable {text : String} {line : Line} {page : Page}

@[simp]
theorem Line.noEscape_nil : Line.NoEscape [] :=
  List.forall_mem_nil _

@[simp]
theorem Line.noEscape_plain_cons :
    Line.NoEscape (plain text :: line) ↔ Text.NoEscape text ∧ line.NoEscape :=
  List.forall_mem_cons

@[simp]
theorem Line.noEscape_on_cons {style : Style} :
    Line.NoEscape (style.on text :: line) ↔ Text.NoEscape text ∧ line.NoEscape :=
  List.forall_mem_cons

@[simp]
theorem Page.noEscape_nil : Page.NoEscape [] :=
  List.forall_mem_nil _

@[simp]
theorem Page.noEscape_cons : Page.NoEscape (line :: page) ↔ line.NoEscape ∧ page.NoEscape :=
  List.forall_mem_cons

end Parts

theorem noEscape_paddedCell {cell : String} (h : NoEscape cell) (width : ℕ) :
    NoEscape (paddedCell cell width) := by
  refine noEscape_append.mpr ⟨h, noEscape_ofList.mpr fun hmem => ?_⟩
  exact absurd (List.eq_of_mem_replicate hmem) (by decide)

theorem noEscape_rowText {row : List String} (h : ∀ cell ∈ row, NoEscape cell)
    (widths : List ℕ) : NoEscape (rowText widths row) := by
  refine noEscape_trimmedRight (noEscape_joined (by decide) fun part hpart => ?_)
  obtain ⟨i, hi, rfl⟩ := List.mem_iff_getElem.mp hpart
  rw [List.getElem_zipWith]
  exact noEscape_paddedCell (h _ (List.getElem_mem _)) _

/-- A table of cells without escape characters. -/
theorem noEscape_columns {header : List String} {rows : List (List String)}
    (hheader : ∀ cell ∈ header, NoEscape cell) (hrows : ∀ row ∈ rows, ∀ cell ∈ row, NoEscape cell) :
    (columns header rows).NoEscape := by
  have hgap : NoEscape gap := by decide
  refine Page.noEscape_cons.mpr ⟨by simp [hgap, noEscape_rowText hheader], fun line hline => ?_⟩
  obtain ⟨row, hrow, rfl⟩ := List.mem_map.mp hline
  simp [hgap, noEscape_rowText (hrows row hrow)]

variable {model group name : String} {config : TierConfig} {quote : Quote}

@[simp]
theorem noEscape_tierPriceLines (price : TierPrice) (unit : TokenUnit) :
    (tierPriceLines price unit).NoEscape := by
  simp +decide [tierPriceLines]

theorem noEscape_quotePage (hmodel : NoEscape model) (hgroup : NoEscape group)
    (hquote : quote.NoEscape) (ratio : Float) (unit : TokenUnit) :
    (quotePage model group ratio quote unit).NoEscape := by
  have hlines : (quoteLines unit quote).NoEscape := by
    cases quote with
    | tiered config rule price => simp +decide [quoteLines, hquote.1, hquote.2]
    | metered price => simp +decide [quoteLines]
    | perCall price => simp +decide [quoteLines]
  simp +decide [quotePage, hmodel, hgroup, hlines]

theorem noEscape_quoteCells (h : quote.NoEscape) : ∀ cell ∈ quoteCells quote, NoEscape cell := by
  cases quote with
  | tiered config rule price => simp [quoteCells, h.2]
  | metered price => simp +decide [quoteCells]
  | perCall price => simp +decide [quoteCells]

theorem noEscape_groupPage {rows : List GroupQuote} (hmodel : NoEscape model)
    (hrows : ∀ row ∈ rows, row.NoEscape) (unit : TokenUnit) :
    (groupPage model rows unit).NoEscape := by
  refine Page.noEscape_cons.mpr ⟨by simp +decide [hmodel], ?_⟩
  split
  · simp +decide
  · refine noEscape_columns (by simp +decide) (List.forall_mem_map.mpr fun row hrow => ?_)
    have hcells := noEscape_quoteCells (hrows row hrow).quote
    simpa [(hrows row hrow).group] using hcells

theorem noEscape_chargePage {tier : Resolution} (hmodel : NoEscape model) (htier : tier.NoEscape)
    (tokens : TokenCounts) (charge : Charge) : (chargePage model tokens tier charge).NoEscape := by
  simp +decide [chargePage, groupedText, hmodel, htier.config, htier.rule]

theorem noEscape_rulesPage (hname : NoEscape name) (hconfig : config.NoEscape) (unit : TokenUnit) :
    (rulesPage name config unit).NoEscape := by
  refine Page.noEscape_cons.mpr ⟨?_, Page.noEscape_cons.mpr ⟨?_, ?_⟩⟩
  · split <;> simp +decide [hname]
  · simp +decide [hconfig.text]
  · split
    · simp +decide
    · refine noEscape_columns (by decide) (List.forall_mem_map.mpr fun rule hrule => ?_)
      simp [ruleCells, hconfig.rules rule hrule, noEscape_valueTexts]

theorem noEscape_editorPage (hname : NoEscape name) (hconfig : config.NoEscape) (basis : Basis) :
    (editorPage name config basis).NoEscape := by
  refine Page.noEscape_cons.mpr ⟨by simp +decide [hname], ?_⟩
  refine noEscape_columns (by decide) (List.forall_mem_map.mpr fun numbered hnumbered => ?_)
  have hrule := hconfig.rules numbered.1 (List.fst_mem_of_mem_zipIdx hnumbered)
  simp +decide [editorCells, hrule, noEscape_valueTexts]

theorem noEscape_listPage {snapshot : Snapshot} (h : snapshot.NoEscape) :
    (listPage snapshot).NoEscape := by
  refine Page.noEscape_cons.mpr ⟨?_, ?_⟩
  · split <;> simp +decide
  · split
    · simp +decide
    · refine noEscape_columns (by decide) (List.forall_mem_map.mpr fun e he => ?_)
      obtain ⟨hname, hconfig⟩ := h e (List.mem_mergeSort.mp he)
      simp only [configCells]
      split <;> simp +decide [hname, hconfig.text]

end Report

end Tariff
