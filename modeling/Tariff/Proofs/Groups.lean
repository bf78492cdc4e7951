import Tariff.Proofs.Quote

/-!
# Prices by group

The prices of a model by group join the table of groups, which knows each group once and in order,
with the groups that the record names, which come in any order, with repeats, and need not be known.

* `ModelRecord.shows_iff`: the groups that a model shows a price for.
* `mem_groupQuotes_iff`: the rows are the entries of the table for such groups, each with its quote.
* `Quote.Alike`: quotes that differ in their dollars only. `alike_quote`: the multiplier of a group
  changes nothing but the dollars.
* `group_quotes_join_table_and_record`: what the rows are, and how they agree.
-/

namespace Tariff

variable {snapshot : Snapshot} {record : ModelRecord} {groups : GroupTable} {terms : Terms}
  {tokens : TokenCounts}

/-! ## Which rows there are -/

/-- A model shows a price for every group that it is for, the two hidden ones apart. -/
theorem ModelRecord.shows_iff {group : String} :
    record.shows group = true ↔
      group ≠ "" ∧ group ≠ "auto" ∧ (record.groups = [] ∨ group ∈ record.groups) := by
  simp [shows, hiddenGroups, and_assoc]

/-- The rows are the entries of the table that the model shows, each with its quote. -/
theorem mem_groupQuotes_iff {row : GroupQuote} :
    row ∈ groupQuotes snapshot record groups terms tokens ↔
      groups.get? row.group = some row.ratio ∧ record.shows row.group = true ∧
        row.quote = quote snapshot record terms row.ratio tokens := by
  unfold groupQuotes
  rw [List.mem_map]
  constructor
  · rintro ⟨⟨group, ratio⟩, hmem, rfl⟩
    obtain ⟨hentry, hshows⟩ := List.mem_filter.mp hmem
    exact ⟨Table.mem_entries_iff.mp hentry, hshows, rfl⟩
  · obtain ⟨group, ratio, answer⟩ := row
    rintro ⟨hget, hshows, hquote⟩
    obtain rfl : answer = quote snapshot record terms ratio tokens := hquote
    exact ⟨(group, ratio), List.mem_filter.mpr ⟨Table.mem_entries_iff.mpr hget, hshows⟩, rfl⟩

/-- The rows are in the order of the table, so no group has two. -/
theorem groupQuotes_pairwise :
    (groupQuotes snapshot record groups terms tokens).Pairwise fun a b => a.group < b.group := by
  unfold groupQuotes
  rw [List.pairwise_map]
  exact groups.ascending.filter _

/-! ## How rows agree -/

/-- Quotes of one kind, and under tiers those of one rule of one configuration. -/
inductive Quote.Alike : Quote → Quote → Prop
  | tiered {config rule : String} {price price' : TierPrice} :
      Alike (.tiered config rule price) (.tiered config rule price')
  | metered {price price' : TierPrice} : Alike (.metered price) (.metered price')
  | perCall {price price' : Float} : Alike (.perCall price) (.perCall price')

/-- The searches for a rule that are made for two multipliers end at the same one. -/
theorem alike_quote (snapshot : Snapshot) (record : ModelRecord) (terms : Terms)
    (ratio ratio' : Float) (tokens : TokenCounts) :
    (quote snapshot record terms ratio tokens).Alike
      (quote snapshot record terms ratio' tokens) := by
  rw [quote_eq, quote_eq]
  unfold ModelRecord.flatQuote
  cases record.billing with
  | perCall => exact .perCall
  | metered =>
    cases snapshot.resolve? record.name tokens with
    | none => exact .metered
    | some tier => exact .tiered

/-! ## The table of prices -/

/-- The prices of a model by group are listed by strictly ascending name. A group has a row exactly
if the table has it, it is no hidden one, and the record names it or names no group at all. The row
carries the multiplier that the table gives and the quote for it, and all rows are alike. -/
theorem group_quotes_join_table_and_record (snapshot : Snapshot) (record : ModelRecord)
    (groups : GroupTable) (terms : Terms) (tokens : TokenCounts) :
    ((groupQuotes snapshot record groups terms tokens).map (·.group)).Pairwise (· < ·) ∧
    (∀ group, (∃ row ∈ groupQuotes snapshot record groups terms tokens, row.group = group) ↔
      groups.contains group = true ∧ group ≠ "" ∧ group ≠ "auto" ∧
        (record.groups = [] ∨ group ∈ record.groups)) ∧
    (∀ row ∈ groupQuotes snapshot record groups terms tokens,
      groups.get? row.group = some row.ratio ∧
        row.quote = quote snapshot record terms row.ratio tokens) ∧
    ∀ row ∈ groupQuotes snapshot record groups terms tokens,
      ∀ row' ∈ groupQuotes snapshot record groups terms tokens, row.quote.Alike row'.quote := by
  refine ⟨List.pairwise_map.mpr groupQuotes_pairwise, fun group => ?rows, fun row hrow => ?row,
    fun row hrow row' hrow' => ?alike⟩
  case rows =>
    rw [← ModelRecord.shows_iff, Table.contains, Option.isSome_iff_exists]
    constructor
    · rintro ⟨row, hrow, rfl⟩
      obtain ⟨hget, hshows, -⟩ := mem_groupQuotes_iff.mp hrow
      exact ⟨⟨row.ratio, hget⟩, hshows⟩
    · rintro ⟨⟨ratio, hget⟩, hshows⟩
      exact ⟨⟨group, ratio, quote snapshot record terms ratio tokens⟩,
        mem_groupQuotes_iff.mpr ⟨hget, hshows, rfl⟩, rfl⟩
  case row =>
    obtain ⟨hget, -, hquote⟩ := mem_groupQuotes_iff.mp hrow
    exact ⟨hget, hquote⟩
  case alike =>
    obtain ⟨-, -, hquote⟩ := mem_groupQuotes_iff.mp hrow
    obtain ⟨-, -, hquote'⟩ := mem_groupQuotes_iff.mp hrow'
    rw [hquote, hquote']
    exact alike_quote snapshot record terms row.ratio row'.ratio tokens

/-- The hidden groups, and three others. -/
def fiveGroups : GroupTable :=
  ⟨[("", 2.0), ("auto", 2.0), ("default", 1.0), ("edu", 0.5), ("vip", 0.8)], by decide⟩

/-- A model that names a hidden group, one that is not known, and one of two others twice. -/
def namingRecord : ModelRecord :=
  ⟨"m", .metered, 1.0, 1.0, 0.0, ["vip", "nobody", "auto", "default", "vip"]⟩

/-- Of its groups, the model has a row for the two that are known and not hidden, both under the
rule that a long request comes to. -/
theorem naming_record_has_rows_for_default_and_vip :
    (¬ ∃ row ∈ groupQuotes twinSnapshot namingRecord fiveGroups ⟨⟨500000⟩, .million⟩ ⟨20, 0⟩,
      row.group = "auto" ∨ row.group = "nobody" ∨ row.group = "edu") ∧
    ∃ row ∈ groupQuotes twinSnapshot namingRecord fiveGroups ⟨⟨500000⟩, .million⟩ ⟨20, 0⟩,
      ∃ row' ∈ groupQuotes twinSnapshot namingRecord fiveGroups ⟨⟨500000⟩, .million⟩ ⟨20, 0⟩,
        row.group = "default" ∧ row'.group = "vip" ∧ row.ratio = 1.0 ∧ row'.ratio = 0.8 ∧
          row.quote.Alike row'.quote := by
  obtain ⟨-, hrows, hrow, halike⟩ := group_quotes_join_table_and_record twinSnapshot namingRecord
    fiveGroups ⟨⟨500000⟩, .million⟩ ⟨20, 0⟩
  obtain ⟨row, hmem, hgroup⟩ := (hrows "default").mpr (by decide)
  obtain ⟨row', hmem', hgroup'⟩ := (hrows "vip").mpr (by decide)
  refine ⟨?_, row, hmem, row', hmem', hgroup, hgroup', ?_, ?_, halike row hmem row' hmem'⟩
  · rintro ⟨other, hother, hname⟩
    have hshown := (hrows other.group).mp ⟨other, hother, rfl⟩
    rcases hname with hname | hname | hname <;> rw [hname] at hshown <;> revert hshown <;> decide
  · have hratio := (hrow row hmem).1
    rw [hgroup] at hratio
    exact (Option.some.inj hratio).symm
  · have hratio := (hrow row' hmem').1
    rw [hgroup'] at hratio
    exact (Option.some.inj hratio).symm

end Tariff
