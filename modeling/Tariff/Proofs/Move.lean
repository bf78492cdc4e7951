import Mathlib.Logic.Equiv.Basic
import Tariff.Proofs.Put

/-!
# Moving rules

A rule that is moved is exchanged with its neighbour. Which rule prices a request depends on the
order of the rules only where two of them are for it.

* `getElem?_swapNext`, `findIdx?_swapNext`: a list with two neighbours exchanged, and the first hit
  in it.
* `placeFor?`: the place of the rule that prices a request. `Contested`: two neighbours are for a
  request, and no rule before them is.
* `TierConfig.exchangedAt?`: the neighbours that are exchanged when a rule is moved.
* `moved_rule_matters_where_contested`: exactly the contested requests are priced by another rule.
-/

namespace Tariff

/-! ## Exchanged neighbours -/

section Swap

open Equiv (swap)

variable {α : Type} {i : ℕ} {xs : List α} {p : α → Bool}

theorem swap_zero_one (k : ℕ) : swap 0 1 (k + 2) = k + 2 :=
  Equiv.swap_apply_of_ne_of_ne (by omega) (by omega)

theorem swap_succ_zero (i : ℕ) : swap (i + 1) (i + 1 + 1) 0 = 0 :=
  Equiv.swap_apply_of_ne_of_ne (by omega) (by omega)

theorem swap_succ_succ (i k : ℕ) : swap (i + 1) (i + 1 + 1) (k + 1) = swap i (i + 1) k + 1 := by
  simp only [Equiv.swap_apply_def]
  grind

theorem swapNext_of_le (h : xs.length ≤ i + 1) : swapNext i xs = xs := by
  fun_induction swapNext i xs with
  | case1 a b rest => simp at h
  | case2 i a rest ih => rw [ih (Nat.le_of_succ_le_succ h)]
  | case3 => rfl

/-- What stands at a place after the exchange. -/
theorem getElem?_swapNext (h : i + 1 < xs.length) (k : ℕ) :
    (swapNext i xs)[k]? = xs[swap i (i + 1) k]? := by
  induction i generalizing xs k with
  | zero =>
    match xs, h, k with
    | a :: b :: rest, _, 0 => rfl
    | a :: b :: rest, _, 1 => rfl
    | a :: b :: rest, _, k + 2 =>
      rw [swap_zero_one]
      rfl
  | succ i ih =>
    match xs, h, k with
    | a :: rest, _, 0 =>
      rw [swap_succ_zero]
      rfl
    | a :: rest, h, k + 1 =>
      rw [swap_succ_succ, List.getElem?_cons_succ]
      exact ih (Nat.lt_of_succ_lt_succ h) k

/-- The first hit is the same as before, unless it is the first of the two neighbours and the other
one is a hit too. -/
theorem findIdx?_swapNext (h : i + 1 < xs.length)
    (hfree : ∀ b, xs.findIdx? p = some i → xs[i + 1]? = some b → p b = false) :
    ((swapNext i xs).findIdx? p).map (swap i (i + 1)) = xs.findIdx? p := by
  induction i generalizing xs with
  | zero =>
    match xs, h with
    | a :: b :: rest, _ =>
      have hswap : swap 0 1 ∘ (· + 1) ∘ (· + 1) = ((· + 1) ∘ (· + 1) : ℕ → ℕ) :=
        funext swap_zero_one
      simp only [swapNext, List.findIdx?_cons] at hfree ⊢
      by_cases ha : p a = true
      · have hb : p b = false := hfree b (if_pos ha) rfl
        simp [ha, hb]
      · by_cases hb : p b = true
        · simp [ha, hb]
        · simp only [if_neg ha, if_neg hb, Option.map_map, hswap]
  | succ i ih =>
    match xs, h with
    | a :: rest, h =>
      have hswap : swap (i + 1) (i + 1 + 1) ∘ (· + 1) = (· + 1) ∘ swap i (i + 1) :=
        funext (swap_succ_succ i)
      simp only [swapNext, List.findIdx?_cons] at hfree ⊢
      by_cases ha : p a = true
      · simp [ha, swap_succ_zero]
      · have hrest := ih (Nat.lt_of_succ_lt_succ h) fun b hi hb => hfree b (by simp [ha, hi]) hb
        rw [if_neg ha, if_neg ha, Option.map_map, hswap, ← Option.map_map, hrest]

/-- Where both neighbours are hits and the first of them is the first hit, so is the other one after
the exchange, at the same place. -/
theorem findIdx?_swapNext_of_both (hfirst : xs.findIdx? p = some i) {b : α}
    (hnext : xs[i + 1]? = some b) (hb : p b = true) : (swapNext i xs).findIdx? p = some i := by
  obtain ⟨hlt, -⟩ := List.getElem?_eq_some_iff.mp hnext
  obtain ⟨-, -, -, hbefore⟩ := findIdx?_eq_some_iff.mp hfirst
  refine findIdx?_eq_some_iff.mpr ⟨b, ?_, hb, fun j c hj hc => hbefore j c hj ?_⟩
  · rw [getElem?_swapNext hlt, Equiv.swap_apply_left, hnext]
  · rwa [getElem?_swapNext hlt, Equiv.swap_apply_of_ne_of_ne (by omega) (by omega)] at hc

end Swap

/-! ## The rule that prices a request -/

/-- The place of the rule of a list that prices a request. -/
def placeFor? (rules : List Rule) (tokens : TokenCounts) : Option ℕ :=
  rules.findIdx? (·.admits tokens)

variable {rules : List Rule} {tokens : TokenCounts} {i : ℕ}

theorem placeFor?_eq_some_iff :
    placeFor? rules tokens = some i ↔ ∃ rule, FirstFor rules tokens i rule := by
  unfold placeFor?
  rw [findIdx?_eq_some_iff]
  refine exists_congr fun rule => ?_
  simp only [Bool.eq_false_iff, ne_eq, Rule.admits_iff]
  exact ⟨fun ⟨hat, hin, hbefore⟩ => ⟨hat, hin, hbefore⟩,
    fun h => ⟨h.at_index, h.contains, h.none_before⟩⟩

/-- The rule that prices a request is the one at its place. -/
theorem firstAdmitting?_eq_placeFor? (rules : List Rule) (tokens : TokenCounts) :
    firstAdmitting? rules tokens = (placeFor? rules tokens).bind (rules[·]?) :=
  List.find?_eq_bind_findIdx?_getElem?

/-- Two neighbours are for a request, and no rule before them is. -/
structure Contested (rules : List Rule) (tokens : TokenCounts) (i : ℕ) : Prop where
  both : ∃ a b, rules[i]? = some a ∧ rules[i + 1]? = some b ∧ a.bounds.Contains tokens ∧
    b.bounds.Contains tokens
  none_before : ∀ j r, j < i → rules[j]? = some r → ¬ r.bounds.Contains tokens

theorem contested_iff :
    Contested rules tokens i ↔ placeFor? rules tokens = some i ∧
      ∃ b, rules[i + 1]? = some b ∧ b.admits tokens = true := by
  rw [placeFor?_eq_some_iff]
  constructor
  · rintro ⟨⟨a, b, ha, hb, hin, hnext⟩, hbefore⟩
    exact ⟨⟨a, ha, hin, hbefore⟩, b, hb, Rule.admits_iff.mpr hnext⟩
  · rintro ⟨⟨a, ha, hin, hbefore⟩, b, hb, hnext⟩
    exact ⟨⟨a, b, ha, hb, hin, Rule.admits_iff.mp hnext⟩, hbefore⟩

/-! ## Moves -/

/-- Where a rule stood before two neighbours were exchanged, if any were: `some i` are those at `i`
and behind it. -/
def formerPlace (exchanged : Option ℕ) : Equiv.Perm ℕ :=
  exchanged.elim (.refl ℕ) fun i => Equiv.swap i (i + 1)

namespace TierConfig

/-- The place of the first of the two neighbours that are exchanged when the rule at an index is
moved; none at the end of the list. -/
def exchangedAt? (config : TierConfig) (index : ℕ) : Direction → Option ℕ
  | .up => if index = 0 then none else some (index - 1)
  | .down => if index + 1 < config.rules.length then some index else none

variable {config : TierConfig} {index : ℕ}

/-- A move exchanges two neighbours, or changes nothing. -/
theorem moveRule_cases (hindex : index < config.rules.length) (direction : Direction) :
    (config.exchangedAt? index direction = none ∧ config.moveRule index direction = config) ∨
    ∃ i, config.exchangedAt? index direction = some i ∧ i + 1 < config.rules.length ∧
      config.moveRule index direction = { config with rules := swapNext i config.rules } := by
  cases direction with
  | up =>
    unfold exchangedAt? moveRule
    by_cases hfirst : index = 0
    · exact .inl ⟨if_pos hfirst, if_pos hfirst⟩
    · exact .inr ⟨index - 1, if_neg hfirst, by omega, if_neg hfirst⟩
  | down =>
    unfold exchangedAt? moveRule
    by_cases hlast : index + 1 < config.rules.length
    · exact .inr ⟨index, if_pos hlast, hlast, rfl⟩
    · exact .inl ⟨if_neg hlast, by rw [swapNext_of_le (Nat.le_of_not_lt hlast)]⟩

end TierConfig

/-- Moving a rule exchanges the first rule of its name with its neighbour, or changes nothing where
there is none. A request is priced by another rule than before exactly if the two that were
exchanged are both for it and no rule before them is; then it was priced by the one that was first,
and is by the other. -/
theorem moved_rule_matters_where_contested {basis : Basis} {s next : Snapshot}
    {name rule : String} {direction : Direction}
    (h : (Edit.moveRule name rule direction).apply basis s = .ok next) :
    ∃ config index old exchanged rules, FirstNamed config.rules rule index old ∧
      config.exchangedAt? index direction = exchanged ∧ s.ChangesRules next name config rules ∧
      (∀ place, rules[place]? = config.rules[formerPlace exchanged place]?) ∧
      ∀ tokens,
        (∀ list ∈ [config.rules, rules],
          firstAdmitting? list tokens = (placeFor? list tokens).bind (list[·]?)) ∧
        ((placeFor? rules tokens).map (formerPlace exchanged) ≠ placeFor? config.rules tokens ↔
          ∃ i, exchanged = some i ∧ Contested config.rules tokens i) ∧
        ∀ i, exchanged = some i → Contested config.rules tokens i →
          placeFor? config.rules tokens = some i ∧
          (placeFor? rules tokens).map (formerPlace exchanged) = some (i + 1) := by
  obtain ⟨index, config, _, hindex, hold, ⟨⟩, rfl⟩ := Snapshot.ruleIndex_change_eq_ok h
  obtain ⟨old, hfirst⟩ := TierConfig.ruleIndex?_eq_some_iff.mp hindex
  obtain ⟨hlt, -⟩ := List.getElem?_eq_some_iff.mp hfirst.at_index
  obtain ⟨hexchanged, hmove⟩ | ⟨i, hexchanged, hi, hmove⟩ :=
    TierConfig.moveRule_cases hlt direction
  · refine ⟨config, index, old, none, config.rules, hfirst, hexchanged, ?_, fun _ => rfl, ?_⟩
    · rw [hmove]
      exact Snapshot.changesRules_withConfig hold config.rules
    · intro tokens
      refine ⟨fun list _ => firstAdmitting?_eq_placeFor? list tokens,
        iff_of_false (fun hne => hne ?_) (by rintro ⟨_, ⟨⟩, -⟩), nofun⟩
      exact congrFun Option.map_id _
  · refine ⟨config, index, old, some i, swapNext i config.rules, hfirst, hexchanged, ?_,
      getElem?_swapNext hi, fun tokens => ?_⟩
    · rw [hmove]
      exact Snapshot.changesRules_withConfig hold _
    · have hswitch (hcontested : Contested config.rules tokens i) :
          placeFor? config.rules tokens = some i ∧
          (placeFor? (swapNext i config.rules) tokens).map (formerPlace (some i)) =
            some (i + 1) := by
        obtain ⟨hplace, b, hb, hnext⟩ := contested_iff.mp hcontested
        refine ⟨hplace, ?_⟩
        unfold placeFor?
        rw [findIdx?_swapNext_of_both hplace hb hnext]
        exact congrArg some (Equiv.swap_apply_left i (i + 1))
      refine ⟨fun list _ => firstAdmitting?_eq_placeFor? list tokens,
        ⟨fun hne => ⟨i, rfl, ?_⟩, ?_⟩, by rintro _ ⟨⟩; exact hswitch⟩
      · by_contra hfree
        refine hne (findIdx?_swapNext hi fun b hplace hb => ?_)
        rw [contested_iff] at hfree
        exact Bool.eq_false_iff.mpr fun hnext => hfree ⟨hplace, b, hb, hnext⟩
      · rintro ⟨_, ⟨⟩, hcontested⟩ heq
        obtain ⟨hplace, hnext⟩ := hswitch hcontested
        rw [hplace, hnext] at heq
        simp at heq

/-- A rule for short requests, one for all, and a cheaper one for all. -/
def shortThenAll : List Rule :=
  [⟨"short", ⟨⟨0, 10⟩, .unlimited⟩, .ratio 1.0 1.0 none⟩, ⟨"all", .unlimited, .ratio 2.0 1.0 none⟩,
    ⟨"cheap", .unlimited, .ratio 0.5 1.0 none⟩]

/-- Moved up, the cheaper rule takes the long requests over. The short ones stay where they were. -/
theorem cheap_rule_takes_long_requests_over :
    (Edit.moveRule "gpt" "cheap" .up).apply (.ofQuotaPerUnit 0) (refundSnapshot shortThenAll) =
        .ok (refundSnapshot (swapNext 1 shortThenAll)) ∧
      placeFor? shortThenAll ⟨20, 0⟩ = some 1 ∧
      (placeFor? (swapNext 1 shortThenAll) ⟨20, 0⟩).map (formerPlace (some 1)) = some 2 ∧
      (placeFor? (swapNext 1 shortThenAll) ⟨5, 0⟩).map (formerPlace (some 1)) =
        placeFor? shortThenAll ⟨5, 0⟩ := by
  have hmove : (Edit.moveRule "gpt" "cheap" .up).apply (.ofQuotaPerUnit 0)
      (refundSnapshot shortThenAll) = .ok (refundSnapshot (swapNext 1 shortThenAll)) := rfl
  obtain ⟨config, index, old, exchanged, rules, hfirst, hexchanged, ⟨hbefore, hafter, -⟩, -,
    htokens⟩ := moved_rule_matters_where_contested hmove
  have hconfig : config = ⟨true, ⟨[.exact "gpt-4o", .startingWith "gpt-5"]⟩, 1, shortThenAll⟩ :=
    (Option.some.inj hbefore).symm
  subst hconfig
  have hrules : rules = swapNext 1 shortThenAll :=
    congrArg TierConfig.rules (Option.some.inj hafter).symm
  have hindex : index = 2 :=
    (Option.some.inj (TierConfig.ruleIndex?_eq_some_iff.mpr ⟨old, hfirst⟩)).symm
  subst hrules hindex hexchanged
  have hcontested : Contested shortThenAll ⟨20, 0⟩ 1 :=
    contested_iff.mpr ⟨by decide, _, rfl, by decide⟩
  obtain ⟨-, -, hswitch⟩ := htokens ⟨20, 0⟩
  obtain ⟨hplace, hnext⟩ := hswitch 1 rfl hcontested
  refine ⟨hmove, hplace, hnext, ?_⟩
  by_contra hother
  obtain ⟨-, hiff, -⟩ := htokens ⟨5, 0⟩
  obtain ⟨i, hi, hshort⟩ := hiff.mp hother
  cases hi
  cases (contested_iff.mp hshort).1

end Tariff
