import Tariff.Proofs.Report.NoEscape

/-!
# Color is in the codes alone

With color, a page has terminal codes around some of its spans. Taken out again, they leave the page
as it is without color, unless a name brings an escape character along.

* `withoutCodes`: a text without its terminal codes.
* `LosesCodes`: what is left of some characters, whatever follows them. `LosesCodes.append`,
  `losesCodes_flatMap`, `losesCodes_intercalate`: of characters made of parts.
* `losesCodes_chars`, `losesCodes_line`, `losesCodes_page`: of a span, a line and a page.
* `color_is_in_codes_alone`: what follows for each page.
-/

namespace Tariff
namespace Report

open Text

/-! ## Taking codes out -/

/-- The length of the terminal code that characters start with, or zero. -/
def codeLength : List Char → ℕ
  | '\x1b' :: '[' :: cs =>
    let number := cs.takeWhile isDigit
    if number ≠ [] ∧ (cs.dropWhile isDigit).head? = some 'm' then number.length + 3 else 0
  | _ => 0

/-- Characters without the terminal codes among them: escape character, bracket, digits, `m`. -/
def withoutCodes : List Char → List Char
  | [] => []
  | c :: cs =>
    match codeLength (c :: cs) with
    | 0 => c :: withoutCodes cs
    | n + 1 => withoutCodes (cs.drop n)
  termination_by cs => cs.length

variable {cs ds cs' ds' number : List Char}

theorem codeLength_of_ne {c : Char} (h : c ≠ '\x1b') (cs : List Char) :
    codeLength (c :: cs) = 0 := by
  unfold codeLength
  split
  · rename_i heq
    cases heq
    exact absurd rfl h
  · rfl

theorem codeLength_terminalCode (hne : number ≠ []) (h : ∀ c ∈ number, isDigit c = true)
    (rest : List Char) : codeLength (terminalCode number ++ rest) = number.length + 3 := by
  have hm : isDigit 'm' = false := by decide
  have htake : (number ++ 'm' :: rest).takeWhile isDigit = number := by
    rw [List.takeWhile_append_of_pos h, List.takeWhile_cons_of_neg (by simp [hm]), List.append_nil]
  have hdrop : (number ++ 'm' :: rest).dropWhile isDigit = 'm' :: rest := by
    rw [List.dropWhile_append_of_pos h, List.dropWhile_cons_of_neg (by simp [hm])]
  show codeLength ('\x1b' :: '[' :: (number ++ ['m'] ++ rest)) = _
  rw [List.append_assoc, List.singleton_append]
  simp only [codeLength, htake, hdrop]
  exact if_pos ⟨hne, rfl⟩

/-- Without codes, `ds` is left of `cs`, whatever follows. -/
def LosesCodes (cs ds : List Char) : Prop :=
  ∀ rest, withoutCodes (cs ++ rest) = ds ++ withoutCodes rest

theorem LosesCodes.withoutCodes_eq (h : LosesCodes cs ds) : withoutCodes cs = ds := by
  have hend := h []
  rwa [withoutCodes, List.append_nil, List.append_nil] at hend

theorem LosesCodes.append (h : LosesCodes cs ds) (h' : LosesCodes cs' ds') :
    LosesCodes (cs ++ cs') (ds ++ ds') := by
  intro rest
  rw [List.append_assoc, h, h', List.append_assoc]

/-- A code is taken out. -/
theorem losesCodes_terminalCode (hne : number ≠ []) (h : ∀ c ∈ number, isDigit c = true) :
    LosesCodes (terminalCode number) [] := by
  intro rest
  have hlength : codeLength ('\x1b' :: ('[' :: number ++ ['m'] ++ rest)) = number.length + 3 :=
    codeLength_terminalCode hne h rest
  show withoutCodes ('\x1b' :: ('[' :: number ++ ['m'] ++ rest)) = withoutCodes rest
  rw [withoutCodes, hlength]
  exact congrArg withoutCodes (List.drop_left' (by simp))

/-- Nothing else is taken out. -/
theorem losesCodes_of_notMem (h : '\x1b' ∉ cs) : LosesCodes cs cs := by
  intro rest
  induction cs with
  | nil => rfl
  | cons c cs ih =>
    obtain ⟨hc, hcs⟩ := List.ne_and_not_mem_of_not_mem_cons h
    rw [List.cons_append, withoutCodes, codeLength_of_ne hc.symm]
    exact congrArg (c :: ·) (ih hcs)

variable {α : Type} {xs : List α} {f g : α → List Char}

theorem losesCodes_flatMap (h : ∀ x ∈ xs, LosesCodes (f x) (g x)) :
    LosesCodes (xs.flatMap f) (xs.flatMap g) := by
  induction xs with
  | nil => exact fun _ => rfl
  | cons x xs ih =>
    obtain ⟨hx, hxs⟩ := List.forall_mem_cons.mp h
    exact hx.append (ih hxs)

theorem losesCodes_intercalate {separator : List Char} (hsep : '\x1b' ∉ separator)
    (h : ∀ x ∈ xs, LosesCodes (f x) (g x)) :
    LosesCodes (separator.intercalate (xs.map f)) (separator.intercalate (xs.map g)) := by
  induction xs with
  | nil => exact fun _ => rfl
  | cons x xs ih =>
    obtain ⟨hx, hxs⟩ := List.forall_mem_cons.mp h
    cases xs with
    | nil => simpa only [List.map_cons, List.map_nil, List.intercalate_singleton] using hx
    | cons y ys =>
      simp only [List.map_cons, List.intercalate_cons_cons]
      exact (hx.append (losesCodes_of_notMem hsep)).append (ih hxs)

/-! ## Codes on pages -/

theorem Style.isDigit_number (style : Style) : ∀ c ∈ style.number, isDigit c = true :=
  List.all_eq_true.mp (by cases style <;> decide)

theorem Style.number_ne_nil (style : Style) : style.number ≠ [] := by
  cases style <;> decide

/-- Where there is no escape character, there is no reset that a style would go on after. -/
theorem resumed_eq_self (code : List Char) (h : '\x1b' ∉ cs) : resumed code cs = cs := by
  induction cs with
  | nil => rw [resumed]
  | cons c cs ih =>
    obtain ⟨hc, hcs⟩ := List.ne_and_not_mem_of_not_mem_cons h
    have hreset : resetCode.isPrefixOf (c :: cs) = false := by
      show ('\x1b' == c && _) = false
      rw [beq_eq_false_iff_ne.mpr hc, Bool.false_and]
    rw [resumed, hreset, ih hcs]
    rfl

/-- With color, a span loses its codes and nothing else. -/
theorem losesCodes_chars {span : Span} (h : NoEscape span.text) :
    LosesCodes (span.chars true) (span.chars false) := by
  have htext : LosesCodes span.text.toList span.text.toList := losesCodes_of_notMem h
  unfold Span.chars
  split
  · exact htext
  · rename_i style _
    by_cases hempty : span.text = ""
    · simpa only [hempty, decide_true, Bool.or_true, if_true] using htext
    · have hcode := losesCodes_terminalCode style.number_ne_nil style.isDigit_number
      have hreset : LosesCodes resetCode [] :=
        losesCodes_terminalCode (by decide) (List.forall_mem_singleton.mpr (by decide))
      simp only [hempty, decide_false, Bool.not_true, Bool.or_false, Bool.not_false, if_true,
        Bool.false_eq_true, if_false, resumed_eq_self _ h]
      simpa using (hcode.append htext).append hreset

theorem losesCodes_line {line : Line} (h : line.NoEscape) :
    LosesCodes (line.text true).toList (line.text false).toList := by
  simp only [Line.text, String.toList_ofList]
  exact losesCodes_flatMap fun span hspan => losesCodes_chars (h span hspan)

theorem losesCodes_page {page : Page} (h : page.NoEscape) :
    LosesCodes (page.text true).toList (page.text false).toList := by
  simp only [Page.text, joined, String.toList_intercalate, List.map_map]
  exact losesCodes_intercalate (by decide) fun line hline => losesCodes_line (h line hline)

theorem chars_false (span : Span) : span.chars false = span.text.toList := by
  unfold Span.chars
  split <;> rfl

theorem noEscape_line {line : Line} (h : line.NoEscape) : NoEscape (line.text false) := by
  refine noEscape_ofList.mpr fun hmem => ?_
  obtain ⟨span, hspan, hchars⟩ := List.mem_flatMap.mp hmem
  rw [chars_false] at hchars
  exact h span hspan hchars

theorem noEscape_page {page : Page} (h : page.NoEscape) : NoEscape (page.text false) := by
  refine noEscape_joined (by decide) (List.forall_mem_map.mpr fun line hline => ?_)
  exact noEscape_line (h line hline)

/-- Without color the page has no escape characters; with color it is the same, but for codes. -/
structure Page.ColorsByCodes (page : Page) : Prop where
  plain : Text.NoEscape (page.text false)
  colored : withoutCodes (page.text true).toList = (page.text false).toList

theorem Page.NoEscape.colorsByCodes {page : Page} (h : page.NoEscape) : page.ColorsByCodes :=
  ⟨noEscape_page h, (losesCodes_page h).withoutCodes_eq⟩

end Report

open Report Text

/-- Where no name has an escape character, a page without color has none either; and with color,
taking out all terminal codes gives the page as it is without. -/
theorem color_is_in_codes_alone :
    (∀ model group ratio quote unit, NoEscape model → NoEscape group → quote.NoEscape →
      (quotePage model group ratio quote unit).ColorsByCodes) ∧
    (∀ model rows unit, NoEscape model → (∀ row ∈ rows, row.NoEscape) →
      (groupPage model rows unit).ColorsByCodes) ∧
    (∀ model tokens tier charge, NoEscape model → tier.NoEscape →
      (chargePage model tokens tier charge).ColorsByCodes) ∧
    (∀ name config unit, NoEscape name → config.NoEscape →
      (rulesPage name config unit).ColorsByCodes) ∧
    (∀ name config basis, NoEscape name → config.NoEscape →
      (editorPage name config basis).ColorsByCodes) ∧
    ∀ snapshot, snapshot.NoEscape → (listPage snapshot).ColorsByCodes := by
  refine ⟨fun model group ratio quote unit hmodel hgroup hquote => ?_,
    fun model rows unit hmodel hrows => ?_, fun model tokens tier charge hmodel htier => ?_,
    fun name config unit hname hconfig => ?_, fun name config basis hname hconfig => ?_,
    fun snapshot hsnapshot => ?_⟩
  · exact (noEscape_quotePage hmodel hgroup hquote ratio unit).colorsByCodes
  · exact (noEscape_groupPage hmodel hrows unit).colorsByCodes
  · exact (noEscape_chargePage hmodel htier tokens charge).colorsByCodes
  · exact (noEscape_rulesPage hname hconfig unit).colorsByCodes
  · exact (noEscape_editorPage hname hconfig basis).colorsByCodes
  · exact (noEscape_listPage hsnapshot).colorsByCodes

/-- A configuration with names that look like the rest of a code. -/
def codelikeConfig : TierConfig :=
  ⟨true, ⟨[.startingWith "1m"]⟩, 3, [⟨"[0m", .unlimited, .ratio 1.0 1.0 none⟩]⟩

/-- Right behind a code and right in front of one, a name that looks like the rest of a code stays
as it is. -/
theorem names_like_codes_stay :
    (groupPage "[31m" [] .million).text true =
        " \x1b[1m[31m\x1b[0m\n  \x1b[2mNot available to any group\x1b[0m" ∧
      withoutCodes ((groupPage "[31m" [] .million).text true).toList =
        " [31m\n  Not available to any group".toList ∧
      (quotePage "[31m" "0m" 1.0 (.tiered "[" "1m" ⟨0.4, 0.6⟩) .million).ColorsByCodes ∧
      (chargePage "[31m" ⟨1000, 7⟩ ⟨"[", "0m", .absolute 0.4 0.6⟩ ⟨.one, .zero⟩).ColorsByCodes ∧
      (rulesPage "[" codelikeConfig .thousand).ColorsByCodes ∧
      (editorPage "[" codelikeConfig ⟨500000⟩).ColorsByCodes ∧
      (listPage ⟨true, .single "[1m" codelikeConfig⟩).ColorsByCodes := by
  obtain ⟨hquote, hgroup, hcharge, hrules, heditor, hlist⟩ := color_is_in_codes_alone
  have hconfig : codelikeConfig.NoEscape :=
    ⟨List.forall_mem_singleton.mpr (show NoEscape "1m" by decide), by decide⟩
  refine ⟨by decide +kernel, ?_, hquote _ _ _ _ _ (by decide) (by decide) ⟨by decide, by decide⟩,
    hcharge _ _ _ _ (by decide) ⟨by decide, by decide⟩, hrules _ _ _ (by decide) hconfig,
    heditor _ _ _ (by decide) hconfig,
    hlist _ (List.forall_mem_singleton.mpr ⟨by decide, hconfig⟩)⟩
  rw [(hgroup "[31m" [] .million (by decide) (List.forall_mem_nil _)).colored]
  decide +kernel

end Tariff
