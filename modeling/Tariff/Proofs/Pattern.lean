import Mathlib.Data.List.DropRight
import Tariff.Proofs.Results
import Tariff.Tier.Pattern

/-!
# Lists of models, written and read again

* `trim_trim`: a trimmed text has no blanks to lose. `trimmed_eq_empty_iff`: a blank text is trimmed
  to nothing.
* `joined_pieces`, `not_mem_of_mem_pieces`: the pieces of a text are what stands between separators.
  `pieces_joined`: what is joined by separators falls into its parts.
* `trimmedPieces_joined`: the pieces of a text, joined again, are the pieces of what they make up.
* `ModelPattern.ofChars_cases`: what a pattern is read as, by where its first star stands.
* `ModelPattern.text_of_parse`: a pattern is written as it was read, without the blanks around it.
* `ModelPatterns.parse_text`: what a list of models was read as is what its written form is read as.
-/

namespace Tariff

open Text

namespace Text

/-! ## Trimming -/

theorem trim_sublist (cs : List Char) : (trim cs).Sublist cs :=
  (List.rdropWhile_prefix isBlank (trimLeft cs)).sublist.trans (List.dropWhile_sublist isBlank)

/-- What is left of a text, if anything, starts with no blank. -/
theorem trimLeft_cases (cs : List Char) :
    trimLeft cs = [] ∨ ∃ c rest, trimLeft cs = c :: rest ∧ isBlank c = false := by
  cases hcs : trimLeft cs with
  | nil => exact .inl rfl
  | cons c rest =>
    have hhead := List.head?_dropWhile_not isBlank cs
    rw [show cs.dropWhile isBlank = c :: rest from hcs] at hhead
    exact .inr ⟨c, rest, rfl, by simpa using hhead⟩

theorem trimLeft_trim (cs : List Char) : trimLeft (trim cs) = trim cs := by
  obtain ⟨tail, htail⟩ := List.rdropWhile_prefix isBlank (trimLeft cs)
  have htrim : trim cs ++ tail = trimLeft cs := htail
  cases hcs : trim cs with
  | nil => rfl
  | cons c rest =>
    -- A text that is left starts as the text without the blanks in front.
    rw [hcs, List.cons_append] at htrim
    obtain hnil | ⟨c', rest', hcons, hc⟩ := trimLeft_cases cs
    · cases htrim.trans hnil
    · cases htrim.trans hcons
      rw [trimLeft, List.dropWhile_cons_of_neg (by simp [hc])]

/-- A trimmed text has no blanks to lose. -/
theorem trim_trim (cs : List Char) : trim (trim cs) = trim cs := by
  show trimRight (trimLeft (trim cs)) = trim cs
  rw [trimLeft_trim]
  exact List.rdropWhile_idempotent isBlank (trimLeft cs)

theorem trimmed_trimmed (s : String) : trimmed (trimmed s) = trimmed s := by
  unfold trimmed
  rw [String.toList_ofList, trim_trim]

theorem trim_eq_nil_iff {cs : List Char} : trim cs = [] ↔ cs.all isBlank = true := by
  have hleft : trimLeft cs = [] ↔ cs.all isBlank = true := by
    rw [List.all_eq_true]
    exact List.dropWhile_eq_nil_iff
  rw [← hleft]
  constructor
  · intro h
    have hblank : ∀ c ∈ trimLeft cs, isBlank c = true := List.rdropWhile_eq_nil_iff.mp h
    obtain hnil | ⟨c, rest, hcons, hc⟩ := trimLeft_cases cs
    · exact hnil
    · have hc' := hblank c (by simp [hcons])
      simp [hc] at hc'
  · intro h
    show trimRight (trimLeft cs) = []
    rw [h]
    rfl

/-- Trimming leaves nothing of a blank text, and something of any other. -/
theorem trimmed_eq_empty_iff {s : String} : trimmed s = "" ↔ isBlankText s = true := by
  unfold isBlankText
  rw [← trim_eq_nil_iff, ← String.toList_inj, trimmed, String.toList_ofList]
  rfl

/-! ## Pieces -/

theorem not_mem_of_mem_splitOn {separator : Char} {cs piece : List Char}
    (h : piece ∈ cs.splitOn separator) : separator ∉ piece := by
  induction cs generalizing piece with
  | nil =>
    rw [List.splitOn_nil, List.mem_singleton] at h
    rw [h]
    exact List.not_mem_nil
  | cons c cs ih =>
    rw [List.splitOn_cons_eq_if_modifyHead] at h
    by_cases hc : c = separator
    · rw [if_pos (beq_iff_eq.mpr hc)] at h
      rcases List.mem_cons.mp h with rfl | h
      · exact List.not_mem_nil
      · exact ih h
    · rw [if_neg (fun heq => hc (beq_iff_eq.mp heq))] at h
      cases hsplit : cs.splitOn separator with
      | nil =>
        rw [hsplit] at h
        cases h
      | cons first rest =>
        rw [hsplit, List.modifyHead_cons] at h
        rcases List.mem_cons.mp h with rfl | h
        · rw [List.mem_cons, not_or]
          exact ⟨fun heq => hc heq.symm, ih (hsplit ▸ List.mem_cons_self)⟩
        · exact ih (hsplit ▸ List.mem_cons_of_mem first h)

/-- The pieces of a text, with the separators put back, are the text. -/
theorem joined_pieces (separator : Char) (s : String) :
    joined (String.ofList [separator]) (pieces separator s) = s := by
  have hparts : (pieces separator s).map String.toList = s.toList.splitOn separator := by
    unfold pieces
    rw [List.map_map]
    exact (List.map_congr_left fun cs _ => String.toList_ofList).trans (List.map_id _)
  unfold joined
  rw [← String.toList_inj, String.toList_intercalate, String.toList_ofList, hparts,
    List.intercalate_splitOn]

theorem not_mem_of_mem_pieces {separator : Char} {s piece : String}
    (h : piece ∈ pieces separator s) : separator ∉ piece.toList := by
  obtain ⟨cs, hcs, rfl⟩ := List.mem_map.mp h
  rw [String.toList_ofList]
  exact not_mem_of_mem_splitOn hcs

/-- A piece between separators: without one, trimmed, and not empty. -/
def IsPiece (separator : Char) (s : String) : Prop :=
  separator ∉ s.toList ∧ trimmed s = s ∧ s ≠ ""

theorem isPiece_of_mem {separator : Char} {s piece : String}
    (h : piece ∈ trimmedPieces separator s) : IsPiece separator piece := by
  obtain ⟨hmem, hne⟩ := List.mem_filter.mp h
  obtain ⟨raw, hraw, rfl⟩ := List.mem_map.mp hmem
  refine ⟨fun hsep => ?_, trimmed_trimmed _, of_decide_eq_true hne⟩
  unfold trimmed at hsep
  rw [String.toList_ofList] at hsep
  exact not_mem_of_mem_pieces hraw ((trim_sublist raw.toList).mem hsep)

/-- Texts without the separator, joined by it, are the pieces of what they make up. -/
theorem pieces_joined {separator : Char} {parts : List String} (hnil : parts ≠ [])
    (h : ∀ part ∈ parts, separator ∉ part.toList) :
    pieces separator (joined (String.ofList [separator]) parts) = parts := by
  unfold pieces joined
  rw [String.toList_intercalate, String.toList_ofList, List.splitOn_intercalate]
  · rw [List.map_map]
    exact (List.map_congr_left fun s _ => String.ofList_toList).trans (List.map_id parts)
  · exact List.forall_mem_map.mpr h
  · exact fun hmap => hnil (List.map_eq_nil_iff.mp hmap)

/-- The pieces of a text, joined again, are the pieces of what they make up. -/
theorem trimmedPieces_joined {separator : Char} {parts : List String}
    (h : ∀ part ∈ parts, IsPiece separator part) :
    trimmedPieces separator (joined (String.ofList [separator]) parts) = parts := by
  by_cases hnil : parts = []
  · -- Nothing is the one piece of nothing, which is left out.
    rw [hnil, joined, String.intercalate_nil]
    rfl
  · have hpieces : pieces separator (joined (String.ofList [separator]) parts) = parts :=
      pieces_joined hnil fun part hpart => (h part hpart).1
    unfold trimmedPieces
    rw [hpieces, List.map_congr_left fun part hpart => (h part hpart).2.1, List.map_id',
      List.filter_eq_self]
    exact fun part hpart => decide_eq_true (h part hpart).2.2

end Text

/-! ## Patterns -/

namespace ModelPattern

/-- A pattern has no star, or one as its last character, or it is refused: one stands before the
last character. -/
theorem ofChars_cases (cs : List Char) :
    ('*' ∉ cs ∧ ofChars cs = .ok (.exact (String.ofList cs))) ∨
    (∃ stem, '*' ∉ stem ∧ cs = stem ++ ['*'] ∧
      ofChars cs = .ok (.startingWith (String.ofList stem))) ∨
    ('*' ∈ cs.dropLast ∧ ofChars cs = .error ⟨String.ofList cs⟩) := by
  have hsplit := List.takeWhile_append_dropWhile (p := (· ≠ '*')) (l := cs)
  have hstem : '*' ∉ cs.takeWhile (· ≠ '*') := fun hmem => by
    simpa using List.mem_takeWhile_imp hmem
  have hhead := List.head?_dropWhile_not (· ≠ '*') cs
  unfold ofChars
  cases hdrop : cs.dropWhile (· ≠ '*') with
  | nil =>
    rw [hdrop, List.append_nil] at hsplit
    rw [hsplit] at hstem
    exact .inl ⟨hstem, rfl⟩
  | cons c rest =>
    -- What stops the search for a star is a star.
    obtain rfl : c = '*' := by
      rw [hdrop] at hhead
      simpa using hhead
    rw [hdrop] at hsplit
    cases rest with
    | nil => exact .inr (.inl ⟨_, hstem, hsplit.symm, rfl⟩)
    | cons d rest =>
      refine .inr (.inr ⟨?_, rfl⟩)
      rw [← hsplit, List.dropLast_append_of_ne_nil (List.cons_ne_nil _ _)]
      exact List.mem_append_right _ List.mem_cons_self

/-- A pattern is written as it was read, without the blanks around it. -/
theorem text_of_parse {raw : String} {p : ModelPattern} (h : parse raw = .ok p) :
    p.text = trimmed raw := by
  unfold parse at h
  unfold trimmed
  obtain ⟨-, hread⟩ | ⟨stem, -, hcs, hread⟩ | ⟨-, hread⟩ := ofChars_cases (trim raw.toList)
  · cases hread.symm.trans h
    rfl
  · cases hread.symm.trans h
    rw [hcs, text, String.ofList_append]
  · cases hread.symm.trans h

end ModelPattern

/-- What a list of models was read as is what its written form is read as. -/
theorem ModelPatterns.parse_text {raw : String} {models : ModelPatterns}
    (h : ModelPatterns.parse raw = .ok models) : ModelPatterns.parse models.text = .ok models := by
  obtain ⟨items, hitems, rfl⟩ := map_eq_ok_iff.mp h
  have htexts : items.map ModelPattern.text = trimmedPieces ',' raw := by
    have hpieces : ∀ piece ∈ trimmedPieces ',' raw, trimmed piece = piece :=
      fun piece hpiece => (isPiece_of_mem hpiece).2.1
    have hall := mapM_eq_ok_iff.mp hitems
    clear h hitems
    generalize trimmedPieces ',' raw = parts at hpieces hall ⊢
    induction hall with
    | nil => rfl
    | cons hp _ ih =>
      obtain ⟨hpiece, hpieces⟩ := List.forall_mem_cons.mp hpieces
      rw [List.map_cons, ih hpieces, ModelPattern.text_of_parse hp, hpiece]
  have hjoined : trimmedPieces ',' (joined "," (items.map ModelPattern.text)) =
      trimmedPieces ',' raw := by
    rw [htexts]
    exact trimmedPieces_joined fun piece hpiece => isPiece_of_mem hpiece
  unfold parse text
  rw [hjoined, hitems]
  rfl

end Tariff
