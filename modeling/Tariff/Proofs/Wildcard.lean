import Tariff.Proofs.Pattern

/-!
# What a list of models says

A list of models is read piece by piece. A piece may end with a star and has none before; it means
the model of its name, or with a star all models whose names start like it.

* `StarOnlyAtEnd`, `PieceMeans`: which pieces can be read, and what each says.
* `ModelPattern.exists_parse_iff`, `ModelPattern.parse_eq_error_iff`, `ModelPattern.admits_iff`: how
  a piece is read.
* `ModelPatterns.exists_parse_iff`, `ModelPatterns.parse_eq_error_iff`, `ModelPatterns.admits_iff`:
  how a list of pieces is.
* `lists_of_models_mean_their_pieces`: what is read, what is refused, and what it then says.
-/

namespace Tariff

open Text

/-- No star stands before the last character. -/
def StarOnlyAtEnd (piece : String) : Prop :=
  '*' ∉ piece.toList.dropLast

instance (piece : String) : Decidable (StarOnlyAtEnd piece) :=
  inferInstanceAs (Decidable ('*' ∉ piece.toList.dropLast))

/-- A piece without a star means the model of this name. One that ends with a star means all models
whose names start with what stands before it. -/
def PieceMeans (piece model : String) : Prop :=
  ('*' ∉ piece.toList ∧ piece = model) ∨
    ∃ stem, piece = stem ++ "*" ∧ stem.toList <+: model.toList

/-! ## Pieces -/

namespace ModelPattern

variable {piece model : String} {p : ModelPattern}

/-- What a trimmed piece is read as. -/
theorem parse_cases (h : trimmed piece = piece) :
    ('*' ∉ piece.toList ∧ parse piece = .ok (.exact piece)) ∨
    (∃ stem, '*' ∉ stem.toList ∧ piece = stem ++ "*" ∧ parse piece = .ok (.startingWith stem)) ∨
    (¬ StarOnlyAtEnd piece ∧ parse piece = .error ⟨piece⟩) := by
  have htrim : trim piece.toList = piece.toList := by
    rw [← String.ofList_inj, String.ofList_toList]
    exact h
  have hcases := ofChars_cases piece.toList
  unfold parse StarOnlyAtEnd
  rw [htrim]
  rw [String.ofList_toList] at hcases
  obtain hexact | ⟨stem, hstem, hpiece, hread⟩ | ⟨hstar, hread⟩ := hcases
  · exact .inl hexact
  · refine .inr (.inl ⟨String.ofList stem, by rwa [String.toList_ofList], ?_, hread⟩)
    rw [← String.toList_inj, String.toList_append, String.toList_ofList]
    exact hpiece
  · exact .inr (.inr ⟨not_not.mpr hstar, hread⟩)

/-- A piece can be read exactly if no star stands before its last character. -/
theorem exists_parse_iff (h : trimmed piece = piece) :
    (∃ p, parse piece = .ok p) ↔ StarOnlyAtEnd piece := by
  obtain ⟨hstar, hread⟩ | ⟨stem, hstem, rfl, hread⟩ | ⟨hstar, hread⟩ := parse_cases h
  · exact iff_of_true ⟨_, hread⟩ fun hmem => hstar ((List.dropLast_sublist _).mem hmem)
  · refine iff_of_true ⟨_, hread⟩ ?_
    unfold StarOnlyAtEnd
    rw [String.toList_append, List.dropLast_append_of_ne_nil (by decide)]
    simpa using hstem
  · refine iff_of_false ?_ hstar
    rintro ⟨p, hp⟩
    cases hread.symm.trans hp

/-- A piece that is refused is reported as it is. -/
theorem parse_eq_error_iff (h : trimmed piece = piece) {fault : MisplacedWildcard} :
    parse piece = .error fault ↔ ¬ StarOnlyAtEnd piece ∧ fault.pattern = piece := by
  rw [← exists_parse_iff h]
  obtain ⟨-, hread⟩ | ⟨stem, -, -, hread⟩ | ⟨-, hread⟩ := parse_cases h
  · rw [hread]
    simp
  · rw [hread]
    simp
  · rw [hread]
    obtain ⟨pattern⟩ := fault
    simp [eq_comm]

/-- A piece says what the pattern that it is read as admits. -/
theorem admits_iff (h : trimmed piece = piece) (hp : parse piece = .ok p) :
    p.admits model = true ↔ PieceMeans piece model := by
  unfold PieceMeans
  obtain ⟨hstar, hread⟩ | ⟨stem, hstem, rfl, hread⟩ | ⟨hstar, hread⟩ := parse_cases h
  · cases hread.symm.trans hp
    have hno : ¬ ∃ stem, piece = stem ++ "*" ∧ stem.toList <+: model.toList := by
      rintro ⟨stem, rfl, -⟩
      exact hstar (by simp)
    simp [admits, hstar, hno]
  · cases hread.symm.trans hp
    simp [admits, List.isPrefixOf_iff_prefix]
  · cases hread.symm.trans hp

end ModelPattern

/-! ## Lists -/

namespace ModelPatterns

variable {raw model : String}

/-- The pieces of a list are trimmed. -/
theorem trimmed_of_mem {piece : String} (h : piece ∈ trimmedPieces ',' raw) :
    trimmed piece = piece :=
  (isPiece_of_mem h).2.1

/-- A list can be read exactly if each of its pieces can. -/
theorem exists_parse_iff :
    (∃ models, parse raw = .ok models) ↔ ∀ piece ∈ trimmedPieces ',' raw, StarOnlyAtEnd piece := by
  unfold parse
  rw [exists_map_eq_ok_iff, exists_mapM_eq_ok_iff]
  exact forall₂_congr fun piece hpiece => ModelPattern.exists_parse_iff (trimmed_of_mem hpiece)

/-- A list that is refused is refused for the first of its pieces that cannot be read. -/
theorem parse_eq_error_iff {fault : MisplacedWildcard} :
    parse raw = .error fault ↔
      ∃ earlier later, trimmedPieces ',' raw = earlier ++ fault.pattern :: later ∧
        (∀ piece ∈ earlier, StarOnlyAtEnd piece) ∧ ¬ StarOnlyAtEnd fault.pattern := by
  unfold parse
  rw [map_eq_error_iff, mapM_eq_error_iff]
  -- No piece has blanks around it, so each is reported as it stands in the list.
  have hread : ∀ piece ∈ trimmedPieces ',' raw,
      ((∃ p, ModelPattern.parse piece = .ok p) ↔ StarOnlyAtEnd piece) ∧
      (ModelPattern.parse piece = .error fault ↔ ¬ StarOnlyAtEnd piece ∧ fault.pattern = piece) :=
    fun piece hpiece => ⟨ModelPattern.exists_parse_iff (trimmed_of_mem hpiece),
      ModelPattern.parse_eq_error_iff (trimmed_of_mem hpiece)⟩
  generalize trimmedPieces ',' raw = parts at hread ⊢
  constructor
  · rintro ⟨earlier, piece, later, rfl, hearlier, hpiece⟩
    rw [List.forall_mem_append, List.forall_mem_cons] at hread
    obtain ⟨hothers, hfirst, -⟩ := hread
    obtain ⟨hstar, rfl⟩ := hfirst.2.mp hpiece
    exact ⟨earlier, later, rfl,
      fun other hother => (hothers other hother).1.mp (hearlier other hother), hstar⟩
  · rintro ⟨earlier, later, rfl, hearlier, hstar⟩
    rw [List.forall_mem_append, List.forall_mem_cons] at hread
    obtain ⟨hothers, hfirst, -⟩ := hread
    exact ⟨earlier, fault.pattern, later, rfl,
      fun other hother => (hothers other hother).1.mpr (hearlier other hother),
      hfirst.2.mpr ⟨hstar, rfl⟩⟩

/-- A list that is read admits the models that its pieces mean. -/
theorem admits_iff {models : ModelPatterns} (h : parse raw = .ok models) :
    models.admits model = true ↔ ∃ piece ∈ trimmedPieces ',' raw, PieceMeans piece model := by
  obtain ⟨items, hitems, rfl⟩ := map_eq_ok_iff.mp h
  have hpieces : ∀ piece ∈ trimmedPieces ',' raw, trimmed piece = piece :=
    fun _ => trimmed_of_mem
  have hall := mapM_eq_ok_iff.mp hitems
  clear h hitems
  change items.any (·.admits model) = true ↔ _
  generalize trimmedPieces ',' raw = parts at hpieces hall ⊢
  -- Along the pieces, next to the patterns that they are read as.
  induction hall with
  | nil => simp
  | cons hp _ ih =>
    obtain ⟨hpiece, hpieces⟩ := List.forall_mem_cons.mp hpieces
    rw [List.any_cons, Bool.or_eq_true, ModelPattern.admits_iff hpiece hp, ih hpieces,
      List.exists_mem_cons_iff]

end ModelPatterns

/-- The pieces of a list of models are what stands between its commas, without the blanks around it,
the empty ones left out. The list can be read exactly if no piece has a star before its last
character, and else the first piece that has is reported. A list that is read admits exactly the
models that one of its pieces means, and its written form is read as the same list. -/
theorem lists_of_models_mean_their_pieces (raw : String) :
    (joined "," (pieces ',' raw) = raw ∧ (∀ part ∈ pieces ',' raw, ',' ∉ part.toList) ∧
      trimmedPieces ',' raw = ((pieces ',' raw).map trimmed).filter (· ≠ "")) ∧
    ((∃ models, ModelPatterns.parse raw = .ok models) ↔
      ∀ piece ∈ trimmedPieces ',' raw, StarOnlyAtEnd piece) ∧
    (∀ fault, ModelPatterns.parse raw = .error fault ↔
      ∃ earlier later, trimmedPieces ',' raw = earlier ++ fault.pattern :: later ∧
        (∀ piece ∈ earlier, StarOnlyAtEnd piece) ∧ ¬ StarOnlyAtEnd fault.pattern) ∧
    ∀ models, ModelPatterns.parse raw = .ok models →
      (∀ model, models.admits model = true ↔
        ∃ piece ∈ trimmedPieces ',' raw, PieceMeans piece model) ∧
      ModelPatterns.parse models.text = .ok models := by
  refine ⟨⟨joined_pieces ',' raw, fun part => not_mem_of_mem_pieces, rfl⟩,
    ModelPatterns.exists_parse_iff, fun fault => ModelPatterns.parse_eq_error_iff, ?said⟩
  case said =>
    intro models h
    exact ⟨fun model => ModelPatterns.admits_iff h, ModelPatterns.parse_text h⟩

/-- A list with blanks and empty pieces, and one whose second piece cannot be read. -/
theorem spaced_list_is_read :
    ModelPatterns.parse " gpt-4o , claude-*,, " = .ok ⟨[.exact "gpt-4o", .startingWith "claude-"]⟩ ∧
    (ModelPatterns.admits ⟨[.exact "gpt-4o", .startingWith "claude-"]⟩ "claude-sonnet-4" = true ↔
      ∃ piece ∈ trimmedPieces ',' " gpt-4o , claude-*,, ", PieceMeans piece "claude-sonnet-4") ∧
    ModelPatterns.parse (ModelPatterns.text ⟨[.exact "gpt-4o", .startingWith "claude-"]⟩) =
      .ok ⟨[.exact "gpt-4o", .startingWith "claude-"]⟩ ∧
    ModelPatterns.parse "a, b*c ,d**" = .error ⟨"b*c"⟩ := by
  have hread : ModelPatterns.parse " gpt-4o , claude-*,, " =
      .ok ⟨[.exact "gpt-4o", .startingWith "claude-"]⟩ := by decide
  obtain ⟨-, -, -, hmeans⟩ := lists_of_models_mean_their_pieces " gpt-4o , claude-*,, "
  obtain ⟨hadmits, hback⟩ := hmeans _ hread
  obtain ⟨-, -, hrefused, -⟩ := lists_of_models_mean_their_pieces "a, b*c ,d**"
  refine ⟨hread, hadmits _, hback, (hrefused _).mpr ⟨["a"], ["d**"], ?_, ?_, ?_⟩⟩
  · decide
  · decide
  · decide

end Tariff
