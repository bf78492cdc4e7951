import Tariff.Json.Reader
import Tariff.Proofs.Json.Tokens

/-!
# Reading back what is written

The tokens of a value take the machine that builds documents from any place where a value may come
to the place behind its document, whatever is still open.

* `foldl_spelled`, `foldl_spelledItems`, `foldl_spelledFields`: the run over a value, over items and
  over fields.
* `readText_pretty`, `readText_compact`: both texts of a value hold its document and nothing more.
-/

namespace Tariff.Json

/-- No value starts with the end of a list. -/
theorem head_spelled (v : Json) : ∃ t ts, spelled v = t :: ts ∧ t ≠ .closeArray := by
  cases v <;> exact ⟨_, _, by rw [spelled], by rintro ⟨⟩⟩

theorem head_spelledItems (v : Json) (vs : List Json) :
    ∃ t ts, spelledItems (v :: vs) = t :: ts ∧ t ≠ .closeArray := by
  obtain ⟨t, ts, ht, hne⟩ := head_spelled v
  cases vs with
  | nil => exact ⟨t, ts, by rw [spelledItems, ht], hne⟩
  | cons w ws =>
    refine ⟨t, ts ++ .comma :: spelledItems (w :: ws), ?_, hne⟩
    rw [spelledItems, ht]
    · rfl
    · exact List.cons_ne_nil w ws

theorem head_spelledFields (key : String) (v : Json) (fs : List (String × Json)) :
    ∃ ts, spelledFields ((key, v) :: fs) = .string (some key) :: ts := by
  cases fs with
  | nil => exact ⟨_, by rw [spelledFields]⟩
  | cons f fs => exact ⟨_, by rw [spelledFields]; exact List.cons_ne_nil f fs⟩

/-- The first item of a list comes where any item may. -/
theorem step_firstItem (outer : List Frame) {t : Token} (h : t ≠ .closeArray) :
    State.step (.firstItem outer) t = State.step (.value (.list [] :: outer)) t := by
  cases t <;> first | rfl | exact absurd rfl h

mutual

/-- The tokens of a value deliver its document. -/
theorem foldl_spelled : (v : Json) → (outer : List Frame) →
    (spelled v).foldl State.step (.value outer) = .deliver v.document outer
  | null, _ => rfl
  | bool _, _ => rfl
  | integer _, _ => rfl
  | real x, _ => by
    rw [spelled, document]
    split <;> rfl
  | string _, _ => rfl
  | array [], _ => rfl
  | array (v :: vs), outer => by
    obtain ⟨t, ts, ht, hne⟩ := head_spelledItems v vs
    have hitems := foldl_spelledItems (v :: vs) (List.cons_ne_nil v vs) [] outer
    rw [List.append_nil, ht, List.foldl_cons, ← step_firstItem outer hne] at hitems
    rw [spelled, document, ht]
    simp only [List.cons_append, List.foldl_cons, List.foldl_append, List.foldl_nil]
    have hopen : State.step (.value outer) .openArray = .firstItem outer := rfl
    rw [hopen, hitems]
    simp only [State.step, List.reverse_reverse]
  | object [], _ => rfl
  | object ((key, v) :: fs), outer => by
    obtain ⟨ts, ht⟩ := head_spelledFields key v fs
    have hfields := foldl_spelledFields ((key, v) :: fs) (List.cons_ne_nil _ fs) [] outer
    -- The first key comes where any key may.
    have hfirst : State.step (.firstKey outer) (.string (some key)) =
        State.step (.nextKey [] outer) (.string (some key)) := rfl
    have hopen : State.step (.value outer) .openObject = .firstKey outer := rfl
    rw [List.append_nil, ht, List.foldl_cons, ← hfirst] at hfields
    rw [spelled, document, ht]
    simp only [List.cons_append, List.foldl_cons, List.foldl_append, List.foldl_nil]
    rw [hopen, hfields]
    simp only [State.step, List.reverse_reverse]

/-- The tokens of items put their documents on the list that is open. -/
theorem foldl_spelledItems : (vs : List Json) → vs ≠ [] → (items : List Document) →
    (outer : List Frame) → (spelledItems vs).foldl State.step (.value (.list items :: outer)) =
      .afterItem ((documents vs).reverse ++ items) outer
  | [v], _, items, outer => by
    rw [spelledItems, foldl_spelled v]
    rfl
  | v :: w :: vs, _, items, outer => by
    rw [spelledItems]
    · rw [List.foldl_append, foldl_spelled v, List.foldl_cons]
      have hcomma : State.step (.deliver v.document (.list items :: outer)) .comma =
          .value (.list (v.document :: items) :: outer) := rfl
      rw [hcomma, foldl_spelledItems (w :: vs) (List.cons_ne_nil w vs), documents.eq_2 v]
      simp only [List.reverse_cons, List.append_assoc, List.cons_append, List.nil_append]
    · exact List.cons_ne_nil w vs

/-- The tokens of fields put their documents into the record that is open. -/
theorem foldl_spelledFields : (fs : List (String × Json)) → fs ≠ [] →
    (fields : List (Option String × Document)) → (outer : List Frame) →
    (spelledFields fs).foldl State.step (.nextKey fields outer) =
      .afterField ((fieldDocuments fs).reverse ++ fields) outer
  | [(key, v)], _, fields, outer => by
    rw [spelledFields, List.foldl_cons, List.foldl_cons]
    exact foldl_spelled v (.record fields (some key) :: outer)
  | (key, v) :: f :: fs, _, fields, outer => by
    rw [spelledFields]
    · rw [List.foldl_cons, List.foldl_cons]
      have hkey : State.step (State.step (.nextKey fields outer) (.string (some key))) .colon =
          .value (.record fields (some key) :: outer) := rfl
      have hcomma : State.step (.deliver v.document (.record fields (some key) :: outer)) .comma =
          .nextKey ((some key, v.document) :: fields) outer := rfl
      rw [hkey, List.foldl_append, foldl_spelled v, List.foldl_cons, hcomma,
        foldl_spelledFields (f :: fs) (List.cons_ne_nil f fs), fieldDocuments.eq_2 key v]
      simp only [List.reverse_cons, List.append_assoc, List.cons_append, List.nil_append]
    · exact List.cons_ne_nil f fs

end

/-- The text of a value holds its document and nothing more, wherever it is laid out. -/
theorem readText_write (place : Place) {v : Json} (h : v.Fits) :
    readText (String.ofList (write place v)) = (v.document, true) := by
  have htokens := tokens_write place v [] h (by rintro c ⟨⟩)
  rw [List.append_nil, tokens, List.append_nil] at htokens
  unfold readText
  rw [String.toList_ofList, htokens, foldl_spelled]
  rfl

theorem readText_pretty {v : Json} (h : v.Fits) : readText v.pretty = (v.document, true) :=
  readText_write (.line 0) h

theorem readText_compact {v : Json} (h : v.Fits) : readText v.compact = (v.document, true) :=
  readText_write .inline h

/-- A text that holds a document and nothing more is read as the document is. -/
theorem decode_of_readText {α : Type} {s : String} {d : Document} (read : Document → Read α)
    (h : readText s = (d, true)) : decode read s = read d := by
  unfold decode
  rw [h]
  show (read d).bind (fun value => if true = true then .ok value else _) = _
  cases read d <;> rfl

/-- What is written is read as what reading its document gives. -/
theorem decode_pretty {α : Type} (read : Document → Read α) {v : Json} (h : v.Fits) :
    decode read v.pretty = read v.document :=
  decode_of_readText read (readText_pretty h)

theorem decode_compact {α : Type} (read : Document → Read α) {v : Json} (h : v.Fits) :
    decode read v.compact = read v.document :=
  decode_of_readText read (readText_compact h)

end Tariff.Json
