import Tariff.Proofs.Toml.Run

/-!
# Sections are read as they were written

* `run_key`, `run_value`: the run over a key, and over a value.
* `run_section`: over a whole section, which adds to the tree what `Section.add?` says.
* `readText?_sectionsText`: a text of sections is read as the tree that they make up.
-/

namespace Tariff.Toml

open Text

/-! ## What is added -/

/-- What a value is read as. -/
def Value.document : Value → Document
  | text s => .text s
  | integer n => .integer n
  | real x => .real x
  | texts items => .list (items.map .text)

/-- The path of the table that a header opens. -/
def Header.path : Header → List String
  | none => []
  | table name => [name]
  | item name => [name]

/-- What a header does to the tree. -/
def Header.open? : Header → Entries → Option Entries
  | none => some
  | table name => openTable [name]
  | item name => openItem [name]

/-- Adds a value under a key to the table at the end of a path. -/
def addField? (path : List String) (tree : Entries) (field : String × Value) : Option Entries :=
  within path (insertKey [field.1] (.value field.2.document)) tree

/-- What a section adds to the tree. -/
def Section.add? (tree : Entries) (part : Section) : Option Entries :=
  (part.header.open? tree).bind (part.fields.foldlM (addField? part.header.path))

variable {rest : List Char} {tree : Entries} {path : List String}

/-! ## Keys -/

theorem isBareKey_iff {cs : List Char} :
    isBareKey cs = true ↔ cs ≠ [] ∧ ∀ c ∈ cs, isNameChar c = true := by
  simp [isBareKey, isNameChar]

theorem isWordChar_of_isNameChar {c : Char} (h : isNameChar c = true) : isWordChar c = true := by
  simp only [isNameChar, isWordChar, Bool.or_eq_true] at h ⊢
  grind

/-- A key is one token, and a whole key. -/
theorem exists_keyToken (cs : List Char) :
    ∃ t, (t = .word cs ∨ t = .string cs) ∧
      KeyPath.empty.addToken? t = some ⟨[String.ofList cs], true⟩ ∧
      ∀ rest, Stops rest → tokens (keyChars cs ++ rest) = t :: tokens rest := by
  by_cases hbare : isBareKey cs = true
  · have hkey : keyChars cs = cs := by simp [keyChars, hbare]
    obtain ⟨hne, hchars⟩ := isBareKey_iff.mp hbare
    have hpoint : '.' ∉ cs := by
      intro hmem
      have := hchars '.' hmem
      simp [isNameChar] at this
    have hsplit : cs.splitOn '.' = [cs] := List.splitOn_eq_singleton hpoint
    refine ⟨.word cs, .inl rfl, ?_, fun rest hrest => ?_⟩
    · have hall : (cs.all fun c => isNameChar c || c == '.') = true := by
        simp only [List.all_eq_true]
        intro c hc
        rw [Bool.or_eq_true]
        exact .inl (hchars c hc)
      simp [KeyPath.addToken?, keyParts?, hall, wordParts, hsplit, hne, KeyPath.add?, KeyPath.empty]
    · rw [hkey]
      exact tokens_word hne (fun c hc => isWordChar_of_isNameChar (hchars c hc)) hrest
  · rw [Bool.not_eq_true] at hbare
    refine ⟨.string cs, .inr rfl, rfl, fun rest hrest => ?_⟩
    exact tokens_of_scanQuoted (scanQuoted_keyChars hbare hrest.noQuote)

/-- A key starts as a word or a string does. -/
theorem head_keyText (key : String) (rest : List Char) :
    ∀ c ∈ ((keyText key).toList ++ rest).head?, isWordChar c = true ∨ c = '"' ∨ c = '\'' := by
  rw [keyText, String.toList_ofList]
  by_cases hbare : isBareKey key.toList = true
  · obtain ⟨hne, hchars⟩ := isBareKey_iff.mp hbare
    obtain ⟨c, tail, hc⟩ := List.exists_cons_of_ne_nil hne
    have hword := isWordChar_of_isNameChar (hchars c (by simp [hc]))
    rw [keyChars, if_pos hbare, hc]
    simp [hword]
  · unfold keyChars
    rw [if_neg hbare]
    split_ifs <;> simp

/-- Whatever starts with a key goes on behind it. -/
theorem run_key (state next : State) (key : String) (hrest : Stops rest)
    (h : ∀ t, (t = .word key.toList ∨ t = .string key.toList) →
      KeyPath.empty.addToken? t = some ⟨[key], true⟩ →
      Reader.stepToken ⟨tree, path, state⟩ t = some ⟨tree, path, next⟩) :
    Reader.run ⟨tree, path, state⟩ ((keyText key).toList ++ rest) =
      Reader.run ⟨tree, path, next⟩ rest := by
  obtain ⟨t, ht, hadd, htokens⟩ := exists_keyToken key.toList
  rw [String.ofList_toList] at hadd
  rw [keyText, String.toList_ofList, Reader.run_token (htokens rest hrest), h t ht hadd]
  rfl

/-- A key with a sign behind it is the key of a value. -/
theorem run_keyOfLine (tree : Entries) (path : List String) (key : String) (rest : List Char) :
    Reader.run ⟨tree, path, .line⟩ ((keyText key).toList ++ ' ' :: '=' :: ' ' :: rest) =
      Reader.run ⟨tree, path, .value [key] []⟩ rest := by
  have hstops : Stops (' ' :: '=' :: ' ' :: rest) := ⟨' ', _, rfl, .inr ⟨rfl, rfl⟩⟩
  have hkey (t : Token) (ht : t = .word key.toList ∨ t = .string key.toList)
      (hadd : KeyPath.empty.addToken? t = some ⟨[key], true⟩) :
      Reader.stepToken ⟨tree, path, .line⟩ t = some ⟨tree, path, .key ⟨[key], true⟩⟩ := by
    rcases ht with rfl | rfl <;> simp [Reader.stepToken, Reader.step, hadd, Reader.goTo]
  have hequals : Reader.stepToken ⟨tree, path, .key ⟨[key], true⟩⟩ .equals =
      some ⟨tree, path, .value [key] []⟩ := rfl
  rw [run_key _ _ key hstops hkey, Reader.run_space, Reader.run_equals, hequals, Option.bind_some,
    Reader.run_space]

/-! ## Values -/

/-- A string is one token, and delivered wherever a value may come. -/
theorem run_string {r : Reader} {next : Option Reader} (s : String) (hrest : Stops rest)
    (h : ∀ t, (t = .string s.toList ∨ t = .block s.toList) → r.stepToken t = next) :
    r.run ((stringText s).toList ++ rest) = next.bind (·.run rest) := by
  rw [stringText, String.toList_ofList]
  rcases scanQuoted_stringChars s.toList hrest.noQuote with hscan | hscan
  · rw [Reader.run_token (tokens_of_scanQuoted hscan), h _ (.inl rfl)]
  · rw [Reader.run_token (tokens_of_scanQuoted hscan), h _ (.inr rfl)]

/-- A string starts with a mark of its own. -/
theorem head_stringText (s : String) (hrest : Stops rest) :
    ((stringText s).toList ++ rest).head? ≠ some '[' := by
  have hhead : ∃ c tail, stringChars s.toList ++ rest = c :: tail ∧ (c = '"' ∨ c = '\'') := by
    rcases scanQuoted_stringChars s.toList hrest.noQuote with hscan | hscan
    · exact head_of_scanQuoted hscan
    · exact head_of_scanQuoted hscan
  obtain ⟨c, tail, heq, hc⟩ := hhead
  rw [stringText, String.toList_ofList, heq]
  rcases hc with rfl | rfl <;> simp

/-- A word is one token, and stands for a value. -/
theorem run_word {cs : List Char} {d : Document} {key : List String} (h : Spells cs d)
    (hrest : Stops rest) :
    Reader.run ⟨tree, path, .value key []⟩ (cs ++ rest) =
      (Reader.deliver ⟨tree, path, .value key []⟩ key d []).bind (·.run rest) := by
  have hstep : Reader.stepToken ⟨tree, path, .value key []⟩ (.word cs) =
      Reader.deliver ⟨tree, path, .value key []⟩ key d [] := by
    simp [Reader.stepToken, Reader.step, Reader.begin, h.value]
  rw [Reader.run_token (tokens_word h.ne_nil h.chars hrest), hstep]

theorem stops_cons {c : Char} (h : c ∈ ['\n', ',', ']']) (rest : List Char) : Stops (c :: rest) :=
  ⟨c, rest, rfl, .inl h⟩

/-- A string of a list, with a comma and on a line of its own. -/
def itemChars (s : String) : List Char :=
  [' ', ' ', ' ', ' '] ++ (stringText s).toList ++ [',', '\n']

/-- A string where an item may come is put on the list. -/
theorem run_item (key : List String) (s : String) (ds : List Document) (hrest : Stops rest) :
    Reader.run ⟨tree, path, .item key ds []⟩ ((stringText s).toList ++ rest) =
      Reader.run ⟨tree, path, .afterItem key (.text s :: ds) []⟩ rest := by
  have hstring (t : Token) (ht : t = .string s.toList ∨ t = .block s.toList) :
      Reader.stepToken ⟨tree, path, .item key ds []⟩ t =
        some ⟨tree, path, .afterItem key (.text s :: ds) []⟩ := by
    rcases ht with rfl | rfl <;>
      simp [Reader.stepToken, Reader.step, Reader.begin, Reader.deliver, Reader.goTo]
  rw [run_string s hrest hstring, Option.bind_some]

theorem run_items (key : List String) (items : List String) (ds : List Document)
    (rest : List Char) :
    Reader.run ⟨tree, path, .item key ds []⟩ (items.flatMap itemChars ++ rest) =
      Reader.run ⟨tree, path, .item key ((items.map .text).reverse ++ ds) []⟩ rest := by
  induction items generalizing ds with
  | nil => rfl
  | cons s items ih =>
    have hcomma : Reader.stepToken ⟨tree, path, .afterItem key (.text s :: ds) []⟩ .comma =
        some ⟨tree, path, .item key (.text s :: ds) []⟩ := rfl
    have hline : Reader.stepToken ⟨tree, path, .item key (.text s :: ds) []⟩ .newline =
        some ⟨tree, path, .item key (.text s :: ds) []⟩ := rfl
    simp only [List.flatMap_cons, itemChars, List.cons_append, List.nil_append, List.append_assoc,
      Reader.run_space]
    rw [run_item key s ds (stops_cons (by simp) _), Reader.run_comma, hcomma, Option.bind_some,
      Reader.run_newline, hline, Option.bind_some]
    simpa [itemChars] using ih (.text s :: ds)

theorem toList_joined (parts : List String) :
    (joined "" parts).toList = parts.flatMap String.toList := by
  rw [joined, String.toList_intercalate]
  induction parts with
  | nil => rfl
  | cons s parts ih =>
    cases parts with
    | nil => simp
    | cons s' parts =>
      rw [List.map_cons, List.map_cons, List.intercalate_cons_cons, ← List.map_cons, ih]
      simp

/-- A list of strings, in any of its forms, is delivered as a whole. -/
theorem run_texts (key : List String) (items : List String) (rest : List Char) :
    Reader.run ⟨tree, path, .value key []⟩ ((textsText items).toList ++ '\n' :: rest) =
      (Reader.deliver ⟨tree, path, .value key []⟩ key (.list (items.map .text)) []).bind
        (·.run ('\n' :: rest)) := by
  have hopen : Reader.stepToken ⟨tree, path, .value key []⟩ .openBracket =
      some ⟨tree, path, .item key [] []⟩ := rfl
  have hclose (ds : List Document) :
      Reader.stepToken ⟨tree, path, .item key ds []⟩ .closeBracket =
        Reader.deliver ⟨tree, path, .value key []⟩ key (.list ds.reverse) [] := rfl
  match items with
  | [] =>
    show Reader.run _ ('[' :: ']' :: '\n' :: rest) = _
    rw [Reader.run_openBracket _ (by simp), hopen, Option.bind_some,
      Reader.run_closeBracket _ (by simp), hclose]
    rfl
  | [s] =>
    have hafter : Reader.stepToken ⟨tree, path, .afterItem key [.text s] []⟩ .closeBracket =
        Reader.deliver ⟨tree, path, .value key []⟩ key (.list [.text s]) [] := rfl
    have htext : (textsText [s]).toList ++ '\n' :: rest =
        '[' :: ((stringText s).toList ++ ']' :: '\n' :: rest) := by
      simp [textsText]
    have hstops : Stops (']' :: '\n' :: rest) := stops_cons (by simp) _
    rw [htext, Reader.run_openBracket _ (head_stringText s hstops), hopen, Option.bind_some,
      run_item key s [] hstops, Reader.run_closeBracket _ (by simp), hafter]
    rfl
  | s :: s' :: items =>
    have hline : Reader.stepToken ⟨tree, path, .item key [] []⟩ .newline =
        some ⟨tree, path, .item key [] []⟩ := rfl
    have hitem : (fun s => ("    " ++ stringText s ++ ",\n").toList) = itemChars := by
      funext s
      simp [itemChars]
    have htext : (textsText (s :: s' :: items)).toList ++ '\n' :: rest =
        '[' :: '\n' :: ((s :: s' :: items).flatMap itemChars ++ ']' :: '\n' :: rest) := by
      rw [textsText, String.toList_append, String.toList_append, toList_joined, List.flatMap_map,
        hitem]
      · simp
      · simp
      · simp
    rw [htext, Reader.run_openBracket _ (by simp), hopen, Option.bind_some, Reader.run_newline,
      hline, Option.bind_some, run_items, Reader.run_closeBracket _ (by simp), hclose]
    simp

/-- A value is delivered as what it is read as. -/
theorem run_value (key : List String) {v : Value} (hv : v.isWritable = true) (rest : List Char) :
    Reader.run ⟨tree, path, .value key []⟩ (v.written.toList ++ '\n' :: rest) =
      (Reader.deliver ⟨tree, path, .value key []⟩ key v.document []).bind
        (·.run ('\n' :: rest)) := by
  have hstops : Stops ('\n' :: rest) := stops_cons (by simp) rest
  cases v with
  | text s =>
    refine run_string s hstops fun t ht => ?_
    rcases ht with rfl | rfl <;> simp [Reader.stepToken, Reader.step, Reader.begin, Value.document]
  | integer n =>
    obtain ⟨hlow, hhigh⟩ := of_decide_eq_true hv
    exact run_word (spells_intText hlow hhigh) hstops
  | real x => exact run_word (spells_text x) hstops
  | texts items => exact run_texts key items rest

/-! ## Lines -/

/-- The line of a value puts it into the table that is open. -/
theorem run_field {field : String × Value} (hfield : field.2.isWritable = true) (rest : List Char) :
    Reader.run ⟨tree, path, .line⟩
        ((keyText field.1 ++ " = " ++ field.2.written ++ "\n").toList ++ rest) =
      (addField? path tree field).bind fun tree => Reader.run ⟨tree, path, .line⟩ rest := by
  have htext : (keyText field.1 ++ " = " ++ field.2.written ++ "\n").toList ++ rest =
      (keyText field.1).toList ++
        ' ' :: '=' :: ' ' :: (field.2.written.toList ++ '\n' :: rest) := by
    simp
  have hend (tree : Entries) : Reader.stepToken ⟨tree, path, .lineEnd⟩ .newline =
      some ⟨tree, path, .line⟩ := rfl
  rw [htext, run_keyOfLine, run_value [field.1] hfield, Reader.deliver, addField?, Option.bind_map]
  congr 1
  funext tree
  simp [Reader.run_newline, hend]

theorem run_fields {fields : List (String × Value)}
    (hfields : ∀ field ∈ fields, field.2.isWritable = true) (rest : List Char) :
    Reader.run ⟨tree, path, .line⟩ ((fields.flatMap fun field =>
        (keyText field.1 ++ " = " ++ field.2.written ++ "\n").toList) ++ rest) =
      (fields.foldlM (addField? path) tree).bind fun tree =>
        Reader.run ⟨tree, path, .line⟩ rest := by
  induction fields generalizing tree with
  | nil => rfl
  | cons field fields ih =>
    obtain ⟨hfield, hfields⟩ := List.forall_mem_cons.mp hfields
    rw [List.flatMap_cons, List.append_assoc, run_field hfield, List.foldlM_cons,
      Option.bind_eq_bind, Option.bind_assoc]
    congr 1
    funext tree
    exact ih hfields

/-! ## Sections -/

/-- The line of a header opens its table. Without a header, nothing may have been opened. -/
theorem run_header {header : Header} (hpath : header = .none → path = []) (rest : List Char) :
    Reader.run ⟨tree, path, .line⟩ (header.line.toList ++ rest) =
      (header.open? tree).bind fun tree => Reader.run ⟨tree, header.path, .line⟩ rest := by
  have hend (tree : Entries) (path : List String) :
      Reader.stepToken ⟨tree, path, .lineEnd⟩ .newline = some ⟨tree, path, .line⟩ := rfl
  have hkey (item : Bool) (name : String) (t : Token)
      (ht : t = .word name.toList ∨ t = .string name.toList)
      (hadd : KeyPath.empty.addToken? t = some ⟨[name], true⟩) :
      Reader.stepToken ⟨tree, path, .header item .empty⟩ t =
        some ⟨tree, path, .header item ⟨[name], true⟩⟩ := by
    cases item <;> rcases ht with rfl | rfl <;>
      simp [Reader.stepToken, Reader.step, hadd, Reader.goTo]
  cases header with
  | none =>
    rw [hpath rfl]
    rfl
  | table name =>
    have hopen : Reader.stepToken ⟨tree, path, .line⟩ .openBracket =
        some ⟨tree, path, .header false .empty⟩ := rfl
    have hclose : Reader.stepToken ⟨tree, path, .header false ⟨[name], true⟩⟩ .closeBracket =
        (openTable [name] tree).map fun tree => ⟨tree, [name], .lineEnd⟩ := rfl
    have htext : (Header.table name).line.toList ++ rest =
        '[' :: ((keyText name).toList ++ ']' :: '\n' :: rest) := by
      simp [Header.line]
    have hhead : ((keyText name).toList ++ ']' :: '\n' :: rest).head? ≠ some '[' := by
      intro hc
      have := head_keyText name _ _ hc
      simp [isWordChar] at this
    rw [htext, Reader.run_openBracket _ hhead, hopen, Option.bind_some,
      run_key _ _ name (stops_cons (by simp) _) (hkey false name),
      Reader.run_closeBracket _ (by simp), hclose, Option.bind_map]
    simp [Header.open?, Header.path, Reader.run_newline, hend]
  | item name =>
    have hopen : Reader.stepToken ⟨tree, path, .line⟩ .openBrackets =
        some ⟨tree, path, .header true .empty⟩ := rfl
    have hclose : Reader.stepToken ⟨tree, path, .header true ⟨[name], true⟩⟩ .closeBrackets =
        (openItem [name] tree).map fun tree => ⟨tree, [name], .lineEnd⟩ := rfl
    have htext : (Header.item name).line.toList ++ rest =
        '[' :: '[' :: ((keyText name).toList ++ ']' :: ']' :: '\n' :: rest) := by
      simp [Header.line]
    rw [htext, Reader.run_openBrackets, hopen, Option.bind_some,
      run_key _ _ name (stops_cons (by simp) _) (hkey true name),
      Reader.run_closeBrackets, hclose, Option.bind_map]
    simp [Header.open?, Header.path, Reader.run_newline, hend]

theorem run_section {part : Section} (hpart : part.isWritable = true)
    (hpath : part.header = .none → path = []) (rest : List Char) :
    Reader.run ⟨tree, path, .line⟩ (part.lines.toList ++ rest) =
      (part.add? tree).bind fun tree => Reader.run ⟨tree, part.header.path, .line⟩ rest := by
  have htext : part.lines.toList ++ rest = part.header.line.toList ++ ((part.fields.flatMap
      fun field => (keyText field.1 ++ " = " ++ field.2.written ++ "\n").toList) ++ rest) := by
    simp [Section.lines, toList_joined, List.flatMap_map]
  rw [htext, run_header hpath, Section.add?, Option.bind_assoc]
  congr 1
  funext tree
  exact run_fields (List.all_eq_true.mp hpart) rest

theorem toList_sectionsText_cons (part : Section) (parts : List Section) :
    (sectionsText (part :: parts)).toList =
      part.lines.toList ++ if parts = [] then [] else '\n' :: (sectionsText parts).toList := by
  cases parts with
  | nil => simp [sectionsText, joined]
  | cons next parts => simp [sectionsText, joined, String.intercalate_cons_cons]

/-- Sections are read one after another. Only the first of them may have no header. -/
theorem run_sections {parts : List Section}
    (hparts : ∀ part ∈ parts, part.isWritable = true)
    (hfirst : ∀ part ∈ parts.head?, part.header = .none → path = [])
    (hrest : ∀ part ∈ parts.tail, part.header ≠ .none) :
    (Reader.run ⟨tree, path, .line⟩ (sectionsText parts).toList).bind Reader.finish? =
      (parts.foldlM Section.add? tree).map fun tree => .record (fieldsOf tree) := by
  induction parts generalizing tree path with
  | nil => simp [sectionsText, joined, Reader.finish?]
  | cons part parts ih =>
    obtain ⟨hpart, hparts⟩ := List.forall_mem_cons.mp hparts
    have hpath := hfirst part rfl
    have hnext (tree : Entries) :
        (Reader.run ⟨tree, part.header.path, .line⟩ (sectionsText parts).toList).bind
          Reader.finish? =
        (parts.foldlM Section.add? tree).map fun tree => .record (fieldsOf tree) := by
      refine ih hparts (fun next hnext hnone => ?_) fun next hnext => ?_
      · exact absurd hnone (hrest next (List.mem_of_mem_head? hnext))
      · exact hrest next (List.mem_of_mem_tail hnext)
    have hblank (tree : Entries) :
        Reader.run ⟨tree, part.header.path, .line⟩
            (if parts = [] then [] else '\n' :: (sectionsText parts).toList) =
          Reader.run ⟨tree, part.header.path, .line⟩ (sectionsText parts).toList := by
      by_cases hnil : parts = []
      · simp [hnil, sectionsText, joined]
      · rw [if_neg hnil, Reader.run_newline]
        rfl
    rw [toList_sectionsText_cons, run_section hpart hpath, List.foldlM_cons, Option.bind_eq_bind,
      Option.bind_assoc, Option.map_bind]
    congr 1
    funext tree
    rw [hblank]
    exact hnext tree

/-- No section starts with the mark of an encoding. -/
theorem head_lines (part : Section) (hrest : ∀ c ∈ rest.head?, c ≠ '\ufeff') :
    ∀ c ∈ (part.lines.toList ++ rest).head?, c ≠ '\ufeff' := by
  obtain ⟨header, fields⟩ := part
  cases header with
  | none =>
    cases fields with
    | nil => simpa [Section.lines, Header.line, toList_joined] using hrest
    | cons field fields =>
      have htext : (Section.lines ⟨.none, field :: fields⟩).toList ++ rest =
          (keyText field.1).toList ++
            ((" = " ++ field.2.written ++ "\n" ++ Section.lines ⟨.none, fields⟩).toList ++
              rest) := by
        simp [Section.lines, Header.line, toList_joined]
      rw [htext]
      rintro c hc rfl
      have := head_keyText field.1 _ _ hc
      simp [isWordChar] at this
  | table name => simp [Section.lines, Header.line]
  | item name => simp [Section.lines, Header.line]

theorem withoutMark_sectionsText (parts : List Section) :
    withoutMark (sectionsText parts).toList = (sectionsText parts).toList := by
  have hhead : ∀ c ∈ (sectionsText parts).toList.head?, c ≠ '\ufeff' := by
    cases parts with
    | nil => simp [sectionsText, joined]
    | cons part parts =>
      rw [toList_sectionsText_cons]
      refine head_lines part ?_
      split_ifs <;> simp
  unfold withoutMark
  split
  · rename_i heq
    simp [heq] at hhead
  · rfl

/-- A text of sections is read as the tree that they make up. -/
theorem readText?_sectionsText {parts : List Section}
    (hparts : ∀ part ∈ parts, part.isWritable = true)
    (hrest : ∀ part ∈ parts.tail, part.header ≠ .none) :
    readText? (sectionsText parts) =
      (parts.foldlM Section.add? []).map fun tree => .record (fieldsOf tree) := by
  rw [readText?, withoutMark_sectionsText]
  exact run_sections hparts (fun _ _ _ => rfl) hrest

end Tariff.Toml
