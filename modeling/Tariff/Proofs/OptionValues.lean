import Tariff.Proofs.Json.Finite
import Tariff.Proofs.Options
import Tariff.Proofs.Results

/-!
# What options are read as

A list of options is taken over one by one, each over what is there already. What comes of it can be
said without the walk: the last value under each of the two keys counts, and all values under the
key of the configurations must be readable. Such a value stands for itself, or is a text.

* `OptionEntry.valuesUnder`: the values under a key, in order.
  `Snapshot.ofOptions_eq`: what a list of options is read as.
* `last_option_of_each_key_counts`: when options cannot be read, what they are read as, and which
  others are read as the same.
* `isBlankText_compact`: no value has a blank text. `OptionEntry.fits_of_read`: whole numbers of
  values that are received are of 64 bits.
* `value_and_its_text_are_read_alike`: a value may be exchanged for its text.
-/

namespace Tariff

open Text

/-! ## The last value of each key -/

namespace OptionEntry

/-- The values under a key, in order. -/
def valuesUnder (key : String) (entries : List OptionEntry) : List Json :=
  (entries.filter (·.key == key)).map (·.value)

variable {key : String} {entry : OptionEntry} {entries : List OptionEntry}

theorem valuesUnder_cons_self (h : entry.key = key) :
    valuesUnder key (entry :: entries) = entry.value :: valuesUnder key entries := by
  unfold valuesUnder
  rw [List.filter_cons, if_pos (beq_iff_eq.mpr h), List.map_cons]

theorem valuesUnder_cons_of_ne (h : entry.key ≠ key) :
    valuesUnder key (entry :: entries) = valuesUnder key entries := by
  unfold valuesUnder
  rw [List.filter_cons, if_neg fun heq => h (beq_iff_eq.mp heq)]

theorem mem_valuesUnder {v : Json} :
    v ∈ valuesUnder key entries ↔ ∃ entry ∈ entries, entry.key = key ∧ entry.value = v := by
  unfold valuesUnder
  simp only [List.mem_map, List.mem_filter, beq_iff_eq, and_assoc]

end OptionEntry

open OptionEntry

/-- The last of a list, or a default: a first element is the default of the others. -/
theorem elim_getLast?_cons {α β : Type} (f : α → β) (b : β) (x : α) (xs : List α) :
    (x :: xs).getLast?.elim b f = xs.getLast?.elim (f x) f := by
  rw [List.getLast?_cons]
  cases xs.getLast? <;> rfl

/-- Where a computation succeeds on a list, its last result is that on the last element. -/
theorem elim_getLast?_of_mapM {ε α β : Type} {f : α → Except ε β} {xs : List α} {ys : List β}
    (h : xs.mapM f = .ok ys) (b : β) :
    xs.getLast?.elim (.ok b) f = .ok (ys.getLast?.elim b id) := by
  have hall := mapM_eq_ok_iff.mp h
  clear h
  induction hall generalizing b with
  | nil => rfl
  | cons hx _ ih => rw [elim_getLast?_cons, elim_getLast?_cons, hx, ih, id]

namespace Snapshot

variable {start : Snapshot} {entry : OptionEntry}

theorem withOption_of_enabledKey (h : entry.key = enabledKey) :
    start.withOption entry = .ok { start with enabled := saysYes entry.value } := by
  unfold withOption
  rw [if_pos h]

theorem withOption_of_configsKey (h : entry.key = configsKey) :
    start.withOption entry =
      (configsOfValue entry.value).map fun configs => { start with configs := configs } := by
  have hne : entry.key ≠ enabledKey := by
    rw [h]
    decide
  unfold withOption
  rw [if_neg hne, if_pos h]

/-- Options that are taken over one by one leave the last value of each key behind, and what was
there before where there is none. -/
theorem foldlM_withOption_eq (entries : List OptionEntry) (start : Snapshot) :
    entries.foldlM withOption start =
      ((valuesUnder configsKey entries).mapM configsOfValue).map fun tables =>
        ⟨(valuesUnder enabledKey entries).getLast?.elim start.enabled saysYes,
          tables.getLast?.elim start.configs id⟩ := by
  have hkeys : configsKey ≠ enabledKey := by decide
  induction entries generalizing start with
  | nil => rfl
  | cons entry entries ih =>
    rw [List.foldlM_cons]
    by_cases henabled : entry.key = enabledKey
    · rw [withOption_of_enabledKey henabled, valuesUnder_cons_self henabled,
        valuesUnder_cons_of_ne fun h => hkeys (h.symm.trans henabled), elim_getLast?_cons]
      exact ih _
    · by_cases hconfigs : entry.key = configsKey
      · rw [withOption_of_configsKey hconfigs, valuesUnder_cons_self hconfigs,
          valuesUnder_cons_of_ne henabled, List.mapM_cons]
        cases configsOfValue entry.value with
        | error fault => rfl
        | ok configs =>
          refine (ih _).trans ?_
          cases (valuesUnder configsKey entries).mapM configsOfValue with
          | error fault => rfl
          | ok tables =>
            -- These configurations count where no others follow.
            have hlast := elim_getLast?_cons id start.configs configs tables
            exact congrArg (fun c => (Except.ok ⟨_, c⟩ : Read Snapshot)) hlast.symm
      · have hother : entry.isTiered = false := by
          unfold OptionEntry.isTiered
          rw [beq_eq_false_iff_ne.mpr henabled, beq_eq_false_iff_ne.mpr hconfigs, Bool.or_false]
        rw [withOption_other hother, valuesUnder_cons_of_ne henabled,
          valuesUnder_cons_of_ne hconfigs]
        exact ih start

/-- What a list of options is read as. -/
theorem ofOptions_eq (entries : List OptionEntry) :
    ofOptions entries = ((valuesUnder configsKey entries).mapM configsOfValue).map fun tables =>
      ⟨(valuesUnder enabledKey entries).getLast?.elim false saysYes,
        tables.getLast?.elim .empty id⟩ :=
  foldlM_withOption_eq entries empty

end Snapshot

/-- Options cannot be read exactly if some value under the key of the configurations cannot, whether
or not it is the last. Otherwise the last value of each key says what they are read as. Other
options that have the same values under these two keys, in the same order, are read as the same,
and fail as they do: options under other keys may come and go, and options may change places as long
as those under one key keep their order. -/
theorem last_option_of_each_key_counts (entries : List OptionEntry) :
    ((∃ fault, Snapshot.ofOptions entries = .error fault) ↔
      ∃ entry ∈ entries, entry.key = configsKey ∧
        ∃ fault, configsOfValue entry.value = .error fault) ∧
    (∀ snapshot, Snapshot.ofOptions entries = .ok snapshot →
      snapshot.enabled = (valuesUnder enabledKey entries).getLast?.elim false saysYes ∧
      (valuesUnder configsKey entries).getLast?.elim (.ok .empty) configsOfValue =
        .ok snapshot.configs) ∧
    ∀ others : List OptionEntry,
      (∀ key ∈ [enabledKey, configsKey], valuesUnder key others = valuesUnder key entries) →
      Snapshot.ofOptions others = Snapshot.ofOptions entries := by
  refine ⟨?_, fun snapshot h => ?_, fun others h => ?_⟩
  · rw [Snapshot.ofOptions_eq]
    simp only [map_eq_error_iff]
    constructor
    · rintro ⟨fault, h⟩
      obtain ⟨earlier, v, later, heq, -, hv⟩ := mapM_eq_error_iff.mp h
      have hmem : v ∈ valuesUnder configsKey entries := by
        rw [heq]
        exact List.mem_append_right _ List.mem_cons_self
      obtain ⟨entry, hentry, hkey, rfl⟩ := mem_valuesUnder.mp hmem
      exact ⟨entry, hentry, hkey, fault, hv⟩
    · rintro ⟨entry, hentry, hkey, fault, hv⟩
      cases h : (valuesUnder configsKey entries).mapM configsOfValue with
      | error cause => exact ⟨cause, rfl⟩
      | ok tables =>
        obtain ⟨configs, hconfigs⟩ := exists_mapM_eq_ok_iff.mp ⟨tables, h⟩ entry.value
          (mem_valuesUnder.mpr ⟨entry, hentry, hkey, rfl⟩)
        cases hv.symm.trans hconfigs
  · rw [Snapshot.ofOptions_eq] at h
    obtain ⟨tables, htables, rfl⟩ := map_eq_ok_iff.mp h
    exact ⟨rfl, elim_getLast?_of_mapM htables .empty⟩
  · simp only [List.forall_mem_cons] at h
    rw [Snapshot.ofOptions_eq, Snapshot.ofOptions_eq, h.1, h.2.1]

/-- The options of a service: the switch is set twice, and so are the configurations. -/
def repeatedEntries : List OptionEntry :=
  [⟨configsKey, .string " "⟩, ⟨"Theme", .string "dark"⟩, ⟨enabledKey, .string "off"⟩,
    ⟨configsKey, .object [("gpt", .object [("priority", .integer 2)])]⟩,
    ⟨enabledKey, .string " True "⟩]

/-- The same settings in another order, beside other options. -/
def reorderedEntries : List OptionEntry :=
  [⟨enabledKey, .string "off"⟩, ⟨enabledKey, .string " True "⟩, ⟨"Notice", .null⟩,
    ⟨configsKey, .string " "⟩, ⟨configsKey, .object [("gpt", .object [("priority", .integer 2)])]⟩]

/-- What both say: the last of each. -/
theorem repeated_options_say_what_the_last_do :
    ∃ snapshot, Snapshot.ofOptions repeatedEntries = .ok snapshot ∧ snapshot.enabled = true ∧
      snapshot.configs = .single "gpt" ⟨false, .empty, 2, []⟩ ∧
      (∀ key ∈ [enabledKey, configsKey],
        valuesUnder key reorderedEntries = valuesUnder key repeatedEntries) ∧
      Snapshot.ofOptions reorderedEntries = .ok snapshot := by
  obtain ⟨-, hlast, hothers⟩ := last_option_of_each_key_counts repeatedEntries
  have hvalues : ∀ key ∈ [enabledKey, configsKey],
      valuesUnder key reorderedEntries = valuesUnder key repeatedEntries := by
    simp only [List.forall_mem_cons]
    exact ⟨rfl, rfl, List.forall_mem_nil _⟩
  have hread : Snapshot.ofOptions repeatedEntries =
      .ok ⟨true, .single "gpt" ⟨false, .empty, 2, []⟩⟩ := rfl
  obtain ⟨henabled, hconfigs⟩ := hlast _ hread
  exact ⟨_, hread, henabled, rfl, hvalues, (hothers _ hvalues).trans hread⟩

/-! ## Values and their texts -/

/-- A number starts with no blank. -/
theorem isBlank_of_starts {c : Char} (h : c = '-' ∨ isDigit c = true) : isBlank c = false := by
  rcases h with rfl | h
  · decide
  · exact isBlank_of_isDigit h

namespace Json

/-- No text of a value starts with a blank. -/
theorem exists_head_write (place : Place) {v : Json} (h : v.Fits) :
    ∃ c cs, write place v = c :: cs ∧ isBlank c = false := by
  have hends : EndsNumber [] := nofun
  cases v with
  | null => exact ⟨_, _, rfl, by decide⟩
  | bool value => cases value <;> exact ⟨_, _, rfl, by decide⟩
  | integer n =>
    obtain ⟨l, hscan, -⟩ := scanNumber_intText hends h.1 h.2
    obtain ⟨c, cs, heq, hc⟩ := head_of_scanNumber hscan
    rw [List.append_nil] at heq
    exact ⟨c, cs, heq, isBlank_of_starts hc⟩
  | real x =>
    rw [write]
    by_cases hx : x.isFinite = true
    · obtain ⟨l, hscan, -⟩ := scanNumber_text hends hx
      obtain ⟨c, cs, heq, hc⟩ := head_of_scanNumber hscan
      rw [List.append_nil] at heq
      rw [if_pos hx]
      exact ⟨c, cs, heq, isBlank_of_starts hc⟩
    · rw [if_neg hx]
      exact ⟨_, _, rfl, by decide⟩
  | string s => exact ⟨_, _, rfl, by decide⟩
  | array items => cases items <;> exact ⟨_, _, rfl, by decide⟩
  | object fields => cases fields <;> exact ⟨_, _, rfl, by decide⟩

/-- No value has a blank text. -/
theorem isBlankText_compact {v : Json} (h : v.Fits) : isBlankText v.compact = false := by
  obtain ⟨c, cs, heq, hc⟩ := exists_head_write .inline h
  unfold compact isBlankText
  rw [String.toList_ofList, heq, List.all_cons, hc, Bool.false_and]

end Json

/-- Configurations are read from a value as they are from its text. -/
theorem configsOfValue_compact_eq {v : Json} (hfits : v.Fits) (hnull : v ≠ .null)
    (hstring : ∀ s, v ≠ .string s) : configsOfValue (.string v.compact) = configsOfValue v := by
  have hvalue : configsOfValue v = TierConfig.readTable v.document := by
    cases v with
    | null => exact absurd rfl hnull
    | string s => exact absurd rfl (hstring s)
    | _ => rfl
  unfold configsOfValue at hvalue ⊢
  rw [hvalue]
  dsimp only
  rw [Json.isBlankText_compact hfits, if_neg (by decide), Json.decode_compact _ hfits]

namespace OptionEntry

/-- Whole numbers of the value that an option is read with are of 64 bits. -/
theorem fits_of_read {d : Document} {entry : OptionEntry} (hd : d.IsFinite)
    (h : OptionEntry.read d = .ok entry) : entry.value.Fits := by
  refine keeps_readRecord (P := fun entry => entry.value.Fits) Document.hereditary_isFinite ?_
    trivial hd h
  simp only [fields, List.forall_mem_cons]
  refine ⟨?key, ?value, List.forall_mem_nil _⟩
  case key =>
    have hkey : (Field.of "key" (·.asText) fun v (e : OptionEntry) => { e with key := v }).Keeps
        Document.IsFinite (·.value.Fits) :=
      Field.keeps_of fun d v entry hd hread hentry => hentry
    exact hkey
  case value => exact Field.keeps_of fun d v entry hd hread hentry => Json.fits_of_asJson hd hread

end OptionEntry

/-- A value for the configurations that is neither nothing nor a text may be exchanged for its own
text: wherever the option stands, both cannot be read, or they are read as the same. Its whole
numbers are of 64 bits, as in all options that a service sends. -/
theorem value_and_its_text_are_read_alike :
    (∀ v : Json, v.Fits → v ≠ .null → (∀ s, v ≠ .string s) → ∀ before after : List OptionEntry,
      Snapshot.ofOptions (before ++ ⟨configsKey, v⟩ :: after) =
        Snapshot.ofOptions (before ++ ⟨configsKey, .string v.compact⟩ :: after)) ∧
    ∀ text entries, Json.decode (·.asList OptionEntry.read) text = .ok entries →
      ∀ entry ∈ entries, entry.value.Fits := by
  refine ⟨fun v hfits hnull hstring before after => ?_, fun text entries h entry hentry => ?_⟩
  · have hstep (start : Snapshot) : start.withOption ⟨configsKey, v⟩ =
        start.withOption ⟨configsKey, .string v.compact⟩ := by
      rw [Snapshot.withOption_of_configsKey rfl, Snapshot.withOption_of_configsKey rfl,
        configsOfValue_compact_eq hfits hnull hstring]
    unfold Snapshot.ofOptions
    simp only [List.foldlM_append, List.foldlM_cons, hstep]
  · obtain ⟨d, hd, hread⟩ := Json.exists_of_decode h
    obtain ⟨e, he, hentry⟩ :=
      Document.exists_of_asList Document.hereditary_isFinite hd hread entry hentry
    exact OptionEntry.fits_of_read he hentry

/-- A configuration with a rule that is a list of values, and one with a field that is skipped. -/
def nested : Json :=
  .object
    [("gpt", .object
      [("models", .string "gpt-4*"),
        ("rules", .array
          [.array [.string "short", .integer 0, .integer 32000],
            .object [("input_price", .integer 2), ("note", .array [.null])]])])]

/-- What it is read as, by itself and from its text. -/
def nestedSnapshot : Snapshot :=
  ⟨true, .single "gpt" ⟨false, ⟨[.startingWith "gpt-4"]⟩, 0,
    [⟨"short", ⟨⟨0, 32000⟩, .unlimited⟩, .ratio 0.0 1.0 none⟩,
      ⟨"", .unlimited, .absolute 2.0 0.0⟩]⟩⟩

theorem nested_is_read_as_its_text_is :
    nested.Fits ∧ nested ≠ .null ∧ (∀ s, nested ≠ .string s) ∧
      Snapshot.ofOptions [⟨enabledKey, .bool true⟩, ⟨configsKey, nested⟩] = .ok nestedSnapshot ∧
      Snapshot.ofOptions [⟨enabledKey, .bool true⟩, ⟨configsKey, .string nested.compact⟩] =
        .ok nestedSnapshot ∧
      Json.decode (·.asList OptionEntry.read)
          (Json.array [.object [("key", .string configsKey), ("value", nested)]]).compact =
        .ok [⟨configsKey, nested⟩] := by
  have hfits : (Json.array [.object [("key", .string configsKey), ("value", nested)]]).Fits := by
    simp [nested, Json.Fits, Json.ItemsFit, Json.FieldsFit]
  have hdecode : Json.decode (·.asList OptionEntry.read)
      (Json.array [.object [("key", .string configsKey), ("value", nested)]]).compact =
        .ok [⟨configsKey, nested⟩] := by
    rw [Json.decode_compact _ hfits]
    rfl
  obtain ⟨halike, hreceived⟩ := value_and_its_text_are_read_alike
  have hnested : nested.Fits := hreceived _ _ hdecode ⟨configsKey, nested⟩ List.mem_cons_self
  have hnull : nested ≠ .null := fun h => by cases h
  have hstring : ∀ s, nested ≠ .string s := fun s h => by cases h
  have hread : Snapshot.ofOptions [⟨enabledKey, .bool true⟩, ⟨configsKey, nested⟩] =
      .ok nestedSnapshot := rfl
  have htext := halike nested hnested hnull hstring [⟨enabledKey, .bool true⟩] []
  exact ⟨hnested, hnull, hstring, hread, htext.symm.trans hread, hdecode⟩

end Tariff
