import Tariff.Files.Stored
import Tariff.Proofs.Disk
import Tariff.Proofs.Toml.Bounded

/-!
# Setups, stored and read again

* `Setup.Representable`: what the stored form can hold. Its whole numbers are of 64 bits, one of
  them for the sign; everything else may be as it likes.
* `Setup.text?_eq_some`: such a setup has a text. `Setup.readText?_text?`: the document of a text.
* `Preferences.read_values`, …, `Setup.read_document`: each part is read back from what is written.
* `Setup.representable_of_ofText`: whatever text a setup is read from, it is representable.
* `Setup.loads_what_was_saved`: a setup that was loaded is saved, and loaded again as it was.
-/

namespace Tariff

open Toml (Section Value fieldsOfValues valueNodes)

/-! ## The document of a text -/

namespace Setup

/-- The setup can be stored: its whole numbers are of 64 bits, one of them for the sign. -/
structure Representable (setup : Setup) : Prop where
  quotaPerUnit : setup.preferences.quotaPerUnit.toNat < 2 ^ 63
  userId : ∀ id ∈ setup.remote.userId, id.toNat < 2 ^ 63

/-- The tables of the text, in order. -/
def tables (setup : Setup) : List (String × List (String × Value)) :=
  [("settings", setup.preferences.values),
    ("pricing", setup.pricingFile.toList.map fun file => ("file", .text file)),
    ("remote", setup.remote.values),
    ("group_ratios", setup.groups.entries.map fun e => (e.1, .real e.2))]

/-- What the text of the setup is read as. A list of models without elements comes first. -/
def document (setup : Setup) : Document :=
  let tables := setup.tables.map fun part => (some part.1, Document.record (fieldsOfValues part.2))
  let models := setup.models.map fun record => Document.record (fieldsOfValues record.values)
  .record <|
    if setup.models = [] then (some "models", .list []) :: tables
    else tables ++ [(some "models", .list models)]

/-- The sections that have a header. -/
def headed (setup : Setup) : List Section :=
  (setup.tables.map fun part => ⟨.table part.1, part.2⟩) ++
    (setup.models.map (·.values)).map fun values => ⟨.item "models", values⟩

theorem sections_eq (setup : Setup) : setup.sections =
    (if setup.models = [] then [⟨.none, [("models", .texts [])]⟩] else []) ++ setup.headed := by
  simp [sections, headed, tables]

theorem header_headed (setup : Setup) : ∀ part ∈ setup.headed, part.header ≠ .none := by
  intro part hpart
  rcases List.mem_append.mp hpart with hpart | hpart
  · obtain ⟨table, -, rfl⟩ := List.mem_map.mp hpart
    simp
  · obtain ⟨values, -, rfl⟩ := List.mem_map.mp hpart
    simp

/-- Only the list of models without elements has no header. -/
theorem header_sections (setup : Setup) : ∀ part ∈ setup.sections.tail, part.header ≠ .none := by
  rw [sections_eq]
  by_cases hmodels : setup.models = []
  · rw [if_pos hmodels, List.singleton_append, List.tail_cons]
    exact setup.header_headed
  · rw [if_neg hmodels, List.nil_append]
    exact fun part hpart => setup.header_headed part (List.mem_of_mem_tail hpart)

/-- A whole number of 64 bits, one of them for the sign, can be written. -/
theorem isWritable_integer {n : UInt64} (h : n.toNat < 2 ^ 63) :
    (Value.integer n.toNat).isWritable = true := by
  simp only [Value.isWritable, decide_eq_true_eq]
  omega

theorem isWritable_record (record : ModelRecord) :
    Section.isWritable ⟨.item "models", record.values⟩ = true := by
  have hcode : record.billing.code ≤ 1 := by cases record.billing <;> decide
  simp only [Section.isWritable, ModelRecord.values, List.all_cons, List.all_nil, Value.isWritable,
    Bool.true_and, Bool.and_true, decide_eq_true_eq]
  omega

theorem isWritable_tables {setup : Setup} (h : setup.Representable) :
    ∀ part ∈ setup.tables, Section.isWritable ⟨.table part.1, part.2⟩ = true := by
  simp only [tables, List.forall_mem_cons]
  refine ⟨?settings, ?pricing, ?remote, ?groups, List.forall_mem_nil _⟩
  case settings =>
    have hquota := isWritable_integer h.quotaPerUnit
    simp only [Section.isWritable, Preferences.values, List.all_cons, hquota]
    rfl
  case pricing => cases setup.pricingFile <;> rfl
  case remote =>
    have huser : (setup.remote.userId.toList.map fun id => ("user_id", Value.integer id.toNat)).all
        (·.2.isWritable) = true := by
      cases hid : setup.remote.userId with
      | none => rfl
      | some id => simp [isWritable_integer (h.userId id hid)]
    have hurl : (setup.remote.baseUrl.toList.map fun url => ("base_url", Value.text url)).all
        (·.2.isWritable) = true := by
      cases setup.remote.baseUrl <;> rfl
    simp only [Section.isWritable, RemoteSetup.values, List.all_append, huser, hurl]
    rfl
  case groups =>
    refine List.all_eq_true.mpr fun e he => ?_
    obtain ⟨group, -, rfl⟩ := List.mem_map.mp he
    rfl

/-- A setup that can be stored has a text. -/
theorem text?_eq_some {setup : Setup} (h : setup.Representable) :
    setup.text? = some setup.toText := by
  have hfirst : ∀ part ∈ (if setup.models = [] then [(⟨.none, [("models", .texts [])]⟩ : Section)]
      else []), part.isWritable = true := by
    by_cases hmodels : setup.models = []
    · rw [if_pos hmodels]
      simp [Section.isWritable, Value.isWritable]
    · simp [hmodels]
  refine if_pos (List.all_eq_true.mpr ?_)
  rw [sections_eq]
  intro part hpart
  rcases List.mem_append.mp hpart with hpart | hpart
  · exact hfirst part hpart
  · rcases List.mem_append.mp hpart with hpart | hpart
    · obtain ⟨table, htable, rfl⟩ := List.mem_map.mp hpart
      exact isWritable_tables h table htable
    · obtain ⟨values, hvalues, rfl⟩ := List.mem_map.mp hpart
      obtain ⟨record, -, rfl⟩ := List.mem_map.mp hvalues
      exact isWritable_record record

/-- No table has two values under one key. -/
theorem nodup_tables (setup : Setup) : ∀ part ∈ setup.tables, (part.2.map (·.1)).Nodup := by
  simp only [tables, List.forall_mem_cons]
  refine ⟨?settings, ?pricing, ?remote, ?groups, List.forall_mem_nil _⟩
  case settings => simp [Preferences.values]
  case pricing => cases setup.pricingFile <;> simp
  case remote =>
    obtain ⟨baseUrl, tokenVariable, userId⟩ := setup.remote
    cases baseUrl <;> cases userId <;> simp [RemoteSetup.values]
  case groups =>
    rw [List.map_map]
    refine List.Pairwise.map _ ?_ setup.groups.ascending
    rintro ⟨name, x⟩ ⟨_, y⟩ hlt rfl
    exact String.lt_irrefl name hlt

/-- A text of a setup is read as the document of the setup. -/
theorem readText?_text? {setup : Setup} {s : String} (h : setup.text? = some s) :
    Toml.readText? s = some setup.document := by
  have hnames : setup.tables.map (·.1) = ["settings", "pricing", "remote", "group_ratios"] := rfl
  obtain ⟨hwritable, ⟨⟩⟩ := Option.ite_none_right_eq_some.mp h
  rw [toText, Toml.readText?_sectionsText (List.all_eq_true.mp hwritable) setup.header_sections,
    sections_eq, headed, document]
  have htables (tree : Toml.Entries) (hnew : (tree.names ++ setup.tables.map (·.1)).Nodup) :=
    Toml.foldlM_tables tree setup.tables hnew setup.nodup_tables
  by_cases hmodels : setup.models = []
  · have hfirst : [(⟨.none, [("models", .texts [])]⟩ : Section)].foldlM Section.add? [] =
        some [("models", .value (.list []))] := rfl
    rw [if_pos hmodels, if_pos hmodels, List.foldlM_append, hfirst, Option.bind_eq_bind,
      Option.bind_some, hmodels, List.map_nil, List.map_nil, List.append_nil,
      htables _ (by rw [hnames]; decide), Option.map_some, Toml.fieldsOf_append,
      Toml.fieldsOf_tables]
    rfl
  · have hkeys : ∀ values ∈ setup.models.map (·.values), (values.map (·.1)).Nodup := by
      intro values hvalues
      obtain ⟨record, -, rfl⟩ := List.mem_map.mp hvalues
      simp [ModelRecord.values]
    have hitems (tree : Toml.Entries) (hnew : "models" ∉ tree.names) :=
      Toml.foldlM_items tree (setup.models.map (·.values)) (by simpa using hmodels) hnew hkeys
    rw [if_neg hmodels, if_neg hmodels, List.nil_append, List.foldlM_append,
      htables [] (by rw [hnames]; decide), Option.bind_eq_bind, Option.bind_some, List.nil_append,
      hitems _ (by simp [Toml.Entries.names, tables]), Option.map_some, Toml.fieldsOf_append,
      Toml.fieldsOf_tables, Toml.fieldsOf, Toml.document_items, List.map_map]
    rfl

end Setup

/-! ## Reading the document -/

theorem Preferences.read_values (preferences : Preferences) :
    Preferences.read .toml (.record (fieldsOfValues preferences.values)) = .ok preferences := by
  have hdocument : fieldsOfValues preferences.values = named (fields .toml)
      [.text preferences.format, .text preferences.color, .text preferences.unit.letter,
        .integer preferences.quotaPerUnit.toNat] := rfl
  have hunit : TokenUnit.read .toml (.text preferences.unit.letter) = .ok preferences.unit := by
    cases preferences.unit <;> rfl
  rw [Preferences.read, hdocument, readRecord_named initial (by decide) (Nat.le_refl _)]
  refine readValues_of_cons rfl ?_
  refine readValues_of_cons rfl ?_
  refine readValues_of_cons hunit ?_
  exact readValues_of_cons (Document.asUInt64_integer _) rfl

theorem RemoteSetup.read_values (remote : RemoteSetup) :
    RemoteSetup.read .toml (.record (fieldsOfValues remote.values)) = .ok remote := by
  obtain ⟨baseUrl, tokenVariable, userId⟩ := remote
  have hid (id : UInt64) : (Document.integer id.toNat).asOptional (·.asUInt64) = .ok (some id) :=
    congrArg (Except.map some) (Document.asUInt64_integer id)
  have hread {entries : List (Option String × Document)} {remote : RemoteSetup} {seen : List String}
      (h : readFields fields entries [] initial = .ok (remote, seen)) :
      RemoteSetup.read .toml (.record entries) = .ok remote :=
    bind_eq_ok_iff.mpr ⟨_, h, rfl⟩
  cases baseUrl with
  | none =>
    cases userId with
    | none => rfl
    | some id =>
      exact hread (readFields_of_cons rfl rfl rfl
        (readFields_of_cons rfl rfl (Field.read_of _ (hid id)) rfl))
  | some url =>
    cases userId with
    | none => rfl
    | some id =>
      exact hread (readFields_of_cons rfl rfl rfl (readFields_of_cons rfl rfl rfl
        (readFields_of_cons rfl rfl (Field.read_of _ (hid id)) rfl)))

theorem GroupTable.read_values (groups : GroupTable) :
    GroupTable.read (.record (fieldsOfValues (groups.entries.map fun e => (e.1, .real e.2)))) =
      .ok groups := by
  have hdocument : fieldsOfValues (groups.entries.map fun e => (e.1, .real e.2)) =
      groups.entries.map fun e => (some e.1, .real e.2) := by
    simp [fieldsOfValues, Value.document]
  rw [GroupTable.read, hdocument]
  exact Document.asTable_map Document.real fun e he => rfl

theorem ModelRecord.read_values (record : ModelRecord) :
    ModelRecord.read .toml (.record (fieldsOfValues record.values)) = .ok record := by
  have hdocument : fieldsOfValues record.values = named fields
      [.text record.name, .integer record.billing.code, .real record.ratio, .real record.completion,
        .real record.price, .list (record.groups.map .text)] := rfl
  have hbilling : Billing.read (.integer record.billing.code) = .ok record.billing := by
    cases record.billing <;> rfl
  have hgroups : (Document.list (record.groups.map .text)).asList (·.asText) = .ok record.groups :=
    Document.asList_map Document.text fun s hs => rfl
  rw [ModelRecord.read, hdocument, readRecord_named (blank "") (by decide) (Nat.le_refl _)]
  refine readValues_of_read rfl ?_
  refine readValues_of_cons hbilling ?_
  refine readValues_of_cons rfl ?_
  refine readValues_of_cons rfl ?_
  refine readValues_of_cons rfl ?_
  exact readValues_of_cons hgroups rfl

/-- Where tiered pricing is kept is read back, or that it is not set. -/
theorem read_pricingFile (pricingFile : Option String) :
    readRecord .toml pricingFileFields none
        (.record (fieldsOfValues (pricingFile.toList.map fun file => ("file", .text file)))) =
      .ok pricingFile := by
  cases pricingFile <;> rfl

namespace Setup

/-- The document of a setup is read as the setup. -/
theorem read_document (setup : Setup) : Setup.read setup.document = .ok setup := by
  have hmodels (models : List ModelRecord) :
      (Document.list (models.map fun record => .record (fieldsOfValues record.values))).asList
        (ModelRecord.read .toml) = .ok models :=
    Document.asList_map (fun record => .record (fieldsOfValues (ModelRecord.values record)))
      fun record _ => record.read_values
  have hread {entries : List (Option String × Document)} {setup : Setup} {seen : List String}
      (h : readFields (fields .toml) entries [] blank = .ok (setup, seen)) :
      Setup.read (.record entries) = .ok setup :=
    bind_eq_ok_iff.mpr ⟨_, h, rfl⟩
  obtain ⟨preferences, pricingFile, remote, groups, models⟩ := setup
  by_cases hempty : models = []
  · subst hempty
    exact hread
      (readFields_of_cons rfl rfl (Field.read_of _ (hmodels []))
      (readFields_of_cons rfl rfl (Field.read_of _ preferences.read_values)
      (readFields_of_cons rfl rfl (Field.read_of _ (read_pricingFile pricingFile))
      (readFields_of_cons rfl rfl (Field.read_of _ remote.read_values)
      (readFields_of_cons rfl rfl (Field.read_of _ groups.read_values) rfl)))))
  · rw [document, if_neg hempty]
    exact hread
      (readFields_of_cons rfl rfl (Field.read_of _ preferences.read_values)
      (readFields_of_cons rfl rfl (Field.read_of _ (read_pricingFile pricingFile))
      (readFields_of_cons rfl rfl (Field.read_of _ remote.read_values)
      (readFields_of_cons rfl rfl (Field.read_of _ groups.read_values)
      (readFields_of_cons rfl rfl (Field.read_of _ (hmodels models)) rfl)))))

/-- A setup is read back from its text. -/
theorem ofText_text? {setup : Setup} {s : String} (h : setup.text? = some s) :
    ofText s = .ok setup := by
  rw [ofText, Toml.decode, readText?_text? h]
  exact setup.read_document

end Setup

/-! ## Whatever is read can be stored -/

/-- A whole number that is read from a text is of 64 bits, one of them for the sign. -/
theorem Document.lt_of_asUInt64 {d : Document} {n : UInt64} (hd : d.Bounded)
    (h : d.asUInt64 = .ok n) : n.toNat < 2 ^ 63 := by
  obtain ⟨m, hm, rfl⟩ := map_eq_ok_iff.mp h
  cases hd with
  | @integer z hlow hhigh =>
    cases z with
    | ofNat k =>
      simp only [Document.asNatural] at hm
      split at hm
      · cases hm
        have hlt : (m : ℤ) < 2 ^ 63 := hhigh
        have hsize : m < UInt64.size := by
          unfold UInt64.size
          omega
        rw [UInt64.toNat_ofNat_of_lt' hsize]
        omega
      · cases hm
    | negSucc k => cases hm
  | _ => cases hm

theorem Preferences.quotaPerUnit_lt_of_read {d : Document} {preferences : Preferences}
    (hd : d.Bounded) (h : Preferences.read .toml d = .ok preferences) :
    preferences.quotaPerUnit.toNat < 2 ^ 63 := by
  refine keeps_readRecord (P := fun preferences => preferences.quotaPerUnit.toNat < 2 ^ 63)
    Document.hereditary_bounded ?_ (by decide) hd h
  simp only [fields, List.forall_mem_cons]
  refine ⟨?format, ?color, ?unit, ?quotaPerUnit, List.forall_mem_nil _⟩
  case format | color | unit =>
    exact Field.keeps_of fun d v record hd hread hrecord => hrecord
  case quotaPerUnit =>
    exact Field.keeps_of fun d v record hd hread hrecord => Document.lt_of_asUInt64 hd hread

theorem RemoteSetup.userId_lt_of_read {d : Document} {remote : RemoteSetup} (hd : d.Bounded)
    (h : RemoteSetup.read .toml d = .ok remote) : ∀ id ∈ remote.userId, id.toNat < 2 ^ 63 := by
  refine keeps_readRecord (P := fun remote => ∀ id ∈ remote.userId, id.toNat < 2 ^ 63)
    Document.hereditary_bounded ?_ (by simp [initial]) hd h
  simp only [fields, List.forall_mem_cons]
  refine ⟨?baseUrl, ?tokenVariable, ?userId, List.forall_mem_nil _⟩
  case baseUrl | tokenVariable =>
    exact Field.keeps_of fun d v record hd hread hrecord => hrecord
  case userId =>
    refine Field.keeps_of fun d v record hd hread hrecord id hid => ?_
    obtain rfl | ⟨n, hn, rfl⟩ := Document.asOptional_cases hread
    · cases hid
    · cases hid
      exact Document.lt_of_asUInt64 hd hn

namespace Setup

variable {setup : Setup}

theorem representable_blank : blank.Representable :=
  ⟨by decide, by simp [blank, RemoteSetup.initial]⟩

/-- Whatever text a setup is read from, it can be stored. -/
theorem representable_of_ofText {s : String} (h : ofText s = .ok setup) : setup.Representable := by
  obtain ⟨d, hd, hread⟩ := Toml.exists_of_decode h
  refine keeps_readRecord Document.hereditary_bounded ?_ representable_blank hd hread
  simp only [fields, List.forall_mem_cons]
  refine ⟨?settings, ?pricing, ?remote, ?groups, ?models, List.forall_mem_nil _⟩
  case settings =>
    exact Field.keeps_of fun d v record hd hread hrecord =>
      ⟨Preferences.quotaPerUnit_lt_of_read hd hread, hrecord.userId⟩
  case remote =>
    exact Field.keeps_of fun d v record hd hread hrecord =>
      ⟨hrecord.quotaPerUnit, RemoteSetup.userId_lt_of_read hd hread⟩
  case pricing | groups | models =>
    exact Field.keeps_of fun d v record hd hread hrecord =>
      ⟨hrecord.quotaPerUnit, hrecord.userId⟩

theorem representable_of_load {contents : Contents} (h : load contents = .ok setup) :
    setup.Representable := by
  cases contents with
  | missing =>
    cases h
    exact ⟨representable_blank.quotaPerUnit, representable_blank.userId⟩
  | unreadable reason => cases h
  | text s => exact representable_of_ofText (mapError_eq_ok_iff.mp h)

/-- A setup that was loaded has a text, which can be saved wherever a file can be written, and what
is loaded from there is the same setup: what was not set is not set, and a table of groups or a list
of models that is there and empty stays so. -/
theorem loads_what_was_saved {contents : Contents} (h : load contents = .ok setup) {disk : Disk}
    {path : String} (hpath : disk.Writable path) :
    ∃ text written, setup.text? = some text ∧ disk.save? path text = some written ∧
      load (written.contents path) = .ok setup := by
  have htext := text?_eq_some (representable_of_load h)
  obtain ⟨written, hsave⟩ := Option.isSome_iff_exists.mp (hpath setup.toText)
  refine ⟨setup.toText, written, htext, hsave, ?_⟩
  rw [Disk.contents_of_save? hsave]
  exact mapError_eq_ok_iff.mpr (ofText_text? htext)

/-- A setup in which a user is named, and there are no groups and no models. -/
def userAlone : Setup :=
  { blank with remote := { RemoteSetup.initial with userId := some 7 }, groups := .empty }

/-- A setup with two groups, and a model that is billed by call. -/
def vipSetup : Setup :=
  { blank with
    groups := .ofList [("vip", 0.8), ("default", 1.0)]
    models := [⟨"\"mj\"", .perCall, 0.0, 1.0, 0.1, ["vip", "default"]⟩] }

theorem loads_userAlone :
    (∃ text written, userAlone.text? = some text ∧
      Disk.empty.save? "config.toml" text = some written ∧
      load (written.contents "config.toml") = .ok userAlone) ∧
    ∃ text written, vipSetup.text? = some text ∧
      Disk.empty.save? "config.toml" text = some written ∧
      load (written.contents "config.toml") = .ok vipSetup := by
  have hload : load (.text "models = []\n[remote]\nuser_id = 7\n[group_ratios]\n") =
      .ok userAlone := by decide +kernel
  have hload' : load (.text ("[group_ratios]\nvip = 8e-1\ndefault = 1\n" ++
      "[[models]]\nmodel_name = '\"mj\"'\nquota_type = 1\nmodel_price = 0.1\n" ++
      "enable_groups = [\"vip\", \"default\"]\n")) = .ok vipSetup := by decide +kernel
  have hpath : Disk.empty.Writable "config.toml" := fun text => by rfl
  exact ⟨loads_what_was_saved hload hpath, loads_what_was_saved hload' hpath⟩

end Setup

end Tariff
