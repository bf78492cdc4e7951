import Tariff.Command.Run
import Tariff.Proofs.Asks
import Tariff.Proofs.Disk

/-!
# Runs one after another

Every run for tiered pricing loads the file that the one before has left, and saves what it makes of
it. A session of such runs does to the file what the editor does in memory.

* `TierCommand.apply`: what a command makes of a snapshot in memory, or why it is refused.
* `Disk.tier`: one command on a disk. `Disk.Holds.tier_cases`: it is refused and changes nothing,
  or answers and changes nothing, or saves what the editor has made.
* `Asked`: the command that a command line is for. `Disk.run_eq_tier`: a run does that command.
  `Disk.Holds.run`: after it the file holds what the editor has made.
* `Session`: command lines that are run one after another. `Session.ofAsked`: a setup in another
  file stays as it is, so command lines under it make a session.
* `session_follows_editor`: after a session the file holds what the editor has come to.
-/

namespace Tariff

open Command

variable {basis : Basis} {s next : Snapshot}

/-! ## In memory -/

/-- Changes fields of the rule that the editor finds under a name. -/
def Snapshot.changeFields (snapshot : Snapshot) (config rule : String) (given : RuleFields)
    (basis : Basis) : Except EditError Snapshot :=
  (snapshot.ruleIndex config rule).bind fun index =>
    (snapshot.config config).bind fun c =>
      match c.rules[index]? with
      | some old => snapshot.putRule config (some index) (given.apply old.draft) basis
      | none => .error (.unknownRule config rule)

/-- What the editor makes of a snapshot. -/
def Change.apply (basis : Basis) (snapshot : Snapshot) : Change → Except EditError Snapshot
  | edit e => e.apply basis snapshot
  | fields config rule given => snapshot.changeFields config rule given basis

/-- What a command makes of a snapshot that is kept in memory. -/
def TierCommand.apply (basis : Basis) (snapshot : Snapshot) :
    TierCommand → Except EditError Snapshot
  | list => .ok snapshot
  | detail name => (snapshot.config name).map fun _ => snapshot
  | change c => c.apply basis snapshot

/-- A change is made by the edit that it stands for. -/
theorem Change.apply_eq_ok_iff {change : Change} :
    change.apply basis s = .ok next ↔
      ∃ edit, change.toEdit s = .ok edit ∧ edit.apply basis s = .ok next := by
  cases change with
  | edit e => exact ⟨fun h => ⟨e, rfl, h⟩, by rintro ⟨_, ⟨⟩, h⟩; exact h⟩
  | fields config rule given =>
    constructor
    · intro h
      obtain ⟨index, hindex, h⟩ := bind_eq_ok_iff.mp h
      obtain ⟨c, hc, h⟩ := bind_eq_ok_iff.mp h
      obtain ⟨c', hget, hplace⟩ := Snapshot.ruleIndex_eq_ok_iff.mp hindex
      cases hget.symm.trans (Snapshot.config_eq_ok_iff.mp hc)
      split at h
      · rename_i old hold
        exact ⟨_, edit_eq_ok_iff.mpr ⟨c, index, old, hget, hplace, hold, rfl⟩,
          bind_eq_ok_iff.mpr ⟨index, hindex, h⟩⟩
      · cases h
    · rintro ⟨edit, hedit, h⟩
      obtain ⟨c, index, old, hget, hplace, hold, rfl⟩ := edit_eq_ok_iff.mp hedit
      obtain ⟨index', hindex, h⟩ := bind_eq_ok_iff.mp h
      cases hindex.symm.trans (Snapshot.ruleIndex_eq_ok_iff.mpr ⟨c, hget, hplace⟩)
      refine bind_eq_ok_iff.mpr ⟨index, hindex, ?_⟩
      refine bind_eq_ok_iff.mpr ⟨c, Snapshot.config_eq_ok_iff.mpr hget, ?_⟩
      rw [hold]
      exact h

/-! ## On a disk -/

/-- One command about tiered pricing: it looks into its file, and does what it has planned. -/
def Disk.tier (disk : Disk) (context : Context) (command : TierCommand) : Outcome × Disk :=
  disk.execute (Plan.ofExcept (context.tier (disk.contents context.pricingFile) command))

/-- Whether a command only asks for an answer. -/
def TierCommand.isQuestion : TierCommand → Bool
  | change _ => false
  | _ => true

/-- A file can be written, and a snapshot is loaded from it. -/
structure Disk.Holds (disk : Disk) (path : String) (s : Snapshot) : Prop where
  loads : Snapshot.load (disk.contents path) = .ok s
  writable : disk.Writable path

theorem Outcome.exit_ofPage (options : OutputOptions) (page : Report.Page) (value : Json) :
    (ofPage options page value).exit = 0 := by
  unfold ofPage
  split
  · rfl
  · rfl

/-- A change is refused where the editor refuses it; else what the editor has made is committed. -/
theorem Context.change_cases (context : Context) (s : Snapshot) (change : Change) :
    (∃ error refused, change.apply context.setup.basis s = .error error ∧
      context.change s change = .error refused) ∨
    ∃ edit next, change.apply context.setup.basis s = .ok next ∧
      context.change s change = .ok (context.commit edit next) := by
  cases happly : change.apply context.setup.basis s with
  | ok next =>
    obtain ⟨edit, hedit, hnext⟩ := Change.apply_eq_ok_iff.mp happly
    refine .inr ⟨edit, next, rfl, ?_⟩
    exact bind_eq_ok_iff.mpr ⟨edit, hedit, bind_eq_ok_iff.mpr ⟨next, hnext, rfl⟩⟩
  | error error =>
    cases hchange : context.change s change with
    | error refused => exact .inl ⟨error, refused, rfl, rfl⟩
    | ok plan =>
      obtain ⟨edit, hedit, h⟩ := bind_eq_ok_iff.mp hchange
      obtain ⟨next, hnext, -⟩ := bind_eq_ok_iff.mp h
      cases happly.symm.trans (Change.apply_eq_ok_iff.mpr ⟨edit, hedit, hnext⟩)

/-- What a command plans where `s` is loaded: it is refused, or answers, or commits what the editor
has made. -/
theorem Context.tier_cases (context : Context) (command : TierCommand) {pricing : Contents}
    (hload : Snapshot.load pricing = .ok s) :
    (∃ error failure, command.apply context.setup.basis s = .error error ∧
      context.tier pricing command = .error failure) ∨
    (∃ answer, command.isQuestion = true ∧ command.apply context.setup.basis s = .ok s ∧
      context.tier pricing command = .ok (.outcome answer) ∧ answer.exit = 0) ∨
    ∃ change edit next, command = .change change ∧
      command.apply context.setup.basis s = .ok next ∧
      context.tier pricing command = .ok (context.commit edit next) := by
  have hsnapshot : context.snapshot pricing = .ok s := by
    unfold snapshot
    rw [hload]
    rfl
  unfold tier
  rw [hsnapshot]
  cases command with
  | list => exact .inr (.inl ⟨_, rfl, rfl, rfl, Outcome.exit_ofPage _ _ _⟩)
  | detail name =>
    unfold TierCommand.apply detail
    dsimp only [bind, Except.bind]
    cases s.config name with
    | error error => exact .inl ⟨error, _, rfl, rfl⟩
    | ok config => exact .inr (.inl ⟨_, rfl, rfl, rfl, Outcome.exit_ofPage _ _ _⟩)
  | change change =>
    dsimp only [bind, Except.bind]
    obtain ⟨error, refused, happly, hchange⟩ | ⟨edit, next, happly, hchange⟩ :=
      context.change_cases s change
    · rw [hchange]
      exact .inl ⟨error, _, happly, rfl⟩
    · rw [hchange]
      exact .inr (.inr ⟨change, edit, next, rfl, happly, rfl⟩)

theorem Disk.execute_commit {disk written : Disk} {context : Context} (edit : Edit)
    (h : disk.save? context.pricingFile next.toText = some written) :
    (disk.execute (context.commit edit next)).1.exit = 0 ∧
      (disk.execute (context.commit edit next)).2 = written := by
  unfold execute Context.commit
  simp only [h, and_true]
  split
  · rfl
  · rfl

/-- What becomes of a command on a disk whose file holds `s`: it is refused, or answers, and nothing
is written, or it saves what the editor has made. -/
theorem Disk.Holds.tier_cases {disk : Disk} {path : String} {context : Context}
    (h : disk.Holds path s) (command : TierCommand) (hpath : context.pricingFile = path) :
    (∃ error, command.apply context.setup.basis s = .error error ∧
      (disk.tier context command).1.exit ≠ 0 ∧ (disk.tier context command).2 = disk) ∨
    (command.isQuestion = true ∧ command.apply context.setup.basis s = .ok s ∧
      (disk.tier context command).1.exit = 0 ∧ (disk.tier context command).2 = disk) ∨
    ∃ change next, command = .change change ∧ command.apply context.setup.basis s = .ok next ∧
      (disk.tier context command).1.exit = 0 ∧
      disk.save? path next.toText = some (disk.tier context command).2 := by
  subst hpath
  unfold tier
  obtain ⟨error, failure, happly, hplan⟩ | ⟨answer, hquestion, happly, hplan, hexit⟩ |
    ⟨change, edit, next, hcommand, happly, hplan⟩ := context.tier_cases command h.loads
  · rw [hplan]
    exact .inl ⟨error, happly, Nat.one_ne_zero, rfl⟩
  · rw [hplan]
    exact .inr (.inl ⟨hquestion, happly, hexit, rfl⟩)
  · rw [hplan]
    obtain ⟨written, hwritten⟩ := Option.isSome_iff_exists.mp (h.writable next.toText)
    obtain ⟨hexit, hdisk⟩ := execute_commit edit hwritten
    refine .inr (.inr ⟨change, next, hcommand, happly, hexit, ?_⟩)
    exact hwritten.trans (congrArg some hdisk.symm)

theorem Snapshot.representable_of_load {contents : Contents}
    (h : Snapshot.load contents = .ok s) : s.Representable := by
  cases contents with
  | missing =>
    cases h
    exact List.forall_mem_nil _
  | unreadable reason => cases h
  | text t => exact representable_of_ofText (mapError_eq_ok_iff.mp h)

/-- After a command the file holds what the editor has made. -/
theorem Disk.Holds.tier {disk : Disk} {path : String} {context : Context} {command : TierCommand}
    (h : disk.Holds path s) (hpath : context.pricingFile = path) (hstorable : command.Storable) :
    (disk.tier context command).2.Holds path
      ((command.apply context.setup.basis s).toOption.getD s) := by
  obtain ⟨error, happly, -, hdisk⟩ | ⟨-, happly, -, hdisk⟩ |
    ⟨change, next, hcommand, happly, -, hsave⟩ := h.tier_cases command hpath
  · rw [happly, hdisk]
    exact h
  · rw [happly, hdisk]
    exact h
  · have hs : s.Representable := Snapshot.representable_of_load h.loads
    have hnext : next.Representable := by
      rw [hcommand] at hstorable happly
      obtain ⟨edit, hedit, hnext⟩ := Change.apply_eq_ok_iff.mp happly
      obtain ⟨hrules, hfinite⟩ := storable_of_toEdit hs hstorable hedit
      exact Edit.representable_apply hnext hs hrules hfinite
    rw [happly]
    refine ⟨?_, writable_of_save? hsave⟩
    rw [contents_of_save? hsave]
    exact mapError_eq_ok_iff.mpr (Snapshot.ofText_toText hnext)

/-! ## Runs -/

/-- What a command line asks for about the tiered pricing at `path`, with finite numbers, where
`setup` is what its file of the setup holds. -/
inductive Asked (env : Environment) (path setupFile : String) (setup : Setup)
    (line : List String) : TierCommand → Prop where
  | intro {args : Arguments} {command : TierCommand}
    (hread : Arguments.read grammarOf line = .ok args) (hasks : Asks args command)
    (hsetup : (args.value? "config").getD (setupPath env) = setupFile)
    (hpath : (args.value? "pricing").getD (pricingPath env setupFile setup.pricingFile) = path)
    (hfinite : ∀ given, ruleFields? args = some given →
      ∀ x ∈ given.numbers, x.isFinite = true) : Asked env path setupFile setup line command

variable {env : Environment} {path setupFile : String} {setup : Setup} {disk : Disk}
  {line : List String} {command : TierCommand}

theorem Asked.ofFields (args : Arguments) (given : RuleFields)
    (hread : Arguments.read grammarOf line = .ok args) (hasks : Asks args command)
    (hsetup : (args.value? "config").getD (setupPath env) = setupFile)
    (hpath : (args.value? "pricing").getD (pricingPath env setupFile setup.pricingFile) = path)
    (hgiven : ruleFields? args = some given) (hfinite : ∀ x ∈ given.numbers, x.isFinite = true) :
    Asked env path setupFile setup line command := by
  refine .intro hread hasks hsetup hpath fun given' hgiven' => ?_
  cases hgiven.symm.trans hgiven'
  exact hfinite

theorem Asked.storable (h : Asked env path setupFile setup line command) : command.Storable := by
  obtain ⟨-, hasks, -, -, hfinite⟩ := h
  exact hasks.storable hfinite

theorem Invocation.read_of_asks {args : Arguments}
    (hread : Arguments.read grammarOf line = .ok args) (hasks : Asks args command) :
    ∃ flags, Invocation.read line =
      .ok ⟨.tier command, flags, args.value? "config", args.value? "pricing"⟩ := by
  unfold Invocation.read
  rw [hread]
  dsimp only [Except.bind]
  rw [ofArguments?_eq_tier_iff.mpr hasks]
  exact ⟨_, rfl⟩

/-- A run does the command that its command line asks for. -/
theorem Disk.run_eq_tier (h : Asked env path setupFile setup line command)
    (hsetup : Setup.load (disk.contents setupFile) = .ok setup) :
    ∃ context : Context, context.setup = setup ∧ context.pricingFile = path ∧
      disk.run env line = disk.tier context command := by
  obtain ⟨hread, hasks, hsetupFile, hpath, -⟩ := h
  obtain ⟨flags, hinvocation⟩ := Invocation.read_of_asks hread hasks
  refine ⟨⟨setup, setupFile, path, flags.resolve false setup.preferences⟩, rfl, rfl, ?_⟩
  subst hsetupFile hpath
  unfold run plan tier
  rw [hinvocation]
  unfold Invocation.plan Invocation.planIn Invocation.pricingPath Invocation.setupPath
  simp only [hsetup]

/-- After a run the file holds what the editor has made. -/
theorem Disk.Holds.run (h : disk.Holds path s)
    (hasked : Asked env path setupFile setup line command)
    (hsetup : Setup.load (disk.contents setupFile) = .ok setup) :
    (disk.run env line).2.Holds path ((command.apply setup.basis s).toOption.getD s) := by
  obtain ⟨context, rfl, hpath, hrun⟩ := run_eq_tier hasked hsetup
  rw [hrun]
  exact h.tier hpath hasked.storable

/-- The disk after command lines were run one after another. -/
def Disk.afterLines (disk : Disk) (env : Environment) (lines : List (List String)) : Disk :=
  lines.foldl (fun disk line => (disk.run env line).2) disk

@[simp]
theorem Disk.afterLines_append_singleton {lines : List (List String)} :
    disk.afterLines env (lines ++ [line]) = ((disk.afterLines env lines).run env line).2 := by
  unfold afterLines
  rw [List.foldl_append]
  rfl

/-- The snapshot in memory after commands, each with the prices that its setup starts from; those
that are refused leave it as it is. -/
def Snapshot.afterAll (snapshot : Snapshot) (steps : List (Basis × TierCommand)) : Snapshot :=
  steps.foldl
    (fun snapshot step => (step.2.apply step.1 snapshot).toOption.getD snapshot) snapshot

@[simp]
theorem Snapshot.afterAll_append_singleton {done : List (Basis × TierCommand)}
    {step : Basis × TierCommand} :
    s.afterAll (done ++ [step]) =
      (step.2.apply step.1 (s.afterAll done)).toOption.getD (s.afterAll done) := by
  unfold afterAll
  rw [List.foldl_append]
  rfl

/-- Command lines for the tiered pricing at `path` that are run one after another, and what they ask
for. Each of them finds a setup that can be loaded. -/
inductive Session (env : Environment) (path : String) (disk : Disk) :
    List (List String) → List (Basis × TierCommand) → Prop where
  | start : Session env path disk [] []
  | next {lines : List (List String)} {done : List (Basis × TierCommand)} {setupFile : String}
    {setup : Setup} {line : List String} {command : TierCommand}
    (before : Session env path disk lines done)
    (hsetup : Setup.load ((disk.afterLines env lines).contents setupFile) = .ok setup)
    (hasked : Asked env path setupFile setup line command) :
    Session env path disk (lines ++ [line]) (done ++ [(setup.basis, command)])

variable {lines : List (List String)} {done : List (Basis × TierCommand)}

theorem Session.length_eq (session : Session env path disk lines done) :
    lines.length = done.length := by
  induction session with
  | start => rfl
  | next before hsetup hasked ih => simpa using ih

/-- A session that is broken off is a session. -/
theorem Session.take (session : Session env path disk lines done) (n : Nat) :
    Session env path disk (lines.take n) (done.take n) := by
  induction session with
  | start => simpa using Session.start
  | @next lines done setupFile setup line command before hsetup hasked ih =>
    by_cases hn : n ≤ lines.length
    · have hn' : n ≤ done.length := before.length_eq ▸ hn
      rw [List.take_append_of_le_length hn, List.take_append_of_le_length hn']
      exact ih
    · have hlines : (lines ++ [line]).length ≤ n := by simp; omega
      have hdone : (done ++ [(setup.basis, command)]).length ≤ n := by
        simpa [before.length_eq] using hlines
      rw [List.take_of_length_le hlines, List.take_of_length_le hdone]
      exact .next before hsetup hasked

/-- Every command line of a session found its setup, and asks for what is done. -/
theorem Session.step (session : Session env path disk lines done) {n : Nat} {basis : Basis}
    (hline : lines[n]? = some line) (hdone : done[n]? = some (basis, command)) :
    ∃ setupFile setup, Setup.basis setup = basis ∧
      Setup.load ((disk.afterLines env (lines.take n)).contents setupFile) = .ok setup ∧
      Asked env path setupFile setup line command := by
  induction session with
  | start => cases hline
  | @next lines done setupFile setup line' command' before hsetup hasked ih =>
    obtain hn | rfl | hn := Nat.lt_trichotomy n lines.length
    · have hn' : n < done.length := before.length_eq ▸ hn
      rw [List.getElem?_append_left hn] at hline
      rw [List.getElem?_append_left hn'] at hdone
      rw [List.take_append_of_le_length hn.le]
      exact ih hline hdone
    · rw [List.getElem?_concat_length] at hline
      rw [before.length_eq, List.getElem?_concat_length] at hdone
      cases hline
      cases hdone
      rw [List.take_left]
      exact ⟨setupFile, setup, rfl, hsetup, hasked⟩
    · rw [List.getElem?_eq_none (by simp; omega)] at hline
      cases hline

theorem Session.holds (session : Session env path disk lines done) (h : disk.Holds path s) :
    (disk.afterLines env lines).Holds path (s.afterAll done) := by
  induction session with
  | start => exact h
  | next before hsetup hasked ih =>
    rw [Disk.afterLines_append_singleton, Snapshot.afterAll_append_singleton]
    exact ih.run hasked hsetup

/-- A session leaves other files as they are. -/
theorem Session.beside {second text : String} (session : Session env path disk lines done)
    (h : disk.Holds path s) (hbeside : disk.Beside path second text) :
    (disk.afterLines env lines).Beside path second text := by
  induction session with
  | start => exact hbeside
  | next before hsetup hasked ih =>
    rw [Disk.afterLines_append_singleton]
    obtain ⟨context, -, hpath, hrun⟩ := Disk.run_eq_tier hasked hsetup
    rw [hrun]
    obtain ⟨-, -, -, hdisk⟩ | ⟨-, -, -, hdisk⟩ | ⟨_, _, -, -, -, hsave⟩ :=
      (before.holds h).tier_cases _ hpath
    · rw [hdisk]
      exact ih
    · rw [hdisk]
      exact ih
    · exact ih.save? hsave

/-- Command lines under a setup that is kept in another file make a session. -/
theorem Session.ofAsked {text : String} {steps : List (List String × TierCommand)}
    (h : disk.Holds path s) (hbeside : disk.Beside path setupFile text)
    (hsetup : Setup.load (.text text) = .ok setup)
    (hasked : ∀ step ∈ steps, Asked env path setupFile setup step.1 step.2) :
    Session env path disk (steps.map (·.1)) (steps.map fun step => (setup.basis, step.2)) := by
  induction steps using List.reverseRecOn with
  | nil => exact .start
  | append_singleton steps step ih =>
    obtain ⟨hsteps, hstep⟩ := List.forall_mem_append.mp hasked
    have before := ih hsteps
    rw [List.map_append, List.map_append]
    refine before.next ?_ (hstep step (List.mem_singleton_self step))
    rw [(before.beside h hbeside).contents]
    exact hsetup

/-- Command lines that are run one after another, each on the file that the one before has left, do
to the file what the editor does in memory: after any number of them, the file holds the snapshot
that the editor has come to. A command line fails exactly if the editor refuses what it asks for;
one that fails, and one that only asks, leaves the disk as it is. The program takes for a command
about tiered pricing what asks for it, and nothing else. -/
theorem session_follows_editor (hload : Snapshot.load (disk.contents path) = .ok s)
    (hwritable : disk.Writable path) (session : Session env path disk lines done) :
    (∀ n, Snapshot.load ((disk.afterLines env (lines.take n)).contents path) =
      .ok (s.afterAll (done.take n))) ∧
    (∀ n line basis command, lines[n]? = some line → done[n]? = some (basis, command) →
      (((disk.afterLines env (lines.take n)).run env line).1.exit ≠ 0 ↔
        ∃ error, command.apply basis (s.afterAll (done.take n)) = .error error) ∧
      (((disk.afterLines env (lines.take n)).run env line).1.exit ≠ 0 ∨ command.isQuestion = true →
        disk.afterLines env (lines.take (n + 1)) = disk.afterLines env (lines.take n))) ∧
    ∀ args command, ofArguments? args = some (.tier command) ↔ Asks args command := by
  have hholds (n : Nat) :
      (disk.afterLines env (lines.take n)).Holds path (s.afterAll (done.take n)) :=
    (session.take n).holds ⟨hload, hwritable⟩
  refine ⟨fun n => (hholds n).loads, fun n line basis command hline hdone => ?_,
    fun _ _ => ofArguments?_eq_tier_iff⟩
  obtain ⟨setupFile, setup, rfl, hsetup, hasked⟩ := session.step hline hdone
  have hnext : disk.afterLines env (lines.take (n + 1)) =
      ((disk.afterLines env (lines.take n)).run env line).2 := by
    rw [List.take_add_one, hline]
    exact Disk.afterLines_append_singleton
  rw [hnext]
  obtain ⟨context, rfl, hpath, hrun⟩ := Disk.run_eq_tier hasked hsetup
  rw [hrun]
  obtain ⟨error, happly, hexit, hdisk⟩ | ⟨hquestion, happly, hexit, hdisk⟩ |
    ⟨change, next, hcommand, happly, hexit, -⟩ := (hholds n).tier_cases command hpath
  · exact ⟨iff_of_true hexit ⟨error, happly⟩, fun _ => hdisk⟩
  · rw [happly]
    exact ⟨iff_of_false (· hexit) nofun, fun _ => hdisk⟩
  · rw [happly]
    refine ⟨iff_of_false (· hexit) nofun, ?_⟩
    rintro (hfails | hquestion)
    · exact absurd hexit hfails
    · cases hcommand
      cases hquestion

/-- An environment without variables. -/
def noVariables : Environment := fun _ => none

/-- A setup by which a dollar buys half as much as usual. -/
def dearSetup : Setup :=
  { Setup.blank with preferences := { Preferences.initial with quotaPerUnit := 250000 } }

/-- The text of that setup. -/
def dearText : String := "[settings]\nquota_per_unit = 250000\n"

/-- A disk with that setup, and no tiered pricing. -/
def dearDisk : Disk := .ofTexts [("config.toml", dearText)]

/-- Arguments under the setup in `config.toml`. -/
def underConfig (words : List String) (own : List Given) (positionals : List String) : Arguments :=
  ⟨words, [("config", "config.toml")], own, positionals, none, false, false⟩

/-- Command lines with what they ask for. The fifth is about a rule that is not there. -/
def shortSession : List (List String × TierCommand) :=
  [(["tier-config", "list"], .list),
    (["tier-config", "add", " gpt ", "-m", "gpt-4*", "--empty"],
      .change (.edit (.addConfig " gpt " "gpt-4*" (some [])))),
    (["rule", "add", "gpt", "--name", "T1", "--input-price", "3", "--output-price=12",
        "--as-ratio"],
      .change (.edit (.putRule "gpt" none ⟨"T1", .unlimited, .price 3.0 12.0 true⟩))),
    (["rule", "edit", "gpt", "T1", "--completion=2"],
      .change (.fields "gpt" "T1" { RuleFields.none with completion := some 2.0 })),
    (["rule", "edit", "gpt", "T2", "--ratio", "1"],
      .change (.fields "gpt" "T2" { RuleFields.none with ratio := some 1.0 })),
    (["tier-config", "disable", "gpt"], .change (.edit (.setConfigEnabled "gpt" false))),
    (["tier-config", "global", "on"], .change (.edit (.setEnabled true))),
    (["tier-config", "show", "gpt"], .detail "gpt")].map
      fun (line, command) => (["--config", "config.toml"] ++ line, command)

theorem asked_of_mem_shortSession : ∀ step ∈ shortSession,
    Asked noVariables "pricing.json" "config.toml" dearSetup step.1 step.2 := by
  simp only [shortSession, List.map, List.forall_mem_cons]
  refine ⟨?list, ?add, ?rule, ?edit, ?missing, ?disable, ?global, ?detail, List.forall_mem_nil _⟩
  case list =>
    exact .ofFields (underConfig ["tier-config", "list"] [] []) .none rfl
      (.list ⟨rfl, rfl⟩) rfl rfl rfl (List.forall_mem_nil _)
  case add =>
    exact .ofFields (underConfig ["tier-config", "add"] [("models", "gpt-4*"), ("empty", "")]
      [" gpt "]) .none rfl
      (.addEmpty ⟨rfl, rfl⟩ rfl rfl) rfl rfl rfl (List.forall_mem_nil _)
  case rule =>
    let args := underConfig ["rule", "add"] [("name", "T1"), ("input-price", "3"),
        ("output-price", "12"), ("as-ratio", "")] ["gpt"]
    have hgiven : ruleFields? args = some { RuleFields.none with
        name := some "T1", inputPrice := some 3.0, outputPrice := some 12.0, asRatio := true } := by
      decide +kernel
    exact .ofFields args _ rfl (.addRule ⟨rfl, rfl⟩ hgiven) rfl rfl hgiven (by decide)
  case edit =>
    let args := underConfig ["rule", "edit"] [("completion", "2")] ["gpt", "T1"]
    have hgiven : ruleFields? args = some { RuleFields.none with completion := some 2.0 } := by
      decide +kernel
    exact .ofFields args _ rfl (.editRule ⟨rfl, rfl⟩ hgiven) rfl rfl hgiven (by decide)
  case missing =>
    let args := underConfig ["rule", "edit"] [("ratio", "1")] ["gpt", "T2"]
    have hgiven : ruleFields? args = some { RuleFields.none with ratio := some 1.0 } := by
      decide +kernel
    exact .ofFields args _ rfl (.editRule ⟨rfl, rfl⟩ hgiven) rfl rfl hgiven (by decide)
  case disable =>
    exact .ofFields (underConfig ["tier-config", "disable"] [] ["gpt"]) .none rfl
      (.disable ⟨rfl, rfl⟩) rfl rfl rfl (List.forall_mem_nil _)
  case global =>
    exact .ofFields (underConfig ["tier-config", "global"] [] ["on"]) .none rfl
      (.globalOn ⟨rfl, rfl⟩) rfl rfl rfl (List.forall_mem_nil _)
  case detail =>
    exact .ofFields (underConfig ["tier-config", "show"] [] ["gpt"]) .none rfl
      (.detail ⟨rfl, rfl⟩) rfl rfl rfl (List.forall_mem_nil _)

/-- The disk after some of these command lines. -/
def afterShort (n : Nat) : Disk :=
  dearDisk.afterLines noVariables ((shortSession.map (·.1)).take n)

theorem session_shortSession :
    Session noVariables "pricing.json" dearDisk (shortSession.map (·.1))
      (shortSession.map fun step => (dearSetup.basis, step.2)) := by
  have hholds : dearDisk.Holds "pricing.json" .empty := ⟨rfl, fun text => by rfl⟩
  have hbeside : dearDisk.Beside "pricing.json" "config.toml" dearText :=
    ⟨["pricing.json"], ["config.toml"], rfl, rfl, by decide, rfl⟩
  have hsetup : Setup.load (.text dearText) = .ok dearSetup := by decide +kernel
  exact .ofAsked hholds hbeside hsetup asked_of_mem_shortSession

/-- A configuration is added with a rule whose prices are kept as ratios, the rule is changed, and
tiered pricing is enabled without that configuration. What is asked for about a missing rule is
refused; that, and the question at the end, leave the disk as it was. -/
theorem short_session_leaves_its_rule :
    Snapshot.load ((afterShort 8).contents "pricing.json") =
        .ok ⟨true, .single "gpt" ⟨false, ⟨[.startingWith "gpt-4"]⟩, 1,
          [⟨"T1", .unlimited, .ratio 0.75 2.0 none⟩]⟩⟩ ∧
      ((afterShort 4).run noVariables shortSession[4].1).1.exit ≠ 0 ∧
      afterShort 5 = afterShort 4 ∧ afterShort 8 = afterShort 7 := by
  have hload : Snapshot.load (dearDisk.contents "pricing.json") = .ok .empty := rfl
  have hwritable : dearDisk.Writable "pricing.json" := fun text => by rfl
  obtain ⟨hloads, hsteps, -⟩ := session_follows_editor hload hwritable session_shortSession
  obtain ⟨hrefused, hkept⟩ := hsteps 4 _ _ _ rfl rfl
  obtain ⟨-, hquestion⟩ := hsteps 7 _ _ _ rfl rfl
  have hmissing := hrefused.mpr ⟨_, rfl⟩
  refine ⟨(hloads 8).trans (congrArg Except.ok ?_), hmissing, hkept (.inl hmissing),
    hquestion (.inr rfl)⟩
  decide +kernel

end Tariff
