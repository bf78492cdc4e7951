import Tariff.Files.Disk

/-!
# Files that are written

A file that was written is found with its text where its path leads, and can be written again.

* `Disk.KeepsFolders`: all folders of a disk are on another one. What is made and written keeps the
  folders, and so every way that could be walked before.
* `Disk.contents_of_save?`: what is found after a file was written.
* `Disk.Writable`: a path where files can be written. `Disk.writable_of_save?`: once this has
  succeeded, with any text, it does so again.
* `Disk.Beside`: another file with its text. `Disk.Beside.save?`: it keeps its text.
-/

namespace Tariff

namespace Disk

variable {disk next other : Disk} {place : Place} {names : List String} {path text : String}

/-! ## Entries -/

theorem entry?_put {entry : Entry} (hplace : place ≠ []) (p : Place) :
    entry? (disk.put place entry) p =
      if p = [] then some .folder
      else if Text.joined "/" p = Text.joined "/" place then some entry
      else disk.entry? p := by
  unfold entry? put
  rw [if_neg hplace, Table.get?_insert]
  by_cases hp : p = []
  · rw [if_pos hp, if_pos hp]
  · rw [if_neg hp, if_neg hp, if_neg hp]

theorem entry?_put_self {entry : Entry} (hplace : place ≠ []) :
    entry? (disk.put place entry) place = some entry := by
  rw [entry?_put hplace, if_neg hplace, if_pos rfl]

/-- Places of one path have the same entry. -/
theorem entry?_congr {p q : Place} (hp : p ≠ []) (hq : q ≠ [])
    (h : Text.joined "/" p = Text.joined "/" q) : disk.entry? p = disk.entry? q := by
  unfold entry?
  rw [if_neg hp, if_neg hq, h]

/-- The folder that the program runs in is the only place that is always a folder. -/
theorem ne_nil_of_not_folder (h : disk.entry? place ≠ some .folder) : place ≠ [] := by
  rintro rfl
  exact h (if_pos rfl)

theorem not_folder_of_none (h : disk.entry? place = none) :
    disk.entry? place ≠ some .folder := by
  rw [h]
  exact nofun

/-! ## Folders stay -/

/-- All folders of `disk` are folders of `next`. -/
def KeepsFolders (disk next : Disk) : Prop :=
  ∀ place, disk.entry? place = some .folder → next.entry? place = some .folder

/-- Whatever is put where no folder is, it takes no folder away. -/
theorem keepsFolders_put {entry : Entry} (h : disk.entry? place ≠ some .folder) :
    disk.KeepsFolders (disk.put place entry) := by
  intro p hp
  rw [entry?_put (ne_nil_of_not_folder h)]
  split
  · rfl
  · rename_i hne
    split
    · rename_i hkey
      exact absurd ((entry?_congr (ne_nil_of_not_folder h) hne hkey.symm).trans hp) h
    · exact hp

theorem makeFolders?_cons {name : String}
    (h : disk.entry? (Disk.next place name) = some .folder) :
    disk.makeFolders? place (name :: names) =
      disk.makeFolders? (Disk.next place name) names := by
  rw [makeFolders?]
  simp only [h]

/-- What is put where nothing is takes nothing away. -/
theorem entry?_put_of_none {new entry : Entry} {p : Place} (hnone : disk.entry? place = none)
    (hp : disk.entry? p = some entry) : entry? (disk.put place new) p = some entry := by
  have hplace : place ≠ [] := ne_nil_of_not_folder (not_folder_of_none hnone)
  rw [entry?_put hplace]
  by_cases hnil : p = []
  · subst hnil
    rw [if_pos rfl]
    exact (if_pos rfl).symm.trans hp
  · have hkey : Text.joined "/" p ≠ Text.joined "/" place := by
      intro hkey
      rw [entry?_congr hnil hplace hkey, hnone] at hp
      cases hp
    rw [if_neg hnil, if_neg hkey]
    exact hp

/-- Folders are made where nothing is, so all that is there stays. -/
theorem entry?_makeFolders? {entry : Entry} {p : Place}
    (h : disk.makeFolders? place names = some next) (hp : disk.entry? p = some entry) :
    next.entry? p = some entry := by
  fun_induction makeFolders? disk place names with
  | case1 =>
    cases h
    exact hp
  | case2 disk place name names place' hnone ih => exact ih h (entry?_put_of_none hnone hp)
  | case3 disk place name names place' hfolder ih => exact ih h hp
  | case4 => cases h

theorem keepsFolders_makeFolders? (h : disk.makeFolders? place names = some next) :
    disk.KeepsFolders next :=
  fun _ hfolder => entry?_makeFolders? h hfolder

/-- Where all folders stay, a way that could be walked leads where it led. -/
theorem KeepsFolders.walk? (hkeeps : disk.KeepsFolders next) {goal : Place}
    (h : disk.walk? place names = some goal) : next.walk? place names = some goal := by
  induction names generalizing place with
  | nil => exact h
  | cons name names ih =>
    unfold Disk.walk? at h ⊢
    split at h
    · rename_i hfolder
      rw [if_pos (hkeeps place hfolder)]
      exact ih h
    · cases h

theorem KeepsFolders.place? (hkeeps : disk.KeepsFolders next)
    (h : disk.place? path = some place) : next.place? path = some place := by
  unfold Disk.place? at h ⊢
  split at h
  · cases h
  · rename_i hpath
    rw [if_neg hpath]
    exact hkeeps.walk? h

/-- Folders that have been made are not made again. -/
theorem makeFolders?_of_keepsFolders (h : disk.makeFolders? place names = some next)
    (hkeeps : next.KeepsFolders other) : other.makeFolders? place names = some other := by
  fun_induction makeFolders? disk place names with
  | case1 => rfl
  | case2 disk place name names place' hnone ih =>
    have hne : place' ≠ [] := ne_nil_of_not_folder (not_folder_of_none hnone)
    have hmade : next.entry? place' = some .folder :=
      keepsFolders_makeFolders? h place' (entry?_put_self hne)
    exact (makeFolders?_cons (hkeeps place' hmade)).trans (ih h)
  | case3 disk place name names place' hfolder ih =>
    have hmade : next.entry? place' = some .folder := keepsFolders_makeFolders? h place' hfolder
    exact (makeFolders?_cons (hkeeps place' hmade)).trans (ih h)
  | case4 => cases h

/-! ## Writing -/

/-- What writing a file into a folder comes to. -/
theorem write?_eq_some_iff :
    disk.write? path text = some next ↔
      (Text.pieces '/' path).getLast?.all isTurn = false ∧
      ∃ place, disk.place? path = some place ∧ disk.entry? place ≠ some .folder ∧
        next = disk.put place (.file (some text)) := by
  unfold write?
  split
  · rename_i hturn
    simp [hturn]
  · rename_i hturn
    rw [Option.bind_eq_some_iff]
    simp only [Bool.eq_false_iff.mpr hturn, true_and]
    refine exists_congr fun place => and_congr_right fun _ => ?_
    split
    · rename_i hfolder
      simp [hfolder]
    · rename_i hfile
      simp [hfile, eq_comm]

theorem keepsFolders_write? (h : disk.write? path text = some next) : disk.KeepsFolders next := by
  obtain ⟨-, place, -, hfile, rfl⟩ := write?_eq_some_iff.mp h
  exact keepsFolders_put hfile

theorem contents_of_write? (h : disk.write? path text = some next) :
    next.contents path = .text text := by
  have hkeeps := keepsFolders_write? h
  obtain ⟨-, place, hplace, hfile, rfl⟩ := write?_eq_some_iff.mp h
  unfold contents
  rw [hkeeps.place? hplace, Option.bind_some, entry?_put_self (ne_nil_of_not_folder hfile)]

theorem isSome_write?_of_write? (h : disk.write? path text = some next) (again : String) :
    (next.write? path again).isSome := by
  have hkeeps := keepsFolders_write? h
  obtain ⟨hname, place, hplace, hfile, rfl⟩ := write?_eq_some_iff.mp h
  refine Option.isSome_iff_exists.mpr ⟨_, write?_eq_some_iff.mpr ⟨hname, place, ?_, ?_, rfl⟩⟩
  · exact hkeeps.place? hplace
  · rw [entry?_put_self (ne_nil_of_not_folder hfile)]
    exact nofun

/-- A file is saved by making folders and writing it into the last of them. -/
theorem save?_eq_some (h : disk.save? path text = some next) :
    (Path.parent? path = some "" ∧ disk.write? path text = some next) ∨
      ∃ folder made, Path.parent? path = some folder ∧ folder ≠ "" ∧
        disk.makeFolders? [] (Text.pieces '/' folder) = some made ∧
        made.write? path text = some next := by
  unfold save? at h
  split at h
  · cases h
  · rename_i hparent
    exact .inl ⟨hparent, h⟩
  · rename_i folder hne hparent
    obtain ⟨made, hmade, hwrite⟩ := Option.bind_eq_some_iff.mp h
    exact .inr ⟨folder, made, hparent, hne, hmade, hwrite⟩

/-- A file that was saved is found with its text. -/
theorem contents_of_save? (h : disk.save? path text = some next) :
    next.contents path = .text text := by
  obtain ⟨-, hwrite⟩ | ⟨folder, made, -, -, -, hwrite⟩ := save?_eq_some h
  · exact contents_of_write? hwrite
  · exact contents_of_write? hwrite

/-- Any text can be saved where a path leads. -/
def Writable (disk : Disk) (path : String) : Prop :=
  ∀ text, (disk.save? path text).isSome

/-- Where a file was saved, others can be saved in its place. -/
theorem writable_of_save? (h : disk.save? path text = some next) : next.Writable path := by
  intro again
  unfold save?
  obtain ⟨hparent, hwrite⟩ | ⟨folder, made, hparent, hne, hmade, hwrite⟩ := save?_eq_some h
  · rw [hparent]
    exact isSome_write?_of_write? hwrite again
  · rw [hparent]
    have hagain : next.makeFolders? [] (Text.pieces '/' folder) = some next :=
      makeFolders?_of_keepsFolders hmade (keepsFolders_write? hwrite)
    split
    · cases ‹some folder = none›
    · rename_i heq
      exact absurd (Option.some.inj heq) hne
    · rename_i heq
      cases heq
      rw [hagain]
      exact isSome_write?_of_write? hwrite again

/-! ## Other files -/

/-- Another file than the one at `path`, with its text. -/
def Beside (disk : Disk) (path second text : String) : Prop :=
  ∃ p q, disk.place? path = some p ∧ disk.place? second = some q ∧
    Text.joined "/" q ≠ Text.joined "/" p ∧ disk.entry? q = some (.file (some text))

theorem Beside.contents {second : String} (h : disk.Beside path second text) :
    disk.contents second = .text text := by
  obtain ⟨p, q, -, hq, -, hentry⟩ := h
  unfold Disk.contents
  rw [hq, Option.bind_some, hentry]

theorem Beside.write? {second new : String} (h : disk.Beside path second text)
    (hwrite : disk.write? path new = some next) : next.Beside path second text := by
  have hkeeps := keepsFolders_write? hwrite
  obtain ⟨-, place, hplace, hfile, rfl⟩ := write?_eq_some_iff.mp hwrite
  obtain ⟨p, q, hp, hq, hne, hentry⟩ := h
  cases hplace.symm.trans hp
  have hq' : q ≠ [] := ne_nil_of_not_folder (by rw [hentry]; exact nofun)
  refine ⟨place, q, hkeeps.place? hp, hkeeps.place? hq, hne, ?_⟩
  rw [entry?_put (ne_nil_of_not_folder hfile), if_neg hq', if_neg hne]
  exact hentry

/-- A file keeps its text where another one is saved. -/
theorem Beside.save? {second new : String} (h : disk.Beside path second text)
    (hsave : disk.save? path new = some next) : next.Beside path second text := by
  obtain ⟨-, hwrite⟩ | ⟨folder, made, -, -, hmade, hwrite⟩ := save?_eq_some hsave
  · exact h.write? hwrite
  · have hkeeps := keepsFolders_makeFolders? hmade
    obtain ⟨p, q, hp, hq, hne, hentry⟩ := h
    have hmoved : made.Beside path second text :=
      ⟨p, q, hkeeps.place? hp, hkeeps.place? hq, hne, entry?_makeFolders? hmade hentry⟩
    exact hmoved.write? hwrite

end Disk

end Tariff
