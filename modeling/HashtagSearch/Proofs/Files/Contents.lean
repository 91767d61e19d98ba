import HashtagSearch.Files

/-!
# What happens to the content of files

A folder is only made where nothing is, and a file is only written where no folder is. So what a
path leads to stays what it leads to, and no file but the one that is written has other content
than before.
-/

namespace HashtagSearch.Files

variable {fs fs' fs'' : Files} {p q : Place} {path : Text} {content : ByteArray}

/-- The content of the file at a place. -/
def content? (fs : Files) (p : Place) : Option ByteArray :=
  match fs.find? p with
  | some (.file content) => some content
  | _ => none

theorem content?_congr (h : fs'.find? p = fs.find? p) : fs'.content? p = fs.content? p := by
  rw [content?, content?, h]

theorem content?_set_self (h : fs.find? p ≠ some .folder) :
    (fs.set p (.file content)).content? p = some content := by
  have hnames : p.names ≠ [] := fun hnil => h (by simp [find?, hnil])
  rw [content?, find?_set_self hnames]

theorem content?_set_of_ne {e : Entry} (h : q ≠ p) :
    (fs.set p e).content? q = fs.content? q :=
  content?_congr (find?_set_of_ne h)

/-! ## Ways through folders -/

def KeepsFolders (fs fs' : Files) : Prop :=
  ∀ p, fs.find? p = some .folder → fs'.find? p = some .folder

theorem keepsFolders_set {e : Entry} (h : fs.find? p ≠ some .folder) :
    KeepsFolders fs (fs.set p e) := by
  intro q hq
  have hne : q ≠ p := by
    rintro rfl
    exact h hq
  rw [find?_set_of_ne hne, hq]

theorem find?_of_follow {part : Text} (h : fs.follow p part = .ok q) :
    fs.find? p = some .folder := by
  rw [follow] at h
  split at h
  · cases h
  · cases h
  · assumption

namespace KeepsFolders

theorem follow (hk : KeepsFolders fs fs') {part : Text} (h : fs.follow p part = .ok q) :
    fs'.follow p part = .ok q := by
  have hp := find?_of_follow h
  rw [Files.follow, hp] at h
  rw [Files.follow, hk p hp]
  exact h

theorem followAll (hk : KeepsFolders fs fs') {parts : List Text}
    (h : fs.followAll p parts = .ok q) : fs'.followAll p parts = .ok q := by
  induction parts generalizing p with
  | nil => exact h
  | cons part parts ih =>
    rw [Files.followAll, List.foldlM_cons] at h ⊢
    cases hnext : fs.follow p part with
    | error e => rw [hnext] at h; cases h
    | ok next =>
      rw [hnext] at h
      rw [hk.follow hnext]
      exact ih h

theorem locate (hk : KeepsFolders fs fs') (h : fs.locate path = .ok p) :
    fs'.locate path = .ok p := by
  rw [Files.locate] at h ⊢
  cases hcheck : checkPath path with
  | error e => rw [hcheck] at h; cases h
  | ok _ =>
    rw [hcheck] at h
    exact hk.followAll h

end KeepsFolders

/-! ## Making folders -/

/-- Nothing has happened but that folders have been made. -/
structure OnlyAddsFolders (fs fs' : Files) : Prop where
  keepsFolders : KeepsFolders fs fs'
  content?_eq : ∀ p, fs'.content? p = fs.content? p

namespace OnlyAddsFolders

theorem refl (fs : Files) : OnlyAddsFolders fs fs := ⟨fun _ h => h, fun _ => rfl⟩

theorem trans (h : OnlyAddsFolders fs fs') (h' : OnlyAddsFolders fs' fs'') :
    OnlyAddsFolders fs fs'' :=
  ⟨fun p hp => h'.keepsFolders p (h.keepsFolders p hp),
    fun p => (h'.content?_eq p).trans (h.content?_eq p)⟩

theorem set (h : fs.find? p = none) : OnlyAddsFolders fs (fs.set p .folder) := by
  refine ⟨keepsFolders_set (by simp [h]), fun q => ?_⟩
  by_cases hq : q = p
  · have hnames : p.names ≠ [] := fun hnil => by simp [find?, hnil] at h
    rw [hq, content?, content?, find?_set_self hnames, h]
  · exact content?_set_of_ne hq

theorem after {ε : Type} {step : Except ε Files}
    (h : ∀ fs', step = .ok fs' → OnlyAddsFolders fs fs') :
    OnlyAddsFolders fs (fs.after step).2 := by
  cases step with
  | error e => exact refl fs
  | ok fs' => exact h fs' rfl

theorem makeFolder (h : fs.makeFolder path = .ok fs') : OnlyAddsFolders fs fs' := by
  rw [Files.makeFolder] at h
  cases hp : fs.locate path with
  | error e => rw [hp] at h; cases h
  | ok p =>
    simp only [hp, bind, Except.bind] at h
    split at h
    · cases h
      exact refl fs
    · cases h
    · next hnone =>
      cases h
      exact set hnone

/-- The folders above are made first, and stay if the folder itself cannot be made. -/
theorem makeFolders (fs : Files) (start : Text) (parts : List Text) :
    OnlyAddsFolders fs (fs.makeFolders start parts).2 := by
  induction parts with
  | nil => exact refl fs
  | cons part above ih =>
    rw [Files.makeFolders]
    split
    · exact ih
    · dsimp only
      split
      · split
        · next habove =>
          rw [habove] at ih
          exact ih.trans (after fun _ => makeFolder)
        · next habove =>
          rw [habove] at ih
          exact ih
      · exact after fun _ => makeFolder

theorem createFolder (fs : Files) (path : Text) :
    OnlyAddsFolders fs (fs.createFolder path).2 :=
  makeFolders fs _ _

end OnlyAddsFolders

/-! ## Creating a file -/

/-- The place of a path, which is that before if there was one, has a file with the given content,
and no other file has other content than before. -/
structure Writes (fs fs' : Files) (path : Text) (content : ByteArray) (p : Place) : Prop where
  locate : fs'.locate path = .ok p
  content? : fs'.content? p = some content
  others : ∀ q, q ≠ p → fs'.content? q = fs.content? q
  before : ∀ q, fs.locate path = .ok q → q = p

theorem Writes.read (h : Writes fs fs' path content p) : fs'.read path = .ok content := by
  have hcontent := h.content?
  rw [Files.content?] at hcontent
  simp only [Files.read, h.locate, bind, Except.bind]
  split at hcontent
  · next found hfound =>
    rw [hfound]
    exact congrArg Except.ok (Option.some.inj hcontent)
  · cases hcontent

theorem exists_writes_of_write (h : fs.write path content = .ok fs') :
    ∃ p, Writes fs fs' path content p := by
  rw [write] at h
  cases hcheck : checkPath path with
  | error e => rw [hcheck] at h; cases h
  | ok _ =>
    simp only [hcheck, bind, Except.bind] at h
    split at h
    · split at h <;> cases h
    · cases hp : fs.locate path with
      | error e => rw [hp] at h; cases h
      | ok p =>
        simp only [hp] at h
        split at h
        · cases h
        · next hfolder =>
          cases h
          exact ⟨p, (keepsFolders_set hfolder).locate hp, content?_set_self hfolder,
            fun q hq => content?_set_of_ne hq, fun q hq => (Except.ok.inj (hp.symm.trans hq)).symm⟩

theorem Writes.of_onlyAddsFolders (hadds : OnlyAddsFolders fs fs')
    (h : Writes fs' fs'' path content p) : Writes fs fs'' path content p :=
  ⟨h.locate, h.content?, fun q hq => (h.others q hq).trans (hadds.content?_eq q),
    fun q hq => h.before q (hadds.keepsFolders.locate hq)⟩

/-- A file that cannot be created changes no other, even if folders have been made for it. -/
theorem onlyAddsFolders_of_create {e : CreationError}
    (h : fs.create path content = (.error e, fs')) : OnlyAddsFolders fs fs' := by
  have hfolder := OnlyAddsFolders.createFolder fs (Path.folder path)
  rw [create] at h
  split at h
  · next hmade =>
    rw [hmade] at hfolder
    cases h
    exact hfolder
  · next hmade =>
    rw [hmade] at hfolder
    cases hwrite : Files.write _ path content with
    | error e => rw [hwrite] at h; cases h; exact hfolder
    | ok fs => rw [hwrite] at h; cases h

theorem exists_writes_of_create (h : fs.create path content = (.ok (), fs')) :
    ∃ p, Writes fs fs' path content p := by
  have hfolder := OnlyAddsFolders.createFolder fs (Path.folder path)
  rw [create] at h
  split at h
  · cases h
  · next hmade =>
    rw [hmade] at hfolder
    cases hwrite : Files.write _ path content with
    | error e => rw [hwrite] at h; cases h
    | ok written =>
      rw [hwrite] at h
      cases h
      obtain ⟨p, hp⟩ := exists_writes_of_write hwrite
      exact ⟨p, hp.of_onlyAddsFolders hfolder⟩

end HashtagSearch.Files
