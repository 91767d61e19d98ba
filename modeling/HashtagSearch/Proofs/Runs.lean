import HashtagSearch.Command.Run
import HashtagSearch.Proofs.Files.Contents

/-!
# What a run leaves behind

All steps of a command that can fail come before the first that writes something, but for the
creation of the settings, which is the last that can fail. So a run that fails has written nothing
to its standard output and changed no file, and only the creation of the settings changes one.
-/

namespace HashtagSearch

open Files

section

variable {α β : Type} {x : ExceptT Failure (StateM World) α}
  {next : α → ExceptT Failure (StateM World) β} {w : World}

/-! ## Steps on a machine -/

/-- How a step ends on a machine that is given as a value. -/
def Ends (x : ExceptT Failure (StateM World) α) (w : World)
    (post : Except Failure α → World → Prop) : Prop :=
  post (x.run.run w).1 (x.run.run w).2

theorem Ends.bind {post : Except Failure α → World → Prop}
    {post' : Except Failure β → World → Prop} (hx : Ends x w post)
    (herror : ∀ f w', post (.error f) w' → post' (.error f) w')
    (hok : ∀ a w', post (.ok a) w' → Ends (next a) w' post') : Ends (x >>= next) w post' := by
  unfold Ends at hx ⊢
  have hrun : (x >>= next).run.run w =
      match x.run.run w with
      | (.ok a, w') => (next a).run.run w'
      | (.error f, w') => (.error f, w') := by
    rw [ExceptT.run_bind, StateT.run_bind]
    rcases x.run.run w with ⟨_ | _, _⟩ <;> rfl
  rw [hrun]
  rcases hr : x.run.run w with ⟨f | a, w'⟩
  · rw [hr] at hx
    exact herror f w' hx
  · rw [hr] at hx
    exact hok a w' hx

/-- A step that leaves the machine as it was, whether it fails or not. -/
def Looks (x : ExceptT Failure (StateM World) α) : Prop :=
  ∀ w, Ends x w fun _ w' => w' = w

theorem Looks.ends_bind (hx : Looks x) {post : Except Failure β → World → Prop}
    (herror : ∀ f, post (.error f) w) (hok : ∀ a, Ends (next a) w post) :
    Ends (x >>= next) w post := by
  refine (hx w).bind (fun f w' hw => ?_) (fun a w' hw => ?_)
  · rw [hw]
    exact herror f
  · rw [hw]
    exact hok a

theorem Looks.bind (hx : Looks x) (hnext : ∀ a, Looks (next a)) : Looks (x >>= next) :=
  fun w => hx.ends_bind (fun _ => rfl) fun a => hnext a w

theorem looks_pure (a : α) : Looks (pure a : ExceptT Failure (StateM World) α) := fun _ => rfl

theorem looks_throw (f : Failure) : Looks (throw f : ExceptT Failure (StateM World) α) :=
  fun _ => rfl

theorem looks_lift (r : Except Failure α) :
    Looks (liftM r : ExceptT Failure (StateM World) α) :=
  fun _ => rfl

theorem looks_findHome (environment : Environment) :
    Looks (Machine.findHome environment : ExceptT Failure (StateM World) (Option Text)) :=
  fun _ => rfl

theorem looks_manual : Looks (Machine.manual : ExceptT Failure (StateM World) Manual) :=
  fun _ => rfl

theorem looks_isPresent (path : Text) :
    Looks (Machine.isPresent path : ExceptT Failure (StateM World) Bool) := fun _ => rfl

theorem looks_read (path : Text) :
    Looks (Machine.read path : ExceptT Failure (StateM World) (Except FileError ByteArray)) :=
  fun _ => rfl

theorem looks_readInput :
    Looks (Machine.readInput : ExceptT Failure (StateM World) (Except FileError ByteArray)) :=
  fun _ => rfl

theorem Invocation.looks_findSettings (inv : Invocation) (environment : Environment) :
    Looks (inv.findSettings environment : ExceptT Failure (StateM World) Text) :=
  (looks_findHome environment).bind fun _ => looks_lift _

theorem looks_readText (failure : FileError → Failure)
    {read : ExceptT Failure (StateM World) (Except FileError ByteArray)} (h : Looks read) :
    Looks (readText failure read) := by
  refine h.bind fun content => ?_
  cases content.bind decodeText with
  | ok t => exact looks_pure t
  | error e => exact looks_throw _

theorem looks_loadSettings (path : Text) :
    Looks (loadSettings path : ExceptT Failure (StateM World) Settings) := by
  refine (looks_isPresent path).bind fun present => ?_
  split
  · refine (looks_readText _ (looks_read path)).bind fun t => ?_
    split
    · exact looks_pure _
    · exact looks_throw _
    · exact looks_throw _
  · exact looks_pure _

theorem looks_loadRows (path : Text) :
    Looks (loadRows path : ExceptT Failure (StateM World) (List Row)) := by
  refine (looks_readText _ ?_).bind fun t => looks_lift _
  split
  · exact looks_readInput
  · exact looks_read path

/-! ## Commands that report -/

/-- A command that never changes a file, and nothing at all when it fails. -/
def OnlyReports (x : ExceptT Failure (StateM World) α) : Prop :=
  ∀ w, Ends x w fun r w' => w'.files = w.files ∧ ∀ f, r = .error f → w' = w

theorem Looks.onlyReports_bind (hx : Looks x) (hnext : ∀ a, OnlyReports (next a)) :
    OnlyReports (x >>= next) :=
  fun w => hx.ends_bind (fun _ => ⟨rfl, fun _ _ => rfl⟩) fun a => hnext a w

theorem Invocation.onlyReports_print (inv : Invocation) (colours : Bool) (r : Report) :
    OnlyReports (inv.print colours r : ExceptT Failure (StateM World) Unit) :=
  fun _ => ⟨rfl, nofun⟩

/-- The note about the rows comes after all that can fail. -/
theorem Invocation.onlyReports_filter (inv : Invocation) (s : Settings) (colours : Bool)
    (t path : Text) (column : Option Text) (limit : Option Nat) :
    OnlyReports (inv.filter s colours t path column limit :
      ExceptT Failure (StateM World) Unit) := by
  refine (looks_lift _).onlyReports_bind fun found => ?_
  refine (looks_loadRows path).onlyReports_bind fun rows => ?_
  split
  · exact fun _ => ⟨rfl, nofun⟩
  · exact inv.onlyReports_print colours _

theorem Invocation.onlyReports_search (inv : Invocation) (s : Settings) (colours : Bool)
    (command : SearchCommand) :
    OnlyReports (inv.search s colours command : ExceptT Failure (StateM World) Unit) := by
  cases command with
  | filter t rows column limit => exact inv.onlyReports_filter s colours t rows column limit
  | _ => exact (looks_lift _).onlyReports_bind fun _ => inv.onlyReports_print colours _

/-- All commands report but the one that creates the settings. -/
theorem Invocation.onlyReports_perform (inv : Invocation) (environment : Environment)
    (h : ∀ force, inv.command ≠ .createSettings force) :
    OnlyReports (inv.perform environment : ExceptT Failure (StateM World) Unit) := by
  unfold Invocation.perform
  cases hcommand : inv.command with
  | overview => exact inv.onlyReports_print _ _
  | completions shell => exact looks_manual.onlyReports_bind fun _ _ => ⟨rfl, nofun⟩
  | settingsPath =>
    refine (inv.looks_findSettings environment).onlyReports_bind fun path => ?_
    exact (looks_isPresent path).onlyReports_bind fun _ => inv.onlyReports_print _ _
  | showSettings =>
    refine (inv.looks_findSettings environment).onlyReports_bind fun path => ?_
    refine (looks_loadSettings path).onlyReports_bind fun s => ?_
    exact (looks_isPresent path).onlyReports_bind fun _ => inv.onlyReports_print _ _
  | createSettings force => exact absurd hcommand (h force)
  | search command =>
    refine (inv.looks_findSettings environment).onlyReports_bind fun path => ?_
    exact (looks_loadSettings path).onlyReports_bind fun s => inv.onlyReports_search s _ command

/-! ## Creating the settings -/

/-- What a machine knows of its user counts only where no variable names the home folder. -/
theorem Invocation.settingsFile_of_variable (inv : Invocation) {environment : Environment}
    {folder : Text} (h : environment "HOME" = some folder) (hfolder : folder ≠ [])
    (home home' : HomeLookup) :
    inv.settingsFile environment (home.find environment) =
      inv.settingsFile environment (home'.find environment) := by
  rw [home.find_of_variable h hfolder, home'.find_of_variable h hfolder]

/-- What becomes of the files when settings are created at a path: a failure only leaves folders
behind, and a file that was there is replaced only when that is forced. -/
def CreatesSettings (path : Text) (force : Bool) (w : World) : Except Failure α → World → Prop
  | .error _, w' => w'.out = w.out ∧ OnlyAddsFolders w.files w'.files
  | .ok _, w' =>
    (w.files.isPresent path = true → force = true) ∧
      ∃ p, Writes w.files w'.files path (String.ofList Settings.sample).toUTF8 p

theorem ends_create (path : Text) (content : ByteArray) (w : World) :
    Ends (Machine.create path content :
        ExceptT Failure (StateM World) (Except CreationError Unit)) w fun r w' =>
      w'.out = w.out ∧ ∃ result, r = .ok result ∧
        w.files.create path content = (result, w'.files) :=
  ⟨rfl, _, rfl, rfl⟩

theorem ends_createSettings (path : Text) (force : Bool) (w : World) :
    Ends (createSettings path force) w fun r w' =>
      CreatesSettings path force w r w' ∧ w'.out = w.out := by
  have hpresent : Ends (Machine.isPresent path : ExceptT Failure (StateM World) Bool) w
      fun r w' => r = .ok (w.files.isPresent path) ∧ w' = w := ⟨rfl, rfl⟩
  refine hpresent.bind (fun f w' h => nomatch h.1) (fun present w' h => ?_)
  obtain ⟨hpath, rfl⟩ := h
  have hpath : present = w'.files.isPresent path := Except.ok.inj hpath
  split
  · exact ⟨⟨rfl, OnlyAddsFolders.refl _⟩, rfl⟩
  · next hallowed =>
    have hforce : w'.files.isPresent path = true → force = true := by
      rw [← hpath]
      rintro rfl
      simpa using hallowed
    refine (ends_create path _ w').bind (fun f w'' h => ?_) (fun result w'' h => ?_)
    · obtain ⟨_, _, hr, _⟩ := h
      cases hr
    · obtain ⟨hout, result, hr, hfiles⟩ := h
      cases hr
      cases result with
      | error e => exact ⟨⟨hout, onlyAddsFolders_of_create hfiles⟩, hout⟩
      | ok _ => exact ⟨⟨hforce, exists_writes_of_create hfiles⟩, hout⟩

/-- Creating the settings is the last step that can fail. -/
theorem Invocation.ends_perform_createSettings (inv : Invocation) (environment : Environment)
    {force : Bool} (h : inv.command = .createSettings force) (w : World) :
    Ends (inv.perform environment) w fun r w' =>
      (∃ f, inv.settingsFile environment (w.home.find environment) = .error f ∧ r = .error f ∧
        w' = w) ∨
      ∃ path, inv.settingsFile environment (w.home.find environment) = .ok path ∧
        CreatesSettings path force w r w' := by
  have hfind : Ends (inv.findSettings environment) w fun r w' =>
      r = inv.settingsFile environment (w.home.find environment) ∧ w' = w := ⟨rfl, rfl⟩
  rw [Invocation.perform, h]
  refine hfind.bind (fun f w' hr => .inl ⟨f, hr.1.symm, rfl, hr.2⟩) (fun path w' hr => ?_)
  obtain ⟨hpath, rfl⟩ := hr
  have hprint : ∀ (u : Unit) w'', CreatesSettings path force w' (.ok u) w'' →
      Ends (inv.print (inv.allowsColours environment) (.settingsCreated path)) w''
        (CreatesSettings path force w') := fun _ _ h => h
  have hcreates := (ends_createSettings path force w').bind (fun _ _ h => h.1)
    fun u w'' h => hprint u w'' h.1
  exact .inr ⟨path, hpath.symm, hcreates⟩

end

/-! ## Whole runs -/

theorem Failure.Kind.exitCode_ne_zero (kind : Failure.Kind) : kind.exitCode ≠ 0 := by
  cases kind <;> decide

namespace World

variable {w w' : World} {arguments : List Text} {environment : Environment} {inv : Invocation}
  {f : Failure} {u : Unit} {force : Bool}

theorem onlyAddsFolders_of_perform (h : w.perform inv environment = (.error f, w')) :
    w'.out = w.out ∧ OnlyAddsFolders w.files w'.files := by
  by_cases hcreates : ∃ force, inv.command = .createSettings force
  · obtain ⟨force, hcommand⟩ := hcreates
    have hends := inv.ends_perform_createSettings environment hcommand w
    rw [Ends, ← World.perform, h] at hends
    rcases hends with ⟨_, _, _, hw⟩ | ⟨_, _, hcreated⟩
    · cases hw
      exact ⟨rfl, OnlyAddsFolders.refl _⟩
    · exact hcreated
  · have hends := inv.onlyReports_perform environment
      (fun force hcommand => hcreates ⟨force, hcommand⟩) w
    rw [Ends, ← World.perform, h] at hends
    cases hends.2 f rfl
    exact ⟨rfl, OnlyAddsFolders.refl _⟩

theorem files_of_perform (hcommand : ∀ force, inv.command ≠ .createSettings force)
    (h : w.perform inv environment = (.ok u, w')) : w'.files = w.files := by
  have hends := inv.onlyReports_perform environment hcommand w
  rw [Ends, ← World.perform, h] at hends
  exact hends.1

theorem exists_writes_of_perform (hcommand : inv.command = .createSettings force)
    (h : w.perform inv environment = (.ok u, w')) :
    ∃ path p, inv.settingsFile environment (w.home.find environment) = .ok path ∧
      (w.files.isPresent path = true → force = true) ∧
      Writes w.files w'.files path (String.ofList Settings.sample).toUTF8 p := by
  have hends := inv.ends_perform_createSettings environment hcommand w
  rw [Ends, ← World.perform, h] at hends
  rcases hends with ⟨_, _, hr, _⟩ | ⟨path, hpath, hpresent, p, hwrites⟩
  · cases hr
  · exact ⟨path, p, hpath, hpresent, hwrites⟩

theorem run_of_stop {stop : Stop} (h : Invocation.ofArguments arguments = .error stop) :
    (w.run arguments environment).2.files = w.files ∧
      ((w.run arguments environment).1 ≠ 0 → (w.run arguments environment).2.out = w.out) := by
  have hrun : w.run arguments environment =
      (stop.exitCode, ((stop.print : StateM World Unit).run w).2) := by
    rw [World.run, runArguments, h]
    rfl
  rw [hrun]
  cases stop with
  | showHelp level => exact ⟨rfl, fun hcode => absurd rfl hcode⟩
  | showVersion level => exact ⟨rfl, fun hcode => absurd rfl hcode⟩
  | _ => exact ⟨rfl, fun _ => rfl⟩

theorem run_of_invocation (h : Invocation.ofArguments arguments = .ok inv) :
    w.run arguments environment =
      match w.perform inv environment with
      | (.ok _, w') => (0, w')
      | (.error f, w') => (f.kind.exitCode, { w' with err := w'.err ++ inv.failureText f }) := by
  rw [World.run, runArguments, h, StateT.run_bind, World.perform]
  rcases (inv.perform environment : ExceptT Failure (StateM World) Unit).run.run w with
    ⟨f | u, w'⟩
  · rfl
  · rfl

/-- A run that fails writes nothing to its standard output and changes the content of no file. One
that succeeds does not change any either, unless it creates the settings: then the sample is read
at the path of the settings, which was not there or may be replaced, and no other file is
changed. -/
theorem run_effects (w : World) (arguments : List Text) (environment : Environment) :
    ((w.run arguments environment).1 ≠ 0 →
      (w.run arguments environment).2.out = w.out ∧
        ∀ p, (w.run arguments environment).2.files.content? p = w.files.content? p) ∧
    ((w.run arguments environment).1 = 0 →
      (∀ inv force, Invocation.ofArguments arguments = .ok inv →
        inv.command ≠ .createSettings force) →
      ∀ p, (w.run arguments environment).2.files.content? p = w.files.content? p) ∧
    ∀ inv force, (w.run arguments environment).1 = 0 →
      Invocation.ofArguments arguments = .ok inv → inv.command = .createSettings force →
      ∃ path p, inv.settingsFile environment (w.home.find environment) = .ok path ∧
        (w.files.isPresent path = true → force = true) ∧
        (w.run arguments environment).2.files.read path =
          .ok (String.ofList Settings.sample).toUTF8 ∧
        Writes w.files (w.run arguments environment).2.files path
          (String.ofList Settings.sample).toUTF8 p := by
  cases hargs : Invocation.ofArguments arguments with
  | error stop =>
    obtain ⟨hfiles, hout⟩ := run_of_stop hargs
    refine ⟨fun hcode => ⟨hout hcode, fun p => by rw [hfiles]⟩, fun _ _ p => by rw [hfiles], ?_⟩
    intro inv force _ hinv
    cases hinv
  | ok inv =>
    rw [run_of_invocation hargs]
    rcases hr : w.perform inv environment with ⟨f | u, w'⟩
    · obtain ⟨hout, hfolders⟩ := onlyAddsFolders_of_perform hr
      exact ⟨fun _ => ⟨hout, hfolders.content?_eq⟩,
        fun hcode => absurd hcode f.kind.exitCode_ne_zero,
        fun _ _ hcode => absurd hcode f.kind.exitCode_ne_zero⟩
    · refine ⟨fun hcode => absurd rfl hcode, fun _ hnone p => ?_, ?_⟩
      · have hfiles : w'.files = w.files := files_of_perform (fun force => hnone inv force rfl) hr
        exact congrArg (·.content? p) hfiles
      · intro inv' force _ hinv hcommand
        cases hinv
        obtain ⟨path, p, hpath, hpresent, hwrites⟩ := exists_writes_of_perform hcommand hr
        exact ⟨path, p, hpath, hpresent, hwrites.read, hwrites⟩

/-- No file can be created at a path that ends with a slash, although the folder above it is made.
In the home folder of the user, which no variable names, the settings are created, and to be told
their path changes nothing. -/
theorem run_effects_init : ∃ (w : World) (environment : Environment),
    w = { home := .ofEntry (some "/u".toList) } ∧ environment = (fun _ => none) ∧
      (w.run ["--config".toList, "a/".toList, "config".toList, "init".toList] environment).2.out =
        [] ∧
      (∃ path p, path = "/u/.config/hq/config.toml".toList ∧
        Writes w.files (w.run ["config".toList, "init".toList] environment).2.files path
          (String.ofList Settings.sample).toUTF8 p) ∧
      (w.run ["config".toList, "path".toList] environment).2.files.content?
        ⟨.root, ["config.toml".toList, "hq".toList, ".config".toList, ['u']]⟩ = none := by
  refine ⟨_, _, rfl, rfl, ((run_effects _ _ _).1 ?fails).1, ?creates, ?looks⟩
  case fails => decide
  case creates =>
    obtain ⟨path, p, hpath, -, -, hwrites⟩ := (run_effects { home := .ofEntry (some "/u".toList) }
      ["config".toList, "init".toList] fun _ => none).2.2
        ⟨.createSettings false, false, false, false, false, none⟩ false (by decide) rfl rfl
    exact ⟨path, p, (Except.ok.inj hpath).symm, hwrites⟩
  case looks =>
    refine (run_effects _ _ _).2.1 (by decide) (fun inv force hinv hcommand => ?_) _
    have hpath : Invocation.ofArguments ["config".toList, "path".toList] =
        .ok ⟨.settingsPath, false, false, false, false, none⟩ := rfl
    cases hpath.symm.trans hinv
    cases hcommand

end World

end HashtagSearch
