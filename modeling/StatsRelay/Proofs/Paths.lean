import StatsRelay.Proofs.Appending
import StatsRelay.Proofs.Opening

/-! Where paths lead. A relative path is short for one from the root through the working directory,
and what was opened for appending is found again under the same path. -/
namespace StatsRelay

open StatsRelay.Text.Utf8 (Bytes)

namespace Text

theorem segments_append_cons {separator : Char} {first : List Char} (apart : separator ∉ first)
    (rest : List Char) :
    segments separator (first ++ separator :: rest) = first :: segments separator rest := by
  induction first with
  | nil => simp [segments]
  | cons c others ih =>
    obtain ⟨other, apart⟩ := not_or.mp (mt List.mem_cons.mpr apart)
    rw [List.cons_append, segments, if_neg (Ne.symm other), ih apart]

/-- What does not begin with the separator has a first segment that is not empty. -/
theorem segments_cons {separator c : Char} (other : c ≠ separator) (rest : List Char) :
    ∃ first others, segments separator (c :: rest) = (c :: first) :: others := by
  rw [segments, if_neg other]
  split <;> exact ⟨_, _, rfl⟩

end Text

namespace FileSystem

open StatsRelay.Text

/-- The path from the root that leads through some directories first. -/
def rooted (directories : List String) (path : String) : String :=
  "/" ++ directories.foldr (fun step rest => step ++ "/" ++ rest) path

variable {directories : List String} {path : String}

theorem segments_rooted (plain : ∀ step ∈ directories, '/' ∉ step.toList) :
    segments '/' (rooted directories path).toList =
      [] :: (directories.map String.toList ++ segments '/' path.toList) := by
  have below : segments '/' (directories.foldr (fun step rest => step ++ "/" ++ rest) path).toList =
      directories.map String.toList ++ segments '/' path.toList := by
    induction directories with
    | nil => rfl
    | cons step rest ih =>
      obtain ⟨first, others⟩ := List.forall_mem_cons.mp plain
      rw [List.foldr_cons, List.map_cons, List.cons_append, ← ih others,
        ← segments_append_cons first]
      simp
  rw [← below, ← segments_append_cons List.not_mem_nil]
  simp [rooted]

theorem steps_of_named {cut : List String}
    (parted : (segments '/' path.toList).map String.ofList = cut)
    (named : (cut.filter fun step => step ≠ "") ≠ []) :
    steps path =
      (cut.filter fun step => step ≠ "") ++ if cut.getLast? = some "" then ["."] else [] := by
  rw [steps, parted]
  by_cases slashed : cut.getLast? = some ""
  · rw [if_pos slashed]
    exact if_pos ⟨slashed, named⟩
  · rw [if_neg slashed, List.append_nil]
    exact if_neg fun both => slashed both.1

theorem steps_rooted (plain : ∀ step ∈ directories, step ≠ "" ∧ '/' ∉ step.toList)
    (given : path ≠ "") (relative : path.toList.head? ≠ some '/') :
    steps (rooted directories path) = directories ++ steps path := by
  obtain ⟨c, text, spelled⟩ : ∃ c text, path.toList = c :: text :=
    List.exists_cons_of_ne_nil (by simpa using given)
  rw [spelled] at relative
  obtain ⟨first, others, cut⟩ := segments_cons (by simpa using relative) text
  obtain ⟨steps', parted⟩ : ∃ steps', (segments '/' path.toList).map String.ofList = steps' :=
    ⟨_, rfl⟩
  have named : (steps'.filter fun step => step ≠ "") ≠ [] := by
    simp [← parted, spelled, cut]
  have some : steps' ≠ [] := by
    rintro rfl
    exact named rfl
  have parted' : (segments '/' (rooted directories path).toList).map String.ofList =
      "" :: (directories ++ steps') := by
    rw [segments_rooted fun step step_mem => (plain step step_mem).2, ← parted]
    simp [Function.comp_def]
  have kept : (("" :: (directories ++ steps')).filter fun step => step ≠ "") =
      directories ++ steps'.filter fun step => step ≠ "" := by
    rw [List.filter_cons_of_neg (by simp), List.filter_append,
      List.filter_eq_self.mpr fun step step_mem => by simpa using (plain step step_mem).1]
  have named' : (("" :: (directories ++ steps')).filter fun step => step ≠ "") ≠ [] := by
    rw [kept]
    exact List.append_ne_nil_of_right_ne_nil _ named
  have last : ("" :: (directories ++ steps')).getLast? = steps'.getLast? := by
    rw [← List.cons_append, List.getLast?_append_of_ne_nil _ some]
  rw [steps_of_named parted named, steps_of_named parted' named', kept, last, List.append_assoc]

/-- One path after another leads where the second leads from the end of the first. -/
theorem resolve_append (files : FileSystem) (place before after : List String) :
    files.resolve place (before ++ after) =
      (files.resolve place before).bind fun there => files.resolve there after := by
  induction before generalizing place with
  | nil => rfl
  | cons step rest ih =>
    simp only [List.cons_append, resolve, ih]
    split <;> try rfl
    split
    · rfl
    · split <;> rfl

/-- A relative path leads where the path from the root through the working directory leads. -/
theorem locate_rooted {files : FileSystem} (stands : files.resolve [] files.cwd = .ok files.cwd)
    (plain : ∀ step ∈ files.cwd, step ≠ "" ∧ '/' ∉ step.toList)
    (given : path ≠ "") (relative : path.toList.head? ≠ some '/') :
    files.locate (rooted files.cwd path) = files.locate path := by
  have rooted_ne : rooted files.cwd path ≠ "" := by simp [rooted]
  have origin' : files.origin (rooted files.cwd path) = [] := if_pos (by simp [rooted])
  have origin : files.origin path = files.cwd := if_neg relative
  rw [locate, locate, if_neg (by simpa using rooted_ne), if_neg (by simpa using given), origin',
    origin, steps_rooted plain given relative, resolve_append, stands]
  rfl

section

variable {files files' : FileSystem} {place reached fresh : List String}

theorem entry?_put_of_some {found : Entry} (held : files.entry? place = some found)
    (absent : files.entry? fresh = none) (entry : Entry) :
    FileSystem.entry? (files.put fresh entry) place = some found := by
  by_cases root : place = []
  · subst root
    exact held
  · rw [entry?_put root, if_neg fun same => by simp [← same, held] at absent, held]

theorem resolve_cons (held : files.entry? place = some .directory) (step : String)
    (rest : List String) :
    files.resolve place (step :: rest) =
      if step = "." then files.resolve place rest
      else if step = ".." then files.resolve place.dropLast rest
      else files.resolve (place ++ [step]) rest := by
  rw [resolve, held]

theorem directory_of_resolve {step : String} {rest : List String}
    (led : files.resolve place (step :: rest) = .ok reached) :
    files.entry? place = some .directory := by
  rw [resolve] at led
  cases held : files.entry? place with
  | none => simp [held] at led
  | some entry =>
    cases entry with
    | directory => rfl
    | file | barred | damaged => simp [held] at led

/-- A new file stands in the way of no path. -/
theorem resolve_put (absent : files.entry? fresh = none) (entry : Entry) {steps : List String}
    (led : files.resolve place steps = .ok reached) :
    (files.put fresh entry).resolve place steps = .ok reached := by
  induction steps generalizing place with
  | nil => exact led
  | cons step rest ih =>
    have held := directory_of_resolve led
    rw [resolve_cons held] at led
    rw [resolve_cons (entry?_put_of_some held absent entry)]
    split_ifs at led ⊢ <;> exact ih led

theorem locate_put (absent : files.entry? fresh = none) (entry : Entry)
    (located : files.locate path = .ok place) :
    (files.put fresh entry).locate path = .ok place := by
  rw [locate] at located ⊢
  split_ifs at located ⊢
  exact resolve_put absent entry located

theorem locate_of_locateAppended (located : files.locateAppended path = .ok place) :
    files.locate path = .ok place := by
  rw [locateAppended] at located
  cases led : files.locate path with
  | ok place' =>
    rw [led] at located
    exact congrArg _ (Except.ok.inj located)
  | error fault =>
    rw [led] at located
    cases located

theorem openInput_of_locate (located : files.locate path = .ok place) :
    files.openInput path = match files.entry? place with
      | some (.barred reading _) => .error reading
      | some entry => .ok entry
      | none => .error .missing := by
  simp only [openInput, located, bind, Except.bind]
  rfl

/-- What is found at a place is opened, unless it must not be read. -/
theorem openInput_located (located : files.locate path = .ok place) :
    (∃ entry, files.entry? place = some entry ∧ files.openInput path = .ok entry) ∨
      ∃ fault, files.openInput path = .error fault ∧
        (fault = .missing ∨ ∃ appending, files.entry? place = some (.barred fault appending)) := by
  rw [openInput_of_locate located]
  cases held : files.entry? place with
  | none => exact .inr ⟨.missing, rfl, .inl rfl⟩
  | some entry =>
    cases entry with
    | barred reading appending => exact .inr ⟨reading, rfl, .inr ⟨appending, rfl⟩⟩
    | directory | file | damaged => exact .inl ⟨_, rfl, rfl⟩

theorem openInput_of_held {entry : Entry} (located : files.locate path = .ok place)
    (held : files.entry? place = some entry)
    (readable : ∀ reading appending, entry ≠ .barred reading appending) :
    files.openInput path = .ok entry := by
  rw [openInput_of_locate located, held]
  cases entry with
  | barred reading appending => exact absurd rfl (readable reading appending)
  | directory | file | damaged => rfl

/-- What was opened for appending is a file, to which the same path leads from then on. -/
theorem openInput_of_openAppend (opened : files.openAppend path = .ok (files', place)) :
    files'.locate path = .ok place ∧ ∃ entry, files'.openInput path = .ok entry ∧
      files'.entry? place = some entry ∧ entry ≠ .directory := by
  obtain ⟨place', located, opened⟩ := Except.bind_eq_ok_iff.mp opened
  replace located := locate_of_locateAppended located
  split at opened
  case h_1 | h_2 => cases opened
  case h_3 held | h_4 held =>
    cases opened
    exact ⟨located, _, openInput_of_held located held nofun, held, nofun⟩
  case h_5 absent =>
    cases opened
    have created : FileSystem.entry? (files.put place (.file [])) place = some (.file []) := by
      rw [entry?_put (by rintro rfl; cases absent), if_pos rfl]
    have located' := locate_put absent (.file []) located
    exact ⟨located', _, openInput_of_held located' created nofun, created, nofun⟩

end

end FileSystem

namespace Command

variable {surroundings : Surroundings} {mode : OutputMode} {config overrides : Option String}
  {stack : Log.Stack} {journal : Log.Journal} {place : List String} {path : String}

theorem Input.ofPath_of_located {files : FileSystem} {entry : FileSystem.Entry}
    (named : filePath? (some path) = some path) (located : files.locate path = .ok place)
    (found : files.openInput path = .ok entry) :
    Input.ofPath files (some path) = .ok (.file place) := by
  rw [ofPath, named]
  simp [located, found, bind, Except.bind, pure, Except.pure]

theorem Input.ofPath_of_held {files : FileSystem} {content : Bytes}
    (named : filePath? (some path) = some path) (located : files.locate path = .ok place)
    (held : files.entry? place = some (.file content)) :
    Input.ofPath files (some path) = .ok (.file place) :=
  Input.ofPath_of_located named located (FileSystem.openInput_of_held located held nofun)

/-- A replay can be given the file that its own stack writes to, under the path that its settings
give for it. -/
theorem Input.ofPath_of_openStack
    (opened : openStack surroundings mode config overrides = .ok (stack, journal))
    (sink : stack.sink.target = .file path place) (named : filePath? (some path) = some path) :
    Input.ofPath journal.files (some path) = .ok (.file place) := by
  obtain ⟨settings, loaded, built⟩ := exists_settings_of_openStack opened
  obtain ⟨path', fault, _, _, refused⟩ | ⟨stack', journal', built', _, told⟩ :=
    Log.Stack.open?_spec (Config.validate_of_loadEffective loaded) surroundings.files
      surroundings.streams
  · rw [refused] at built
    cases built
  · rw [built'] at built
    cases built
    split at told
    · rw [sink] at told
      cases told.2
    · obtain ⟨place', created, sink'⟩ := told
      cases sink.symm.trans sink'
      obtain ⟨located, entry, found, _⟩ := FileSystem.openInput_of_openAppend created
      exact Input.ofPath_of_located named located found

end Command

end StatsRelay
