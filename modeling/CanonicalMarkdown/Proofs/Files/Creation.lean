import CanonicalMarkdown.Files.FileSystem

namespace CanonicalMarkdown.FileSystem

variable {files : FileSystem} {start place location : Location} {names : List String}

theorem enter_eq_ok_iff {entered : Location} :
    files.enter location = .ok entered ↔
      files.find? location = some .directory ∧ entered = location := by
  unfold enter
  cases files.find? location with
  | none => simp
  | some entry => cases entry <;> simp [eq_comm]

theorem follow_cons_eq_ok_iff {name : String} :
    files.follow start (name :: names) = .ok place ↔
      files.find? start = some .directory ∧
        ∃ next, step start name = .ok next ∧ files.follow next names = .ok place := by
  rw [follow]
  cases entered : files.enter start with
  | error error =>
    have closed : files.find? start ≠ some .directory := by
      intro isDirectory
      rw [enter_eq_ok_iff.mpr ⟨isDirectory, rfl⟩] at entered
      contradiction
    simp [closed, bind, Except.bind]
  | ok directory =>
    obtain ⟨isDirectory, rfl⟩ := enter_eq_ok_iff.mp entered
    cases stepped : step directory name <;> simp [isDirectory, stepped, bind, Except.bind]

theorem follow_concat_eq_ok_iff {name : String} :
    files.follow start (names ++ [name]) = .ok place ↔
      ∃ directory, files.follow start names = .ok directory ∧
        files.find? directory = some .directory ∧ step directory name = .ok place := by
  induction names generalizing start with
  | nil =>
    rw [List.nil_append, follow_cons_eq_ok_iff]
    simp [follow]
  | cons first rest ih =>
    simp only [List.cons_append, follow_cons_eq_ok_iff, ih]
    grind

theorem find?_start_of_follow (followed : files.follow start names = .ok place)
    (ends : files.find? place = some .directory) : files.find? start = some .directory := by
  cases names with
  | nil =>
    obtain rfl := Except.ok.inj followed
    exact ends
  | cons name rest => exact (follow_cons_eq_ok_iff.mp followed).1

theorem follow_of_follow_filter (followed : files.follow start (names.filter (· ≠ "")) = .ok place)
    (ends : files.find? place = some .directory) : files.follow start names = .ok place := by
  induction names generalizing start with
  | nil => exact followed
  | cons name rest ih =>
    by_cases empty : name = ""
    · subst empty
      rw [List.filter_cons_of_neg (by simp)] at followed
      exact follow_cons_eq_ok_iff.mpr
        ⟨find?_start_of_follow followed ends, start, by simp [step], ih followed⟩
    · rw [List.filter_cons_of_pos (by simpa using empty)] at followed
      obtain ⟨isDirectory, next, stepped, more⟩ := follow_cons_eq_ok_iff.mp followed
      exact follow_cons_eq_ok_iff.mpr ⟨isDirectory, next, stepped, ih more⟩

theorem find?_put_of_directory {entry : FileEntry} (noDirectory : files.find? location ≠ some .directory)
    (isDirectory : files.find? place = some .directory) :
    (files.put location entry).find? place = some .directory := by
  rw [find?_put_of_ne, isDirectory]
  rintro rfl
  exact noDirectory isDirectory

theorem follow_put (entry : FileEntry) (noDirectory : files.find? location ≠ some .directory)
    (followed : files.follow start names = .ok place) :
    (files.put location entry).follow start names = .ok place := by
  induction names generalizing start with
  | nil => exact followed
  | cons name rest ih =>
    obtain ⟨isDirectory, next, stepped, more⟩ := follow_cons_eq_ok_iff.mp followed
    exact follow_cons_eq_ok_iff.mpr
      ⟨find?_put_of_directory noDirectory isDirectory, next, stepped, ih more⟩

theorem put_put (files : FileSystem) (location : Location) (first second : FileEntry) :
    (files.put location first).put location second = files.put location second := by
  simp [put, List.filter_filter]

theorem existing_of_locate {directory : Location} {path : String} {entry : FileEntry}
    (located : files.locate directory path = .ok location)
    (found : files.find? location = some entry) :
    files.existing directory path = .ok (location, entry) := by
  simp only [existing, located, found]

theorem step_eq_cons {name : String} {directory : Location} (named : name ≠ "")
    (notSelf : name ≠ ".") (notParent : name ≠ "..") (stepped : step directory name = .ok place) :
    place = name :: directory := by
  simp only [step, named, notSelf, notParent, or_self, if_false] at stepped
  split at stepped
  · contradiction
  · exact (Except.ok.inj stepped).symm

theorem eq_concat_of_getLast? (some : names.filter (· ≠ "") ≠ [])
    (named : names.getLast? ≠ .some "") :
    ∃ front name, names = front ++ [name] ∧ name ≠ "" ∧
      names.filter (· ≠ "") = front.filter (· ≠ "") ++ [name] := by
  cases last : names.getLast? with
  | none =>
    rw [List.getLast?_eq_none_iff.mp last] at some
    contradiction
  | some name =>
    obtain ⟨front, rfl⟩ := List.getLast?_eq_some_iff.mp last
    have filled : name ≠ "" := by simpa using named
    exact ⟨front, name, rfl, filled, by simp [filled]⟩

theorem create_eq_ok {directory : Location} {path : String} {made : FileSystem}
    (created : files.create directory path = .ok (location, made)) :
    made = files.put location (.file []) ∧
      ∀ entry, (files.put location entry).existing directory path = .ok (location, entry) := by
  unfold create at created
  cases routed : route directory path with
  | error error => simp [routed, bind, Except.bind] at created
  | ok route =>
    obtain ⟨start, names⟩ := route
    simp only [routed, bind, Except.bind] at created
    split at created
    · contradiction
    rename_i parent followed
    split at created
    · contradiction
    rename_i entered opened
    obtain ⟨isDirectory, rfl⟩ := enter_eq_ok_iff.mp opened
    split at created
    · contradiction
    rename_i named
    obtain ⟨filled, notSelf, notParent⟩ := by simpa only [not_or] using named
    have some : names.filter (· ≠ "") ≠ [] := fun none => notSelf (by rw [none]; rfl)
    obtain ⟨front, name, rfl, notEmpty, steps⟩ := eq_concat_of_getLast? some filled
    simp only [steps, List.dropLast_concat, List.getLastD_concat] at followed notSelf notParent created
    split at created
    · contradiction
    rename_i place stepped
    split at created
    · contradiction
    rename_i noDirectory
    obtain ⟨rfl, rfl⟩ := Prod.mk.inj (Except.ok.inj created)
    refine ⟨rfl, fun entry => existing_of_locate ?_ ?_⟩
    · have through := follow_of_follow_filter followed isDirectory
      have reached := follow_put entry noDirectory
        (follow_concat_eq_ok_iff.mpr ⟨entered, through, isDirectory, stepped⟩)
      rw [locate, routed]
      exact reached
    · have cons := step_eq_cons notEmpty notSelf notParent stepped
      exact find?_put_self files entry (by simp [cons])

theorem splitOn_of_next_atEnd {path : String} (filled : String.Pos.Raw.atEnd path 0 = false)
    (noSlash : String.Pos.Raw.get path 0 ≠ '/')
    (ends : String.Pos.Raw.atEnd path (String.Pos.Raw.next path 0) = true) :
    path.splitOn "/" = [String.Pos.Raw.extract path 0 (String.Pos.Raw.next path 0)] := by
  have slash : String.Pos.Raw.get "/" 0 = '/' := rfl
  show path.splitOnAux "/" 0 0 0 [] = _
  rw [String.splitOnAux, filled, if_neg (by simp), if_neg (by simpa [slash] using noSlash)]
  show path.splitOnAux "/" 0 (String.Pos.Raw.next path 0) 0 [] = _
  rw [String.splitOnAux, if_pos ends]
  rfl

end CanonicalMarkdown.FileSystem
