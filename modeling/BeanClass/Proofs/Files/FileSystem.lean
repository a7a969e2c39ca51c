import BeanClass.Files.FileSystem
import BeanClass.Proofs.Files.Path
import BeanClass.Proofs.Outcomes

/-! # What operations change in a file system

Writing changes one file. Creating a directory with those above it keeps all that is there, and what it
adds is a directory that one of their paths leads to, even if it fails in the end.
-/

namespace BeanClass.FileSystem

variable {fs fs' fs'' : FileSystem} {place next : Place} {entry : Entry} {path name : String}
  {content : List UInt8} {paths : List String}

/-- Writing a content to a path changes the file that the path leads to, and nothing else. -/
def Writes (path : String) (content : List UInt8) (fs fs' : FileSystem) : Prop :=
  ∃ place, fs.locate path = .ok place ∧ fs.find? place ≠ some .directory ∧
    ∀ other, fs'.find? other = if other = place then some (.file content) else fs.find? other

/-- Everything is kept, and everything new is a directory that one of the paths leads to. -/
structure Grows (paths : List String) (fs fs' : FileSystem) : Prop where
  keeps : ∀ place entry, fs.find? place = some entry → fs'.find? place = some entry
  adds : ∀ place entry, fs'.find? place = some entry → fs.find? place = some entry ∨
    entry = .directory ∧ ∃ path ∈ paths, fs'.locate (Path.withoutSlashes path) = .ok place

/-! ## Places -/

theorem find?_insert (h : fs.find? place ≠ some .directory) (other : Place) :
    (fs.insert place entry).find? other = if other = place then some entry else fs.find? other := by
  have hplace : place.names.isEmpty = false := by
    by_contra hnames
    exact h (if_pos (by simpa using hnames))
  unfold find? insert
  dsimp only
  -- a place without names is an anchor, which is a directory without an entry
  split_ifs with hroot heq heq
  · rw [heq, hplace] at hroot
    cases hroot
  · rfl
  · rw [heq, List.lookup_cons_self]
  · have hfilter : ∀ entries : List (Place × Entry),
        (entries.filter (·.1 != place)).lookup other = entries.lookup other := by
      intro entries
      induction entries with
      | nil => rfl
      | cons e entries ih =>
        by_cases hsame : e.1 = place
        · rw [List.filter_cons_of_neg (by simpa using hsame), ih, List.lookup_cons, hsame,
            beq_eq_false_iff_ne.mpr heq]
        · rw [List.filter_cons_of_pos (by simpa using hsame), List.lookup_cons, List.lookup_cons, ih]
    rw [List.lookup_cons, beq_eq_false_iff_ne.mpr heq]
    exact hfilter _

/-- A path leads to the same place as long as no directory is lost. -/
theorem locate_of_keeps
    (h : ∀ place, fs.find? place = some .directory → fs'.find? place = some .directory)
    (hplace : fs.locate path = .ok place) : fs'.locate path = .ok place := by
  -- whether a step can be taken depends on the directory that it starts from alone
  have hfollow : ∀ place name next, fs.follow place name = .ok next →
      fs'.follow place name = .ok next := by
    intro place name next hnext
    unfold follow at hnext ⊢
    split at hnext
    · cases hnext
    · cases hnext
    · rename_i hdirectory
      rw [h place hdirectory]
      exact hnext
  have hfold : ∀ (names : List String) (start : Place), names.foldlM fs.follow start = .ok place →
      names.foldlM fs'.follow start = .ok place := by
    intro names
    induction names with
    | nil => exact fun _ h => h
    | cons name names ih =>
      intro start hnames
      rw [List.foldlM_cons, bind_ok_iff] at hnames ⊢
      obtain ⟨next, hnext, hnames⟩ := hnames
      exact ⟨next, hfollow _ _ _ hnext, ih next hnames⟩
  unfold locate at hplace ⊢
  obtain ⟨hne, hplace⟩ := ite_error_ok_iff.mp hplace
  obtain ⟨hlength, hplace⟩ := ite_error_ok_iff.mp hplace
  rw [if_neg hne, if_neg hlength]
  exact hfold _ _ hplace

/-! ## Writing -/

theorem writes_of_write (h : fs.write path content = .ok fs') : Writes path content fs fs' := by
  obtain ⟨place, hplace, h⟩ := bind_ok_iff.mp h
  split at h
  · cases h
  · rename_i hdirectory
    cases h
    exact ⟨place, hplace, hdirectory, find?_insert hdirectory⟩

/-- What was written can be read. -/
theorem Writes.read (h : Writes path content fs fs') : fs'.read path = .ok content := by
  obtain ⟨place, hplace, hdirectory, hfind⟩ := h
  have hkeeps : ∀ other, fs.find? other = some .directory → fs'.find? other = some .directory := by
    intro other hother
    rw [hfind, if_neg, hother]
    rintro rfl
    exact hdirectory hother
  rw [FileSystem.read, locate_of_keeps hkeeps hplace, ok_bind, hfind, if_pos rfl]

/-! ## Creating directories -/

theorem Grows.refl (paths : List String) (fs : FileSystem) : Grows paths fs fs :=
  ⟨fun _ _ h => h, fun _ _ h => Or.inl h⟩

theorem Grows.locate (h : Grows paths fs fs') (hplace : fs.locate path = .ok place) :
    fs'.locate path = .ok place :=
  locate_of_keeps (fun place => h.keeps place .directory) hplace

theorem Grows.trans (h : Grows paths fs fs') (h' : Grows paths fs' fs'') : Grows paths fs fs'' where
  keeps place entry hentry := h'.keeps place entry (h.keeps place entry hentry)
  adds place entry hentry := by
    rcases h'.adds place entry hentry with hentry | hnew
    · rcases h.adds place entry hentry with hold | ⟨rfl, path, hpath, hlocate⟩
      · exact Or.inl hold
      · exact Or.inr ⟨rfl, path, hpath, h'.locate hlocate⟩
    · exact Or.inr hnew

theorem Grows.mono {more : List String} (h : Grows paths fs fs') (hsub : paths ⊆ more) :
    Grows more fs fs' :=
  ⟨h.keeps, fun place entry hentry => (h.adds place entry hentry).imp_right
    fun ⟨hdirectory, path, hpath, hlocate⟩ => ⟨hdirectory, path, hsub hpath, hlocate⟩⟩

/-- No file is created, changed or removed. -/
theorem Grows.file_iff (h : Grows paths fs fs') (place : Place) (content : List UInt8) :
    fs'.find? place = some (.file content) ↔ fs.find? place = some (.file content) := by
  refine ⟨fun hfile => ?_, h.keeps place _⟩
  rcases h.adds place _ hfile with hold | ⟨hdirectory, -⟩
  · exact hold
  · cases hdirectory

theorem grows_of_createDirectory (h : fs.createDirectory path = .ok fs') : Grows [path] fs fs' := by
  unfold createDirectory at h
  dsimp only at h
  obtain ⟨-, h⟩ := guard_ok_iff.mp h
  obtain ⟨place, hplace, h⟩ := bind_ok_iff.mp h
  split at h
  · cases h
  · rename_i hnone
    cases h
    have hfind : ∀ other, (fs.insert place .directory).find? other =
        if other = place then some .directory else fs.find? other :=
      find?_insert (by simp [hnone])
    have hkeeps : ∀ other entry, fs.find? other = some entry →
        (fs.insert place .directory).find? other = some entry := by
      intro other entry hentry
      rw [hfind, if_neg, hentry]
      rintro rfl
      rw [hnone] at hentry
      cases hentry
    refine ⟨hkeeps, fun other entry hentry => ?_⟩
    rw [hfind] at hentry
    split at hentry
    · rename_i heq
      cases hentry
      refine Or.inr ⟨rfl, path, List.mem_singleton_self _, ?_⟩
      rw [heq]
      exact locate_of_keeps (fun place => hkeeps place .directory) hplace
    · exact Or.inl hentry

theorem grows_createWithParents (fs : FileSystem) (path : String) (parents : List String) :
    Grows (path :: parents) fs (fs.createWithParents path parents).2 := by
  -- the directories above are created first where this one is missing, and stay if it fails again
  have hself : ∀ {fs fs' : FileSystem} {path : String} {parents : List String},
      fs.createDirectory path = .ok fs' → Grows (path :: parents) fs fs' :=
    fun h => (grows_of_createDirectory h).mono (by simp)
  induction parents generalizing fs path with
  | nil =>
    unfold createWithParents
    split
    · exact .refl _ _
    · split
      · exact hself ‹_›
      · contradiction
      · split <;> exact .refl _ _
  | cons parent parents ih =>
    unfold createWithParents
    split
    · exact .refl _ _
    · split
      · exact hself ‹_›
      · rename_i heq
        cases heq
        have hparents := (ih fs parent).mono (List.subset_cons_self path _)
        split
        · rename_i hcreate
          rw [hcreate] at hparents
          exact hparents
        · rename_i hcreate
          rw [hcreate] at hparents
          split
          · exact hparents.trans (hself ‹_›)
          · split <;> exact hparents
      · split <;> exact .refl _ _

theorem createDirectories_empty (fs : FileSystem) : fs.createDirectories "" = (.ok (), fs) := by
  unfold createDirectories createWithParents
  rfl

/-- One step stays in place where that is a directory. -/
theorem follow_dot (h : fs.follow place "." = .ok next) : next = place := by
  unfold follow at h
  split at h
  · cases h
  · cases h
  · rw [if_pos rfl] at h
    cases h
    rfl

/-- A path leads to the same place without the slashes at its end. -/
theorem locate_withoutSlashes (h : fs.locate path = .ok place) :
    fs.locate (Path.withoutSlashes path) = .ok place := by
  unfold locate at h ⊢
  obtain ⟨hne, h⟩ := ite_error_ok_iff.mp h
  obtain ⟨hlength, h⟩ := ite_error_ok_iff.mp h
  have hshorter := Path.utf8ByteSize_withoutSlashes_le path
  have hstart : Place.ofPath (Path.withoutSlashes path) = Place.ofPath path := by
    rw [Place.ofPath, Place.ofPath, Path.isAbsolute_withoutSlashes]
  rw [if_neg (by rwa [Path.isEmpty_withoutSlashes]), if_neg (by omega), hstart]
  rcases Path.steps_withoutSlashes path with heq | heq
  · rw [← heq]
    exact h
  · rw [heq, List.foldlM_append, bind_ok_iff] at h
    obtain ⟨last, hlast, h⟩ := h
    rw [List.foldlM_cons, bind_ok_iff] at h
    obtain ⟨next, hnext, h⟩ := h
    cases h
    rw [hlast, follow_dot hnext]

/-- Nothing changes if the directory is there already. -/
theorem createDirectories_of_isDirectory (h : fs.isDirectory path = true) :
    fs.createDirectories path = (.ok (), fs) := by
  have hdirectory := h
  unfold isDirectory at h
  split at h
  · rename_i place hplace
    rw [beq_iff_eq] at h
    have hlong : ¬Path.maxPath < path.utf8ByteSize := by
      unfold locate at hplace
      exact (ite_error_ok_iff.mp (ite_error_ok_iff.mp hplace).2).1
    have hcreate : fs.createDirectory path = .error .alreadyExists := by
      unfold createDirectory
      dsimp only
      rw [if_neg hlong, locate_withoutSlashes hplace]
      dsimp only [ok_bind]
      rw [h]
    unfold createDirectories createWithParents
    split
    · rfl
    · rw [hcreate]
  · cases h

end BeanClass.FileSystem
