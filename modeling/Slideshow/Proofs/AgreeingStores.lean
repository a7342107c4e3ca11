import Slideshow.Proofs.StoreChanges

/-!
# Stores that agree except for one file

Two stores have the same directories and files, and one of the files may hold other bytes in the
second store. Every path leads to the same place in both, and only reading this one place tells them
apart. Saving a file succeeds or fails in both alike and leaves stores that agree as before.
-/
namespace Slideshow.Store

/-- The same directories and files, and the same contents of all files but the one at a place. -/
structure AgreeExceptAt (place : List Text) (s t : Store) : Prop where
  home : t.home = s.home
  entry : ∀ names, names ≠ place → t.get? names = s.get? names
  first : ∃ contents, s.get? place = some (.file contents)
  second : ∃ contents, t.get? place = some (.file contents)

/-- Two attempts to change a store: both fail in the same way, or they leave stores that agree. -/
inductive AgreeAfter (place : List Text) :
    Except FileFault Store → Except FileFault Store → Prop
  | ok {s t : Store} (h : AgreeExceptAt place s t) : AgreeAfter place (.ok s) (.ok t)
  | error {fault : FileFault} : AgreeAfter place (.error fault) (.error fault)

/-- A file stays a file if at most another file is put in its place. -/
theorem exists_file_put {s : Store} {place names : List Text} {e : Entry}
    (he : names = place → ∃ contents, e = .file contents)
    (h : ∃ contents, s.get? place = some (.file contents)) :
    ∃ contents, (s.put names e).get? place = some (.file contents) := by
  by_cases hnames : place = names
  · obtain ⟨contents, rfl⟩ := he hnames.symm
    obtain ⟨_, hs⟩ := h
    have hroot : names ≠ [] := by
      rintro rfl
      simp [hnames, get?] at hs
    exact ⟨contents, by rw [hnames, get?_put_self s _ hroot]⟩
  · rw [get?_put_of_ne hnames]
    exact h

/-! ## The last of some directories -/

/-- A directory is made, or it is there. -/
def makeLast (s : Store) (path : Text) : Store × Except FileFault Unit :=
  match s.makeDirectory path with
  | .ok made => (made, .ok ())
  | .error fault => (s, if s.isDirectory path then .ok () else .error fault)

theorem makeDirectories_nil (s : Store) (depth : Nat) :
    s.makeDirectories depth [] = (s, .ok ()) := by
  rw [makeDirectories.eq_def, if_pos rfl]

theorem makeDirectories_zero (s : Store) {path : Text} (hpath : path ≠ []) :
    s.makeDirectories 0 path = s.makeLast path := by
  rw [makeDirectories.eq_def, if_neg hpath, makeLast]
  cases s.makeDirectory path with
  | ok made => rfl
  | error fault => cases fault <;> rfl

theorem makeDirectories_of_ne_missing {s : Store} {path : Text} (hpath : path ≠ [])
    (h : s.makeDirectory path ≠ .error .missing) (depth : Nat) :
    s.makeDirectories (depth + 1) path = s.makeLast path := by
  rw [makeDirectories.eq_def, if_neg hpath, makeLast]
  cases hmade : s.makeDirectory path with
  | ok made => rfl
  | error fault =>
    cases fault with
    | missing => exact absurd hmade h
    | _ => rfl

/-- Where a directory on the way is missing, those on the way are made first. -/
theorem makeDirectories_of_missing {s : Store} {path : Text} (hpath : path ≠ [])
    (h : s.makeDirectory path = .error .missing) (depth : Nat) :
    s.makeDirectories (depth + 1) path = match Path.parent? path with
      | none => (s, .error .missing)
      | some parent => match s.makeDirectories depth parent with
        | (made, .error fault) => (made, .error fault)
        | (made, .ok ()) => made.makeLast path := by
  rw [makeDirectories.eq_def, if_neg hpath, h]
  cases Path.parent? path with
  | none => rfl
  | some parent =>
    dsimp only
    rcases s.makeDirectories depth parent with ⟨made, fault | _⟩
    · rfl
    · cases hmade : made.makeDirectory path <;> simp only [makeLast, hmade]

namespace AgreeExceptAt
variable {place : List Text} {s t : Store}

section Same
variable (h : AgreeExceptAt place s t)
include h

/-! ## What cannot tell the stores apart -/

theorem isDirectoryAt_eq (names : List Text) : t.isDirectoryAt names = s.isDirectoryAt names := by
  by_cases hnames : names = place
  · obtain ⟨_, hs⟩ := h.first
    obtain ⟨_, ht⟩ := h.second
    simp [isDirectoryAt, hnames, hs, ht]
  · rw [isDirectoryAt, isDirectoryAt, h.entry names hnames]

theorem isSome_get?_eq (names : List Text) : (t.get? names).isSome = (s.get? names).isSome := by
  by_cases hnames : names = place
  · obtain ⟨_, hs⟩ := h.first
    obtain ⟨_, ht⟩ := h.second
    rw [hnames, hs, ht]
    rfl
  · rw [h.entry names hnames]

theorem walk_eq (start names : List Text) : t.walk start names = s.walk start names := by
  induction names generalizing start with
  | nil => rfl
  | cons name names ih =>
    have hfound := h.isSome_get?_eq (start ++ [name])
    simp only [walk, h.isDirectoryAt_eq, ih]
    cases hs : s.get? (start ++ [name]) <;> cases ht : t.get? (start ++ [name])
    · rfl
    · simp [hs, ht] at hfound
    · simp [hs, ht] at hfound
    · rfl

theorem locate_eq (path : Text) : t.locate path = s.locate path := by
  rw [locate, locate, startOf, startOf, h.home, h.walk_eq]

theorem absolute_eq (path : Text) : t.absolute path = s.absolute path := by
  rw [absolute, absolute, canonical?, canonical?, h.home, h.locate_eq]

theorem pathExists_eq (path : Text) : t.pathExists path = s.pathExists path := by
  rw [pathExists, pathExists, h.locate_eq]

theorem isDirectory_eq (path : Text) : t.isDirectory path = s.isDirectory path := by
  simp only [isDirectory, h.locate_eq, h.isDirectoryAt_eq]

theorem locateNew_eq (path : Text) : t.locateNew path = s.locateNew path := by
  simp only [locateNew, startOf, h.home, h.walk_eq, h.isDirectoryAt_eq]

/-- Only what leads to the file in question is read differently. -/
theorem read_eq {path : Text} (hpath : s.locate path ≠ .ok place) : t.read path = s.read path := by
  rw [read, read, h.locate_eq]
  cases hs : s.locate path with
  | error fault => rfl
  | ok names =>
    have hnames : names ≠ place := by
      rintro rfl
      exact hpath hs
    simp only [bind, Except.bind, h.entry names hnames]

theorem requireFile_eq (path : Text) : t.requireFile path = s.requireFile path := by
  rw [requireFile, requireFile, h.pathExists_eq]
  by_cases hpath : s.locate path = .ok place
  · obtain ⟨_, hs⟩ := h.first
    obtain ⟨_, ht⟩ := h.second
    simp [read, h.locate_eq, hpath, bind, Except.bind, hs, ht]
  · rw [h.read_eq hpath]

/-! ## Changing both stores -/

theorem put {names : List Text} {e : Entry}
    (he : names = place → ∃ contents, e = .file contents) :
    AgreeExceptAt place (s.put names e) (t.put names e) where
  home := h.home
  entry other hother := by
    by_cases hnames : other = names
    · subst hnames
      by_cases hroot : other = []
      · simp [get?, hroot]
      · rw [get?_put_self t e hroot, get?_put_self s e hroot]
    · rw [get?_put_of_ne hnames, get?_put_of_ne hnames, h.entry other hother]
  first := exists_file_put he h.first
  second := exists_file_put he h.second

theorem alike_writeFile (path : Text) (contents : Bytes) :
    AgreeAfter place (s.writeFile path contents) (t.writeFile path contents) := by
  rw [writeFile, writeFile, h.locateNew_eq]
  cases s.locateNew path with
  | error fault => exact .error
  | ok found =>
    obtain ⟨directory, name⟩ := found
    simp only [bind, Except.bind, h.isDirectoryAt_eq]
    split
    · exact .error
    split
    · exact .error
    · exact .ok (h.put fun _ => ⟨contents, rfl⟩)

theorem alike_makeDirectory (path : Text) :
    AgreeAfter place (s.makeDirectory path) (t.makeDirectory path) := by
  rw [makeDirectory, makeDirectory]
  dsimp only
  rw [h.locateNew_eq]
  cases s.locateNew _ with
  | error fault => exact .error
  | ok found =>
    obtain ⟨directory, name⟩ := found
    simp only [bind, Except.bind, h.isSome_get?_eq]
    split
    · exact .error
    split
    · exact .error
    · next hnew =>
      refine .ok (h.put fun hplace => ?_)
      obtain ⟨_, hs⟩ := h.first
      simp [hplace, hs] at hnew

end Same

theorem alike_makeLast (h : AgreeExceptAt place s t) (path : Text) :
    AgreeExceptAt place (s.makeLast path).1 (t.makeLast path).1 ∧
      (t.makeLast path).2 = (s.makeLast path).2 := by
  have hmade := h.alike_makeDirectory path
  rw [makeLast, makeLast]
  generalize s.makeDirectory path = x at hmade ⊢
  generalize t.makeDirectory path = y at hmade ⊢
  cases hmade with
  | ok h' => exact ⟨h', rfl⟩
  | error =>
    rw [h.isDirectory_eq]
    exact ⟨h, rfl⟩

theorem makeDirectory_eq_error (h : AgreeExceptAt place s t) (path : Text) (fault : FileFault) :
    t.makeDirectory path = .error fault ↔ s.makeDirectory path = .error fault := by
  have hmade := h.alike_makeDirectory path
  generalize s.makeDirectory path = x at hmade ⊢
  generalize t.makeDirectory path = y at hmade ⊢
  cases hmade with
  | ok => simp
  | error => rfl

/-- Directories are made in both stores up to the same fault. -/
theorem alike_makeDirectories (h : AgreeExceptAt place s t) (depth : Nat) (path : Text) :
    AgreeExceptAt place (s.makeDirectories depth path).1 (t.makeDirectories depth path).1 ∧
      (t.makeDirectories depth path).2 = (s.makeDirectories depth path).2 := by
  induction depth generalizing path with
  | zero =>
    by_cases hpath : path = []
    · rw [hpath, makeDirectories_nil, makeDirectories_nil]
      exact ⟨h, rfl⟩
    · rw [makeDirectories_zero s hpath, makeDirectories_zero t hpath]
      exact h.alike_makeLast path
  | succ depth ih =>
    by_cases hpath : path = []
    · rw [hpath, makeDirectories_nil, makeDirectories_nil]
      exact ⟨h, rfl⟩
    by_cases hmissing : s.makeDirectory path = .error .missing
    · have hmissing' := (h.makeDirectory_eq_error path .missing).2 hmissing
      rw [makeDirectories_of_missing hpath hmissing, makeDirectories_of_missing hpath hmissing']
      cases Path.parent? path with
      | none => exact ⟨h, rfl⟩
      | some parent =>
        obtain ⟨hparent, hresult⟩ := ih parent
        dsimp only
        generalize s.makeDirectories depth parent = u at hparent hresult ⊢
        generalize t.makeDirectories depth parent = v at hparent hresult ⊢
        obtain ⟨u, x⟩ := u
        obtain ⟨v, y⟩ := v
        dsimp only at hparent hresult ⊢
        subst hresult
        cases y with
        | error fault => exact ⟨hparent, rfl⟩
        | ok => exact hparent.alike_makeLast path
    · have hmissing' : t.makeDirectory path ≠ .error .missing := fun ht =>
        hmissing ((h.makeDirectory_eq_error path .missing).1 ht)
      rw [makeDirectories_of_ne_missing hpath hmissing,
        makeDirectories_of_ne_missing hpath hmissing']
      exact h.alike_makeLast path

theorem alike_makeParent (h : AgreeExceptAt place s t) (path : Text) :
    AgreeExceptAt place (s.makeParent path).1 (t.makeParent path).1 ∧
      (t.makeParent path).2 = (s.makeParent path).2 := by
  rw [makeParent, makeParent]
  cases Path.parent? path with
  | none => exact ⟨h, rfl⟩
  | some parent =>
    simp only [h.pathExists_eq]
    split
    · exact ⟨h, rfl⟩
    · obtain ⟨hmade, hresult⟩ := h.alike_makeDirectories parent.length parent
      exact ⟨hmade, congrArg (·.mapError (Failure.write parent)) hresult⟩

/-- A file is saved in both stores or fails to be saved in both. -/
theorem alike_save (h : AgreeExceptAt place s t) (path : Text) (contents : Bytes) :
    AgreeExceptAt place (s.save path contents).1 (t.save path contents).1 ∧
      (t.save path contents).2 = (s.save path contents).2 := by
  obtain ⟨hparent, hresult⟩ := h.alike_makeParent path
  rw [save, save]
  generalize s.makeParent path = u at hparent hresult ⊢
  generalize t.makeParent path = v at hparent hresult ⊢
  obtain ⟨u, x⟩ := u
  obtain ⟨v, y⟩ := v
  dsimp only at hparent hresult ⊢
  subst hresult
  cases y with
  | error failure => exact ⟨hparent, rfl⟩
  | ok =>
    have hwritten := hparent.alike_writeFile path contents
    dsimp only
    generalize u.writeFile path contents = x at hwritten ⊢
    generalize v.writeFile path contents = y at hwritten ⊢
    cases hwritten with
    | ok h' => exact ⟨h', rfl⟩
    | error => exact ⟨hparent, rfl⟩

end AgreeExceptAt

end Slideshow.Store
