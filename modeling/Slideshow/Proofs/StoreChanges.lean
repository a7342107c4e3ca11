import Slideshow.Store.Basic

/-!
# What saving a file changes

A file is saved by making the directories that lead to it, as far as they are missing, and writing
it. What a path led to before, it leads to afterwards; the path of the file leads to the new
contents, and every other entry of the store stays as it is.
-/
namespace Slideshow.Store
variable {s t u : Store}

/-- Paths lead as far in the second store as in the first. -/
structure Extends (s t : Store) : Prop where
  home : t.home = s.home
  directory : ∀ names, s.isDirectoryAt names → t.isDirectoryAt names
  found : ∀ names, (s.get? names).isSome → (t.get? names).isSome

/-- The second store has every entry of the first one. -/
structure Keeps (s t : Store) : Prop where
  home : t.home = s.home
  entry : ∀ names e, s.get? names = some e → t.get? names = some e

theorem Keeps.refl (s : Store) : s.Keeps s := ⟨rfl, fun _ _ h => h⟩

theorem Keeps.trans (h : s.Keeps t) (h' : t.Keeps u) : s.Keeps u :=
  ⟨h'.home.trans h.home, fun names e hs => h'.entry names e (h.entry names e hs)⟩

theorem Keeps.extends (h : s.Keeps t) : s.Extends t where
  home := h.home
  directory names hs := by
    simp only [isDirectoryAt, decide_eq_true_eq] at hs ⊢
    exact h.entry names _ hs
  found names hs := by
    obtain ⟨e, he⟩ := Option.isSome_iff_exists.1 hs
    exact Option.isSome_iff_exists.2 ⟨e, h.entry names e he⟩

theorem Extends.trans (h : s.Extends t) (h' : t.Extends u) : s.Extends u :=
  ⟨h'.home.trans h.home, fun names hs => h'.directory names (h.directory names hs),
    fun names hs => h'.found names (h.found names hs)⟩

/-! ## Following a path -/

theorem walk_append (s : Store) (place names more : List Text) :
    s.walk place (names ++ more) = (s.walk place names).bind fun found => s.walk found more := by
  induction names generalizing place with
  | nil => rfl
  | cons name names ih =>
    simp only [List.cons_append, walk, ih]
    split
    · rfl
    split
    · rfl
    split
    · rfl
    split
    · rfl
    split <;> rfl

/-- Each step of a path that leads somewhere is possible in the larger store too. -/
theorem walk_of_extends (h : s.Extends t) {place names found : List Text}
    (hwalk : s.walk place names = .ok found) : t.walk place names = .ok found := by
  induction names generalizing place with
  | nil => exact hwalk
  | cons name names ih =>
    simp only [walk] at hwalk ⊢
    split at hwalk
    · simp at hwalk
    next hplace =>
    have hplace' : t.isDirectoryAt place = true := h.directory place (by simpa using hplace)
    simp only [hplace', Bool.not_true, Bool.false_eq_true, if_false]
    split at hwalk
    · next hdot => exact if_pos hdot ▸ ih hwalk
    next hdot =>
    rw [if_neg hdot]
    split at hwalk
    · next hup => exact if_pos hup ▸ ih hwalk
    next hup =>
    rw [if_neg hup]
    split at hwalk
    · simp at hwalk
    next hlong =>
    rw [if_neg hlong]
    split at hwalk
    · simp at hwalk
    · next e he =>
      obtain ⟨e', he'⟩ := Option.isSome_iff_exists.1 (h.found (place ++ [name]) (by simp [he]))
      rw [he']
      exact ih hwalk

theorem locate_of_extends (h : s.Extends t) {path : Text} {found : List Text}
    (hlocate : s.locate path = .ok found) : t.locate path = .ok found := by
  simp only [locate, startOf, h.home] at hlocate ⊢
  split at hlocate
  · simp at hlocate
  · next hpath => exact if_neg hpath ▸ walk_of_extends h hlocate

/-! ## New entries -/

theorem get?_put_of_ne {names other : List Text} (h : other ≠ names) (e : Entry) :
    (s.put names e).get? other = s.get? other := by
  have hlookup : ∀ entries : List (List Text × Entry),
      (entries.filter (·.1 ≠ names)).lookup other = entries.lookup other := by
    intro entries
    induction entries with
    | nil => rfl
    | cons p entries ih =>
      by_cases hp : p.1 = names
      · have hother : (other == p.1) = false := by simpa [hp] using h
        rw [List.filter_cons_of_neg (by simpa using hp), ih, List.lookup_cons, hother]
      · rw [List.filter_cons_of_pos (by simpa using hp), List.lookup_cons, List.lookup_cons, ih]
  have hother : (other == names) = false := by simpa using h
  simp only [get?, put, List.lookup_cons, hother, hlookup]

private theorem exists_of_bind {ε α β : Type} {x : Except ε α} {f : α → Except ε β} {b : β}
    (h : (x >>= f) = .ok b) : ∃ a, x = .ok a ∧ f a = .ok b := by
  cases x with
  | error e => cases h
  | ok a => exact ⟨a, rfl, h⟩

theorem put_keeps {names : List Text} (hnew : s.get? names = none) (e : Entry) :
    s.Keeps (s.put names e) where
  home := rfl
  entry other f hf := by
    have hne : other ≠ names := by
      rintro rfl
      simp [hnew] at hf
    rw [get?_put_of_ne hne, hf]

/-- What is put in place of a file or of nothing leaves all paths open. -/
theorem put_extends {names : List Text} (hne : names ≠ []) (hfile : s.isDirectoryAt names = false)
    (e : Entry) : s.Extends (s.put names e) where
  home := rfl
  directory other ho := by
    have hother : other ≠ names := by
      rintro rfl
      simp [hfile] at ho
    simpa only [isDirectoryAt, get?_put_of_ne hother] using ho
  found other ho := by
    by_cases hother : other = names
    · rw [hother, get?_put_self s e hne]
      rfl
    · rwa [get?_put_of_ne hother]

/-! ## Making directories -/

theorem makeDirectory_keeps {path : Text} (h : s.makeDirectory path = .ok t) : s.Keeps t := by
  obtain ⟨⟨place, name⟩, -, h⟩ := exists_of_bind h
  dsimp only at h
  split at h
  · simp at h
  split at h
  · simp at h
  · next hnew =>
    obtain rfl := Except.ok.inj h
    exact put_keeps (by simpa using hnew) _

/-- Directories on the way to one that cannot be made are new as well. -/
theorem makeDirectories_keeps (s : Store) (depth : Nat) (path : Text) :
    s.Keeps (s.makeDirectories depth path).1 := by
  fun_induction makeDirectories s depth path with
  | case1 => exact .refl _
  | case2 _ _ _ _ hmade => exact makeDirectory_keeps hmade
  | case3 => exact .refl _
  | case4 _ _ _ _ _ _ _ _ hmade ih => rwa [hmade] at ih
  | case5 _ _ _ _ _ _ _ hmade _ hlast ih =>
    rw [hmade] at ih
    exact ih.trans (makeDirectory_keeps hlast)
  | case6 _ _ _ _ _ _ _ hmade _ _ ih => rwa [hmade] at ih
  | case7 => exact .refl _

theorem makeParent_keeps (s : Store) (path : Text) : s.Keeps (s.makeParent path).1 := by
  rw [makeParent]
  split
  · exact .refl s
  · next parent _ =>
    split
    · exact .refl s
    · exact makeDirectories_keeps s parent.length parent

/-! ## Writing a file -/

/-- A name that says something leads to its entry. -/
private theorem walk_name {place : List Text} {name : Text} (hplace : t.isDirectoryAt place = true)
    (hname : ¬(name = [] ∨ name = ("." : Text) ∨ name = (".." : Text)))
    (hlong : ¬255 < (Utf8.encode name).length) (hfound : (t.get? (place ++ [name])).isSome) :
    t.walk place [name] = .ok (place ++ [name]) := by
  rw [← or_assoc, not_or] at hname
  obtain ⟨e, he⟩ := Option.isSome_iff_exists.1 hfound
  rw [walk, hplace, if_neg (by simp), if_neg hname.1, if_neg hname.2, if_neg hlong, he]
  rfl

/-- The place of a new entry is found by its path once there is an entry. -/
theorem locate_of_locateNew {path : Text} {place : List Text} {name : Text}
    (h : s.locateNew path = .ok (place, name))
    (hname : ¬(name = [] ∨ name = ("." : Text) ∨ name = (".." : Text)))
    (hextends : s.Extends t) (hfound : (t.get? (place ++ [name])).isSome) :
    t.locate path = .ok (place ++ [name]) := by
  rw [locateNew] at h
  split at h
  · simp at h
  next hpath =>
  obtain ⟨found, hwalk, h⟩ := exists_of_bind h
  split at h
  · simp at h
  next hdirectory =>
  split at h
  · simp at h
  next hlong =>
  obtain ⟨rfl, rfl⟩ := Prod.mk.inj (Except.ok.inj h)
  have hnames : Text.pieces '/' path = (Text.pieces '/' path).dropLast ++
      [(Text.pieces '/' path).getLastD []] := by
    rw [List.getLastD_eq_getLast?, List.getLast?_eq_some_getLast (Text.pieces_ne_nil '/' path)]
    exact (List.dropLast_concat_getLast _).symm
  have hplace : t.isDirectoryAt found := hextends.directory found (by simpa using hdirectory)
  have hlast := walk_name hplace hname hlong hfound
  rw [locate, if_neg hpath, startOf, hextends.home, ← startOf]
  conv => lhs; rw [hnames]
  rw [walk_append, walk_of_extends hextends hwalk]
  exact hlast

/-- A written file is found under its path, and nothing else is changed. -/
theorem of_writeFile {path : Text} {contents : Bytes} (h : s.writeFile path contents = .ok t) :
    s.Extends t ∧ ∃ place, t.locate path = .ok place ∧ t.get? place = some (.file contents) ∧
      ∀ names, names ≠ place → t.get? names = s.get? names := by
  obtain ⟨⟨place, name⟩, hnew, h⟩ := exists_of_bind h
  dsimp only at h
  split at h
  · simp at h
  next hname =>
  split at h
  · simp at h
  next hdirectory =>
  obtain rfl := Except.ok.inj h
  have hextends : s.Extends (s.put (place ++ [name]) (.file contents)) :=
    put_extends (by simp) (by simpa using hdirectory) _
  have hfile : (s.put (place ++ [name]) (.file contents)).get? (place ++ [name]) =
      some (.file contents) := get?_put_self s _ (by simp)
  refine ⟨hextends, place ++ [name], ?_, hfile, fun names hn => get?_put_of_ne hn _⟩
  exact locate_of_locateNew hnew hname hextends (by rw [hfile]; rfl)

/-! ## Saving a file -/

/-- A saved file is read back from its path, and every other file that could be read is read as
before. -/
theorem of_save {path : Text} {contents : Bytes} (h : s.save path contents = (t, .ok ())) :
    t.read path = .ok contents ∧ ∀ other bytes, s.read other = .ok bytes →
      t.read other = .ok bytes ∨ t.locate other = t.locate path := by
  have hparent := makeParent_keeps s path
  rw [save] at h
  split at h
  · simp at h
  next made hmade =>
  split at h
  · next written hwritten =>
    obtain ⟨rfl, -⟩ := Prod.mk.inj h
    rw [hmade] at hparent
    obtain ⟨hextends, place, hplace, hfile, hothers⟩ := of_writeFile hwritten
    refine ⟨by simp [read, hplace, hfile, bind, Except.bind], fun other bytes hread => ?_⟩
    obtain ⟨names, hnames, hentry⟩ := exists_of_bind hread
    have hnames' := locate_of_extends (hparent.extends.trans hextends) hnames
    by_cases hsame : names = place
    · right
      rw [hnames', hplace, hsame]
    · left
      split at hentry
      · next e he =>
        simp only [read, hnames', bind, Except.bind, hothers names hsame, hparent.entry names _ he]
        exact hentry
      · simp at hentry
      · simp at hentry
  · simp at h

end Slideshow.Store
