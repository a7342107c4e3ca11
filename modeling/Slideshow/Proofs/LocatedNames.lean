import Slideshow.Proofs.StoreChanges
import Mathlib.Data.List.TakeWhile

/-!
# The name at the end of a path

What a path with a file name leads to has this name. So two paths to one file have the same
extension.
-/
namespace Slideshow.Store
variable {s : Store}

/-! ## Names that say nothing -/

private theorem eq_of_walk_silent {place found : List Text} {name : Text}
    (hname : name = [] ∨ name = ("." : Text)) (h : s.walk place [name] = .ok found) :
    found = place := by
  rw [walk] at h
  split at h
  · simp at h
  · exact (Except.ok.inj h).symm

private theorem walk_of_silent {place found names : List Text} {name : Text}
    (hname : name = [] ∨ name = ("." : Text)) (h : s.walk place (names ++ [name]) = .ok found) :
    s.walk place names = .ok found := by
  rw [walk_append] at h
  cases hbefore : s.walk place names with
  | error fault => simp [hbefore, Except.bind] at h
  | ok before =>
    rw [hbefore] at h
    rw [eq_of_walk_silent hname h]

/-- The end of a path that says nothing may be left out. -/
private theorem walk_settle {start found : List Text} {p : Text} (hroot : Path.settle p ≠ ['/'])
    (h : s.walk start (Text.pieces '/' p.reverse) = .ok found) :
    s.walk start (Text.pieces '/' (Path.settle p).reverse) = .ok found := by
  fun_induction Path.settle p with
  | case1 => simp at hroot
  | case2 rest hrest ih =>
    rw [List.reverse_cons, Text.pieces_append] at h
    exact ih hroot (walk_of_silent (.inl rfl) h)
  | case3 => simp at hroot
  | case4 rest hrest ih =>
    rw [List.reverse_cons, List.reverse_cons, List.append_assoc, List.singleton_append,
      Text.pieces_append] at h
    exact ih hroot (walk_of_silent (.inr (by simp)) h)
  | case5 => exact h

/-! ## The last name -/

private theorem getLast?_of_walk_name {place found names : List Text} {name : Text}
    (hname : ¬(name = [] ∨ name = ("." : Text))) (hup : name ≠ (".." : Text))
    (h : s.walk place (names ++ [name]) = .ok found) : found.getLast? = some name := by
  rw [walk_append] at h
  cases hbefore : s.walk place names with
  | error fault => simp [hbefore, Except.bind] at h
  | ok before =>
    simp only [hbefore, Except.bind, walk, if_neg hname, if_neg hup] at h
    split at h
    · simp at h
    split at h
    · simp at h
    split at h
    · simp at h
    · obtain rfl := Except.ok.inj h
      simp

/-- The last piece of a text, which is given reversed. -/
private theorem exists_pieces_reverse (p : Text) : ∃ names,
    Text.pieces '/' p.reverse = names ++ [(p.takeWhile (· ≠ '/')).reverse] := by
  have hslash : '/' ∉ (p.takeWhile (· ≠ '/')).reverse := by
    intro hmem
    simpa using List.mem_takeWhile_imp (List.mem_reverse.1 hmem)
  have hp := List.takeWhile_append_dropWhile (p := fun c => decide (c ≠ '/')) (l := p)
  cases hrest : p.dropWhile (· ≠ '/') with
  | nil =>
    rw [hrest, List.append_nil] at hp
    exact ⟨[], by rw [← Text.pieces_of_not_mem hslash, hp, List.nil_append]⟩
  | cons c rest =>
    obtain rfl : c = '/' := by
      have hhead := List.head?_dropWhile_not (· ≠ '/') p
      rw [hrest] at hhead
      simpa using hhead
    rw [hrest] at hp
    refine ⟨Text.pieces '/' rest.reverse, ?_⟩
    rw [← Text.pieces_of_not_mem hslash, ← Text.pieces_append]
    conv => lhs; rw [← hp]
    simp

/-- The name of a file is the last of the names that lead to it. -/
theorem getLast?_of_locate {path name : Text} {found : List Text}
    (hname : Path.fileName? path = some name) (hne : name ≠ []) (h : s.locate path = .ok found) :
    found.getLast? = some name := by
  obtain ⟨hlast, hdots⟩ := Option.filter_eq_some_iff.1 hname
  simp only [Bool.and_eq_true, decide_eq_true_eq] at hdots
  rw [Path.lastName?] at hlast
  split at hlast
  · simp at hlast
  next hroot =>
  rw [not_or] at hroot
  rw [locate] at h
  split at h
  · simp at h
  rw [← path.reverse_reverse] at h
  have hwalk := walk_settle hroot.2 h
  obtain ⟨names, hnames⟩ := exists_pieces_reverse (Path.settle path.reverse)
  rw [hnames, Option.some.inj hlast] at hwalk
  exact getLast?_of_walk_name (not_or.2 ⟨hne, hdots.2⟩) hdots.1 hwalk

/-- Two paths to one file have the same extension. -/
theorem extension?_eq_of_locate {p q e f : Text} {found : List Text}
    (hp : s.locate p = .ok found) (hq : s.locate q = .ok found)
    (he : Path.extension? p = some e) (hf : Path.extension? q = some f) : e = f := by
  have hname : ∀ {path e : Text}, Path.extension? path = some e → ∃ name, name ≠ [] ∧
      Path.fileName? path = some name := by
    intro path e h
    obtain ⟨name, hname, hrest⟩ := Option.bind_eq_some_iff.1 h
    refine ⟨name, ?_, hname⟩
    rintro rfl
    simp at hrest
  obtain ⟨name, hne, hp'⟩ := hname he
  obtain ⟨other, hne', hq'⟩ := hname hf
  have hsame : some name = some other := by
    rw [← getLast?_of_locate hp' hne hp, getLast?_of_locate hq' hne' hq]
  rw [Path.extension?, hp', hsame, ← hq'] at he
  exact Option.some.inj (he.symm.trans hf)

end Slideshow.Store
