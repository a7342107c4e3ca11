import Slideshow.Store.Path
import Slideshow.Proofs.PercentDecoding

/-!
# The names in a file URL

The path of a reference is followed below a directory name by name, in a URL as in a path of a file.
The names that the URL denotes are those of the directory followed by the decoded names of the
reference, without its query and its fragment; a path has the names of the reference as they stand.
-/
namespace Slideshow
open Text

/-! ## Names that lead somewhere -/

namespace Path

/-- Follow a name from some names: an empty name and a dot stay, and two dots go up. -/
def followName (names : List Bytes) (name : Bytes) : List Bytes :=
  if name = [] ∨ name = [46] then names
  else if name = [46, 46] then names.dropLast
  else names ++ [name]

/-- Follow names whatever exists. -/
def follow (start names : List Bytes) : List Bytes := names.foldl followName start

/-- The names that a path leads to from the root. -/
def namesOf (path : Text) : List Bytes := follow [] ((pieces '/' path).map Utf8.encode)

/-- The name of a file or of a directory. -/
def isName (n : Text) : Bool := n ≠ [] && '/' ∉ n && n ≠ ("." : Text) && n ≠ (".." : Text)

theorem follow_append (start names more : List Bytes) :
    follow start (names ++ more) = follow (follow start names) more := List.foldl_append

/-- Names that go down only are kept. -/
theorem follow_eq_append {start names : List Bytes}
    (h : ∀ n ∈ names, n ≠ [] ∧ n ≠ [46] ∧ n ≠ [46, 46]) : follow start names = start ++ names := by
  induction names generalizing start with
  | nil => exact (List.append_nil start).symm
  | cons n names ih =>
    obtain ⟨hne, hdot, hup⟩ := h n (by simp)
    have hn : followName start n = start ++ [n] := by
      rw [followName, if_neg (not_or.2 ⟨hne, hdot⟩), if_neg hup]
    have hrest := @ih (start ++ [n]) fun m hm => h m (List.mem_cons_of_mem n hm)
    rw [follow, List.foldl_cons, hn]
    exact hrest.trans (List.append_assoc start [n] names)

theorem follow_dropWhile {start : List Bytes} (names : List Bytes) :
    follow start (names.dropWhile (· = [])) = follow start names := by
  induction names with
  | nil => rfl
  | cons n names ih =>
    by_cases hn : n = []
    · subst hn
      rw [List.dropWhile_cons, if_pos (by simp), ih]
      rfl
    · rw [List.dropWhile_cons, if_neg (by simpa using hn)]

theorem encode_eq_iff {n m : Text} : Utf8.encode n = Utf8.encode m ↔ n = m := by
  refine ⟨fun h => ?_, fun h => h ▸ rfl⟩
  have := Utf8.units_encode n
  rw [h, Utf8.units_encode] at this
  exact (List.map_injective_iff.2 (Option.some_injective _) this).symm

theorem encode_of_isName {n : Text} (h : isName n) :
    Utf8.encode n ≠ [] ∧ Utf8.encode n ≠ [46] ∧ Utf8.encode n ≠ [46, 46] := by
  simp only [isName, Bool.and_eq_true, decide_eq_true_eq, ne_eq] at h
  obtain ⟨⟨⟨hne, -⟩, hdot⟩, hup⟩ := h
  have hempty : ([] : Bytes) = Utf8.encode [] := rfl
  have hone : ([46] : Bytes) = Utf8.encode "." := by cbv
  have htwo : ([46, 46] : Bytes) = Utf8.encode ".." := by cbv
  exact ⟨fun e => hne (encode_eq_iff.1 (e.trans hempty)),
    fun e => hdot (encode_eq_iff.1 (e.trans hone)), fun e => hup (encode_eq_iff.1 (e.trans htwo))⟩

theorem pieces_append_flatMap {names : List Text} (h : ∀ n ∈ names, '/' ∉ n) (t : Text) :
    pieces '/' (t ++ names.flatMap ('/' :: ·)) = pieces '/' t ++ names := by
  induction names generalizing t with
  | nil => simp
  | cons n names ih =>
    rw [List.flatMap_cons, List.cons_append, pieces_append,
      ih (fun m hm => h m (List.mem_cons_of_mem n hm)), pieces_of_not_mem (h n (by simp))]
    rfl

theorem slash_not_mem_of_isName {n : Text} (h : isName n) : '/' ∉ n := by
  simp only [isName, Bool.and_eq_true, decide_eq_true_eq] at h
  exact h.1.1.2

theorem pieces_ofNames {names : List Text} (h : ∀ n ∈ names, isName n) (hne : names ≠ []) :
    pieces '/' (ofNames names) = [] :: names := by
  rw [ofNames, if_neg hne]
  exact pieces_append_flatMap (fun n hn => slash_not_mem_of_isName (h n hn)) []

theorem filter_pieces_ofNames {names : List Text} (h : ∀ n ∈ names, isName n) :
    (pieces '/' (ofNames names)).filter (fun n => n ≠ [] && n ≠ ("." : Text)) = names := by
  by_cases hne : names = []
  · subst hne
    cbv
  · rw [pieces_ofNames h hne, List.filter_cons, if_neg (by simp), List.filter_eq_self]
    intro n hn
    have := h n hn
    simp only [isName, Bool.and_eq_true] at this
    simp only [Bool.and_eq_true]
    exact ⟨this.1.1.1, this.1.2⟩

theorem getLast?_ofNames {names : List Text} (h : ∀ n ∈ names, isName n) (hne : names ≠ []) :
    (ofNames names).getLast? ≠ some '/' := by
  obtain ⟨names, n, rfl⟩ := List.eq_nil_or_concat names |>.resolve_left hne
  have hn := h n (by simp)
  have hlast : n ≠ [] := by
    rintro rfl
    simp [isName] at hn
  obtain ⟨n', c, rfl⟩ := List.eq_nil_or_concat n |>.resolve_left hlast
  have hslash := slash_not_mem_of_isName hn
  simp only [List.concat_eq_append, List.mem_append, List.mem_singleton, not_or] at hslash
  rw [ofNames, if_neg hne, List.concat_eq_append, List.concat_eq_append, List.flatMap_append,
    List.flatMap_singleton, ← List.cons_append, ← List.append_assoc, List.getLast?_concat]
  simpa using Ne.symm hslash.2

theorem pieces_join {names : List Text} (h : ∀ n ∈ names, isName n) (p : Text) :
    pieces '/' (join (ofNames names) p) =
      if isAbsolute p then pieces '/' p else [] :: names ++ pieces '/' p := by
  by_cases hp : isAbsolute p
  · rw [join, if_pos hp, if_pos hp]
  · rw [join, if_neg hp, if_neg hp]
    by_cases hne : names = []
    · subst hne
      exact pieces_append '/' [] p
    · have hempty : ofNames names ≠ [] := by
        obtain ⟨n, names, rfl⟩ := List.exists_cons_of_ne_nil hne
        simp [ofNames]
      rw [if_neg (by simp [hempty, getLast?_ofNames h hne]), List.append_assoc,
        List.singleton_append, pieces_append, pieces_ofNames h hne]

/-- A path taken from a directory has the names of the directory in front. -/
theorem namesOf_join {names : List Text} (h : ∀ n ∈ names, isName n) (p : Text) :
    namesOf (join (ofNames names) p) =
      follow (if isAbsolute p then [] else names.map Utf8.encode)
        ((pieces '/' p).map Utf8.encode) := by
  rw [namesOf, pieces_join h]
  split
  · rfl
  · have hnames := @follow_eq_append [] (names.map Utf8.encode) fun n hn => by
      obtain ⟨m, hm, rfl⟩ := List.mem_map.1 hn
      exact encode_of_isName (h m hm)
    have hdirectory : follow [] (([] :: names).map Utf8.encode) = names.map Utf8.encode := hnames
    rw [List.map_append, follow_append, hdirectory]

end Path

/-! ## Segments of a URL -/

namespace Url
theorem shortened_eq_dropLast {done : List Text} (h : ∀ s ∈ done.head?, isDrive s = false) :
    shortened done = done.dropLast := by
  unfold shortened
  split
  · next s =>
    rw [if_neg (by simpa using h s rfl)]
    rfl
  · rfl

/-- A segment that stands for a name: it is not empty, and no dots. -/
def IsDown (segment : Text) : Prop :=
  decodeBytes segment ≠ [] ∧ decodeBytes segment ≠ [46] ∧ decodeBytes segment ≠ [46, 46]

/-- What `..` takes away is a name: there is none, or nothing is empty before it. -/
def PopsNames (done segments : List Text) : Prop :=
  (∀ s ∈ segments, isDoubleDot s = false) ∨
    (∀ s ∈ done, IsDown s) ∧ ∀ s ∈ segments.dropLast, s ≠ []

theorem namesOf_dropLast {done : List Text} (h : ∀ s ∈ done, IsDown s) :
    Path.follow [] (done.dropLast.map decodeBytes) =
      (Path.follow [] (done.map decodeBytes)).dropLast := by
  have hdown : ∀ ss : List Text, (∀ s ∈ ss, IsDown s) →
      Path.follow [] (ss.map decodeBytes) = ss.map decodeBytes := fun ss hss =>
    Path.follow_eq_append fun n hn => by
      obtain ⟨s, hs, rfl⟩ := List.mem_map.1 hn
      exact hss s hs
  rw [hdown _ h, hdown _ fun s hs => h s (List.dropLast_subset done hs), List.map_dropLast]

/-- The segments after one more that is no drive. -/
def stepped (done : List Text) (s : Text) : List Text :=
  if isDoubleDot s then shortened done else if isSingleDot s then done else done ++ [s]

section Step
variable {done : List Text} {s : Text} (hdone : ∀ s ∈ done.head?, isDrive s = false)
include hdone

theorem names_stepped (hpops : isDoubleDot s = false ∨ ∀ d ∈ done, IsDown d) :
    Path.follow [] ((stepped done s).map decodeBytes) =
      Path.followName (Path.follow [] (done.map decodeBytes)) (decodeBytes s) := by
  rw [stepped]
  split
  · next hup =>
    have hdown := hpops.resolve_left (by simp [hup])
    rw [shortened_eq_dropLast hdone, namesOf_dropLast hdown, isDoubleDot_iff.1 hup,
      Path.followName, if_neg (by simp), if_pos rfl]
  split
  · next hdot =>
    rw [isSingleDot_iff.1 hdot, Path.followName, if_pos (.inr rfl)]
  · rw [List.map_append, Path.follow_append]
    rfl

theorem head?_stepped (hs : isDrive s = false) : ∀ d ∈ (stepped done s).head?, isDrive d = false := by
  intro d hd
  rw [stepped] at hd
  split at hd
  · rw [shortened_eq_dropLast hdone] at hd
    cases done with
    | nil => simp at hd
    | cons e done =>
      cases done with
      | nil => simp at hd
      | cons f done => exact hdone d hd
  split at hd
  · exact hdone d hd
  · cases done with
    | nil =>
      obtain rfl : s = d := by simpa using hd
      exact hs
    | cons e done => exact hdone d hd

omit hdone in
/-- A segment that is no drive is followed by one step. -/
theorem follow_cons (hs : isDrive s = false) {rest : List Text} (hne : rest ≠ []) :
    follow done (s :: rest) = follow (stepped done s) rest := by
  obtain ⟨t, rest, rfl⟩ := List.exists_cons_of_ne_nil hne
  rw [follow, stepped, hs, Bool.and_false]
  · split
    · rfl
    split <;> rfl
  · simp

omit hdone in
/-- Dots at the end leave the name of the file empty. -/
theorem follow_singleton (hs : isDrive s = false) :
    follow done [s] = stepped done s ++ [[]] ∨
      follow done [s] = stepped done s ∧ stepped done s = done ++ [s] := by
  rw [follow, stepped, hs, Bool.and_false]
  split
  · exact .inl rfl
  split
  · exact .inl rfl
  · exact .inr ⟨rfl, rfl⟩

theorem names_follow_singleton (hs : isDrive s = false)
    (hpops : isDoubleDot s = false ∨ ∀ d ∈ done, IsDown d) :
    Path.follow [] ((follow done [s]).map decodeBytes) =
      Path.followName (Path.follow [] (done.map decodeBytes)) (decodeBytes s) := by
  rw [← names_stepped hdone hpops]
  rcases follow_singleton hs with hlast | ⟨hlast, -⟩
  · rw [hlast, List.map_append, Path.follow_append]
    rfl
  · rw [hlast]

end Step

theorem popsNames_stepped {done rest : List Text} {s : Text} (hdone : ∀ s ∈ done.head?, isDrive s = false)
    (hne : rest ≠ []) (hpops : PopsNames done (s :: rest)) : PopsNames (stepped done s) rest := by
  rcases hpops with hups | ⟨hdown, hnames⟩
  · exact .inl fun t ht => hups t (List.mem_cons_of_mem s ht)
  · rw [List.dropLast_cons_of_ne_nil hne] at hnames
    refine .inr ⟨fun d hd => ?_, fun t ht => hnames t (List.mem_cons_of_mem s ht)⟩
    rw [stepped] at hd
    split at hd
    · rw [shortened_eq_dropLast hdone] at hd
      exact hdown d (List.dropLast_subset done hd)
    split at hd
    · exact hdown d hd
    · next hup hdot =>
      rcases List.mem_append.1 hd with hd | hd
      · exact hdown d hd
      · obtain rfl := List.mem_singleton.1 hd
        exact ⟨fun he => hnames d (by simp) (decodeBytes_eq_nil_iff.1 he),
          fun he => hdot (isSingleDot_iff.2 he), fun he => hup (isDoubleDot_iff.2 he)⟩

/-- Following segments in a URL follows the names they are decoded to. -/
theorem names_follow {segments done : List Text} (hne : segments ≠ [])
    (hdone : ∀ s ∈ done.head?, isDrive s = false) (hdrive : ∀ s ∈ segments, isDrive s = false)
    (hpops : PopsNames done segments) :
    Path.follow [] ((follow done segments).map decodeBytes) =
      Path.follow (Path.follow [] (done.map decodeBytes)) (segments.map decodeBytes) := by
  induction segments generalizing done with
  | nil => exact absurd rfl hne
  | cons s rest ih =>
    have hs := hdrive s (by simp)
    have hstep : isDoubleDot s = false ∨ ∀ d ∈ done, IsDown d :=
      hpops.imp (fun hups => hups s (by simp)) And.left
    by_cases hrest : rest = []
    · subst hrest
      exact names_follow_singleton hdone hs hstep
    · rw [follow_cons hs hrest, ih hrest (head?_stepped hdone hs)
        (fun t ht => hdrive t (List.mem_cons_of_mem s ht)) (popsNames_stepped hdone hrest hpops),
        names_stepped hdone hstep]
      rfl

/-! ## The path of a URL -/

/-- The names in a file URL without a host: those of its path, decoded. -/
def fileNames? (url : Text) : Option (List Bytes) := do
  let path ← dropAffix? "file://" url
  if Path.isAbsolute path then
    some (Path.follow [] ((pieces '/' (path.takeWhile fun c => c ≠ '?' && c ≠ '#')).map decodeBytes))
  else none

/-- A segment that ends neither itself nor the path. -/
def IsSegment (s : Text) : Prop := '/' ∉ s ∧ '?' ∉ s ∧ '#' ∉ s

section Written
variable {segments : List Text} (hne : segments ≠ [])
include hne

theorem dropLast_append_getLastD : segments.dropLast ++ [segments.getLastD []] = segments := by
  obtain ⟨front, last, rfl⟩ := List.eq_nil_or_concat segments |>.resolve_left hne
  simp

theorem mem_of_mem_written {s : Text}
    (h : s ∈ segments.dropLast.dropWhile (· = []) ++ [segments.getLastD []]) : s ∈ segments := by
  rw [← dropLast_append_getLastD hne]
  rcases List.mem_append.1 h with h | h
  · exact List.mem_append_left _ ((List.dropWhile_suffix _).subset h)
  · exact List.mem_append_right _ h

theorem names_writePath (h : ∀ s ∈ segments, '/' ∉ s) :
    Path.follow [] ((pieces '/' (writePath segments)).map decodeBytes) =
      Path.follow [] (segments.map decodeBytes) := by
  have hpieces : pieces '/' (writePath segments) =
      [] :: (segments.dropLast.dropWhile (· = []) ++ [segments.getLastD []]) := by
    rw [writePath, pieces, if_pos rfl,
      pieces_intercalate (by simp) fun s hs => h s (mem_of_mem_written hne hs)]
  have hempty : ((fun n : Bytes => decide (n = [])) ∘ decodeBytes) = fun s => decide (s = []) := by
    funext s
    simp [decodeBytes_eq_nil_iff]
  have hfront : (segments.dropLast.dropWhile (· = [])).map decodeBytes =
      (segments.dropLast.map decodeBytes).dropWhile (· = []) := by
    rw [List.dropWhile_map, hempty]
  have hfirst : ∀ names : List Bytes, Path.follow [] ([] :: names) = Path.follow [] names :=
    fun _ => rfl
  rw [hpieces, List.map_cons, List.map_append, hfront]
  conv => rhs; rw [← dropLast_append_getLastD hne, List.map_append]
  exact (hfirst _).trans (by rw [Path.follow_append, Path.follow_append, Path.follow_dropWhile])

theorem not_mem_writePath {c : Char} (hc : c ≠ '/') (h : ∀ s ∈ segments, c ∉ s) :
    c ∉ writePath segments := by
  intro hm
  rcases List.mem_cons.1 hm with hm | hm
  · exact hc hm
  · rcases mem_intercalate hm with hm | ⟨s, hs, hm⟩
    · exact hc hm
    · exact h s (mem_of_mem_written hne hs) hm

omit hne in
theorem head?_writeTail (tail : Text) :
    (writeTail tail).head?.any (fun c => decide (c ≠ '?') && decide (c ≠ '#')) = false := by
  unfold writeTail
  dsimp only
  split <;> split <;> simp

theorem fileNames?_written (h : ∀ s ∈ segments, IsSegment s) (tail : Text) :
    fileNames? ("file://" ++ writePath segments ++ writeTail tail) =
      some (Path.follow [] (segments.map decodeBytes)) := by
  have hpath : ∀ c ∈ writePath segments, decide (c ≠ '?') && decide (c ≠ '#') := by
    intro c hc
    have hquery := not_mem_writePath hne (c := '?') (by decide) fun s hs => (h s hs).2.1
    have hfragment := not_mem_writePath hne (c := '#') (by decide) fun s hs => (h s hs).2.2
    exact Bool.and_eq_true_iff.2 ⟨ne_of_not_mem hquery c hc, ne_of_not_mem hfragment c hc⟩
  have hrooted : Path.isAbsolute (writePath segments ++ writeTail tail) := rfl
  rw [List.append_assoc, fileNames?, dropAffix?_append, Option.bind_eq_bind, Option.bind_some,
    if_pos hrooted, takeWhile_run hpath (head?_writeTail tail),
    names_writePath hne fun s hs => (h s hs).1]

end Written

/-! ## References -/

/-- The names in a reference, as they stand in it. -/
def segments (reference : Text) : List Text := (segmentsOf (cleaned reference)).1

/-- A reference that starts at the root. -/
def isRooted (reference : Text) : Bool := (cleaned reference).head?.any isSlash

/-- A reference to a file by a path: no URL, no host and no drive, and nothing is empty before two
dots. -/
structure IsPathReference (reference : Text) : Prop where
  noScheme : scheme? (cleaned reference) = none
  noHost : ∀ a b rest, cleaned reference = a :: b :: rest → isSlash a → isSlash b = false
  noDrive : ∀ s ∈ segments reference, isDrive s = false
  noGap : (∀ s ∈ segments reference, isDoubleDot s = false) ∨
    ∀ s ∈ (segments reference).tail.dropLast, s ≠ []

/-! ### What the segments of a reference hold -/

theorem segmentsOf_slash {a : Char} (ha : isSlash a) (s : Text) :
    segmentsOf (a :: s) = ([] :: (segmentsOf s).1, (segmentsOf s).2) := by
  have hinside : (a ≠ '?' ∧ a ≠ '#') ∧ (if a = '\\' then '/' else a) = '/' := by
    simp only [isSlash, Bool.or_eq_true, decide_eq_true_eq] at ha
    rcases ha with rfl | rfl <;> decide
  simp [segmentsOf, hinside, pieces]

theorem isSegment_of_mem_segmentsOf {s p : Text} (h : p ∈ (segmentsOf s).1) : IsSegment p := by
  obtain ⟨hslash, hsub⟩ := not_mem_of_mem_pieces h
  have hpath : ∀ c ∈ p, c ≠ '?' ∧ c ≠ '#' := by
    intro c hc
    obtain ⟨d, hd, rfl⟩ := List.mem_map.1 (hsub hc)
    have := List.mem_takeWhile_imp hd
    simp only [Bool.and_eq_true, decide_eq_true_eq] at this
    split
    · decide
    · exact this
  exact ⟨hslash, fun hm => (hpath _ hm).1 rfl, fun hm => (hpath _ hm).2 rfl⟩

/-- The first segment is empty only where a slash is. -/
theorem head_segmentsOf_ne_nil {s : Text} (h : s.head?.any isSlash = false) {p : Text}
    {ps : List Text} (hs : (segmentsOf s).1 = p :: ps) (hps : ps ≠ []) : p ≠ [] := by
  rintro rfl
  simp only [segmentsOf] at hs
  cases s with
  | nil =>
    obtain ⟨-, rfl⟩ := List.cons.inj hs
    exact hps rfl
  | cons c s =>
    have hslash : c ≠ '/' ∧ c ≠ '\\' := by simpa [isSlash] using h
    rw [List.takeWhile_cons] at hs
    split at hs
    · rw [List.map_cons, if_neg hslash.2, pieces, if_neg hslash.1] at hs
      split at hs <;> simp at hs
    · obtain ⟨-, rfl⟩ := List.cons.inj hs
      exact hps rfl

theorem exists_drive_of_startsWithDrive {s : Text} (h : startsWithDrive s) :
    ∃ p ∈ (segmentsOf s).1, isDrive p := by
  simp only [startsWithDrive, Bool.and_eq_true] at h
  obtain ⟨hdrive, hend⟩ := h
  unfold isDrive at hdrive
  split at hdrive
  · next a b htake =>
    have hs : s = [a, b] ++ s.drop 2 := by rw [← htake, List.take_append_drop]
    simp only [Bool.and_eq_true, Bool.or_eq_true, decide_eq_true_eq] at hdrive
    have ha : a ≠ '?' ∧ a ≠ '#' ∧ a ≠ '\\' ∧ a ≠ '/' := by
      refine ⟨?_, ?_, ?_, ?_⟩ <;> rintro rfl <;> simp at hdrive
    have hb : b ≠ '?' ∧ b ≠ '#' ∧ b ≠ '\\' ∧ b ≠ '/' := by
      rcases hdrive.2 with rfl | rfl <;> decide
    have hpieces : pieces '/' [a, b] = [[a, b]] :=
      pieces_of_not_mem (by simp [Ne.symm ha.2.2.2, Ne.symm hb.2.2.2])
    refine ⟨[a, b], ?_, by simpa [isDrive] using hdrive⟩
    rw [hs, segmentsOf]
    simp only [List.cons_append, List.nil_append, List.takeWhile_cons, ha, hb, ne_eq, not_false_eq_true,
      decide_true, Bool.and_self, if_true, List.map_cons, if_false]
    cases hrest : s.drop 2 with
    | nil => simp [hpieces]
    | cons c rest =>
      rw [hrest] at hend
      by_cases hslash : isSlash c
      · have hc : (c ≠ '?' ∧ c ≠ '#') ∧ (if c = '\\' then '/' else c) = '/' := by
          simp only [isSlash, Bool.or_eq_true, decide_eq_true_eq] at hslash
          rcases hslash with rfl | rfl <;> decide
        have happ := pieces_append '/' [a, b]
        simp only [List.cons_append, List.nil_append] at happ
        simp [hc, happ, hpieces]
      · have hc : c = '?' ∨ c = '#' := by simpa [hslash] using hend
        rcases hc with rfl | rfl <;> simp [hpieces]
  · simp at hdrive

/-! ### The URL of a reference -/

theorem shortened_subset (done : List Text) : shortened done ⊆ done := by
  unfold shortened
  split
  · split <;> simp
  · exact List.dropLast_subset done

theorem mem_stepped {done : List Text} {s x : Text} (h : x ∈ stepped done s) : x ∈ done ∨ x = s := by
  rw [stepped] at h
  split at h
  · exact .inl (shortened_subset done h)
  split at h
  · exact .inl h
  · simpa using h

theorem mem_follow {segments done : List Text} {x : Text} (hdrive : ∀ s ∈ segments, isDrive s = false)
    (h : x ∈ follow done segments) : x ∈ done ∨ x ∈ segments ∨ x = [] := by
  induction segments generalizing done with
  | nil =>
    rw [follow] at h
    rcases List.mem_append.1 h with h | h
    · exact .inl h
    · exact .inr (.inr (List.mem_singleton.1 h))
  | cons s rest ih =>
    have hs := hdrive s (by simp)
    have hstepped : x ∈ stepped done s → x ∈ done ∨ x ∈ s :: rest ∨ x = [] := fun hx =>
      (mem_stepped hx).imp_right fun he => .inl (by simp [he])
    by_cases hrest : rest = []
    · subst hrest
      rcases follow_singleton hs with hlast | ⟨hlast, -⟩ <;> rw [hlast] at h
      · rcases List.mem_append.1 h with hx | hx
        · exact hstepped hx
        · exact .inr (.inr (List.mem_singleton.1 hx))
      · exact hstepped h
    · rw [follow_cons hs hrest] at h
      rcases ih (fun t ht => hdrive t (List.mem_cons_of_mem s ht)) h with hx | hx | hx
      · exact hstepped hx
      · exact .inr (.inl (List.mem_cons_of_mem s hx))
      · exact .inr (.inr hx)

theorem follow_ne_nil {segments done : List Text} (hdrive : ∀ s ∈ segments, isDrive s = false) :
    follow done segments ≠ [] := by
  induction segments generalizing done with
  | nil => simp [follow]
  | cons s rest ih =>
    have hs := hdrive s (by simp)
    by_cases hrest : rest = []
    · subst hrest
      rcases @follow_singleton done s hs with hlast | ⟨hlast, hstepped⟩
      · simp [hlast]
      · simp [hlast, hstepped]
    · rw [follow_cons hs hrest]
      exact ih fun t ht => hdrive t (List.mem_cons_of_mem s ht)

theorem follow_empty (done : List Text) : follow done [[]] = done ++ [[]] := by
  simp [follow, isDoubleDot, isSingleDot, isDrive]

section Directory
variable {names : List Text} (hnames : ∀ n ∈ names, Path.isName n)
  (hdrive : ∀ n ∈ names.head?, isDrive n = false) {reference : Text} (h : IsPathReference reference)

include hdrive in
theorem isDrive_head_segmentsOfNames : ∀ s ∈ (segmentsOfNames names).head?, isDrive s = false := by
  intro s hs
  rw [segmentsOfNames, List.head?_map] at hs
  obtain ⟨n, hn, rfl⟩ := Option.mem_map.1 hs
  rw [Bool.eq_false_iff]
  exact fun hd => Bool.eq_false_iff.1 (hdrive n hn) (isDrive_of_encode hd)

include hdrive in
theorem filter_isDrive_segmentsOfNames : ((segmentsOfNames names).take 1).filter isDrive = [] := by
  have hhead := isDrive_head_segmentsOfNames hdrive
  cases hs : segmentsOfNames names with
  | nil => rfl
  | cons s ss => simp [hhead s (by rw [hs]; rfl)]

include hnames hdrive h in
theorem resolve?_of_isRooted (hrooted : isRooted reference) :
    ∃ tail, resolve? (Path.ofNames names) reference = some ("file://" ++
      writePath (follow [] ((segments reference).tail.map (encode pathReserved))) ++ writeTail tail) := by
  have hscheme : ¬(scheme? (cleaned reference)).isSome := by simp [h.noScheme]
  have hfirst := filter_isDrive_segmentsOfNames hdrive
  have hstart : ∀ b : Bool, (if b then [] else ((segmentsOfNames names).take 1).filter isDrive) = [] :=
    fun b => by rw [hfirst, ite_self]
  rw [resolve?, Path.filter_pieces_ofNames hnames]
  dsimp only
  rw [if_neg hscheme, segments]
  rw [isRooted] at hrooted
  have hhost := h.noHost
  generalize cleaned reference = s at hhost hrooted
  rcases s with _ | ⟨a, s⟩
  · simp at hrooted
  have hslash : isSlash a := hrooted
  rw [segmentsOf_slash hslash]
  split
  · next he => simp at he
  · next he =>
    obtain ⟨rfl, -⟩ := List.cons.inj he
    exact absurd hslash (by decide)
  · next he =>
    obtain ⟨rfl, -⟩ := List.cons.inj he
    exact absurd hslash (by decide)
  · next he =>
    obtain ⟨rfl, rfl⟩ := List.cons.inj he
    rw [if_pos hslash]
    split
    · next b rest =>
      rw [if_neg (by simp [hhost a b rest rfl hslash]), hstart, List.append_nil]
      exact ⟨(segmentsOf (b :: rest)).2, rfl⟩
    · rw [hfirst, List.append_nil]
      exact ⟨[], rfl⟩

include hnames h in
theorem resolve?_of_not_isRooted (hrooted : ¬isRooted reference) :
    ∃ tail, resolve? (Path.ofNames names) reference = some ("file://" ++ writePath
      (follow (segmentsOfNames names) ((segments reference).map (encode pathReserved))) ++
        writeTail tail) := by
  have hscheme : ¬(scheme? (cleaned reference)).isSome := by simp [h.noScheme]
  rw [resolve?, Path.filter_pieces_ofNames hnames]
  dsimp only
  rw [if_neg hscheme, segments]
  rw [isRooted] at hrooted
  have hdrives := h.noDrive
  rw [segments] at hdrives
  generalize cleaned reference = s at hdrives hrooted
  have hempty : ∀ {t : Text}, (segmentsOf t).1 = [[]] →
      follow (segmentsOfNames names) ((segmentsOf t).1.map (encode pathReserved)) =
        segmentsOfNames names ++ [[]] := fun ht => by rw [ht]; exact follow_empty _
  split
  · exact ⟨[], by rw [hempty rfl, show writeTail [] = [] from rfl, List.append_nil]⟩
  · next t => exact ⟨'?' :: t, by rw [hempty (by simp [segmentsOf, pieces])]⟩
  · next t => exact ⟨'#' :: t, by rw [hempty (by simp [segmentsOf, pieces])]⟩
  · next a s _ _ =>
    have hslash : ¬isSlash a := hrooted
    have hdrive : ¬startsWithDrive (a :: s) := fun hd => by
      obtain ⟨p, hp, hd⟩ := exists_drive_of_startsWithDrive hd
      simp [hdrives p hp] at hd
    rw [if_neg hslash, if_neg hdrive, List.append_nil]
    exact ⟨(segmentsOf (a :: s)).2, rfl⟩

end Directory

theorem isSegment_encode {reserved : List Char} (hquery : '?' ∈ reserved) (hfragment : '#' ∈ reserved)
    {s : Text} (hslash : '/' ∈ reserved ∨ '/' ∉ s) : IsSegment (encode reserved s) := by
  have hnot : ∀ c ∈ ['/', '?', '#'], c ∈ reserved ∨ c ∉ s → c ∉ encode reserved s := by
    intro c hc hout hmem
    have hplain : c ≠ '%' ∧ hexValue? c = none := by
      simp only [List.mem_cons, List.not_mem_nil, or_false] at hc
      rcases hc with rfl | rfl | rfl <;> decide
    obtain ⟨hs, hfree⟩ := mem_of_mem_encode hplain.1 hplain.2 hmem
    exact hout.elim hfree (fun hnot => hnot hs)
  exact ⟨hnot '/' (by simp) hslash, hnot '?' (by simp) (.inl hquery), hnot '#' (by simp) (.inl hfragment)⟩

/-- Segments followed from those of names denote the decoded names. -/
theorem fileNames?_follow {start S : List Text} (hstart : ∀ s ∈ start, IsSegment s)
    (hhead : ∀ s ∈ start.head?, isDrive s = false) (hne : S ≠ []) (hslash : ∀ s ∈ S, '/' ∉ s)
    (hdrive : ∀ s ∈ S, isDrive s = false) (hpops : PopsNames start (S.map (encode pathReserved)))
    (tail : Text) :
    fileNames? ("file://" ++ writePath (follow start (S.map (encode pathReserved))) ++ writeTail tail) =
      some (Path.follow (Path.follow [] (start.map decodeBytes)) (S.map decodeBytes)) := by
  have hdrives : ∀ s ∈ S.map (encode pathReserved), isDrive s = false := by
    intro s hs
    obtain ⟨t, ht, rfl⟩ := List.mem_map.1 hs
    rw [Bool.eq_false_iff]
    exact fun hd => Bool.eq_false_iff.1 (hdrive t ht) (isDrive_of_encode hd)
  have hsegments : ∀ s ∈ follow start (S.map (encode pathReserved)), IsSegment s := by
    intro s hs
    rcases mem_follow hdrives hs with hs | hs | rfl
    · exact hstart s hs
    · obtain ⟨t, ht, rfl⟩ := List.mem_map.1 hs
      exact isSegment_encode (by decide) (by decide) (.inr (hslash t ht))
    · exact ⟨by simp, by simp, by simp⟩
  have hdecoded : (S.map (encode pathReserved)).map decodeBytes = S.map decodeBytes := by
    rw [List.map_map]
    exact List.map_congr_left fun s _ => decodeBytes_encode keepsDigits_pathReserved s
  rw [fileNames?_written (follow_ne_nil hdrives) hsegments, names_follow (by simpa using hne) hhead
    hdrives hpops, hdecoded]

section Reference
variable {reference : Text}

theorem segments_of_isRooted (h : isRooted reference) :
    ∃ rest, segments reference = [] :: rest ∧ rest ≠ [] := by
  rw [isRooted] at h
  rw [segments]
  generalize cleaned reference = s at h
  cases s with
  | nil => simp at h
  | cons a s =>
    rw [segmentsOf_slash (s := s) (a := a) h]
    exact ⟨_, rfl, pieces_ne_nil '/' _⟩

/-- What two dots take away in a reference is a name. -/
theorem popsNames_of_isPathReference (h : IsPathReference reference) {start S : List Text}
    (hstart : ∀ s ∈ start, IsDown s) (hS : S ⊆ segments reference)
    (hnames : ∀ s ∈ S.dropLast, s = [] → s ∈ (segments reference).tail.dropLast) :
    PopsNames start (S.map (encode pathReserved)) := by
  rcases h.noGap with hups | hgap
  · refine .inl fun s hs => ?_
    obtain ⟨t, ht, rfl⟩ := List.mem_map.1 hs
    have hup := hups t (hS ht)
    rw [Bool.eq_false_iff, Ne, isDoubleDot_iff] at hup ⊢
    rwa [decodeBytes_encode keepsDigits_pathReserved]
  · refine .inr ⟨hstart, fun s hs he => ?_⟩
    rw [← List.map_dropLast] at hs
    obtain ⟨t, ht, rfl⟩ := List.mem_map.1 hs
    obtain rfl := eq_nil_of_encode he
    exact hgap [] (hnames [] ht rfl) rfl

/-- The first name of a reference that starts at no root is not empty. -/
theorem mem_tail_of_not_isRooted (hrooted : ¬isRooted reference)
    (hs : [] ∈ (segments reference).dropLast) : [] ∈ (segments reference).tail.dropLast := by
  cases hall : segments reference with
  | nil => simp [hall] at hs
  | cons p ps =>
    rw [hall] at hs
    by_cases hps : ps = []
    · simp [hps] at hs
    · rw [List.dropLast_cons_of_ne_nil hps] at hs
      rcases List.mem_cons.1 hs with hp | hs
      · exact absurd hp.symm (head_segmentsOf_ne_nil (by simpa [isRooted] using hrooted) hall hps)
      · exact hs

/-- The URL of a reference below a directory denotes the names of the directory followed by the
decoded names of the reference. -/
theorem exists_resolve? {names : List Text} (hnames : ∀ n ∈ names, Path.isName n)
    (hdrive : ∀ n ∈ names.head?, isDrive n = false) (h : IsPathReference reference) :
    ∃ url, resolve? (Path.ofNames names) reference = some url ∧
      fileNames? url = some (Path.follow (if isRooted reference then [] else names.map Utf8.encode)
        ((segments reference).map decodeBytes)) := by
  have hslash : ∀ s ∈ segments reference, '/' ∉ s := fun s hs => (isSegment_of_mem_segmentsOf hs).1
  have hdrives := h.noDrive
  by_cases hrooted : isRooted reference
  · obtain ⟨tail, hurl⟩ := resolve?_of_isRooted hnames hdrive h hrooted
    have hpops := popsNames_of_isPathReference h (List.forall_mem_nil IsDown) (List.tail_subset _)
      fun s hs _ => hs
    obtain ⟨rest, hrest, hne⟩ := segments_of_isRooted hrooted
    rw [if_pos hrooted]
    refine ⟨_, hurl, ?_⟩
    rw [hrest] at hpops hslash hdrives ⊢
    exact fileNames?_follow (by simp) (by simp) hne (fun s hs => hslash s (List.mem_cons_of_mem _ hs))
      (fun s hs => hdrives s (List.mem_cons_of_mem _ hs)) hpops tail
  · obtain ⟨tail, hurl⟩ := resolve?_of_not_isRooted hnames h hrooted
    have hdecoded : (segmentsOfNames names).map decodeBytes = names.map Utf8.encode := by
      rw [segmentsOfNames, List.map_map]
      exact List.map_congr_left fun n _ => decodeBytes_encode_of_mem (by decide) n
    have hencoded : ∀ n ∈ names.map Utf8.encode, n ≠ [] ∧ n ≠ [46] ∧ n ≠ [46, 46] := by
      intro n hn
      obtain ⟨m, hm, rfl⟩ := List.mem_map.1 hn
      exact Path.encode_of_isName (hnames m hm)
    have hdown : ∀ s ∈ segmentsOfNames names, IsDown s := fun s hs =>
      hencoded _ (hdecoded ▸ List.mem_map_of_mem hs)
    have hpops := popsNames_of_isPathReference h hdown (List.Subset.refl _) fun s hs he => by
      subst he
      exact mem_tail_of_not_isRooted hrooted hs
    have hne : segments reference ≠ [] := pieces_ne_nil '/' _
    rw [if_neg hrooted]
    refine ⟨_, hurl, ?_⟩
    rw [fileNames?_follow (fun s hs => ?_) (isDrive_head_segmentsOfNames hdrive) hne hslash hdrives
      hpops, hdecoded, Path.follow_eq_append hencoded, List.nil_append]
    obtain ⟨n, -, rfl⟩ := List.mem_map.1 hs
    exact isSegment_encode (by decide) (by decide) (.inl (by decide))

end Reference

end Url

end Slideshow
