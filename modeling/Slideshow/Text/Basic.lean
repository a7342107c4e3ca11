/-! # Text

A text is a list of characters, so that every reader of it recurses on the list it is given.
-/
namespace Slideshow

abbrev Text := List Char

namespace Text

/-- A literal text. It is opened by its lemma only, so that long literals cost nothing as long as
nobody looks at their characters. -/
@[irreducible] def ofString (s : String) : Text := s.toList

@[simp] theorem ofString_eq (s : String) : ofString s = s.toList := by rw [ofString]

instance : Coe String Text := ⟨ofString⟩

/-- Whether a text is one of some texts is decided by a search. -/
instance decidableMem (t : Text) (ts : List Text) : Decidable (t ∈ ts) :=
  decidable_of_iff (ts.any (· = t)) (by simp)

/-- Whether a code point lies in one of the closed ranges. -/
def within (ranges : List (Nat × Nat)) (c : Char) : Bool :=
  ranges.any fun r => r.1 ≤ c.toNat && c.toNat ≤ r.2

/-- What follows the affix at the front of a text. -/
def dropAffix? : Text → Text → Option Text
  | [], s => some s
  | _ :: _, [] => none
  | a :: affix, c :: s => if a = c then dropAffix? affix s else none

theorem dropAffix?_eq_some_iff {affix s rest : Text} :
    dropAffix? affix s = some rest ↔ s = affix ++ rest := by
  induction affix generalizing s with
  | nil => simp [dropAffix?]
  | cons a affix ih =>
    cases s with
    | nil => simp [dropAffix?]
    | cons c s =>
      by_cases h : a = c
      · simp [dropAffix?, h, ih]
      · simp [dropAffix?, h, Ne.symm h]

theorem dropAffix?_append (affix s : Text) : dropAffix? affix (affix ++ s) = some s :=
  dropAffix?_eq_some_iff.2 rfl

theorem dropAffix?_cons_ne {a c : Char} (h : a ≠ c) (affix s : Text) :
    dropAffix? (a :: affix) (c :: s) = none := by simp [dropAffix?, h]

/-- Two texts that are parted at the first of two marks are parted at the same place. -/
theorem append_cons_inj {s s' t t' : Text} {c d : Char} (hs : d ∉ s) (ht : c ∉ t)
    (h : s ++ c :: s' = t ++ d :: t') : s = t ∧ c = d ∧ s' = t' := by
  rcases List.append_eq_append_iff.1 h with ⟨more, rfl, hmore⟩ | ⟨more, rfl, hmore⟩
  · cases more with
    | nil => simpa using List.cons.inj hmore
    | cons e more =>
      obtain ⟨rfl, -⟩ := List.cons.inj hmore
      simp at ht
  · cases more with
    | nil => simpa [eq_comm] using List.cons.inj hmore
    | cons e more =>
      obtain ⟨rfl, -⟩ := List.cons.inj hmore
      simp at hs

/-- A text without a mark is not longer than the text up to that mark. -/
theorem exists_append_of_not_mem {s t x y : Text} {c : Char} (hx : c ∉ x)
    (h : s ++ c :: t = x ++ y) : ∃ more, s = x ++ more := by
  rcases List.append_eq_append_iff.1 h with ⟨more, rfl, hmore⟩ | ⟨more, rfl, -⟩
  · cases more with
    | nil => exact ⟨[], by simp⟩
    | cons d more =>
      obtain ⟨rfl, -⟩ := List.cons.inj hmore
      simp at hx
  · exact ⟨more, rfl⟩

/-- The characters of a text without a mark, as a scan up to that mark tests them. -/
theorem ne_of_not_mem {s : Text} {c : Char} (h : c ∉ s) : ∀ d ∈ s, decide (d ≠ c) :=
  fun _ hd => decide_eq_true fun he => h (he ▸ hd)

/-- A run of characters of one kind ends where a character of another kind stands. -/
theorem takeWhile_run {α : Type} {p : α → Bool} {run rest : List α} (hrun : ∀ a ∈ run, p a)
    (hrest : rest.head?.any p = false) : (run ++ rest).takeWhile p = run := by
  rw [List.takeWhile_append_of_pos hrun]
  cases rest with
  | nil => simp
  | cons a rest =>
    have ha : p a = false := hrest
    simp [ha]

theorem dropWhile_run {α : Type} {p : α → Bool} {run rest : List α} (hrun : ∀ a ∈ run, p a)
    (hrest : rest.head?.any p = false) : (run ++ rest).dropWhile p = rest := by
  rw [List.dropWhile_append_of_pos hrun]
  cases rest with
  | nil => rfl
  | cons a rest =>
    have ha : p a = false := hrest
    simp [ha]

/-- The text before the affix that ends it. -/
def dropEnding? (affix s : Text) : Option Text :=
  (dropAffix? affix.reverse s.reverse).map List.reverse

theorem dropEnding?_eq_some_iff {affix s rest : Text} :
    dropEnding? affix s = some rest ↔ s = rest ++ affix := by
  simp only [dropEnding?, Option.map_eq_some_iff, dropAffix?_eq_some_iff]
  constructor
  · rintro ⟨u, hu, rfl⟩
    have := congrArg List.reverse hu
    simpa using this
  · rintro rfl
    exact ⟨rest.reverse, by simp, by simp⟩

/-- The parts of a text before and after the first place where a pattern stands. -/
def cutAt? (pattern : Text) : Text → Option (Text × Text)
  | [] => if pattern = [] then some ([], []) else none
  | c :: s =>
    match dropAffix? pattern (c :: s) with
    | some rest => some ([], rest)
    | none => (cutAt? pattern s).map fun p => (c :: p.1, p.2)

theorem eq_append_of_cutAt? {pattern s before after : Text}
    (h : cutAt? pattern s = some (before, after)) : s = before ++ pattern ++ after := by
  induction s generalizing before with
  | nil =>
    simp only [cutAt?] at h
    split at h <;> simp_all
  | cons c s ih =>
    simp only [cutAt?] at h
    split at h
    · next rest hr =>
      rw [dropAffix?_eq_some_iff] at hr
      simp_all
    · obtain ⟨⟨b, a⟩, hp, hq⟩ := Option.map_eq_some_iff.1 h
      simp only [Prod.mk.injEq] at hq
      obtain ⟨rfl, rfl⟩ := hq
      simp [ih hp]

/-- Whether a pattern occurs. -/
def occursIn (pattern s : Text) : Bool := (cutAt? pattern s).isSome

theorem occursIn_iff {pattern s : Text} :
    occursIn pattern s ↔ ∃ before after, s = before ++ pattern ++ after := by
  constructor
  · intro h
    obtain ⟨⟨before, after⟩, hp⟩ := Option.isSome_iff_exists.1 h
    exact ⟨before, after, eq_append_of_cutAt? hp⟩
  · rintro ⟨before, after, rfl⟩
    rw [List.append_assoc]
    induction before with
    | nil =>
      cases pattern with
      | nil => cases after <;> rfl
      | cons a pattern => simp [occursIn, cutAt?, dropAffix?, dropAffix?_append]
    | cons c before ih =>
      simp only [occursIn, List.cons_append, cutAt?] at ih ⊢
      split
      · rfl
      · simpa using ih

theorem occursIn_mono {pattern s t : Text} (hs : s <:+: t) (h : occursIn pattern s) :
    occursIn pattern t := by
  obtain ⟨x, y, rfl⟩ := hs
  obtain ⟨before, after, rfl⟩ := occursIn_iff.1 h
  exact occursIn_iff.2 ⟨x ++ before, after ++ y, by simp⟩

/-- Every occurrence of one character replaced by a text. -/
def replaceChar (c : Char) (image : Text) (s : Text) : Text :=
  s.flatMap fun d => if d = c then image else [d]

theorem replaceChar_append (c : Char) (image s t : Text) :
    replaceChar c image (s ++ t) = replaceChar c image s ++ replaceChar c image t :=
  List.flatMap_append ..

theorem replaceChar_of_not_mem {c : Char} {s : Text} (h : c ∉ s) (image : Text) :
    replaceChar c image s = s := by
  induction s with
  | nil => rfl
  | cons d s ih =>
    simp only [List.mem_cons, not_or] at h
    have hs := ih h.2
    rw [replaceChar] at hs ⊢
    rw [List.flatMap_cons, if_neg (Ne.symm h.1), hs]
    rfl

theorem of_mem_replaceChar {c d : Char} {image s : Text} (h : d ∈ replaceChar c image s) :
    d ∈ image ∨ d ∈ s ∧ d ≠ c := by
  obtain ⟨e, he, hd⟩ := List.mem_flatMap.1 h
  split at hd
  · exact .inl hd
  · next hne =>
    obtain rfl := List.mem_singleton.1 hd
    exact .inr ⟨he, hne⟩

/-- Occurrences of a pattern, found from the left without overlap, replaced by a text. -/
def replaceAll (pattern image : Text) (s : Text) : Text :=
  if pattern = [] then s
  else match _cut : cutAt? pattern s with
    | none => s
    | some (before, after) => before ++ image ++ replaceAll pattern image after
termination_by s.length
decreasing_by
  have := congrArg List.length (eq_append_of_cutAt? _cut)
  have : 0 < pattern.length := List.length_pos_iff.2 ‹_›
  simp_all
  omega

/-- The pieces of a list between the occurrences of a mark. -/
def pieces {α : Type} [DecidableEq α] (c : α) : List α → List (List α)
  | [] => [[]]
  | d :: s =>
    if d = c then [] :: pieces c s
    else match pieces c s with
      | [] => [[d]]
      | p :: ps => (d :: p) :: ps

theorem pieces_ne_nil {α : Type} [DecidableEq α] (c : α) (s : List α) : pieces c s ≠ [] := by
  induction s with
  | nil => simp [pieces]
  | cons d s ih =>
    rw [pieces]
    split
    · simp
    · split <;> simp

theorem pieces_append {α : Type} [DecidableEq α] (c : α) (s t : List α) :
    pieces c (s ++ c :: t) = pieces c s ++ pieces c t := by
  induction s with
  | nil => simp [pieces]
  | cons d s ih =>
    rw [List.cons_append, pieces, pieces]
    split
    · rw [ih, List.cons_append]
    · cases hs : pieces c s with
      | nil => exact absurd hs (pieces_ne_nil c s)
      | cons p ps => rw [ih, hs, List.cons_append, List.cons_append]

theorem pieces_of_not_mem {α : Type} [DecidableEq α] {c : α} {s : List α} (h : c ∉ s) :
    pieces c s = [s] := by
  induction s with
  | nil => rfl
  | cons d s ih =>
    simp only [List.mem_cons, not_or] at h
    rw [pieces, if_neg (Ne.symm h.1), ih h.2]

theorem not_mem_of_mem_pieces {α : Type} [DecidableEq α] {c : α} {s p : List α}
    (h : p ∈ pieces c s) : c ∉ p ∧ p ⊆ s := by
  induction s generalizing p with
  | nil =>
    obtain rfl : p = [] := by simpa [pieces] using h
    simp
  | cons d s ih =>
    rw [pieces] at h
    split at h
    · rcases List.mem_cons.1 h with rfl | h
      · simp
      · exact ⟨(ih h).1, List.subset_cons_of_subset d (ih h).2⟩
    · next hd =>
      obtain ⟨q, qs, hq⟩ := List.exists_cons_of_ne_nil (pieces_ne_nil c s)
      rw [hq] at h
      rcases List.mem_cons.1 h with rfl | h
      · obtain ⟨hnot, hsub⟩ := ih (p := q) (by simp [hq])
        exact ⟨by simp [hnot, Ne.symm hd], List.cons_subset_cons d hsub⟩
      · obtain ⟨hnot, hsub⟩ := ih (p := p) (by simp [hq, h])
        exact ⟨hnot, List.subset_cons_of_subset d hsub⟩

/-- Parts without the mark are found again between its occurrences. -/
theorem pieces_intercalate {α : Type} [DecidableEq α] {c : α} {ts : List (List α)} (hne : ts ≠ [])
    (h : ∀ t ∈ ts, c ∉ t) :
    pieces c (List.intercalate [c] ts) = ts := by
  induction ts with
  | nil => exact absurd rfl hne
  | cons t ts ih =>
    have ht := h t (by simp)
    cases ts with
    | nil => simpa using pieces_of_not_mem ht
    | cons u ts =>
      rw [List.intercalate_cons_cons, List.append_assoc, List.singleton_append, pieces_append,
        pieces_of_not_mem ht, ih (by simp) fun v hv => h v (List.mem_cons_of_mem t hv)]
      rfl

theorem mem_intercalate {α : Type} {c d : α} {ts : List (List α)} (h : d ∈ List.intercalate [c] ts) :
    d = c ∨ ∃ t ∈ ts, d ∈ t := by
  induction ts with
  | nil => simp at h
  | cons t ts ih =>
    cases ts with
    | nil => exact .inr ⟨t, by simp, by simpa using h⟩
    | cons u ts =>
      rw [List.intercalate_cons_cons, List.mem_append, List.mem_append] at h
      rcases h with (h | h) | h
      · exact .inr ⟨t, by simp, h⟩
      · exact .inl (List.mem_singleton.1 h)
      · obtain hd | ⟨v, hv, hd⟩ := ih h
        · exact .inl hd
        · exact .inr ⟨v, List.mem_cons_of_mem t hv, hd⟩

/-- The lines of a text; a final line break opens no further line. -/
def lines (s : Text) : List Text :=
  let all := pieces '\n' s
  if all.getLast? = some [] then all.dropLast else all

/-- Lines joined by line breaks. -/
def unlines (ls : List Text) : Text := List.intercalate ['\n'] ls

@[simp] theorem unlines_nil : unlines [] = [] := rfl

@[simp] theorem unlines_singleton (l : Text) : unlines [l] = l := by
  simp [unlines, List.intercalate]

theorem unlines_cons (l k : Text) (ls : List Text) :
    unlines (l :: k :: ls) = l ++ '\n' :: unlines (k :: ls) := by
  simp [unlines, List.intercalate, List.intersperse]

end Text

end Slideshow
