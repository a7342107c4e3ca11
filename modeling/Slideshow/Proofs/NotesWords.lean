import Slideshow.Markup.Heading
import Slideshow.Proofs.CharacterClasses

/-!
# Words that announce presenter notes

A heading announces presenter notes if its two words are "presenter" and "notes", in any case.
The reader finds them letter by letter; here its reading is compared with the words of the text.
-/
namespace Slideshow.Markup
open Text

/-- The words of a text are "presenter" and "notes", in any case. -/
def announcesNotes (t : Text) : Bool :=
  match words t with
  | [a, b] => dropWord? "presenter" a = some [] && dropWord? "notes" b = some []
  | _ => false

/-! ## A word at the front of a text -/

/-- A small letter in any case is a letter, or the long s. -/
private theorem of_isCaseOf {letter c : Char} (hl : letter.isLower) (h : isCaseOf letter c) :
    c.isAlphanum ∨ c = 'ſ' := by
  simp only [isCaseOf, Bool.or_eq_true, decide_eq_true_eq, Bool.and_eq_true] at h
  rcases h with h | h
  · left
    cases hu : c.isUpper with
    | true => simp [Char.isAlphanum, Char.isAlpha, hu]
    | false =>
      rw [toLower_of_not_isUpper hu] at h
      simp [Char.isAlphanum, Char.isAlpha, h, hl]
  · exact Or.inr h.2

theorem not_isBlank_of_isCaseOf {letter c : Char} (hl : letter.isLower) (h : isCaseOf letter c) :
    isBlank c = false := by
  rcases of_isCaseOf hl h with h | rfl
  · exact isBlank_of_isAlphanum h
  · decide

private theorem not_isCaseOf_bracket {letter : Char} (hl : letter.isLower) :
    isCaseOf letter '<' = false := by
  cases h : isCaseOf letter '<' with
  | false => rfl
  | true => rcases of_isCaseOf hl h with h | h <;> simp at h

theorem dropWord?_append {word a rest : Text} (h : dropWord? word a = some rest) (s : Text) :
    dropWord? word (a ++ s) = some (rest ++ s) := by
  induction word generalizing a with
  | nil => simpa [dropWord?] using h
  | cons letter word ih =>
    cases a with
    | nil => simp [dropWord?] at h
    | cons c a =>
      simp only [dropWord?] at h
      split at h
      · next hc => simpa [dropWord?, hc] using ih h
      · simp at h

/-- A word at the front is a part of the text that is spelled out. -/
theorem eq_append_of_dropWord? {word s rest : Text} (h : dropWord? word s = some rest) :
    ∃ a, s = a ++ rest ∧ dropWord? word a = some [] := by
  induction word generalizing s with
  | nil =>
    refine ⟨[], ?_, rfl⟩
    simpa [dropWord?] using h
  | cons letter word ih =>
    cases s with
    | nil => simp [dropWord?] at h
    | cons c s =>
      simp only [dropWord?] at h
      split at h
      · next hc =>
        obtain ⟨a, rfl, ha⟩ := ih h
        exact ⟨c :: a, rfl, by simp [dropWord?, hc, ha]⟩
      · simp at h

/-- A spelled word holds letters of the word in any case. -/
theorem isCaseOf_of_dropWord? {word a : Text} (h : dropWord? word a = some []) :
    ∀ c ∈ a, ∃ letter ∈ word, isCaseOf letter c := by
  induction word generalizing a with
  | nil =>
    obtain rfl : a = [] := by simpa [dropWord?] using h
    simp
  | cons letter word ih =>
    cases a with
    | nil => simp
    | cons c a =>
      simp only [dropWord?] at h
      split at h
      · next hc =>
        intro d hd
        rcases List.mem_cons.1 hd with rfl | hd
        · exact ⟨letter, by simp, hc⟩
        · obtain ⟨e, he, hcase⟩ := ih h d hd
          exact ⟨e, by simp [he], hcase⟩
      · simp at h

/-- A spelled word holds no white space. -/
theorem not_isBlank_of_dropWord? {word a : Text} (hw : ∀ c ∈ word, c.isLower)
    (h : dropWord? word a = some []) : ∀ c ∈ a, isBlank c = false := by
  intro c hc
  obtain ⟨letter, hletter, hcase⟩ := isCaseOf_of_dropWord? h c hc
  exact not_isBlank_of_isCaseOf (hw letter hletter) hcase

/-- A word is not continued behind a character that is none of its letters. -/
theorem dropWord?_stop {word : Text} {x : Char} (hx : ∀ c ∈ word, isCaseOf c x = false)
    (t u : Text) : dropWord? word (t ++ x :: u) = (dropWord? word t).map (· ++ x :: u) := by
  induction word generalizing t with
  | nil => rfl
  | cons letter word ih =>
    cases t with
    | nil => simp [dropWord?, hx letter (by simp)]
    | cons c t =>
      have hi := ih (fun d hd => hx d (by simp [hd])) t
      by_cases hc : isCaseOf letter c
      · simpa [dropWord?, hc] using hi
      · simp [dropWord?, hc]

private theorem dropWord?_bracket {word : Text} (hw : ∀ c ∈ word, c.isLower) (t u : Text) :
    dropWord? word (t ++ '<' :: u) = (dropWord? word t).map (· ++ '<' :: u) :=
  dropWord?_stop (fun c hc => not_isCaseOf_bracket (hw c hc)) t u

/-! ## The words of a text -/

/-- A run of characters that are no white space, up to white space, is the first word. -/
theorem words_of_trimLeft {s a rest : Text} (h : trimLeft s = a ++ rest) (ha : a ≠ [])
    (hall : ∀ c ∈ a, isBlank c = false) (hrest : rest.head?.all isBlank) :
    words s = a :: words rest := by
  cases a with
  | nil => exact absurd rfl ha
  | cons c a =>
    have hword : ∀ d ∈ a, (!isBlank d) = true := by
      intro d hd
      simp [hall d (by simp [hd])]
    have hstop : rest.head?.any (!isBlank ·) = false := by
      cases rest with
      | nil => rfl
      | cons d rest =>
        have hd : isBlank d = true := by simpa using hrest
        simp [hd]
    rw [words]
    split
    · next hs => simp [trimLeft, hs] at h
    · next d t hs =>
      rw [trimLeft, hs, List.cons_append] at h
      obtain ⟨rfl, rfl⟩ := List.cons.inj h
      rw [takeWhile_run hword hstop, dropWhile_run hword hstop]

/-- The first word stands behind white space and ends at white space. -/
theorem trimLeft_of_words {s a : Text} {as : List Text} (h : words s = a :: as) :
    ∃ rest, trimLeft s = a ++ rest ∧ rest.head?.all isBlank ∧ words rest = as := by
  rw [words] at h
  split at h
  · simp at h
  · next c t hs =>
    obtain ⟨rfl, rfl⟩ := List.cons.inj h
    refine ⟨t.dropWhile (!isBlank ·), ?_, ?_, rfl⟩
    · simp [trimLeft, hs]
    · cases hd : t.dropWhile (!isBlank ·) with
      | nil => rfl
      | cons d u =>
        have := List.head?_dropWhile_not (!isBlank ·) t
        simpa [hd] using this

theorem words_eq_nil_iff {s : Text} : words s = [] ↔ trimLeft s = [] := by
  constructor
  · intro h
    rw [words] at h
    split at h
    · next hs => exact hs
    · simp at h
  · intro h
    rw [words]
    split
    · rfl
    · next hs => simp [trimLeft, hs] at h

/-- A character is white space or stands in a word. -/
theorem isBlank_or_mem_words {s : Text} {c : Char} (h : c ∈ s) :
    isBlank c ∨ ∃ w ∈ words s, c ∈ w := by
  fun_induction words s with
  | case1 s hs => exact .inl (List.dropWhile_eq_nil_iff.1 hs c h)
  | case2 s d rest hs ih =>
    have hfront := List.takeWhile_append_dropWhile (l := s) (p := isBlank)
    have hrest := List.takeWhile_append_dropWhile (l := rest) (p := (!isBlank ·))
    rw [hs] at hfront
    rw [← hfront, List.mem_append, List.mem_cons] at h
    rcases h with h | rfl | h
    · exact .inl (List.all_eq_true.1 List.all_takeWhile c h)
    · exact .inr ⟨_, List.mem_cons_self, by simp⟩
    · rw [← hrest, List.mem_append] at h
      rcases h with h | h
      · exact .inr ⟨_, List.mem_cons_self, List.mem_cons_of_mem d h⟩
      · exact (ih h).imp_right fun ⟨w, hw, hc⟩ => ⟨w, List.mem_cons_of_mem _ hw, hc⟩

/-! ## The two readings compared -/

private theorem notesLetters :
    (∀ c ∈ ("presenter" : Text), c.isLower) ∧ ∀ c ∈ ("notes" : Text), c.isLower :=
  ⟨List.all_eq_true.1 (by cbv), List.all_eq_true.1 (by cbv)⟩

/-- A word that is read up to white space is the first word. -/
private theorem words_of_dropWord? {word s rest : Text} (hw : ∀ c ∈ word, c.isLower)
    (hne : word ≠ []) (h : dropWord? word (trimLeft s) = some rest)
    (hrest : rest.head?.all isBlank) :
    ∃ a, words s = a :: words rest ∧ dropWord? word a = some [] := by
  obtain ⟨a, hs, ha⟩ := eq_append_of_dropWord? h
  have hane : a ≠ [] := by
    rintro rfl
    cases word with
    | nil => exact hne rfl
    | cons c word => simp [dropWord?] at ha
  exact ⟨a, words_of_trimLeft hs hane (not_isBlank_of_dropWord? hw ha) hrest, ha⟩

/-- Nothing but letters and white space announces notes. -/
theorem of_mem_announcesNotes {t : Text} (h : announcesNotes t) {c : Char} (hc : c ∈ t) :
    isBlank c ∨ c.isAlphanum ∨ c = 'ſ' := by
  obtain ⟨hp, hn⟩ := notesLetters
  unfold announcesNotes at h
  split at h
  · next a b hwords =>
    simp only [Bool.and_eq_true, decide_eq_true_eq] at h
    refine (isBlank_or_mem_words hc).imp_right ?_
    rintro ⟨w, hw, hcw⟩
    rw [hwords] at hw
    simp only [List.mem_cons, List.not_mem_nil, or_false] at hw
    rcases hw with rfl | rfl
    · obtain ⟨letter, hletter, hcase⟩ := isCaseOf_of_dropWord? h.1 c hcw
      exact of_isCaseOf (hp letter hletter) hcase
    · obtain ⟨letter, hletter, hcase⟩ := isCaseOf_of_dropWord? h.2 c hcw
      exact of_isCaseOf (hn letter hletter) hcase
  · simp at h

private theorem head_of_trimLeft {s : Text} (h : trimLeft s = []) : s.head?.all isBlank := by
  cases s with
  | nil => rfl
  | cons c s =>
    simp only [trimLeft, List.dropWhile_cons] at h
    split at h
    · next hc => simpa using hc
    · simp at h

theorem afterNotesWords?_eq_nil_iff (t : Text) :
    afterNotesWords? t = some [] ↔ announcesNotes t := by
  obtain ⟨hp, hn⟩ := notesLetters
  constructor
  · intro h
    simp only [afterNotesWords?, Option.bind_eq_bind, Option.bind_eq_some_iff] at h
    obtain ⟨r, hr, h⟩ := h
    split at h
    · next hb =>
      obtain ⟨r', hr', hq⟩ := Option.map_eq_some_iff.1 h
      have hrb : r.head?.all isBlank := by
        cases r with
        | nil => rfl
        | cons c r => simpa using hb
      obtain ⟨a, hwords, ha⟩ := words_of_dropWord? hp (by simp) hr hrb
      obtain ⟨b, hwords', hb'⟩ := words_of_dropWord? hn (by simp) hr' (head_of_trimLeft hq)
      have hnil : words r' = [] := words_eq_nil_iff.2 hq
      simp only [announcesNotes, hwords, hwords', hnil, ha, hb', decide_true, Bool.and_self]
    · simp at h
  · intro h
    simp only [announcesNotes] at h
    split at h
    · next a b hwords =>
      simp only [Bool.and_eq_true, decide_eq_true_eq] at h
      obtain ⟨r, hr, hrb, hwords'⟩ := trimLeft_of_words hwords
      obtain ⟨r', hr', -, hnil⟩ := trimLeft_of_words hwords'
      have hrany : r.head?.any isBlank = true := by
        cases r with
        | nil => simp [words] at hwords'
        | cons c r => simpa using hrb
      have hfirst := dropWord?_append h.1 r
      have hsecond := dropWord?_append h.2 r'
      have hend : trimLeft r' = [] := words_eq_nil_iff.1 hnil
      simp only [List.nil_append] at hfirst hsecond
      simp only [afterNotesWords?, hr, hr', hfirst, hsecond, hrany, hend, Option.bind_eq_bind,
        Option.bind_some, if_true, Option.map_some]
    · simp at h

/-- Behind text with no angle bracket, the words are those of the text. -/
private theorem afterNotesWords?_bracket (t u : Text) :
    afterNotesWords? (t ++ '<' :: u) = (afterNotesWords? t).map (· ++ '<' :: u) := by
  obtain ⟨hp, hn⟩ := notesLetters
  simp only [afterNotesWords?, trimLeft_append_cons isBlank_bracket, dropWord?_bracket hp,
    Option.bind_eq_bind]
  cases dropWord? "presenter" (trimLeft t) with
  | none => rfl
  | some r =>
    have hhead : (r ++ '<' :: u).head?.any isBlank = r.head?.any isBlank := by
      cases r with
      | nil => simp [isBlank_bracket]
      | cons c r => rfl
    simp only [Option.map_some, Option.bind_some, hhead, trimLeft_append_cons isBlank_bracket,
      dropWord?_bracket hn]
    cases r.head?.any isBlank with
    | false => rfl
    | true =>
      cases dropWord? "notes" (trimLeft r) with
      | none => rfl
      | some r' => simp [trimLeft_append_cons isBlank_bracket]

theorem suffix_of_afterNotesWords? {t r : Text} (h : afterNotesWords? t = some r) : r <:+ t := by
  simp only [afterNotesWords?, Option.bind_eq_bind, Option.bind_eq_some_iff] at h
  obtain ⟨u, hu, h⟩ := h
  split at h
  · obtain ⟨v, hv, rfl⟩ := Option.map_eq_some_iff.1 h
    obtain ⟨a, ha, -⟩ := eq_append_of_dropWord? hu
    obtain ⟨b, hb, -⟩ := eq_append_of_dropWord? hv
    have hu' : u <:+ t := (List.suffix_append a u).trans (ha ▸ List.dropWhile_suffix isBlank)
    have hv' : v <:+ u := (List.suffix_append b v).trans (hb ▸ List.dropWhile_suffix isBlank)
    exact ((List.dropWhile_suffix isBlank).trans hv').trans hu'
  · simp at h

theorem mem_of_afterNotesWords? {t r : Text} (h : afterNotesWords? t = some r) : r ⊆ t :=
  (suffix_of_afterNotesWords? h).subset

/-- Only letters have more than one case. -/
theorem not_isCaseOf {a c : Char} (ha : a.isLower = false) (hc : c ≠ a) : isCaseOf a c = false := by
  have hs : a ≠ 's' := by
    rintro rfl
    simp at ha
  have hl : c.toLower ≠ a := fun h => hc (eq_of_toLower_eq h ha)
  simp [isCaseOf, hs, hl]

/-- A close tag behind text with no angle bracket ends a notes heading if the text announces
notes. -/
theorem closing_after_notesWords {t : Text} (ht : '<' ∉ t) (u : Text) :
    (afterNotesWords? (t ++ '<' :: u)).bind (dropWord? "</h") =
      if announcesNotes t then dropWord? "</h" ('<' :: u) else none := by
  rw [afterNotesWords?_bracket]
  cases h : afterNotesWords? t with
  | none =>
    have hno : announcesNotes t = false := by
      simpa [h] using (afterNotesWords?_eq_nil_iff t).symm
    simp [hno]
  | some r =>
    cases r with
    | nil => simp [(afterNotesWords?_eq_nil_iff t).1 h]
    | cons c r =>
      have hno : announcesNotes t = false := by
        simpa [h] using (afterNotesWords?_eq_nil_iff t).symm
      have hc : c ≠ '<' := by
        rintro rfl
        exact ht (mem_of_afterNotesWords? h (by simp))
      simp [hno, dropWord?, not_isCaseOf (by decide) hc]

/-! ## A notes heading and the text behind it -/

/-- What follows the words and the close tag of a notes heading. -/
def afterNotes? (s : Text) : Option Text := do
  let s ← afterNotesWords? s
  match ← dropWord? "</h" s with
  | d :: '>' :: rest => (headingDigit? d).map fun _ => rest
  | _ => none

/-- The front of an open tag up to its bracket is that of a heading. -/
def startsHeading (u : Text) : Bool :=
  (dropWord? "<h" u).any fun v => v.head?.any fun d => (headingDigit? d).isSome

theorem notesHeading?_tag {u : Text} (hu : '>' ∉ u) (s : Text) :
    notesHeading? (u ++ '>' :: s) = if startsHeading u then afterNotes? s else none := by
  have hword : ∀ c ∈ ("<h" : Text), isCaseOf c '>' = false := by
    simpa using ⟨by decide, by decide⟩
  have hstop := dropWord?_stop hword u s
  cases hv : dropWord? "<h" u with
  | none =>
    rw [hv, Option.map_none] at hstop
    simp only [notesHeading?, hstop, startsHeading, hv]
    rfl
  | some v =>
    rw [hv, Option.map_some] at hstop
    cases v with
    | nil =>
      simp only [notesHeading?, hstop, startsHeading, hv]
      rfl
    | cons d v =>
      obtain ⟨a, rfl, -⟩ := eq_append_of_dropWord? hv
      have hdrop : (v ++ '>' :: s).dropWhile (· ≠ '>') = '>' :: s := by
        refine dropWhile_run (fun c hc => ?_) (by simp)
        simpa using fun he : c = '>' => hu (by subst he; simp [hc])
      have hclose : dropAffix? ">" ('>' :: s) = some s := by simp [dropAffix?]
      simp only [notesHeading?, hstop, startsHeading, hv, Option.bind_eq_bind, Option.bind_some,
        List.cons_append, hdrop, hclose, Option.any_some, List.head?_cons]
      cases headingDigit? d <;> rfl

/-- A close tag is its bracket, its slash and its letter. -/
private theorem dropWord?_closing {v w : Text} : dropWord? "</h" v = some w ↔
    ∃ h, v = '<' :: '/' :: h :: w ∧ isCaseOf 'h' h := by
  constructor
  · intro hv
    obtain ⟨a, rfl, ha⟩ := eq_append_of_dropWord? hv
    rcases a with _ | ⟨x, _ | ⟨y, _ | ⟨h, a⟩⟩⟩
    · simp [dropWord?] at ha
    · simp [dropWord?] at ha
    · simp [dropWord?] at ha
    · obtain ⟨hx, hy, hh, rfl⟩ :
          isCaseOf '<' x ∧ isCaseOf '/' y ∧ isCaseOf 'h' h ∧ a = [] := by simpa [dropWord?] using ha
      have hbracket : x = '<' := by
        by_contra hne
        simp [not_isCaseOf (a := '<') (by decide) hne] at hx
      have hslash : y = '/' := by
        by_contra hne
        simp [not_isCaseOf (a := '/') (by decide) hne] at hy
      exact ⟨h, by simp [hbracket, hslash], hh⟩
  · rintro ⟨h, rfl, hh⟩
    simp [dropWord?, hh, show isCaseOf '<' '<' by decide, show isCaseOf '/' '/' by decide]

theorem afterNotes?_eq_some_iff {s rest : Text} : afterNotes? s = some rest ↔
    ∃ t h d, s = t ++ ['<', '/', h, d, '>'] ++ rest ∧ announcesNotes t ∧ isCaseOf 'h' h ∧
      (headingDigit? d).isSome := by
  simp only [afterNotes?, Option.bind_eq_bind, Option.bind_eq_some_iff, dropWord?_closing]
  constructor
  · rintro ⟨v, hv, w, ⟨h, rfl, hh⟩, hw⟩
    split at hw
    · next d r =>
      obtain ⟨n, hd, rfl⟩ := Option.map_eq_some_iff.1 hw
      obtain ⟨t, rfl⟩ := suffix_of_afterNotesWords? hv
      rw [afterNotesWords?_bracket] at hv
      obtain ⟨x, hx, hnil⟩ := Option.map_eq_some_iff.1 hv
      obtain rfl : x = [] := by simpa using hnil
      exact ⟨t, h, d, by simp, (afterNotesWords?_eq_nil_iff t).1 hx, hh, by simp [hd]⟩
    · simp at hw
  · rintro ⟨t, h, d, rfl, ht, hh, hd⟩
    refine ⟨'<' :: '/' :: h :: d :: '>' :: rest, ?_, d :: '>' :: rest, ⟨h, rfl, hh⟩, ?_⟩
    · rw [List.append_assoc, List.cons_append, afterNotesWords?_bracket,
        (afterNotesWords?_eq_nil_iff t).2 ht]
      rfl
    · obtain ⟨n, hn⟩ := Option.isSome_iff_exists.1 hd
      simp [hn]

/-- A notes heading holds one bracket of each kind behind its open tag, and what follows the second
one does not matter. -/
theorem exists_of_afterNotes? {s rest : Text} (h : afterNotes? s = some rest) :
    ∃ w n d, s = w ++ ['<', '/', n, d] ++ '>' :: rest ∧ '<' ∉ w ∧ '<' ∉ ['/', n, d] ∧
      '>' ∉ w ++ ['<', '/', n, d] ∧ ∀ r, afterNotes? (w ++ ['<', '/', n, d] ++ '>' :: r) = some r := by
  obtain ⟨w, n, d, rfl, hw, hn, hd⟩ := afterNotes?_eq_some_iff.1 h
  have hbracket : ∀ c, c = '<' ∨ c = '>' → c ∉ w ∧ c ≠ n ∧ c ≠ d := by
    intro c hc
    have hno : isBlank c = false ∧ c.isAlphanum = false ∧ c ≠ 'ſ' ∧ isCaseOf 'h' c = false ∧
        headingDigit? c = none := by
      rcases hc with rfl | rfl <;> decide
    refine ⟨fun hm => ?_, ?_, ?_⟩
    · rcases of_mem_announcesNotes hw hm with hb | hb | hb <;> simp [hno, hb] at hb hno
    · rintro rfl
      simp [hno] at hn
    · rintro rfl
      simp [hno] at hd
  obtain ⟨hopen, hopen', hopen''⟩ := hbracket '<' (.inl rfl)
  obtain ⟨hclose, hclose', hclose''⟩ := hbracket '>' (.inr rfl)
  exact ⟨w, n, d, by simp, hopen, by simp [hopen', hopen''], by simp [hclose, hclose', hclose''],
    fun r => afterNotes?_eq_some_iff.2 ⟨w, n, d, by simp, hw, hn, hd⟩⟩

/-- Behind white space there is nothing, or a bracket that opens no close tag. -/
def ClosesNothing (r : Text) : Prop :=
  trimLeft r = [] ∨ ∃ c s, trimLeft r = '<' :: c :: s ∧ c ≠ '/'

theorem ClosesNothing.of_append {x y : Text} (h : ClosesNothing (x ++ y)) (hx : '<' ∉ x) :
    ClosesNothing y := by
  induction x with
  | nil => exact h
  | cons c x ih =>
    simp only [List.mem_cons, not_or] at hx
    by_cases hc : isBlank c
    · exact ih (by simpa [ClosesNothing, trimLeft, hc] using h) hx.2
    · simp [ClosesNothing, trimLeft, hc, Ne.symm hx.1] at h

/-- Whether a heading announces notes is decided by its close tag, so not by a text that starts
with none. -/
theorem isSome_afterNotes?_append {r : Text} (hr : ClosesNothing r) (s : Text) :
    (afterNotes? (s ++ r)).isSome = (afterNotes? s).isSome := by
  rw [Bool.eq_iff_iff]
  simp only [Option.isSome_iff_exists, afterNotes?_eq_some_iff]
  constructor
  · rintro ⟨rest, t, h, d, he, ht, hh, hd⟩
    have hbracket : '<' ∉ t := by
      intro hm
      obtain ⟨u, v, rfl⟩ := List.append_of_mem hm
      have hnil := (afterNotesWords?_eq_nil_iff _).2 ht
      rw [afterNotesWords?_bracket] at hnil
      obtain ⟨x, -, hx⟩ := Option.map_eq_some_iff.1 hnil
      simp at hx
    have htag : '<' ∉ ['/', h, d, '>'] := by
      have hne : '<' ≠ h ∧ '<' ≠ d := by
        refine ⟨?_, ?_⟩
        · rintro rfl
          simp [show isCaseOf 'h' '<' = false by decide] at hh
        · rintro rfl
          simp [show headingDigit? '<' = none by decide] at hd
      simp [hne]
    have hclose : ∀ {m}, ClosesNothing (m ++ ['<', '/', h, d, '>'] ++ rest) → '<' ∈ m := by
      intro m hm
      by_contra hno
      have hend := (List.append_assoc m _ _ ▸ hm).of_append hno
      simp [ClosesNothing, trimLeft, isBlank_bracket] at hend
    rcases List.append_eq_append_iff.1 he with ⟨m, hm, rfl⟩ | ⟨m, rfl, -⟩
    · -- Otherwise the close tag would start or end in the text behind.
      rcases List.append_eq_append_iff.1 hm with ⟨x, rfl, hx⟩ | ⟨x, rfl, rfl⟩
      · rcases x with _ | ⟨c, x⟩
        · subst hx
          simpa using hclose (m := []) hr
        · obtain ⟨rfl, htail⟩ : '<' = c ∧ ['/', h, d, '>'] = x ++ m := by simpa using hx
          rcases List.eq_nil_or_concat m with rfl | ⟨m, c, rfl⟩
          · exact ⟨[], t, h, d, by simp [htail], ht, hh, hd⟩
          · rw [List.concat_eq_append, ← List.append_assoc] at htail
            have hsplit : ['/', h, d] ++ ['>'] = x ++ m ++ [c] := htail
            obtain rfl : '>' = c := by simpa using (List.append_inj' hsplit rfl).2
            rw [htail] at htag
            simp only [List.mem_append, not_or] at htag
            rw [List.concat_eq_append, List.append_assoc] at hr
            have hend := hr.of_append htag.1.2
            simp [ClosesNothing, trimLeft, show isBlank '>' = false by decide] at hend
      · simp only [List.mem_append, not_or] at hbracket
        exact absurd (hclose hr) hbracket.2
    · exact ⟨m, t, h, d, rfl, ht, hh, hd⟩
  · rintro ⟨rest, t, h, d, rfl, ht, hh, hd⟩
    exact ⟨rest ++ r, t, h, d, by simp, ht, hh, hd⟩

theorem isSome_notesHeading?_append {u r : Text} (hu : '>' ∉ u) (hr : ClosesNothing r) (s : Text) :
    (notesHeading? (u ++ '>' :: (s ++ r))).isSome = (notesHeading? (u ++ '>' :: s)).isSome := by
  rw [notesHeading?_tag hu, notesHeading?_tag hu]
  split
  · exact isSome_afterNotes?_append hr s
  · rfl

end Slideshow.Markup
