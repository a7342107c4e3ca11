import Slideshow.Text.Basic

/-! # White space -/
namespace Slideshow.Text

/-- White space of any script. -/
def isBlank (c : Char) : Bool :=
  within [(9, 13), (32, 32), (133, 133), (160, 160), (5760, 5760), (8192, 8202), (8232, 8233),
    (8239, 8239), (8287, 8287), (12288, 12288)] c

def trimLeft (s : Text) : Text := s.dropWhile isBlank

def trimRight (s : Text) : Text := (s.reverse.dropWhile isBlank).reverse

def trim (s : Text) : Text := trimRight (trimLeft s)

theorem trimRight_initial (s : Text) : trimRight s <+: s := by
  simpa [trimRight] using (List.dropWhile_suffix isBlank (l := s.reverse)).reverse

/-- White space in front of a character of another kind. -/
theorem trimLeft_append_cons {c : Char} (hc : isBlank c = false) (s t : Text) :
    trimLeft (s ++ c :: t) = trimLeft s ++ c :: t := by
  induction s with
  | nil => simp [trimLeft, hc]
  | cons d s ih =>
    simp only [trimLeft, List.cons_append, List.dropWhile_cons] at ih ⊢
    split
    · exact ih
    · rfl

theorem trimRight_eq_self {s : Text} (h : s.getLast?.any isBlank = false) : trimRight s = s := by
  rw [trimRight]
  cases hs : s.reverse with
  | nil => exact (List.reverse_eq_nil_iff.1 hs).symm
  | cons c r =>
    have hc : isBlank c = false := by simpa [← List.head?_reverse, hs] using h
    rw [List.dropWhile_cons, if_neg (by simp [hc]), ← hs, List.reverse_reverse]

theorem getLast?_trimRight (s : Text) : (trimRight s).getLast?.any isBlank = false := by
  have h := List.head?_dropWhile_not isBlank s.reverse
  rw [trimRight, List.getLast?_reverse]
  cases hd : (s.reverse.dropWhile isBlank).head? with
  | none => rfl
  | some c => simpa [hd] using h

theorem trimRight_concat {c : Char} (h : isBlank c) (s : Text) :
    trimRight (s ++ [c]) = trimRight s := by
  simp [trimRight, h]

theorem trimRight_cons (c : Char) (s : Text) :
    trimRight (c :: s) = if trimRight s = [] ∧ isBlank c then [] else c :: trimRight s := by
  rw [trimRight, trimRight, List.reverse_cons, List.dropWhile_append]
  cases hs : s.reverse.dropWhile isBlank with
  | nil => by_cases hc : isBlank c <;> simp [hc]
  | cons d r => simp

theorem trimLeft_append (s t : Text) :
    trimLeft (s ++ t) = if trimLeft s = [] then trimLeft t else trimLeft s ++ t := by
  by_cases h : s.dropWhile isBlank = [] <;> simp [trimLeft, List.dropWhile_append, h]

theorem trimRight_append (s t : Text) :
    trimRight (s ++ t) = if trimRight t = [] then trimRight s else s ++ trimRight t := by
  by_cases h : t.reverse.dropWhile isBlank = [] <;>
    simp [trimRight, List.dropWhile_append, h]

/-- White space behind a closing bracket. -/
theorem trimRight_bracket (s t : Text) : trimRight (s ++ '>' :: t) = s ++ '>' :: trimRight t := by
  have hbracket : isBlank '>' = false := by decide
  induction s with
  | nil => simp [trimRight_cons, hbracket]
  | cons c s ih => simp [trimRight_cons, ih]

/-- Nothing but white space. -/
def isAllBlank (s : Text) : Bool := s.all isBlank

theorem not_mem_of_isAllBlank {w : Text} (h : isAllBlank w) {c : Char} (hc : isBlank c = false) :
    c ∉ w := fun hm => Bool.eq_false_iff.1 hc (List.all_eq_true.1 h c hm)

theorem trim_blank_append {w : Text} (h : isAllBlank w) (s : Text) : trim (w ++ s) = trim s := by
  rw [trim, trim, trimLeft, List.dropWhile_append_of_pos (List.all_eq_true.1 h)]
  rfl

theorem trimLeft_eq_nil {w : Text} (h : isAllBlank w) : trimLeft w = [] := by
  rw [trimLeft, ← List.append_nil w, List.dropWhile_append_of_pos (List.all_eq_true.1 h)]
  rfl

theorem trimRight_eq_nil {w : Text} (h : isAllBlank w) : trimRight w = [] := by
  have hreverse : isAllBlank w.reverse := by simpa [isAllBlank] using h
  rw [trimRight, List.reverse_eq_nil_iff]
  exact trimLeft_eq_nil hreverse

theorem trimRight_append_blank {w : Text} (h : isAllBlank w) (s : Text) :
    trimRight (s ++ w) = trimRight s := by
  rw [trimRight_append, if_pos (trimRight_eq_nil h)]

theorem trim_append_blank {w : Text} (h : isAllBlank w) (s : Text) : trim (s ++ w) = trim s := by
  rw [trim, trim, trimLeft_append]
  split
  · next hs => rw [hs, trimLeft_eq_nil h]
  · rw [trimRight_append_blank h]

theorem exists_eq_append_trimRight (s : Text) : ∃ v, s = trimRight s ++ v ∧ isAllBlank v := by
  refine ⟨(s.reverse.takeWhile isBlank).reverse, ?_, by simp [isAllBlank]⟩
  have hright := congrArg List.reverse
    (List.takeWhile_append_dropWhile (l := s.reverse) (p := isBlank))
  simp only [List.reverse_append, List.reverse_reverse] at hright
  exact hright.symm

/-- What is trimmed off is white space. -/
theorem exists_eq_append_trim (s : Text) :
    ∃ w v, s = w ++ trim s ++ v ∧ isAllBlank w ∧ isAllBlank v := by
  obtain ⟨v, hright, hv⟩ := exists_eq_append_trimRight (trimLeft s)
  refine ⟨s.takeWhile isBlank, v, ?_, List.all_takeWhile, hv⟩
  rw [List.append_assoc, trim, ← hright, trimLeft, List.takeWhile_append_dropWhile]

theorem trim_trim (s : Text) : trim (trim s) = trim s := by
  obtain ⟨w, v, hs, hw, hv⟩ := exists_eq_append_trim s
  conv => rhs; rw [hs, trim_append_blank hv, trim_blank_append hw]

/-- The maximal runs of characters that are no white space. -/
def words (s : Text) : List Text :=
  match _start : s.dropWhile isBlank with
  | [] => []
  | c :: rest =>
    (c :: rest.takeWhile (!isBlank ·)) :: words (rest.dropWhile (!isBlank ·))
termination_by s.length
decreasing_by
  have h : (s.dropWhile isBlank).length ≤ s.length := (List.dropWhile_suffix _).length_le
  have h' : (rest.dropWhile (!isBlank ·)).length ≤ rest.length :=
    (List.dropWhile_suffix _).length_le
  rw [_start, List.length_cons] at h
  omega

end Slideshow.Text
