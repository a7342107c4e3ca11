import Slideshow.Text.Basic

/-! # Escaped text

Characters that would be read as markup are written as entities. Text and attribute values differ
only in the double quote, which an attribute value may not hold.
-/
namespace Slideshow.Text

def escapedChar (c : Char) : Text :=
  match c with
  | '&' => "&amp;"
  | '<' => "&lt;"
  | '>' => "&gt;"
  | c => [c]

/-- Text between tags. -/
def escaped (s : Text) : Text := s.flatMap escapedChar

/-- Text between double quotes inside a tag. -/
def escapedAttribute (s : Text) : Text :=
  s.flatMap fun c => if c = '"' then "&quot;" else escapedChar c

@[simp] theorem escaped_nil : escaped [] = [] := rfl

@[simp] theorem escaped_cons (c : Char) (s : Text) :
    escaped (c :: s) = escapedChar c ++ escaped s := rfl

theorem escaped_append (s t : Text) : escaped (s ++ t) = escaped s ++ escaped t :=
  List.flatMap_append ..

theorem escapedAttribute_append (s t : Text) :
    escapedAttribute (s ++ t) = escapedAttribute s ++ escapedAttribute t :=
  List.flatMap_append ..

private theorem mem_escapedChar {c d : Char} (h : d ∈ escapedChar c) : d ≠ '<' ∧ d ≠ '>' := by
  unfold escapedChar at h
  split at h
  · simp at h
    rcases h with rfl | rfl | rfl | rfl | rfl <;> decide
  · simp at h
    rcases h with rfl | rfl | rfl | rfl <;> decide
  · simp at h
    rcases h with rfl | rfl | rfl | rfl <;> decide
  · next hlt hgt =>
    obtain rfl := List.mem_singleton.1 h
    exact ⟨hlt, hgt⟩

/-- Escaped text opens and closes no tag. -/
theorem mem_escaped {s : Text} {d : Char} (h : d ∈ escaped s) : d ≠ '<' ∧ d ≠ '>' := by
  obtain ⟨c, -, hc⟩ := List.mem_flatMap.1 h
  exact mem_escapedChar hc

/-- Text in which nothing was escaped is left as it is. -/
theorem escaped_eq_self {s : Text} (h : '&' ∉ escaped s) : escaped s = s := by
  induction s with
  | nil => rfl
  | cons c s ih =>
    simp only [escaped_cons, List.mem_append, not_or] at h
    have hc : escapedChar c = [c] := by
      have hno := h.1
      unfold escapedChar at hno ⊢
      split at hno <;> simp at hno ⊢
    rw [escaped_cons, hc, ih h.2]
    rfl

/-- An escaped attribute value ends neither its tag nor itself. -/
theorem mem_escapedAttribute {s : Text} {d : Char} (h : d ∈ escapedAttribute s) :
    d ≠ '"' ∧ d ≠ '<' ∧ d ≠ '>' := by
  obtain ⟨c, -, hc⟩ := List.mem_flatMap.1 h
  split at hc
  · simp at hc
    rcases hc with rfl | rfl | rfl | rfl | rfl | rfl <;> decide
  · next hquote =>
    refine ⟨?_, mem_escapedChar hc⟩
    rintro rfl
    unfold escapedChar at hc
    split at hc
    · simp at hc
    · simp at hc
    · simp at hc
    · exact hquote (List.mem_singleton.1 hc).symm

end Slideshow.Text
