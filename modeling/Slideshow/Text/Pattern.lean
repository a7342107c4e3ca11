import Slideshow.Text.Basic

/-! # Patterns in a text

A pattern reads a part at the front of a text and can spell what it has read. A text splits into
single characters and the parts found from the left without overlap, and these spell the text.
-/
namespace Slideshow

structure Pattern (α : Type) where
  read? : Text → Option (α × Text)
  spell : α → Text
  spell_ne_nil : ∀ a, spell a ≠ []
  eq_append_of_read? : ∀ {s a rest}, read? s = some (a, rest) → s = spell a ++ rest

namespace Pattern
variable {α : Type} (p : Pattern α)

/-- The characters and parts of a text. -/
def split (s : Text) : List (Char ⊕ α) :=
  match s with
  | [] => []
  | c :: t =>
    match _part : p.read? (c :: t) with
    | some (a, rest) => .inr a :: split rest
    | none => .inl c :: split t
termination_by s.length
decreasing_by
  · have h := congrArg List.length (p.eq_append_of_read? _part)
    have := List.length_pos_iff.2 (p.spell_ne_nil a)
    simp only [List.length_append] at h
    omega
  · simp

/-- A character or part, each part in the form that a function gives it. -/
def image (f : α → Text) : Char ⊕ α → Text
  | .inl c => [c]
  | .inr a => f a

/-- The text with every part replaced. -/
def replace (f : α → Text) (s : Text) : Text := (p.split s).flatMap (image f)

def parts (s : Text) : List α := (p.split s).filterMap Sum.getRight?

def occursIn (s : Text) : Bool := p.parts s ≠ []

theorem replace_spell (s : Text) : p.replace p.spell s = s := by
  unfold replace
  fun_induction p.split s with
  | case1 => rfl
  | case2 c t a rest h ih => simp [image, ih, ← p.eq_append_of_read? h]
  | case3 c t h ih => simp [image, ih]

theorem replace_eq_self {f : α → Text} {s : Text} (h : ∀ a ∈ p.parts s, f a = p.spell a) :
    p.replace f s = s := by
  conv => rhs; rw [← p.replace_spell s]
  unfold replace
  have : ∀ x ∈ p.split s, image f x = image p.spell x := by
    intro x hx
    cases x with
    | inl c => rfl
    | inr a => exact h a (List.mem_filterMap.2 ⟨_, hx, rfl⟩)
  rw [List.flatMap_def, List.flatMap_def, List.map_congr_left this]

theorem replace_of_parts_eq_nil {f : α → Text} {s : Text} (h : p.parts s = []) :
    p.replace f s = s :=
  p.replace_eq_self (by simp [h])

end Pattern

end Slideshow
