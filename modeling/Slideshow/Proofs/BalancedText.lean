import Slideshow.Proofs.ForestSplitting
import Slideshow.Proofs.HiddenNotes
import Slideshow.Proofs.TagDepth

/-!
# Balanced text

A text is balanced if it is the HTML of a forest. What stands before and after a place of a forest is
balanced together with anything balanced between the two, also without the white space around it, but
not alone: if the place is inside elements, their close tags are left behind it.
-/
namespace Slideshow.Forest
open Text Markup Fragment

/-- A text that closes the tags that it opens, and no others. -/
def IsBalanced (s : Text) : Prop := ∃ ns, isWellFormed ns ∧ html ns = s

theorem isBalanced_html {ns : List Node} (h : isWellFormed ns) : IsBalanced (html ns) := ⟨ns, h, rfl⟩

theorem isWellFormed_append {ns ms : List Node} :
    isWellFormed (ns ++ ms) ↔ isWellFormed ns ∧ isWellFormed ms := by
  simp [isWellFormed_iff, or_imp, forall_and]

theorem isWellFormed_cons {n : Node} {ns : List Node} :
    isWellFormed (n :: ns) ↔ n.isWellFormed ∧ isWellFormed ns := by
  simp [isWellFormed]

theorem isWellFormed_element {name attributes : Text} {children : List Node} :
    (Node.element name attributes children).isWellFormed ↔ isName name ∧ isInTag attributes ∧
      isElement name attributes ∧ isWellFormed children := by
  simp [Node.isWellFormed, and_assoc]

theorem IsBalanced.append {s t : Text} (hs : IsBalanced s) (ht : IsBalanced t) :
    IsBalanced (s ++ t) := by
  obtain ⟨ns, hns, rfl⟩ := hs
  obtain ⟨ms, hms, rfl⟩ := ht
  exact ⟨ns ++ ms, isWellFormed_append.2 ⟨hns, hms⟩, html_append ns ms⟩

theorem isBalanced_text {content : Text} (h : '<' ∉ content) : IsBalanced content :=
  ⟨[.text content], by simpa [isWellFormed, Node.isWellFormed] using h, by simp [html, Node.html]⟩

theorem IsBalanced.depthBehind? {s : Text} (h : IsBalanced s) (depth : Nat) :
    depthBehind? depth (tokens s) = some depth := by
  obtain ⟨ns, hns, rfl⟩ := h
  exact depthBehind?_html hns depth

/-- A text is balanced if it is so without the white space around it. -/
theorem isBalanced_of_trim {s : Text} (h : IsBalanced (trim s)) : IsBalanced s := by
  obtain ⟨w, v, hs, hw, hv⟩ := exists_eq_append_trim s
  rw [hs]
  exact ((isBalanced_text (not_mem_of_isAllBlank hw isBlank_bracket)).append h).append
    (isBalanced_text (not_mem_of_isAllBlank hv isBlank_bracket))

/-- A node is text, or it starts and ends with angle brackets. -/
theorem Node.html_cases (n : Node) : (∃ content, n = .text content) ∨
    (∃ u, n.html = '<' :: u) ∧ ∃ u, n.html = u ++ ['>'] := by
  cases n with
  | text content => exact .inl ⟨content, rfl⟩
  | comment body =>
    exact .inr ⟨⟨_, by simp [html, commented]; rfl⟩, "<!--" ++ body ++ "--", by simp [html, commented]⟩
  | void name attributes =>
    exact .inr ⟨⟨_, by simp [html, opened]; rfl⟩, "<" ++ name ++ attributes, by simp [html, opened]⟩
  | element name attributes children =>
    exact .inr ⟨⟨_, by simp [html, opened]; rfl⟩,
      opened name attributes ++ Forest.html children ++ "</" ++ name, by simp [html, closed]⟩

/-- White space at the ends of a forest is text. -/
theorem IsBalanced.trimLeft {s : Text} (h : IsBalanced s) : IsBalanced (Text.trimLeft s) := by
  obtain ⟨ns, h, rfl⟩ := h
  induction ns with
  | nil => exact isBalanced_html h
  | cons n ns ih =>
    obtain ⟨hn, hns⟩ := isWellFormed_cons.1 h
    rw [html, trimLeft_append]
    rcases n.html_cases with ⟨content, rfl⟩ | ⟨⟨u, hu⟩, -⟩
    · have hc : '<' ∉ content := by simpa [Node.isWellFormed] using hn
      split
      · exact ih hns
      · exact (isBalanced_text fun hm => hc ((List.dropWhile_suffix _).subset hm)).append
          (isBalanced_html hns)
    · have hkept : Text.trimLeft n.html = n.html := by
        rw [hu, Text.trimLeft, List.dropWhile_cons, isBlank_bracket]
        rfl
      rw [hkept, if_neg (by simp [hu])]
      exact isBalanced_html h

theorem IsBalanced.trimRight {s : Text} (h : IsBalanced s) : IsBalanced (Text.trimRight s) := by
  obtain ⟨ns, h, rfl⟩ := h
  induction ns with
  | nil => exact isBalanced_html h
  | cons n ns ih =>
    obtain ⟨hn, hns⟩ := isWellFormed_cons.1 h
    have hnode : IsBalanced n.html := ⟨[n], isWellFormed_cons.2 ⟨hn, rfl⟩, by simp [html]⟩
    rw [html, trimRight_append]
    split
    · rcases n.html_cases with ⟨content, rfl⟩ | ⟨-, u, hu⟩
      · have hc : '<' ∉ content := by simpa [Node.isWellFormed] using hn
        exact isBalanced_text fun hm => hc ((trimRight_initial _).subset hm)
      · have hkept : Text.trimRight n.html = n.html := by
          rw [hu, trimRight_bracket]
          rfl
        rwa [hkept]
    · exact hnode.append (ih hns)

theorem IsBalanced.trim {s : Text} (h : IsBalanced s) : IsBalanced (Text.trim s) :=
  h.trimLeft.trimRight

/-- A text behind which a number of elements are open. -/
def Opens (depth : Nat) (inner : Text) : Prop :=
  ∀ start s, depthBehind? start (tokens (inner ++ s)) = depthBehind? (start + depth) (tokens s)

theorem IsBalanced.opens {s : Text} (h : IsBalanced s) : Opens 0 s := by
  obtain ⟨ns, hns, rfl⟩ := h
  exact fun start u => depthBehind?_html_append start u ns hns

theorem Opens.append {k l : Nat} {s t : Text} (hs : Opens k s) (ht : Opens l t) :
    Opens (k + l) (s ++ t) := by
  intro start u
  rw [List.append_assoc, hs, ht, Nat.add_assoc]

theorem opens_opened {name attributes : Text} (hn : isName name) (ha : isInTag attributes)
    (he : isElement name attributes) : Opens 1 (opened name attributes) := by
  intro start u
  rw [tokens_opened hn ha, depthBehind?, if_neg (by simp), depthInside_openTag he]

/-! ## Around a place of a forest -/

/-- The HTML before and after a place of a forest that stands inside some number of elements. -/
inductive Around : Nat → Text → Text → Prop
  | outside {before after : Text} (hbefore : IsBalanced before) (hafter : IsBalanced after) :
    Around 0 before after
  | inside {depth : Nat} {name attributes before after left right : Text} (hn : isName name)
    (ha : isInTag attributes) (he : isElement name attributes) (hleft : IsBalanced left)
    (hright : IsBalanced right) (h : Around depth before after) :
    Around (depth + 1) (left ++ opened name attributes ++ before) (after ++ closed name ++ right)

namespace Around
variable {depth : Nat} {before after : Text}

theorem widen (h : Around depth before after) {left right : Text} (hleft : IsBalanced left)
    (hright : IsBalanced right) : Around depth (left ++ before) (after ++ right) := by
  cases h with
  | outside hbefore hafter => exact .outside (hleft.append hbefore) (hafter.append hright)
  | inside hn ha he hleft' hright' h =>
    simpa using Around.inside hn ha he (hleft.append hleft') (hright'.append hright) h

/-- What is balanced may stand in any place. -/
theorem isBalanced (h : Around depth before after) {s : Text} (hs : IsBalanced s) :
    IsBalanced (before ++ s ++ after) := by
  induction h with
  | outside hbefore hafter => exact (hbefore.append hs).append hafter
  | @inside depth name attributes before after left right hn ha he hleft hright _ ih =>
    obtain ⟨ns, hns, hhtml⟩ := ih
    have helement : IsBalanced (opened name attributes ++ (html ns ++ closed name)) :=
      ⟨[.element name attributes ns],
        isWellFormed_cons.2 ⟨isWellFormed_element.2 ⟨hn, ha, he, hns⟩, rfl⟩, by simp [html, Node.html]⟩
    have := (hleft.append helement).append hright
    simpa [hhtml] using this

private theorem trimLeft_before (h : Around depth before after) :
    Around depth (Text.trimLeft before) after := by
  cases h with
  | outside hbefore hafter => exact .outside hbefore.trimLeft hafter
  | @inside depth name attributes before after left right hn ha he hleft hright h =>
    have hkept : trimLeft (left ++ opened name attributes ++ before) =
        trimLeft left ++ opened name attributes ++ before := by
      simp only [opened, ofString_eq, List.append_assoc]
      exact trimLeft_append_cons isBlank_bracket _ _
    rw [hkept]
    exact .inside hn ha he hleft.trimLeft hright h

private theorem trimRight_before (h : Around depth before after) :
    Around depth (trimRight before) after := by
  induction h with
  | outside hbefore hafter => exact .outside hbefore.trimRight hafter
  | @inside depth name attributes before after left right hn ha he hleft hright _ ih =>
    have hkept : trimRight (left ++ opened name attributes ++ before) =
        left ++ opened name attributes ++ trimRight before := by
      have := trimRight_bracket (left ++ '<' :: (name ++ attributes)) before
      simpa [opened] using this
    rw [hkept]
    exact .inside hn ha he hleft hright ih

private theorem trimLeft_after (h : Around depth before after) :
    Around depth before (trimLeft after) := by
  induction h with
  | outside hbefore hafter => exact .outside hbefore hafter.trimLeft
  | @inside depth name attributes before after left right hn ha he hleft hright _ ih =>
    have hkept : trimLeft (after ++ closed name ++ right) =
        trimLeft after ++ closed name ++ right := by
      simp only [closed_eq, List.append_assoc]
      exact trimLeft_append_cons isBlank_bracket _ _
    rw [hkept]
    exact .inside hn ha he hleft hright ih

private theorem trimRight_after (h : Around depth before after) :
    Around depth before (trimRight after) := by
  cases h with
  | outside hbefore hafter => exact .outside hbefore hafter.trimRight
  | @inside depth name attributes before after left right hn ha he hleft hright h =>
    have hkept : trimRight (after ++ closed name ++ right) =
        after ++ closed name ++ trimRight right := by
      have := trimRight_bracket (after ++ '<' :: '/' :: name) right
      simpa [closed] using this
    rw [hkept]
    exact .inside hn ha he hleft hright.trimRight h

theorem trim (h : Around depth before after) : Around depth (trim before) (trim after) :=
  h.trimLeft_before.trimRight_before.trimLeft_after.trimRight_after

/-- A slide without its heading is balanced. -/
theorem isBalanced_joinContent (h : Around depth before after) :
    IsBalanced (Slide.joinContent before after) := by
  have hbreak : IsBalanced ['\n'] := isBalanced_text (by simp)
  have hnil : IsBalanced [] := isBalanced_text (by simp)
  simp only [Slide.joinContent]
  split
  · next hb => simpa [hb] using h.trim.isBalanced hnil
  split
  · next ha => simpa [ha] using h.trim.isBalanced hnil
  · exact h.trim.isBalanced hbreak

/-- Behind a place the close tags of the elements around it are left. -/
theorem depthBehind?_after (h : Around depth before after) (start : Nat) (s : Text) :
    depthBehind? start (tokens (after ++ s)) =
      if start < depth then none else depthBehind? (start - depth) (tokens s) := by
  induction h generalizing s with
  | outside _ hafter =>
    obtain ⟨ns, hns, rfl⟩ := hafter
    exact depthBehind?_html_append start s ns hns
  | @inside depth name _ _ _ _ right hn _ _ _ hright _ ih =>
    obtain ⟨ns, hns, rfl⟩ := hright
    rw [List.append_assoc, List.append_assoc, ih]
    by_cases hlow : start < depth
    · rw [if_pos hlow, if_pos (by omega)]
    · rw [if_neg hlow, tokens_closed hn, depthBehind?, if_pos (by rfl)]
      by_cases hsame : start - depth = 0
      · rw [if_pos hsame, if_pos (by omega)]
      · rw [if_neg hsame, if_neg (by omega), depthBehind?_html_append _ s ns hns, Nat.sub_sub]

end Around

end Slideshow.Forest
