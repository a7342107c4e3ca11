import Slideshow.Proofs.QuotedForest

/-!
# The text that HTML shows

A reader of HTML sees the text between the tags, with entities for the characters they stand for. A
forest of escaped text shows the texts that were escaped.
-/
namespace Slideshow.Markup
open Text

/-- The text outside all tags; `inside` says that a tag is open. -/
def withoutTags (inside : Bool) : Text → Text
  | [] => []
  | c :: s =>
    if inside then withoutTags (c ≠ '>') s
    else if c = '<' then withoutTags true s
    else c :: withoutTags false s

/-- Text with the entities of escaped text decoded. -/
def unescaped : Text → Text
  | '&' :: 'a' :: 'm' :: 'p' :: ';' :: s => '&' :: unescaped s
  | '&' :: 'l' :: 't' :: ';' :: s => '<' :: unescaped s
  | '&' :: 'g' :: 't' :: ';' :: s => '>' :: unescaped s
  | c :: s => c :: unescaped s
  | [] => []

/-- The text that a piece of HTML shows. -/
def shown (html : Text) : Text := unescaped (withoutTags false html)

private theorem unescaped_escapedChar (c : Char) (s : Text) :
    unescaped (escapedChar c ++ s) = c :: unescaped s := by
  unfold escapedChar
  split
  · simp [unescaped]
  · simp [unescaped]
  · simp [unescaped]
  · next hamp hlt hgt =>
    rw [List.singleton_append, unescaped]
    · exact fun t hc _ => hamp hc
    · exact fun t hc _ => hamp hc
    · exact fun t hc _ => hamp hc

theorem unescaped_escaped (s : Text) : unescaped (escaped s) = s := by
  induction s with
  | nil => rfl
  | cons c s ih => rw [escaped_cons, unescaped_escapedChar, ih]

/-- Text with no bracket is outside all tags. -/
private theorem withoutTags_append {s : Text} (h : '<' ∉ s) (t : Text) :
    withoutTags false (s ++ t) = s ++ withoutTags false t := by
  induction s with
  | nil => rfl
  | cons c s ih =>
    simp only [List.mem_cons, not_or] at h
    simp [withoutTags, Ne.symm h.1, ih h.2]

private theorem withoutTags_inside {s : Text} (h : '>' ∉ s) (t : Text) :
    withoutTags true (s ++ '>' :: t) = withoutTags false t := by
  induction s with
  | nil => simp [withoutTags]
  | cons c s ih =>
    simp only [List.mem_cons, not_or] at h
    simp [withoutTags, Ne.symm h.1, ih h.2]

/-- Escaped text is outside all tags. -/
theorem withoutTags_escaped_append (s t : Text) :
    withoutTags false (escaped s ++ t) = escaped s ++ withoutTags false t :=
  withoutTags_append (fun h => (mem_escaped h).1 rfl) t

/-- Nothing is left of a tag. -/
theorem withoutTags_tag {inside : Text} (h : '>' ∉ inside) (t : Text) :
    withoutTags false ('<' :: (inside ++ '>' :: t)) = withoutTags false t := by
  simp [withoutTags, withoutTags_inside h]

end Slideshow.Markup

namespace Slideshow.Forest
open Text Markup

mutual

/-- The text of a node, without its tags. -/
def Node.shownText : Node → Text
  | .text content => unescaped content
  | .comment _ => []
  | .void _ _ => []
  | .element _ _ children => shownText children

def shownText : List Node → Text
  | [] => []
  | n :: ns => n.shownText ++ shownText ns

end

private theorem withoutTags_opened {name attributes : Text} (hn : isName name)
    (ha : '>' ∉ attributes) (s : Text) :
    withoutTags false (opened name attributes ++ s) = withoutTags false s := by
  have htag : '>' ∉ name ++ attributes := by
    simp [not_mem_name hn (c := '>') rfl, ha]
  have h : opened name attributes ++ s = '<' :: (name ++ attributes ++ '>' :: s) := by simp [opened]
  rw [h, withoutTags_tag htag]

private theorem withoutTags_closed {name : Text} (hn : isName name) (s : Text) :
    withoutTags false (closed name ++ s) = withoutTags false s := by
  have htag : '>' ∉ '/' :: name := by
    simp [not_mem_name hn (c := '>') rfl]
  have h : closed name ++ s = '<' :: ('/' :: name ++ '>' :: s) := by simp [closed_eq]
  rw [h, withoutTags_tag htag]

section Names
variable {elements voids : List Text}

mutual

private theorem withoutTags_node (h : AreNames elements voids) (s : Text) : (n : Node) →
    n.IsQuoted elements voids →
      withoutTags false (n.html ++ s) = escaped n.shownText ++ withoutTags false s
  | .text content, hn => by
    obtain ⟨text, rfl⟩ := hn
    rw [Node.html, withoutTags_escaped_append, Node.shownText, unescaped_escaped]
  | .comment _, hn => hn.elim
  | .void name attributes, hn => by
    obtain ⟨hname, quoted, hq, rfl⟩ := hn
    have hattributes : '>' ∉ quoted ++ " /" := by simp [hq.not_mem.2]
    rw [Node.html, withoutTags_opened (h.isName name (by simp [hname])) hattributes]
    rfl
  | .element name attributes children, hn => by
    obtain ⟨hname, hq, hc⟩ := hn
    have hm := h.isName name (by simp [hname])
    rw [Node.html, List.append_assoc, List.append_assoc, withoutTags_opened hm hq.not_mem.2,
      withoutTags_html_append h _ children hc, withoutTags_closed hm]
    rfl

/-- Outside its tags a forest of escaped text has the texts of its nodes, each escaped once. -/
theorem withoutTags_html_append (h : AreNames elements voids) (s : Text) : (ns : List Node) →
    AreQuoted elements voids ns →
      withoutTags false (html ns ++ s) = escaped (shownText ns) ++ withoutTags false s
  | [], _ => rfl
  | n :: ns, hn => by
    rw [html, List.append_assoc, withoutTags_node h _ n hn.1, withoutTags_html_append h s ns hn.2,
      shownText, escaped_append, List.append_assoc]

end

theorem withoutTags_html (h : AreNames elements voids) {ns : List Node}
    (hn : AreQuoted elements voids ns) : withoutTags false (html ns) = escaped (shownText ns) := by
  have hns := withoutTags_html_append h [] ns hn
  rwa [List.append_nil, show withoutTags false [] = [] from rfl, List.append_nil] at hns

/-- A forest of escaped text shows the texts of its nodes. -/
theorem shown_html (h : AreNames elements voids) {ns : List Node}
    (hn : AreQuoted elements voids ns) : shown (html ns) = shownText ns := by
  rw [shown, withoutTags_html h hn, unescaped_escaped]

end Names

end Slideshow.Forest
