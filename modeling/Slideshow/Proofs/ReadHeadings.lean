import Slideshow.Proofs.ForestSplitting

/-!
# The headings of an HTML text

A reader of HTML finds the headings of a text by its tags alone: a heading goes from its open tag to
the next close tag of its level. In the HTML of a forest these are the heading elements of the forest,
if none stands inside another.
-/
namespace Slideshow.Markup
open Text Fragment

/-- Whether a token closes or opens a heading, and of which level. -/
def Token.headingTag? : Token → Option (Bool × Nat)
  | .tag t => (levelOfName? (elementName t)).map fun level => (t.closing, level)
  | _ => none

/-- The headings that some tokens spell, each with its level and the text between its tags; `under`
is the heading under way. A heading that is not closed goes on to the end. -/
def headingsFrom (under : Option (Nat × Text)) : List Token → List (Nat × Text)
  | [] => under.toList
  | token :: ts =>
    match under with
    | none =>
      match token.headingTag? with
      | some (false, level) => headingsFrom (some (level, [])) ts
      | _ => headingsFrom none ts
    | some (level, inner) =>
      if token.headingTag? = some (true, level) then (level, inner) :: headingsFrom none ts
      else headingsFrom (some (level, inner ++ token.source)) ts

/-- The headings of an HTML text. -/
def headingsIn (html : Text) : List (Nat × Text) := headingsFrom none (tokens html)

/-- A heading under way, with more text in it. -/
def longer (under : Option (Nat × Text)) (s : Text) : Option (Nat × Text) :=
  under.map fun h => (h.1, h.2 ++ s)

@[simp] theorem longer_none (s : Text) : longer none s = none := rfl

@[simp] theorem longer_nil (under : Option (Nat × Text)) : longer under [] = under := by
  cases under <;> simp [longer]

theorem longer_append (under : Option (Nat × Text)) (s t : Text) :
    longer under (s ++ t) = longer (longer under s) t := by
  cases under <;> simp [longer]

/-- What is no tag of a heading is text of the heading under way. -/
theorem headingsFrom_of_headingTag?_eq_none {token : Token} (h : token.headingTag? = none)
    (under : Option (Nat × Text)) (ts : List Token) :
    headingsFrom under (token :: ts) = headingsFrom (longer under token.source) ts := by
  cases under with
  | none => simp [headingsFrom, h]
  | some heading => simp [headingsFrom, h, longer]

end Slideshow.Markup

namespace Slideshow.Forest
open Text Markup Fragment

/-! ## Headings of a forest -/

mutual

/-- The headings in a node, each with its level and the HTML inside it. -/
def Node.headings : Node → List (Nat × Text)
  | .element name _ children =>
    match levelOfName? (smallName name) with
    | some level => [(level, html children)]
    | none => headings children
  | _ => []

def headings : List Node → List (Nat × Text)
  | [] => []
  | n :: ns => n.headings ++ headings ns

end

mutual

/-- No heading stands inside another. -/
def Node.HasFlatHeadings : Node → Prop
  | .element name _ children =>
    match levelOfName? (smallName name) with
    | some _ => headings children = []
    | none => HaveFlatHeadings children
  | _ => True

def HaveFlatHeadings : List Node → Prop
  | [] => True
  | n :: ns => n.HasFlatHeadings ∧ HaveFlatHeadings ns

end

theorem headings_append (ns ms : List Node) : headings (ns ++ ms) = headings ns ++ headings ms := by
  induction ns with
  | nil => rfl
  | cons n ns ih => rw [List.cons_append, headings, headings, ih, List.append_assoc]

theorem haveFlatHeadings_iff {ns : List Node} :
    HaveFlatHeadings ns ↔ ∀ n ∈ ns, n.HasFlatHeadings := by
  induction ns with
  | nil => simp [HaveFlatHeadings]
  | cons n ns ih => simp [HaveFlatHeadings, ih]

theorem headingTag?_openTag (name attributes : Text) :
    (Token.tag (openTag name attributes)).headingTag? =
      (levelOfName? (smallName name)).map fun level => (false, level) := by
  simp [Token.headingTag?]

theorem headingTag?_closeTag (name : Text) :
    (Token.tag (closeTag name)).headingTag? =
      (levelOfName? (smallName name)).map fun level => (true, level) := rfl

/-- The tags of an element that is no heading. -/
theorem headingTag?_eq_none {name : Text} (h : levelOfName? (smallName name) = none)
    (attributes : Text) :
    (Token.tag (openTag name attributes)).headingTag? = none ∧
      (Token.tag (closeTag name)).headingTag? = none := by
  rw [headingTag?_openTag, headingTag?_closeTag, h]
  exact ⟨rfl, rfl⟩

/-- Text up to the next angle bracket belongs to the heading under way. -/
private theorem headingsFrom_dropWhile (under : Option (Nat × Text)) (s : Text) :
    headingsFrom (longer under (s.takeWhile (· ≠ '<'))) (tokens (s.dropWhile (· ≠ '<'))) =
      headingsFrom under (tokens s) := by
  cases s with
  | nil => simp
  | cons c s =>
    by_cases hc : c = '<'
    · simp [hc]
    · rw [tokens_plain hc, headingsFrom_of_headingTag?_eq_none rfl, List.takeWhile_cons,
        List.dropWhile_cons, if_pos (by simpa using hc), if_pos (by simpa using hc)]
      rfl

theorem headingsFrom_text {content : Text} (h : '<' ∉ content) (under : Option (Nat × Text))
    (s : Text) :
    headingsFrom under (tokens (content ++ s)) =
      headingsFrom (longer under content) (tokens s) := by
  rw [← headingsFrom_dropWhile, List.takeWhile_append_of_pos (ne_of_not_mem h),
    List.dropWhile_append_of_pos (ne_of_not_mem h), longer_append, headingsFrom_dropWhile]

mutual

/-- A node without headings is text of the heading under way, if there is one. -/
theorem headingsFrom_inside (under : Option (Nat × Text)) (s : Text) : (n : Node) →
    n.isWellFormed → n.headings = [] →
    headingsFrom under (tokens (n.html ++ s)) = headingsFrom (longer under n.html) (tokens s)
  | .text content, h, _ => by
    simp only [Node.isWellFormed, decide_eq_true_eq] at h
    exact headingsFrom_text h under s
  | .comment body, h, _ => by
    simp only [Node.isWellFormed, Bool.not_eq_true'] at h
    rw [Node.html, tokens_commented h, headingsFrom_of_headingTag?_eq_none rfl]
    rfl
  | .void name attributes, h, _ => by
    simp only [Node.isWellFormed, Bool.and_eq_true, decide_eq_true_eq] at h
    have hopen := (headingTag?_eq_none (levelOfName?_void h.2) attributes).1
    rw [Node.html, tokens_opened h.1.1 h.1.2, headingsFrom_of_headingTag?_eq_none hopen, Token.source,
      openTag_source]
  | .element name attributes children, h, hnone => by
    simp only [Node.isWellFormed, Bool.and_eq_true] at h
    obtain ⟨⟨⟨hn, ha⟩, -⟩, hc⟩ := h
    rw [Node.headings] at hnone
    cases hl : levelOfName? (smallName name) with
    | some level => simp [hl] at hnone
    | none =>
      have hchildren : headings children = [] := by simpa [hl] using hnone
      obtain ⟨hopen, hclose⟩ := headingTag?_eq_none hl attributes
      rw [Node.html, List.append_assoc, List.append_assoc, tokens_opened hn ha,
        headingsFrom_of_headingTag?_eq_none hopen, headingsFrom_inside_all _ _ children hc hchildren,
        tokens_closed hn, headingsFrom_of_headingTag?_eq_none hclose, Token.source, Token.source,
        openTag_source, closeTag_source, ← longer_append, ← longer_append]

theorem headingsFrom_inside_all (under : Option (Nat × Text)) (s : Text) : (ns : List Node) →
    isWellFormed ns → headings ns = [] →
    headingsFrom under (tokens (html ns ++ s)) = headingsFrom (longer under (html ns)) (tokens s)
  | [], _, _ => by rw [html, List.nil_append, longer_nil]
  | n :: ns, h, hnone => by
    simp only [isWellFormed, Bool.and_eq_true] at h
    rw [headings, List.append_eq_nil_iff] at hnone
    rw [html, List.append_assoc, headingsFrom_inside under _ n h.1 hnone.1,
      headingsFrom_inside_all _ s ns h.2 hnone.2, longer_append]

end

mutual

private theorem headingsFrom_node (s : Text) : (n : Node) → n.isWellFormed → n.HasFlatHeadings →
    headingsFrom none (tokens (n.html ++ s)) = n.headings ++ headingsFrom none (tokens s)
  | .text content, h, _ => headingsFrom_inside none s (.text content) h rfl
  | .comment body, h, _ => headingsFrom_inside none s (.comment body) h rfl
  | .void name attributes, h, _ => headingsFrom_inside none s (.void name attributes) h rfl
  | .element name attributes children, h, hflat => by
    simp only [Node.isWellFormed, Bool.and_eq_true] at h
    obtain ⟨⟨⟨hn, ha⟩, -⟩, hc⟩ := h
    rw [Node.HasFlatHeadings] at hflat
    rw [Node.html, List.append_assoc, List.append_assoc, tokens_opened hn ha, Node.headings]
    cases hl : levelOfName? (smallName name) with
    | some level =>
      have hchildren : headings children = [] := by simpa [hl] using hflat
      rw [headingsFrom, headingTag?_openTag, hl]
      simp only [Option.map_some]
      rw [headingsFrom_inside_all _ _ children hc hchildren, tokens_closed hn]
      simp [headingsFrom, longer, headingTag?_closeTag, hl]
    | none =>
      have hchildren : HaveFlatHeadings children := by simpa [hl] using hflat
      obtain ⟨hopen, hclose⟩ := headingTag?_eq_none hl attributes
      rw [headingsFrom_of_headingTag?_eq_none hopen, longer_none,
        headingsFrom_html_append _ children hc hchildren, tokens_closed hn,
        headingsFrom_of_headingTag?_eq_none hclose, longer_none]

/-- The headings that are read in the HTML of a forest are those of the forest. -/
theorem headingsFrom_html_append (s : Text) : (ns : List Node) → isWellFormed ns →
    HaveFlatHeadings ns →
    headingsFrom none (tokens (html ns ++ s)) = headings ns ++ headingsFrom none (tokens s)
  | [], _, _ => rfl
  | n :: ns, h, hflat => by
    simp only [isWellFormed, Bool.and_eq_true] at h
    rw [html, List.append_assoc, headingsFrom_node _ n h.1 hflat.1,
      headingsFrom_html_append s ns h.2 hflat.2, headings, List.append_assoc]

end

theorem headingsIn_html {ns : List Node} (h : isWellFormed ns) (hflat : HaveFlatHeadings ns) :
    headingsIn (html ns) = headings ns := by
  have hns := headingsFrom_html_append [] ns h hflat
  rw [List.append_nil] at hns
  rw [headingsIn, hns, tokens, headingsFrom, Option.toList_none, List.append_nil]

end Slideshow.Forest
