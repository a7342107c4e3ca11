import Slideshow.Proofs.ReadHeadings
import Slideshow.Proofs.TitleStyles
import Slideshow.Proofs.WrittenDocument

/-!
# The levels of headings

The headings in what a document is written as are its titles in the order in which they are met. The
level of each is the rank of its style by first appearance, or six for all deeper ranks; so levels
start at one, no heading is more than one deeper than all before it, and levels tell styles apart.
-/
namespace Slideshow.Restructured
open Text Markup Forest

/-! ## The headings that blocks write -/

/-- The names of the elements that are no headings. -/
def otherNames : List Text :=
  ["p", "pre", "blockquote", "ol", "ul", "li", "div", "strong", "em", "code", "a", "cite"]

theorem levelOfName?_of_mem_otherNames {name : Text} (h : name ∈ otherNames) :
    levelOfName? (smallName name) = none := by
  have hall : otherNames.all fun name => levelOfName? (smallName name) = none := by cbv
  simpa using List.all_eq_true.1 hall name h

theorem levelOfName?_of_rank {rank : Nat} (h : 0 < rank) :
    levelOfName? (smallName ("h" ++ decimal (levelOfRank rank))) = some (levelOfRank rank) := by
  have hall : [1, 2, 3, 4, 5, 6].all fun level =>
      levelOfName? (smallName ("h" ++ decimal level)) = some level := by cbv
  simpa using List.all_eq_true.1 hall _ (levelOfRank_mem h)

/-- An element that is no heading has the headings of its children. -/
theorem headings_element {name : Text} (h : name ∈ otherNames) (attributes : Text)
    (children : List Node) :
    (Node.element name attributes children).headings = headings children ∧
      ((Node.element name attributes children).HasFlatHeadings ↔ HaveFlatHeadings children) := by
  simp [Node.headings, Node.HasFlatHeadings, levelOfName?_of_mem_otherNames h]

/-- There is no heading in inline markup. -/
theorem headings_inlineNodes (text : Text) :
    headings (inlineNodes text) = [] ∧ HaveFlatHeadings (inlineNodes text) := by
  rw [inlineNodes]
  induction spans text with
  | nil => exact ⟨rfl, trivial⟩
  | cons sp sps ih =>
    have hsp : sp.node.headings = [] ∧ sp.node.HasFlatHeadings := by
      have helement : ∀ {name attributes content : Text}, name ∈ otherNames →
          (Node.element name attributes [.text content]).headings = [] ∧
            (Node.element name attributes [.text content]).HasFlatHeadings :=
        fun hname => ⟨(headings_element hname _ _).1,
          (headings_element hname _ _).2.2 ⟨trivial, trivial⟩⟩
      cases sp with
      | plain c => exact ⟨rfl, trivial⟩
      | literal t => exact helement (by simp [otherNames])
      | strong t => exact helement (by simp [otherNames])
      | emphasis t => exact helement (by simp [otherNames])
      | link label gap target anonymous => exact helement (by simp [otherNames])
      | interpreted t => exact helement (by simp [otherNames])
    rw [List.map_cons, headings, hsp.1, ih.1]
    exact ⟨rfl, hsp.2, ih.2⟩

/-- A title as a heading: its level, and its inline markup. -/
def writtenTitle (p : Nat × Text) : Nat × Text := (levelOfRank p.1, inlineHtml p.2)

/-- A forest whose headings are some titles, none inside another. -/
structure HoldsTitles (titles : List (Nat × Text)) (ns : List Node) : Prop where
  headings_eq : headings ns = titles.map writtenTitle
  flat : HaveFlatHeadings ns

namespace HoldsTitles
variable {ts us : List (Nat × Text)} {ns ms : List Node}

theorem nil : HoldsTitles [] [] := ⟨rfl, trivial⟩

theorem append (h : HoldsTitles ts ns) (h' : HoldsTitles us ms) :
    HoldsTitles (ts ++ us) (ns ++ ms) where
  headings_eq := by rw [headings_append, h.headings_eq, h'.headings_eq, List.map_append]
  flat := haveFlatHeadings_iff.2 fun n hn => (List.mem_append.1 hn).elim
    (haveFlatHeadings_iff.1 h.flat n) (haveFlatHeadings_iff.1 h'.flat n)

/-- Text in front holds no title. -/
theorem text (content : Text) (h : HoldsTitles ts ns) : HoldsTitles ts (.text content :: ns) :=
  ⟨h.headings_eq, trivial, h.flat⟩

/-- Text at the end holds no title. -/
theorem of_concat {content : Text} (h : HoldsTitles ts (ns ++ [.text content])) :
    HoldsTitles ts ns where
  headings_eq := by
    have hall := h.headings_eq
    rw [headings_append] at hall
    simpa [headings, Node.headings] using hall
  flat := haveFlatHeadings_iff.2 fun n hn =>
    haveFlatHeadings_iff.1 h.flat n (List.mem_append_left _ hn)

theorem inline (s : Text) : HoldsTitles [] (inlineNodes s) :=
  ⟨(headings_inlineNodes s).1, (headings_inlineNodes s).2⟩

theorem void (name attributes : Text) : HoldsTitles [] [.void name attributes] :=
  ⟨rfl, trivial, trivial⟩

theorem element {name : Text} (hn : name ∈ otherNames) (attributes : Text)
    (h : HoldsTitles ts ns) : HoldsTitles ts [.element name attributes ns] where
  headings_eq := by
    rw [headings, (headings_element hn attributes ns).1, h.headings_eq, headings, List.append_nil]
  flat := ⟨(headings_element hn attributes ns).2.2 h.flat, trivial⟩

/-- The title of a rank is written as the heading of its level. -/
theorem title {rank : Nat} (h : 0 < rank) (s : Text) :
    HoldsTitles [(rank, s)] [.element ("h" ++ decimal (levelOfRank rank)) [] (inlineNodes s)] where
  headings_eq := by
    simp only [headings, Node.headings, levelOfName?_of_rank h, html_inlineNodes]
    rfl
  flat := by
    simp only [HaveFlatHeadings, Node.HasFlatHeadings, levelOfName?_of_rank h, headings_inlineNodes,
      and_self]

end HoldsTitles

mutual

/-- A block that was read writes its titles as headings, in their order. -/
private theorem holdsTitles_node : (b : Block) → b.IsRead → HoldsTitles b.titles [b.node]
  | .title rank text, h => .title h text
  | .paragraph text, _ => (HoldsTitles.inline text).element (by simp [otherNames]) _
  | .transition, _ => .void _ _
  | .literal lines, _ => (HoldsTitles.nil.text _).element (by simp [otherNames]) _
  | .quote body, h => ((holdsTitles_nodesOf body h).text _).element (by simp [otherNames]) _
  | .list true items, h =>
    ((holdsTitles_itemNodes items h).text _).element (by simp [otherNames]) _
  | .list false items, h =>
    ((holdsTitles_itemNodes items h).text _).element (by simp [otherNames]) _
  | .image target alternative, _ => .void _ _
  | .code language lines, _ =>
    (((HoldsTitles.nil.text _).text _).element (by simp [otherNames]) _).element
      (by simp [otherNames]) _
  | .admonition kind body, h => by
    have hp : HoldsTitles [] [Node.element "p" (pair "class" "admonition-title")
        [.text (capitalized kind)]] :=
      (HoldsTitles.nil.text _).element (by simp [otherNames]) _
    exact ((hp.append ((holdsTitles_nodesOf body h.2).text "\n")).text "\n").element
      (by simp [otherNames]) _
  | .container name body, h =>
    ((holdsTitles_nodesOf body h).text _).element (by simp [otherNames]) _

theorem holdsTitles_nodesOf : (bs : List Block) → AreRead bs →
    HoldsTitles (titlesIn bs) (nodesOf bs)
  | [], _ => .nil
  | b :: bs, h => (holdsTitles_node b h.1).append ((holdsTitles_nodesOf bs h.2).text _)

private theorem holdsTitles_itemNodes : (items : List (List Block)) → BodiesAreRead items →
    HoldsTitles (titlesInBodies items) (itemNodes items)
  | [], _ => .nil
  | body :: items, h => by
    have hbody := holdsTitles_nodesOf body h.1
    have hitems := (holdsTitles_itemNodes items h.2).text "\n"
    have hli : ("li" : Text) ∈ otherNames := by simp [otherNames]
    by_cases hp : ∃ text, body = [.paragraph text]
    · obtain ⟨text, rfl⟩ := hp
      exact ((HoldsTitles.inline text).element hli []).append hitems
    · have hinit : HoldsTitles (titlesIn body) (nodesOf body).dropLast := by
        rcases List.eq_nil_or_concat body with rfl | ⟨bs, b, rfl⟩
        · exact .nil
        · rw [List.concat_eq_append, nodesOf_concat] at hbody ⊢
          rw [List.dropLast_concat]
          exact hbody.of_concat
      rw [itemNodes]
      · exact (hinit.element hli []).append hitems
      · exact fun text he => hp ⟨text, he⟩

end

/-! ## The headings of a document -/

/-- The headings in what a document is written as are its titles, those in the bodies of lists, quotes
and directives among them, in the order in which they are met. -/
theorem headingsIn_eq_titlesMet (source : Text) :
    headingsIn (toHtml source) = (titlesMet source).map fun p =>
      (min (rankAmong ((titlesMet source).map (·.1)) p.1) 6, inlineHtml p.2) := by
  have hread : AreRead (Block.ofSource source) := areRead_blocks _ _ _ _
  have hheld := holdsTitles_nodesOf (Block.ofSource source) hread
  have hformed := isWellFormed_of_areQuoted areNames_elementNames _
    (areQuoted_nodesOf (Block.ofSource source) hread)
  rw [toHtml, ← html_nodesOf, headingsIn_html hformed hheld.flat, hheld.headings_eq,
    titlesIn_ofSource, List.map_map]
  rfl

/-- The level of a heading is the rank of its style by first appearance, and six for all ranks from
the sixth on. So the levels start at one, none is more than one deeper than all before it, none is
beyond six, and below six two headings have the same level if and only if they have the same style. -/
theorem headingsIn_toHtml (source : Text) :
    headingsIn (toHtml source) = ((titlesMet source).map fun p =>
      (min (rankAmong ((titlesMet source).map (·.1)) p.1) 6, inlineHtml p.2)) ∧
    (headingsIn (toHtml source)).head?.all (·.1 = 1) ∧
    (∀ before h after, headingsIn (toHtml source) = before ++ h :: after → before ≠ [] →
      ∃ k ∈ before, h.1 ≤ k.1 + 1) ∧
    (∀ h ∈ headingsIn (toHtml source), 1 ≤ h.1 ∧ h.1 ≤ 6) ∧
    ∀ p ∈ (titlesMet source).zip (headingsIn (toHtml source)),
      ∀ q ∈ (titlesMet source).zip (headingsIn (toHtml source)), p.2.1 < 6 →
        (p.2.1 = q.2.1 ↔ p.1.1 = q.1.1) := by
  rw [headingsIn_eq_titlesMet]
  generalize titlesMet source = titles
  refine ⟨rfl, ?first, ?deeper, ?bounds, ?apart⟩
  case first =>
    cases titles with
    | nil => rfl
    | cons p ps => simp [rankAmong_head]
  case deeper =>
    intro before h after hsplit hne
    obtain ⟨ts, us, rfl, rfl, hus⟩ := List.map_eq_append_iff.1 hsplit
    obtain ⟨p, ps, rfl, rfl, -⟩ := List.map_eq_cons_iff.1 hus
    have hbefore : ts.map (·.1) ≠ [] := by simpa using hne
    obtain ⟨style, hs, hrank⟩ := exists_rankAmong_before hbefore p.1 (ps.map (·.1))
    obtain ⟨t, ht, rfl⟩ := List.mem_map.1 hs
    refine ⟨_, List.mem_map_of_mem ht, ?_⟩
    rw [List.map_append, List.map_cons]
    simp only
    omega
  case bounds =>
    intro h hh
    obtain ⟨p, -, rfl⟩ := List.mem_map.1 hh
    simp only [rankAmong]
    omega
  case apart =>
    rw [← List.map_prod_left_eq_zip]
    intro p hp q hq hlow
    obtain ⟨t, ht, rfl⟩ := List.mem_map.1 hp
    obtain ⟨u, -, rfl⟩ := List.mem_map.1 hq
    rw [← rankAmong_eq_iff (List.mem_map_of_mem (f := (·.1)) ht)]
    simp only at hlow ⊢
    omega

end Slideshow.Restructured
