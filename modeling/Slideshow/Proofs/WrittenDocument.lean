import Slideshow.Proofs.WrittenForest
import Slideshow.Proofs.ReadBlocks
import Slideshow.Proofs.TagDepth

/-!
# The HTML of any source

Whatever the source, the blocks that are read write a forest of escaped text. So tags are closed in
the order in which they were opened, nothing of the source is read as a tag, and splitting the HTML
finds each close tag inside an element.
-/
namespace Slideshow.Restructured
open Text Markup Fragment Forest

/-- The elements that blocks write around other nodes. -/
def blockNames : List Text :=
  ["h1", "h2", "h3", "h4", "h5", "h6", "p", "pre", "blockquote", "ol", "ul", "li", "div"]

def elementNames : List Text := blockNames ++ inlineNames

def voidNames : List Text := ["img", "hr"]

theorem areNames_elementNames : AreNames elementNames voidNames where
  isName := List.all_eq_true.1 (by cbv)
  isElement := List.all_eq_true.1 (show elementNames.all (isElement · []) by cbv)
  isVoid := by
    have h : voidNames.all (smallName · ∈ voidElements) := by cbv
    simpa using h

private theorem inlineNames_subset : inlineNames ⊆ elementNames := List.subset_append_right _ _

private theorem mem_elementNames {name : Text} (h : name ∈ blockNames) : name ∈ elementNames :=
  List.mem_append_left _ h

private theorem heading_mem_blockNames {rank : Nat} (h : 0 < rank) :
    "h" ++ decimal (levelOfRank rank) ∈ blockNames := by
  have hall : [1, 2, 3, 4, 5, 6].all (fun level => "h" ++ decimal level ∈ blockNames) := by cbv
  simpa using List.all_eq_true.1 hall _ (levelOfRank_mem h)

private theorem isName_class : isName "class" := by cbv

/-- A class that holds nothing to escape. -/
private theorem areAttributes_class {value : Text} (h : escapedAttribute value = value) :
    AreAttributes (pair "class" value) := by
  rw [← h]
  exact .single isName_class value

private theorem isQuoted_break : (Node.text "\n").IsQuoted elementNames voidNames :=
  ⟨['\n'], by simp [escaped, escapedChar]⟩

private theorem areAttributes_languageClass (language : Text) :
    AreAttributes (languageClass language) := by
  unfold languageClass
  split
  · exact .nil
  · have hplain : escapedAttribute "language-" = "language-" := by cbv
    have h := AreAttributes.single isName_class ("language-" ++ language)
    rw [escapedAttribute_append, hplain] at h
    simpa [pair] using h

/-- The kinds of admonitions are written as they are. -/
private theorem escaped_kind {kind : Text} (h : kind ∈ admonitionNames) :
    escapedAttribute ("admonition " ++ kind) = "admonition " ++ kind ∧
      escaped (capitalized kind) = capitalized kind := by
  have hclass := List.all_eq_true.1 (show admonitionNames.all (fun kind =>
    escapedAttribute ("admonition " ++ kind) = "admonition " ++ kind) by cbv) kind h
  have htitle := List.all_eq_true.1 (show admonitionNames.all (fun kind =>
    escaped (capitalized kind) = capitalized kind) by cbv) kind h
  exact ⟨by simpa using hclass, by simpa using htitle⟩

mutual

private theorem isQuoted_node : (b : Block) → b.IsRead → b.node.IsQuoted elementNames voidNames
  | .title rank text, h =>
    ⟨mem_elementNames (heading_mem_blockNames h), .nil, areQuoted_inlineNodes inlineNames_subset _ text⟩
  | .paragraph text, _ =>
    ⟨mem_elementNames (by simp [blockNames]), .nil, areQuoted_inlineNodes inlineNames_subset _ text⟩
  | .transition, _ => ⟨by simp [voidNames], [], .nil, rfl⟩
  | .literal lines, _ =>
    ⟨mem_elementNames (by simp [blockNames]), areAttributes_class (by cbv), ⟨_, rfl⟩, trivial⟩
  | .quote body, h =>
    ⟨mem_elementNames (by simp [blockNames]), .nil, isQuoted_break, areQuoted_nodesOf body h⟩
  | .list true items, h =>
    ⟨mem_elementNames (by simp [blockNames]), .nil, isQuoted_break, areQuoted_itemNodes items h⟩
  | .list false items, h =>
    ⟨mem_elementNames (by simp [blockNames]), .nil, isQuoted_break, areQuoted_itemNodes items h⟩
  | .image target alternative, _ => by
    refine ⟨by simp [voidNames], _, ?_, rfl⟩
    exact .cons (by cbv) target (.single (by cbv) alternative)
  | .code language lines, _ =>
    ⟨mem_elementNames (by simp [blockNames]), .nil,
      ⟨inlineNames_subset (by simp [inlineNames]), areAttributes_languageClass language,
        ⟨_, rfl⟩, isQuoted_break, trivial⟩, trivial⟩
  | .admonition kind body, h => by
    obtain ⟨hclass, htitle⟩ := escaped_kind h.1
    have hp : (Node.element "p" (pair "class" "admonition-title")
        [.text (capitalized kind)]).IsQuoted elementNames voidNames :=
      ⟨mem_elementNames (by simp [blockNames]), areAttributes_class (by cbv),
        ⟨_, htitle.symm⟩, trivial⟩
    exact ⟨mem_elementNames (by simp [blockNames]), areAttributes_class hclass, isQuoted_break, hp,
      isQuoted_break, areQuoted_nodesOf body h.2⟩
  | .container name body, h =>
    ⟨mem_elementNames (by simp [blockNames]), .single isName_class name, isQuoted_break,
      areQuoted_nodesOf body h⟩

/-- The forest of blocks that were read is one of escaped text. -/
theorem areQuoted_nodesOf : (bs : List Block) → AreRead bs →
    AreQuoted elementNames voidNames (nodesOf bs)
  | [], _ => trivial
  | b :: bs, h => ⟨isQuoted_node b h.1, isQuoted_break, areQuoted_nodesOf bs h.2⟩

private theorem areQuoted_itemNodes : (items : List (List Block)) → BodiesAreRead items →
    AreQuoted elementNames voidNames (itemNodes items)
  | [], _ => trivial
  | body :: items, h => by
    have hli : ("li" : Text) ∈ elementNames := mem_elementNames (by simp [blockNames])
    have hbody := areQuoted_nodesOf body h.1
    have hitems := areQuoted_itemNodes items h.2
    by_cases hp : ∃ text, body = [.paragraph text]
    · obtain ⟨text, rfl⟩ := hp
      exact ⟨⟨hli, .nil, areQuoted_inlineNodes inlineNames_subset _ text⟩, isQuoted_break, hitems⟩
    · have hinit : AreQuoted elementNames voidNames (nodesOf body).dropLast :=
        areQuoted_iff.2 fun n hn => areQuoted_iff.1 hbody n (List.dropLast_subset _ hn)
      rw [itemNodes]
      · exact ⟨⟨hli, .nil, hinit⟩, isQuoted_break, hitems⟩
      · exact fun text he => hp ⟨text, he⟩

end

/-- The HTML of any source is that of a forest of escaped text. Each of its angle brackets opens a
tag that blocks write, and splitting it goes through the tags without losing count. -/
theorem toHtml_balanced (source : Text) :
    ∃ forest, toHtml source = html forest ∧ AreQuoted elementNames voidNames forest ∧
      OpensTags (elementNames ++ voidNames) (toHtml source) ∧
      depthBehind? 0 (tokens (toHtml source)) = some 0 ∧
      ∀ level before after, tokens (toHtml source) = before ++ after →
        ∃ depth done current, depthBehind? 0 before = some depth ∧
          cut level 0 [] (before ++ after) = done ++ cut level depth current after := by
  have hread : AreRead (Block.ofSource source) := areRead_blocks _ _ _ _
  have hquoted := areQuoted_nodesOf (Block.ofSource source) hread
  have hhtml : toHtml source = html (nodesOf (Block.ofSource source)) := (html_nodesOf _).symm
  have hdepth := depthBehind?_html
    (isWellFormed_of_areQuoted areNames_elementNames _ hquoted) 0
  refine ⟨nodesOf (Block.ofSource source), hhtml, hquoted, ?_, ?_, ?_⟩
  · rw [hhtml]
    exact opensTags_html areNames_elementNames _ hquoted
  · rw [hhtml, hdepth]
  · intro level before after htokens
    rw [← hhtml, htokens, depthBehind?_append] at hdepth
    obtain ⟨depth, hbefore, -⟩ := Option.bind_eq_some_iff.1 hdepth
    obtain ⟨done, current, hcut⟩ := @cut_depthBehind? level 0 depth before hbefore [] after
    exact ⟨depth, done, current, hbefore, hcut⟩

end Slideshow.Restructured
