import Slideshow.Proofs.QuotedForest
import Slideshow.Restructured.Reader

/-!
# The forest that blocks write

Each block writes one node and a line break. Inside a list item the tags of a paragraph are looked for
in the text: they are found when, and only when, the item is one paragraph, for inline markup has no
paragraphs and no other block ends like one.
-/
namespace Slideshow.Restructured
open Text Markup Forest

/-! ## Inline markup -/

def inlineNames : List Text := ["strong", "em", "code", "a", "cite"]

def Span.node : Span → Node
  | plain c => .text (escapedChar c)
  | literal t => .element "code" [] [.text (escaped t)]
  | strong t => .element "strong" [] [.text (escaped t)]
  | emphasis t => .element "em" [] [.text (escaped t)]
  | link label _ target _ =>
    .element "a" (pair "href" (escapedAttribute (trim target))) [.text (escaped label)]
  | interpreted t => .element "cite" [] [.text (escaped t)]

def inlineNodes (s : Text) : List Node := (spans s).map Span.node

theorem Span.html_node (sp : Span) : sp.node.html = sp.html := by
  cases sp <;> simp [Span.node, Span.html, Node.html, Forest.html, opened, closed, pair]

theorem html_inlineNodes (s : Text) : html (inlineNodes s) = inlineHtml s := by
  rw [inlineNodes, inlineHtml]
  induction spans s with
  | nil => rfl
  | cons sp sps ih => rw [List.map_cons, html, ih, Span.html_node, List.flatMap_cons]

/-- Inline markup is quoted, and only inline elements occur in it. -/
theorem areQuoted_inlineNodes {elements : List Text} (h : inlineNames ⊆ elements)
    (voids : List Text) (s : Text) : AreQuoted elements voids (inlineNodes s) := by
  have hname : ∀ name, name ∈ inlineNames → name ∈ elements := fun name hn => h hn
  rw [inlineNodes]
  induction spans s with
  | nil => trivial
  | cons sp sps ih =>
    refine ⟨?_, ih⟩
    cases sp with
    | plain c => exact ⟨[c], by simp [escaped]⟩
    | literal t => exact ⟨hname _ (by simp [inlineNames]), .nil, ⟨t, rfl⟩, trivial⟩
    | strong t => exact ⟨hname _ (by simp [inlineNames]), .nil, ⟨t, rfl⟩, trivial⟩
    | emphasis t => exact ⟨hname _ (by simp [inlineNames]), .nil, ⟨t, rfl⟩, trivial⟩
    | link label gap target anonymous =>
      exact ⟨hname _ (by simp [inlineNames]), .single (by simp [isName]) _, ⟨label, rfl⟩, trivial⟩
    | interpreted t => exact ⟨hname _ (by simp [inlineNames]), .nil, ⟨t, rfl⟩, trivial⟩

theorem areNames_inlineNames : AreNames inlineNames [] where
  isName := List.all_eq_true.1 (by cbv)
  isElement := List.all_eq_true.1 (show inlineNames.all (isElement · []) by cbv)
  isVoid := by simp

/-- There is no paragraph in inline markup. -/
theorem occursIn_inlineHtml (s : Text) : occursIn "<p>" (inlineHtml s) = false := by
  cases h : occursIn "<p>" (inlineHtml s) with
  | false => rfl
  | true =>
    obtain ⟨before, after, hs⟩ := occursIn_iff.1 h
    have hopens := opensTags_html areNames_inlineNames _
      (areQuoted_inlineNodes (List.Subset.refl _) [] s)
    rw [html_inlineNodes] at hopens
    obtain ⟨tag, rest, hread, hname⟩ := hopens before ("p>" ++ after) (by simp [hs]) []
    have hp : isName "p" := by cbv
    have hnil : isInTag [] := by cbv
    have hread' := read?_opened hp hnil after
    rw [show opened "p" [] ++ after = '<' :: ("p>" ++ after) ++ [] by simp [opened], hread] at hread'
    have htag : tag = openTag "p" [] := (Prod.mk.inj (Option.some.inj hread')).1
    rw [htag, openTag_name] at hname
    simp [inlineNames] at hname

/-! ## Items of a list -/

/-- A block ends in a tag and a line break, and only a paragraph in a tag like its own. -/
theorem Block.html_ending (b : Block) :
    ∃ front c, b.html = front ++ [c, '>', '\n'] ∧ (c = 'p' → ∃ text, b = .paragraph text) := by
  cases b with
  | title rank text =>
    obtain ⟨ds, d, hd⟩ : ∃ ds d, decimal (levelOfRank rank) = ds ++ [d] := by
      rcases List.eq_nil_or_concat (decimal (levelOfRank rank)) with h | ⟨ds, d, h⟩
      · exact absurd h Nat.toDigits_ne_nil
      · exact ⟨ds, d, by simpa using h⟩
    have hdigit : d.isDigit := Nat.isDigit_of_mem_toDigits (b := 10) (n := levelOfRank rank)
      (by decide) (by decide) (show d ∈ decimal (levelOfRank rank) by simp [hd])
    refine ⟨"<h" ++ decimal (levelOfRank rank) ++ ">" ++ inlineHtml text ++ "</h" ++ ds, d,
      by simp [Block.html, hd], ?_⟩
    rintro rfl
    simp at hdigit
  | paragraph text =>
    exact ⟨"<p>" ++ inlineHtml text ++ "</", 'p', by simp [Block.html], fun _ => ⟨text, rfl⟩⟩
  | transition => exact ⟨"<hr ", '/', by simp [Block.html], by simp⟩
  | literal lines =>
    exact ⟨"<pre class=\"literal-block\">" ++ escaped (unlines lines) ++ "</pr", 'e',
      by simp [Block.html], by simp⟩
  | quote body =>
    exact ⟨"<blockquote>\n" ++ Block.htmlAll body ++ "</blockquot", 'e', by simp [Block.html], by simp⟩
  | list ordered items =>
    cases ordered with
    | true => exact ⟨"<ol>\n" ++ Block.htmlItems items ++ "</o", 'l', by simp [Block.html], by simp⟩
    | false => exact ⟨"<ul>\n" ++ Block.htmlItems items ++ "</u", 'l', by simp [Block.html], by simp⟩
  | image target alternative =>
    exact ⟨"<img src=\"" ++ escapedAttribute target ++ "\" alt=\"" ++ escapedAttribute alternative
      ++ "\" ", '/', by simp [Block.html], by simp⟩
  | code language lines =>
    exact ⟨"<pre><code" ++ languageClass language ++ ">" ++ escaped (unlines lines)
      ++ "\n</code></pr", 'e', by simp [Block.html], by simp⟩
  | admonition kind body =>
    exact ⟨"<div class=\"admonition " ++ kind ++ "\">\n<p class=\"admonition-title\">"
      ++ capitalized kind ++ "</p>\n" ++ Block.htmlAll body ++ "</di", 'v',
      by simp [Block.html], by simp⟩
  | container name body =>
    exact ⟨"<div class=\"" ++ escapedAttribute name ++ "\">\n" ++ Block.htmlAll body ++ "</di", 'v',
      by simp [Block.html], by simp⟩

theorem Block.htmlAll_concat (bs : List Block) (b : Block) :
    Block.htmlAll (bs ++ [b]) = Block.htmlAll bs ++ b.html := by
  induction bs with
  | nil => simp [Block.htmlAll]
  | cons a bs ih => rw [List.cons_append, Block.htmlAll, Block.htmlAll, ih, List.append_assoc]

private theorem trimRight_ending (front : Text) (c : Char) :
    trimRight (front ++ [c, '>', '\n']) = front ++ [c, '>'] := by
  rw [show front ++ [c, '>', '\n'] = front ++ [c, '>'] ++ ['\n'] by simp, trimRight_concat (by decide)]
  exact trimRight_eq_self (by simp [show isBlank '>' = false by decide])

/-- The tags around an item that is one paragraph are taken off. -/
theorem unwrapped_paragraph (text : Text) :
    unwrapped (Block.htmlAll [.paragraph text]) = inlineHtml text := by
  have htrim : trimRight (Block.htmlAll [.paragraph text]) =
      "<p>" ++ (inlineHtml text ++ "</p>") := by
    have h := trimRight_ending ("<p>" ++ inlineHtml text ++ "</") 'p'
    simpa [Block.htmlAll, Block.html] using h
  have hend : dropEnding? "</p>" (inlineHtml text ++ "</p>") = some (inlineHtml text) :=
    dropEnding?_eq_some_iff.2 rfl
  simp only [unwrapped, htrim, dropAffix?_append, Option.bind_eq_bind, Option.bind_some, hend,
    occursIn_inlineHtml, Bool.false_eq_true, if_false]

/-- Blocks that end like a paragraph end in a paragraph. -/
private theorem eq_concat_paragraph {body : List Block} {front : Text}
    (h : trimRight (Block.htmlAll body) = front ++ "</p>") :
    ∃ bs text, body = bs ++ [.paragraph text] ∧
      front = Block.htmlAll bs ++ ("<p>" ++ inlineHtml text) := by
  rcases List.eq_nil_or_concat body with rfl | ⟨bs, b, rfl⟩
  · simp [Block.htmlAll, trimRight] at h
  rw [List.concat_eq_append] at h ⊢
  obtain ⟨inner, c, hb, hp⟩ := b.html_ending
  rw [Block.htmlAll_concat, hb, ← List.append_assoc, trimRight_ending] at h
  have hlast : c = 'p' := by
    have hsplit : front ++ ("</p>" : Text) = (front ++ "</") ++ ['p', '>'] := by simp
    simpa using (List.append_inj' (h.trans hsplit) rfl).2
  obtain ⟨text, rfl⟩ := hp hlast
  refine ⟨bs, text, rfl, ?_⟩
  have hinner : inner = "<p>" ++ inlineHtml text ++ "</" := by
    have hsplit : (Block.paragraph text).html =
        "<p>" ++ inlineHtml text ++ "</" ++ ['p', '>', '\n'] := by simp [Block.html]
    exact (List.append_inj' (hb.symm.trans hsplit) rfl).1
  have hend : front ++ ("</p>" : Text) =
      Block.htmlAll bs ++ ("<p>" ++ inlineHtml text) ++ "</p>" := by
    rw [← h, hinner, hlast]
    simp
  exact List.append_cancel_right hend

/-- Any other item keeps its tags: when it starts and ends like a paragraph, it ends in another
paragraph than it starts with. -/
theorem unwrapped_of_ne_paragraph {body : List Block} (h : ∀ text, body ≠ [.paragraph text]) :
    unwrapped (Block.htmlAll body) = trimRight (Block.htmlAll body) := by
  rw [unwrapped]
  split
  · next inner hinner =>
    simp only [Option.bind_eq_bind, Option.bind_eq_some_iff, dropAffix?_eq_some_iff,
      dropEnding?_eq_some_iff] at hinner
    obtain ⟨_, htrim, rfl⟩ := hinner
    rw [← List.append_assoc] at htrim
    obtain ⟨bs, text, hbody, hinner⟩ := eq_concat_paragraph htrim
    rw [if_pos]
    have hbs : '\n' ∈ Block.htmlAll bs := by
      rcases List.eq_nil_or_concat bs with rfl | ⟨bs, b, rfl⟩
      · exact absurd hbody (h text)
      · obtain ⟨front, c, hb, -⟩ := b.html_ending
        simp [Block.htmlAll_concat, hb]
    rcases List.append_eq_append_iff.1 hinner.symm with ⟨more, hmore, -⟩ | ⟨more, -, hmore⟩
    · have hin : '\n' ∈ ("<p>" : Text) := by rw [hmore]; simp [hbs]
      simp at hin
    · exact occursIn_iff.2 ⟨more, inlineHtml text, by rw [hmore, List.append_assoc]⟩
  · rfl

/-! ## Blocks -/

mutual

def Block.node : Block → Node
  | .title rank text => .element ("h" ++ decimal (levelOfRank rank)) [] (inlineNodes text)
  | .paragraph text => .element "p" [] (inlineNodes text)
  | .transition => .void "hr" " /"
  | .literal lines =>
    .element "pre" (pair "class" "literal-block") [.text (escaped (unlines lines))]
  | .quote body => .element "blockquote" [] (.text "\n" :: nodesOf body)
  | .list true items => .element "ol" [] (.text "\n" :: itemNodes items)
  | .list false items => .element "ul" [] (.text "\n" :: itemNodes items)
  | .image target alternative =>
    .void "img" (pair "src" (escapedAttribute target)
      ++ pair "alt" (escapedAttribute alternative) ++ " /")
  | .code language lines =>
    .element "pre" []
      [.element "code" (languageClass language) [.text (escaped (unlines lines)), .text "\n"]]
  | .admonition kind body =>
    .element "div" (pair "class" ("admonition " ++ kind))
      (.text "\n" :: .element "p" (pair "class" "admonition-title") [.text (capitalized kind)]
        :: .text "\n" :: nodesOf body)
  | .container name body =>
    .element "div" (pair "class" (escapedAttribute name)) (.text "\n" :: nodesOf body)

def nodesOf : List Block → List Node
  | [] => []
  | b :: bs => b.node :: .text "\n" :: nodesOf bs

def itemNodes : List (List Block) → List Node
  | [] => []
  | [.paragraph text] :: items =>
    .element "li" [] (inlineNodes text) :: .text "\n" :: itemNodes items
  | body :: items => .element "li" [] (nodesOf body).dropLast :: .text "\n" :: itemNodes items

end

theorem nodesOf_append (bs cs : List Block) : nodesOf (bs ++ cs) = nodesOf bs ++ nodesOf cs := by
  induction bs with
  | nil => rfl
  | cons b bs ih => rw [List.cons_append, nodesOf, ih, nodesOf, List.cons_append, List.cons_append]

theorem nodesOf_concat (bs : List Block) (b : Block) :
    nodesOf (bs ++ [b]) = nodesOf bs ++ [b.node] ++ [.text "\n"] := by
  rw [nodesOf_append, List.append_assoc]
  rfl

/-- Without the white space at its end a body is all its nodes but the last line break. -/
private theorem html_dropLast_nodesOf {body : List Block} (h : html (nodesOf body) = Block.htmlAll body) :
    html (nodesOf body).dropLast = trimRight (Block.htmlAll body) := by
  rcases List.eq_nil_or_concat body with rfl | ⟨bs, b, rfl⟩
  · simp [nodesOf, Forest.html, Block.htmlAll, trimRight]
  · obtain ⟨front, c, hb, -⟩ := b.html_ending
    rw [List.concat_eq_append, nodesOf_concat, html_append, Block.htmlAll_concat, hb,
      ← List.append_assoc] at h
    rw [List.concat_eq_append, nodesOf_concat, List.dropLast_concat, Block.htmlAll_concat, hb,
      ← List.append_assoc, trimRight_ending]
    have hsplit : Block.htmlAll bs ++ front ++ [c, '>', '\n'] =
        Block.htmlAll bs ++ front ++ [c, '>'] ++ ['\n'] := by simp
    exact (List.append_inj' (h.trans hsplit) (by simp [Forest.html, Node.html])).1

mutual

theorem Block.html_node : (b : Block) → b.html = b.node.html ++ "\n"
  | .title rank text => by
    simp [Block.html, Block.node, Node.html, opened, closed, html_inlineNodes]
  | .paragraph text => by
    simp [Block.html, Block.node, Node.html, opened, closed, html_inlineNodes]
  | .transition => by simp [Block.html, Block.node, Node.html, opened]
  | .literal lines => by
    simp [Block.html, Block.node, Node.html, Forest.html, opened, closed, pair]
  | .quote body => by
    simp [Block.html, Block.node, Node.html, Forest.html, opened, closed, html_nodesOf body]
  | .list true items => by
    simp [Block.html, Block.node, Node.html, Forest.html, opened, closed, html_itemNodes items]
  | .list false items => by
    simp [Block.html, Block.node, Node.html, Forest.html, opened, closed, html_itemNodes items]
  | .image target alternative => by simp [Block.html, Block.node, Node.html, opened, pair]
  | .code language lines => by
    simp [Block.html, Block.node, Node.html, Forest.html, opened, closed]
  | .admonition kind body => by
    simp [Block.html, Block.node, Node.html, Forest.html, opened, closed, pair, html_nodesOf body]
  | .container name body => by
    simp [Block.html, Block.node, Node.html, Forest.html, opened, closed, pair, html_nodesOf body]

/-- What blocks write is the HTML of their forest. -/
theorem html_nodesOf : (bs : List Block) → html (nodesOf bs) = Block.htmlAll bs
  | [] => rfl
  | b :: bs => by
    rw [nodesOf, Block.htmlAll, Forest.html, Forest.html, html_nodesOf bs, Block.html_node b,
      List.append_assoc]
    rfl

theorem html_itemNodes : (items : List (List Block)) → html (itemNodes items) = Block.htmlItems items
  | [] => rfl
  | body :: items => by
    have hbody := html_dropLast_nodesOf (html_nodesOf body)
    have hitems := html_itemNodes items
    rw [Block.htmlItems]
    by_cases h : ∃ text, body = [.paragraph text]
    · obtain ⟨text, rfl⟩ := h
      simp [itemNodes, Forest.html, Node.html, opened, closed, html_inlineNodes,
        unwrapped_paragraph, hitems]
    · have hne : ∀ text, body ≠ [.paragraph text] := fun text he => h ⟨text, he⟩
      rw [itemNodes, unwrapped_of_ne_paragraph hne, ← hbody]
      · simp [Forest.html, Node.html, opened, closed, hitems]
      · exact hne

end

end Slideshow.Restructured
