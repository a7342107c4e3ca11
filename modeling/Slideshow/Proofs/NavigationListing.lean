import Slideshow.Proofs.PageAnchors

/-!
# The navigation of a page

The navigation is a list of links with lists in its items. Read back, with the number of items around
each link, it has the entries of the outline in their order, each at its depth, down to the third
level. So it is complete if the outline has three levels at most.
-/
namespace Slideshow
open Text Template
open Template.Node (emitAll?)

namespace Page

/-- A tag of the template without its brackets, or one character or value between tags. -/
inductive Mark
  | tag (inside : Emitted)
  | other (x : Char ⊕ Text)

/-- The marks of some output, behind what was read of a tag, if one is open. -/
def marksBehind : Option Emitted → Emitted → List Mark
  | _, [] => []
  | none, x :: out =>
    if x = .inl '<' then marksBehind (some []) out else .other x :: marksBehind none out
  | some tag, x :: out =>
    if x = .inl '>' then .tag tag :: marksBehind none out else marksBehind (some (tag ++ [x])) out

def marks (out : Emitted) : List Mark := marksBehind none out

/-- The text up to the next tag. -/
def textBefore : List Mark → Text
  | .other x :: ps => spelled [x] ++ textBefore ps
  | _ => []

/-- A link in nested lists: the number of items around it, where it leads, and its text. -/
structure Link where
  depth : Nat
  target : Option Text
  text : Text
  deriving DecidableEq

/-- The links among some marks that stand inside a number of items. -/
def linksInside (depth : Nat) : List Mark → List Link
  | [] => []
  | .other _ :: ps => linksInside depth ps
  | .tag tag :: ps =>
    if tagName tag = "li" then linksInside (depth + 1) ps
    else if tagName tag = "/li" then linksInside (depth - 1) ps
    else if tagName tag = "a" then
      ⟨depth, valueOf? "href" tag, textBefore ps⟩ :: linksInside depth ps
    else linksInside depth ps

def links (out : Emitted) : List Link := linksInside 0 (marks out)

theorem marks_tag {inside : Emitted} (h : .inl '>' ∉ inside) (out : Emitted) :
    marks ((.inl '<' :: inside ++ [.inl '>']) ++ out) = .tag inside :: marks out := by
  have hinside : ∀ read : Emitted, marksBehind (some read) (inside ++ .inl '>' :: out) =
      .tag (read ++ inside) :: marks out := by
    induction inside with
    | nil =>
      intro read
      rw [List.nil_append, marksBehind, if_pos rfl, List.append_nil, marks]
    | cons x inside ih =>
      rw [List.mem_cons, not_or] at h
      intro read
      rw [List.cons_append, marksBehind, if_neg (Ne.symm h.1), ih h.2, List.append_assoc]
      rfl
  have hsource : (.inl '<' :: inside ++ [.inl '>']) ++ out =
      .inl '<' :: (inside ++ .inl '>' :: out) := by simp
  rw [hsource, marks, marksBehind, if_pos rfl, hinside, List.nil_append]

/-- Some output has these links, whatever follows it, and closes the items that it opens. -/
def Lists (depth : Nat) (out : Emitted) (found : List Link) : Prop :=
  ∀ rest, linksInside depth (marks (out ++ rest)) = found ++ linksInside depth (marks rest)

namespace Lists
variable {depth : Nat} {a b : Emitted} {us vs : List Link}

theorem links (h : Lists 0 a us) : links a = us := by
  have := h []
  rw [List.append_nil] at this
  exact this.trans (List.append_nil us)

theorem append (ha : Lists depth a us) (hb : Lists depth b vs) : Lists depth (a ++ b) (us ++ vs) := by
  intro rest
  rw [List.append_assoc, ha, hb, List.append_assoc]

theorem flatMap {α : Type} {as : List α} {f : α → Emitted} {g : α → List Link}
    (h : ∀ a ∈ as, Lists depth (f a) (g a)) : Lists depth (as.flatMap f) (as.flatMap g) := by
  induction as with
  | nil => exact fun _ => rfl
  | cons a as ih =>
    rw [List.flatMap_cons, List.flatMap_cons]
    exact (h a (by simp)).append (ih fun b hb => h b (List.mem_cons_of_mem a hb))

end Lists

end Page

/-! ## Items and lists -/

namespace Outline
open Node (depthsOf)

mutual

theorem le_of_mem_depths {depth : Nat} : (n : Node) → ∀ p ∈ n.depths depth, depth ≤ p.1
  | .mk e cs, p, hp => by
    rcases List.mem_cons.1 hp with rfl | hp
    · exact Nat.le_refl depth
    · exact Nat.le_of_succ_le (le_of_mem_depthsOf cs p hp)

theorem le_of_mem_depthsOf {depth : Nat} : (ns : List Node) → ∀ p ∈ depthsOf depth ns, depth ≤ p.1
  | [], p, hp => by simp [depthsOf] at hp
  | n :: ns, p, hp => by
    rcases List.mem_append.1 hp with hp | hp
    · exact le_of_mem_depths n p hp
    · exact le_of_mem_depthsOf ns p hp

end

theorem depthsOf_eq_flatMap (depth : Nat) (ns : List Node) :
    depthsOf depth ns = ns.flatMap fun n => (depth, n.entry) :: depthsOf (depth + 1) n.children := by
  induction ns with
  | nil => rfl
  | cons n ns ih =>
    obtain ⟨e, cs⟩ := n
    rw [depthsOf, ih, Node.depths, List.flatMap_cons]
    rfl

/-- The entries of some nodes with their depths, down to a last depth. -/
def Node.depthsWithin (last depth : Nat) (ns : List Node) : List (Nat × Entry) :=
  (depthsOf depth ns).filter (·.1 ≤ last)

end Outline

namespace Page
open Outline.Node (depthsOf depthsWithin)

/-- The link of an entry at a depth. -/
def linkOf (p : Nat × Outline.Entry) : Link :=
  ⟨p.1, some ("#slide-" ++ decimal p.2.number), p.2.title⟩

/-- An item has the link of its entry inside it, and those of the list below that entry. -/
theorem lists_itemOf {depth : Nat} {below : Emitted} {found : List Link}
    (h : Lists (depth + 1) below found) (e : Outline.Entry) :
    Lists depth (itemOf e below) (linkOf (depth + 1, e) :: found) := by
  intro rest
  have hitem : ∀ out, linksInside depth (marks (own "<li>" ++ out)) =
      linksInside (depth + 1) (marks out) := fun out => by cbv
  have hend : ∀ out, linksInside (depth + 1) (marks (own "</li>\n" ++ out)) =
      linksInside depth (marks out) := fun out => by cbv
  have hlink : ∀ out, linksInside (depth + 1)
      (marks ((.inl '<' :: linkTag e ++ [.inl '>']) ++ (put e.title ++ (own "</a>" ++ out)))) =
        linkOf (depth + 1, e) :: linksInside (depth + 1) (marks out) := by
    intro out
    have hopen : Sum.inl '>' ∉ linkTag e := by simp [linkTag, own, put]
    have hname : tagName (linkTag e) = "a" := by cbv
    have htitle : marks (put e.title ++ (own "</a>" ++ out)) =
        .other (.inr e.title) :: .tag (own "/a") :: marks out := by
      generalize e.title = title
      cbv
    have htext : textBefore (.other (.inr e.title) :: .tag (own "/a") :: marks out) = e.title := by
      rw [textBefore, textBefore, List.append_nil]
      · exact spelled_put e.title
      · simp
    have hclose : linksInside (depth + 1) (.tag (own "/a") :: marks out) =
        linksInside (depth + 1) (marks out) := by cbv
    rw [marks_tag hopen, htitle, linksInside, if_neg (by simp [hname]), if_neg (by simp [hname]),
      if_pos hname, valueOf?_linkTag, htext, linksInside, hclose]
    rfl
  have hparts : itemOf e below ++ rest = own "<li>" ++ ((.inl '<' :: linkTag e ++ [.inl '>']) ++
      (put e.title ++ (own "</a>" ++ (below ++ (own "</li>\n" ++ rest))))) := by
    simp only [itemOf, List.flatten_cons, List.flatten_nil, List.append_assoc, List.append_nil]
  rw [hparts, hitem, hlink, h, hend, List.cons_append]

theorem depthsWithin_eq_flatMap {last depth : Nat} (h : depth ≤ last) (ns : List Outline.Node) :
    depthsWithin last depth ns =
      ns.flatMap fun n => (depth, n.entry) :: depthsWithin last (depth + 1) n.children := by
  rw [depthsWithin, Outline.depthsOf_eq_flatMap, List.filter_flatMap]
  refine List.flatMap_congr fun n _ => ?_
  rw [List.filter_cons, if_pos (by simpa using h)]
  rfl

theorem depthsWithin_of_lt {last depth : Nat} (h : last < depth) (ns : List Outline.Node) :
    depthsWithin last depth ns = [] := by
  refine List.filter_eq_nil_iff.2 fun p hp => ?_
  have := Outline.le_of_mem_depthsOf ns p hp
  simp only [decide_eq_true_eq]
  omega

/-- Items hold the entries of their nodes and those below them, down to the last depth. -/
theorem lists_items {last depth : Nat} (hdepth : depth < last) {below : List Outline.Node → Emitted}
    (h : ∀ ns, Lists (depth + 1) (below ns) ((depthsWithin last (depth + 2) ns).map linkOf))
    (ns : List Outline.Node) : Lists depth (ns.flatMap fun n => itemOf n.entry (below n.children))
      ((depthsWithin last (depth + 1) ns).map linkOf) := by
  rw [depthsWithin_eq_flatMap hdepth, List.map_flatMap]
  exact .flatMap fun n _ => lists_itemOf (h n.children) n.entry

/-- A list below an item goes down to the last depth. -/
theorem lists_listed (count depth : Nat) (ns : List Outline.Node) :
    Lists depth (listed count ns) ((depthsWithin (depth + count) (depth + 1) ns).map linkOf) := by
  induction count generalizing depth ns with
  | zero =>
    rw [listed, Nat.add_zero, depthsWithin_of_lt (Nat.lt_succ_self depth)]
    exact fun _ => rfl
  | succ count ih =>
    rw [listed]
    split
    · next hns =>
      subst hns
      exact fun _ => rfl
    · have hbelow : ∀ ms, Lists (depth + 1) (listed count ms)
          ((depthsWithin (depth + (count + 1)) (depth + 2) ms).map linkOf) := fun ms => by
        have := ih (depth + 1) ms
        rwa [Nat.add_right_comm, Nat.add_assoc] at this
      have hitems := lists_items (Nat.lt_add_of_pos_right (Nat.succ_pos count)) hbelow ns
      intro rest
      have hopen : ∀ out, linksInside depth (marks (own "\n<ul>\n" ++ out)) =
          linksInside depth (marks out) := fun out => by cbv
      have hclose : ∀ out, linksInside depth (marks (own "</ul>\n" ++ out)) =
          linksInside depth (marks out) := fun out => by cbv
      simp only [List.flatten_cons, List.flatten_nil, List.append_assoc, List.nil_append]
      rw [hopen, hitems, hclose]

/-- The navigation shows three levels of an outline. -/
theorem links_navigationOf (ns : List Outline.Node) :
    links (navigationOf ns) = (depthsWithin 3 1 ns).map linkOf := by
  refine Lists.links ?_
  have hitems := @lists_items 3 0 (by omega) _ (lists_listed 2 1) ns
  intro rest
  have hopen : ∀ out, linksInside 0 (marks
      (own "<nav id=\"toc\" class=\"hidden\">\n<h2>Table of Contents</h2>\n<ul>\n" ++ out)) =
        linksInside 0 (marks out) := fun out => by cbv
  have hclose : ∀ out, linksInside 0 (marks (own "</ul>\n</nav>\n" ++ out)) =
      linksInside 0 (marks out) := fun out => by cbv
  simp only [navigationOf, List.flatten_cons, List.flatten_nil, List.append_assoc, List.nil_append]
  rw [hopen, hitems, hclose]

/-- The text of the built-in page has the navigation in it. -/
theorem exists_render_navigation (p : Page) : ∃ before nav after,
    emitAll? ⟨[], p.values⟩ navigation = some nav ∧
      p.render none = .ok (spelled (before ++ nav ++ after)) ∧
      links nav = (depthsWithin 3 1 p.outline).map linkOf := by
  obtain ⟨first, hfirst, -⟩ := exists_emitAll?_opening p
  obtain ⟨last, hlast, -⟩ := exists_emitAll?_closing p
  have hnavigation : emitAll? ⟨[], p.values⟩ navigation = some (navigationOf p.outline) :=
    emitAll?_navigation (Scope.Names.of_values (by cbv))
  have hpage := Node.emitAll?_append (Node.emitAll?_append (Node.emitAll?_append hfirst hnavigation)
    (emitAll?_slides p)) hlast
  have hrender := render_of_emitAll? hpage
  rw [List.append_assoc] at hrender
  exact ⟨first, _, _, hnavigation, hrender, links_navigationOf p.outline⟩

end Page

namespace Deck
open Outline.Node (depthsOf depthsWithin)
variable (d : Deck) (slides : List Slide)

theorem outline_page : (d.page slides).outline = d.outline slides := rfl

/-- The navigation of a page has the links of the outline's entries, each to its own slide, in the order
of the slides and each inside the items of the entries above it, down to the third level. It has all of
them exactly if the outline goes no deeper, as it does if no slide has a level of zero and the deepest
level is at most three. -/
theorem links_of_navigation : ∃ before nav after,
    emitAll? ⟨[], (d.page slides).values⟩ Page.navigation = some nav ∧
      (d.page slides).render none = .ok (spelled (before ++ nav ++ after)) ∧
      Page.links nav = (depthsWithin 3 1 (d.outline slides)).map Page.linkOf ∧
      (Page.links nav = (depthsOf 1 (d.outline slides)).map Page.linkOf ↔
        ∀ p ∈ depthsOf 1 (d.outline slides), p.1 ≤ 3) ∧
      (d.settings.maxTocLevel ≤ 3 → (∀ s ∈ slides, ∀ level, s.level = some level → 1 ≤ level) →
        Page.links nav = (depthsOf 1 (d.outline slides)).map Page.linkOf ∧
        ∀ s ∈ slides, ∃ depth, Page.linkOf (depth, Outline.entryOf d.settings.maxTocLevel s) ∈
          Page.links nav) := by
  obtain ⟨before, nav, after, hnav, hrender, hlinks⟩ := (d.page slides).exists_render_navigation
  rw [outline_page] at hlinks
  have hcomplete : Page.links nav = (depthsOf 1 (d.outline slides)).map Page.linkOf ↔
      ∀ p ∈ depthsOf 1 (d.outline slides), p.1 ≤ 3 := by
    rw [hlinks]
    constructor
    · intro heq p hp
      have hlength := congrArg List.length heq
      rw [List.length_map, List.length_map, depthsWithin,
        List.length_filter_eq_length_iff] at hlength
      simpa using hlength p hp
    · intro hdepths
      rw [depthsWithin, List.filter_eq_self.2 fun p hp => by simpa using hdepths p hp]
  refine ⟨before, nav, after, hnav, hrender, hlinks, hcomplete, fun hdeepest hlevels => ?_⟩
  have hall := hcomplete.2 fun p hp =>
    Nat.le_trans (Outline.depth_le_of_ofSlides hlevels p hp).2 (by omega)
  refine ⟨hall, fun s hs => ?_⟩
  have hentry : Outline.entryOf d.settings.maxTocLevel s ∈
      (depthsOf 1 (d.outline slides)).map Prod.snd := by
    rw [Outline.map_snd_depthsOf, outline, Outline.entriesOf_ofSlides]
    exact List.mem_map_of_mem hs
  obtain ⟨p, hp, hp'⟩ := List.mem_map.1 hentry
  rw [hall, ← hp']
  exact ⟨p.1, List.mem_map_of_mem hp⟩

/-- A slide with a heading. -/
def headedSlide (title : Text) (level number : Nat) : Slide where
  title := some title
  level := some level
  number := number

/-- A deck whose outline has headings of the first levels, down to some level. -/
def outlinedDeck (deepest : Nat) : Deck where
  source := "deck.md"
  settings := { maxTocLevel := deepest }
  dialect := .markdown
  text := []
  pipeline := Pipeline.standard {}

theorem links_of_outlinedDeck :
    let d := outlinedDeck 3
    let slides := [headedSlide "A" 1 1, headedSlide "B" 3 2, headedSlide "C" 2 3]
    d.settings.maxTocLevel ≤ 3 ∧ (∀ s ∈ slides, ∀ level, s.level = some level → 1 ≤ level) ∧
      ∃ before nav after, (d.page slides).render none = .ok (spelled (before ++ nav ++ after)) ∧
        Page.links nav =
          [⟨1, some "#slide-1", "A"⟩, ⟨2, some "#slide-2", "B"⟩, ⟨2, some "#slide-3", "C"⟩] ∧
        ∀ s ∈ slides, ∃ depth, Page.linkOf (depth, Outline.entryOf 3 s) ∈ Page.links nav := by
  intro d slides
  have hlevels : ∀ s ∈ slides, ∀ level, s.level = some level → 1 ≤ level := by
    simp [slides, headedSlide]
  have hdeepest : d.settings.maxTocLevel ≤ 3 := Nat.le_refl 3
  obtain ⟨before, nav, after, -, hrender, -, -, hcomplete⟩ := links_of_navigation d slides
  obtain ⟨hlinks, hreached⟩ := hcomplete hdeepest hlevels
  exact ⟨hdeepest, hlevels, before, nav, after, hrender, hlinks.trans (by cbv), hreached⟩

/-- An entry on the fourth level of an outline has no link. -/
theorem not_linked_of_fourthLevel :
    let d := outlinedDeck 4
    let deep := headedSlide "D" 4 4
    let slides := [headedSlide "A" 1 1, headedSlide "B" 2 2, headedSlide "C" 3 3, deep]
    depthsOf 1 (d.outline slides) =
        [(1, ⟨"A", 1, 1⟩), (2, ⟨"B", 2, 2⟩), (3, ⟨"C", 3, 3⟩), (4, ⟨"D", 4, 4⟩)] ∧
      deep.level = some d.settings.maxTocLevel ∧
      ∃ nav, emitAll? ⟨[], (d.page slides).values⟩ Page.navigation = some nav ∧
        ∀ link ∈ Page.links nav, link.target ≠ some "#slide-4" := by
  intro d deep slides
  obtain ⟨-, nav, -, hnav, -, hlinks⟩ := (d.page slides).exists_render_navigation
  rw [outline_page] at hlinks
  have hshown : (depthsWithin 3 1 (d.outline slides)).map Page.linkOf =
      [⟨1, some "#slide-1", "A"⟩, ⟨2, some "#slide-2", "B"⟩, ⟨3, some "#slide-3", "C"⟩] := by cbv
  refine ⟨by cbv, rfl, nav, hnav, ?_⟩
  rw [hlinks, hshown]
  simp

end Deck

end Slideshow
