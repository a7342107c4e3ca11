import Slideshow.Proofs.Forest
import Slideshow.Proofs.NotesWords

/-!
# Splitting a forest

The fragments of an HTML document are found by a depth counter over its tags. For the document that
a forest writes they are the groups of its top-level nodes: a rule closes a group and is dropped, a
heading that starts a slide closes the group before it. What lies inside a node is never looked at,
except for the words of a heading that announces presenter notes.
-/
namespace Slideshow.Forest
open Text Markup Fragment

/-- The level of an element that is named like a heading. -/
def headingLevel? (name : Text) : Option Nat :=
  match smallName name with
  | ['h', digit] => headingDigit? digit
  | _ => none

/-- The text of nodes that are text and nothing else. -/
def plainText? : List Node → Option Text
  | [] => some []
  | .text content :: ns => (plainText? ns).map (content ++ ·)
  | _ => none

namespace Node

/-- White space or a comment. -/
def isVacant : Node → Bool
  | text content => isAllBlank content
  | comment _ => true
  | _ => false

def isRule : Node → Bool
  | void name _ => smallName name = ("hr" : Text)
  | _ => false

/-- A heading up to a level whose text does not announce presenter notes. -/
def opensSlide (level : Nat) : Node → Bool
  | element name _ children =>
    (headingLevel? name).any (· ≤ level) && !(plainText? children).any announcesNotes
  | _ => false

end Node

/-- The groups of top-level nodes; `current` is the group under way. -/
def groups (level : Nat) (current : List Node) : List Node → List (List Node)
  | [] => [current]
  | n :: ns =>
    if n.isRule then current :: groups level [] ns
    else if n.opensSlide level ∧ ¬current.all Node.isVacant then current :: groups level [n] ns
    else groups level (current ++ [n]) ns

/-- The HTML of the groups that are not vacant. -/
def fragments (level : Nat) (forest : List Node) : List Text :=
  ((groups level [] forest).filter fun g => !g.all Node.isVacant).map fun g => trim (html g)

/-- Every node but the rules lands in exactly one group, and order is kept. -/
theorem flatten_groups (level : Nat) (current forest : List Node) :
    (groups level current forest).flatten = current ++ forest.filter (!·.isRule) := by
  induction forest generalizing current with
  | nil => simp [groups]
  | cons n ns ih =>
    simp only [groups]
    split
    · next hr => simp [ih, hr]
    · next hr =>
      split
      · simp [ih, hr]
      · simp [ih, hr]

theorem mem_of_mem_groups {level : Nat} {current forest g : List Node} {n : Node}
    (hg : g ∈ groups level current forest) (hn : n ∈ g) : n ∈ current ∨ n ∈ forest := by
  have h : n ∈ (groups level current forest).flatten := List.mem_flatten.2 ⟨g, hg, hn⟩
  rw [flatten_groups, List.mem_append, List.mem_filter] at h
  exact h.imp_right And.left

/-- Nodes that are no rules and start no slide join the group under way. -/
theorem groups_append {level : Nat} {ns : List Node}
    (h : ∀ n ∈ ns, n.isRule = false ∧ n.opensSlide level = false) (current rest : List Node) :
    groups level current (ns ++ rest) = groups level (current ++ ns) rest := by
  induction ns generalizing current with
  | nil => simp
  | cons n ns ih =>
    obtain ⟨hr, ho⟩ := h n (by simp)
    have hns := ih (fun m hm => h m (List.mem_cons_of_mem n hm)) (current ++ [n])
    simpa [groups, hr, ho] using hns

/-! ## Inside an element -/

section Cut
variable {level depth : Nat} {pending : Text}

/-- Plain text joins the piece under way. -/
theorem cut_plain (pending s : Text) :
    cut level depth pending (tokens s) =
      cut level depth (pending ++ s.takeWhile (· ≠ '<')) (tokens (s.dropWhile (· ≠ '<'))) := by
  cases s with
  | nil => simp
  | cons c s =>
    by_cases hc : c = '<'
    · simp [hc]
    · simp [tokens_plain hc, cut, Token.source, hc]

theorem cut_text {content : Text} (h : '<' ∉ content) (s : Text) :
    cut level depth pending (tokens (content ++ s)) =
      cut level depth (pending ++ content) (tokens s) := by
  rw [cut_plain pending, cut_plain (pending ++ content),
    List.takeWhile_append_of_pos (ne_of_not_mem h), List.dropWhile_append_of_pos (ne_of_not_mem h), List.append_assoc]

theorem cut_commented {body : Text} (h : Text.occursIn "-->" body = false) (s : Text) :
    cut level depth pending (tokens (commented body ++ s)) =
      cut level depth (pending ++ commented body) (tokens s) := by
  rw [tokens_commented h, cut]
  · rfl
  · simp

theorem cut_closed {name : Text} (hn : isName name) (s : Text) :
    cut level (depth + 1) pending (tokens (closed name ++ s)) =
      cut level depth (pending ++ closed name) (tokens s) := by
  rw [tokens_closed hn, cut, closeTag_source]
  rfl

/-- Below the top level an open tag only joins the piece under way. -/
theorem cut_opened_inside {name attributes : Text} (hn : isName name) (ha : isInTag attributes)
    (s : Text) :
    cut level (depth + 1) pending (tokens (opened name attributes ++ s)) =
      cut level (depthInside (depth + 1) (openTag name attributes))
        (pending ++ opened name attributes) (tokens s) := by
  rw [tokens_opened hn ha, cut]
  simp

end Cut

mutual

/-- Inside an element a whole tree joins the piece under way and leaves the depth as it was. -/
theorem cut_node_inside (level depth : Nat) (pending s : Text) :
    (n : Node) → n.isWellFormed →
    cut level (depth + 1) pending (tokens (n.html ++ s)) =
      cut level (depth + 1) (pending ++ n.html) (tokens s)
  | .text content, h => by
    simp only [Node.isWellFormed, decide_eq_true_eq] at h
    exact cut_text h s
  | .comment body, h => by
    simp only [Node.isWellFormed, Bool.not_eq_true'] at h
    exact cut_commented h s
  | .void name attributes, h => by
    simp only [Node.isWellFormed, Bool.and_eq_true, decide_eq_true_eq] at h
    rw [Node.html, cut_opened_inside h.1.1 h.1.2, depthInside_void h.2]
  | .element name attributes children, h => by
    simp only [Node.isWellFormed, Bool.and_eq_true] at h
    obtain ⟨⟨⟨hn, ha⟩, he⟩, hc⟩ := h
    rw [Node.html, List.append_assoc, List.append_assoc, cut_opened_inside hn ha,
      depthInside_openTag he, cut_nodes_inside level (depth + 1) _ _ children hc, cut_closed hn]
    simp only [List.append_assoc]

theorem cut_nodes_inside (level depth : Nat) (pending s : Text) :
    (ns : List Node) → isWellFormed ns →
    cut level (depth + 1) pending (tokens (html ns ++ s)) =
      cut level (depth + 1) (pending ++ html ns) (tokens s)
  | [], _ => by simp [html]
  | n :: ns, h => by
    simp only [isWellFormed, Bool.and_eq_true] at h
    rw [html, List.append_assoc, cut_node_inside level depth _ _ n h.1,
      cut_nodes_inside level depth _ _ ns h.2, List.append_assoc]

end

/-! ## Names of headings -/

/-- Reading further digits never makes a number smaller. -/
private theorem le_of_foldlM {digits : Text} {m n : Nat}
    (h : digits.foldlM
      (fun n c => if c.isDigit then some (10 * n + (c.toNat - 48)) else none) m = some n) :
    m ≤ n := by
  induction digits generalizing m with
  | nil =>
    have : m = n := by simpa using h
    omega
  | cons c digits ih =>
    simp only [List.foldlM_cons, Option.bind_eq_bind, Option.bind_eq_some_iff] at h
    obtain ⟨k, hk, h⟩ := h
    have := ih h
    split at hk
    · have : 10 * m + (c.toNat - 48) = k := by simpa using hk
      omega
    · simp at hk

theorem headingDigit?_eq (c : Char) :
    headingDigit? c = if 49 ≤ c.toNat ∧ c.toNat ≤ 54 then some (c.toNat - 48) else none := rfl

/-- A level without leading zeros is one digit. -/
theorem level_eq_headingDigit? {digits : Text} (h : digits.head? ≠ some '0') :
    ((value? digits).filter fun n => 1 ≤ n && n ≤ 6) =
      match digits with
      | [digit] => headingDigit? digit
      | _ => none := by
  match digits with
  | [] => rfl
  | [c] =>
    simp only [value?, List.foldlM_cons, List.foldlM_nil, headingDigit?_eq]
    by_cases hd : c.isDigit
    · have := isDigit_iff.1 hd
      by_cases hr : 49 ≤ c.toNat ∧ c.toNat ≤ 54
      · simp [hd, hr, Option.filter]
        omega
      · simp [hd, hr, Option.filter]
        omega
    · have hr : ¬(49 ≤ c.toNat ∧ c.toNat ≤ 54) := by
        intro hr
        exact hd (isDigit_iff.2 (by omega))
      simp [hd, hr]
  | c :: d :: rest =>
    cases hv : value? (c :: d :: rest) with
    | none => rfl
    | some n =>
      simp only [value?, List.foldlM_cons, Option.bind_eq_bind, Option.bind_eq_some_iff] at hv
      obtain ⟨k, hk, l, hl, hv⟩ := hv
      split at hk
      · next hc =>
        split at hl
        · have hc := isDigit_iff.1 hc
          have hne : c.toNat ≠ 48 := by
            intro e
            apply h
            simp [show c = '0' from Char.toNat_inj.1 e]
          have := le_of_foldlM hv
          simp only [Option.some.injEq] at hk hl
          have hbig : ¬n ≤ 6 := by omega
          simp [hbig, Option.filter]
        · simp at hl
      · simp at hk

theorem levelOfName?_smallName {name attributes : Text} (h : isElement name attributes) :
    levelOfName? (smallName name) = headingLevel? name := by
  simp only [isElement, Bool.and_eq_true, decide_eq_true_eq] at h
  have h0 := h.1.2
  simp only [levelOfName?, headingLevel?, Option.bind_eq_bind]
  cases hs : smallName name with
  | nil => simp [dropAffix?]
  | cons c digits =>
    by_cases hc : c = 'h'
    · have hz : digits.head? ≠ some '0' := by
        intro e
        cases digits with
        | nil => simp at e
        | cons d digits =>
          have hd : d = '0' := by simpa using e
          simp [hs, hc, hd, dropAffix?] at h0
      have hdrop : dropAffix? "h" (c :: digits) = some digits := by simp [dropAffix?, hc]
      rw [hdrop, Option.bind_some, level_eq_headingDigit? hz, hc]
      cases digits with
      | nil => rfl
      | cons d digits => cases digits <;> rfl
    · have hdrop : dropAffix? "h" (c :: digits) = none := by
        simp [dropAffix?, Ne.symm hc]
      rw [hdrop, Option.bind_none]
      split
      · next e => exact absurd (List.cons.inj e).1 hc
      · rfl

/-- No void element is named like a heading. -/
theorem levelOfName?_void {name : Text} (h : name ∈ voidElements) : levelOfName? name = none := by
  simp only [voidElements, List.mem_cons, List.not_mem_nil, or_false] at h
  rcases h with h | h | h | h | h | h | h | h | h | h | h | h | h <;> subst h <;> cbv

/-! ## Vacant groups -/

private theorem uncommented_text {content : Text} (h : '<' ∉ content) (s : Text) :
    uncommented (content ++ s) = content ++ uncommented s := by
  induction content with
  | nil => rfl
  | cons c content ih =>
    have hc : c ≠ '<' := fun e => h (by simp [e])
    rw [List.cons_append, uncommented]
    split
    · next h' => simp [comment?_of_ne hc] at h'
    · rw [ih (fun hm => h (by simp [hm])), List.cons_append]

private theorem uncommented_commented {body : Text} (h : Text.occursIn "-->" body = false)
    (s : Text) : uncommented (commented body ++ s) = uncommented s := by
  have hc := comment?_commented h s
  cases hs : commented body ++ s with
  | nil => simp [commented] at hs
  | cons c t =>
    rw [hs] at hc
    rw [uncommented]
    split
    · next h' =>
      rw [hc] at h'
      simp only [Option.some.injEq, Prod.mk.injEq] at h'
      rw [h'.2]
    · next h' => simp [hc] at h'

/-- A tag is left where it stands. -/
theorem isVacant_opened {name : Text} (hn : isName name) (attributes s : Text) :
    Fragment.isVacant (opened name attributes ++ s) = false := by
  have hc := comment?_opened hn attributes s
  obtain ⟨c, t, -, ht⟩ := opened_eq hn attributes
  rw [ht, List.cons_append, List.cons_append] at hc ⊢
  rw [Fragment.isVacant, uncommented]
  split
  · next h' => simp [hc] at h'
  · simp [isAllBlank, isBlank_bracket]

/-- A group is vacant as nodes if it is vacant as HTML. -/
theorem isVacant_html {ns : List Node} (h : isWellFormed ns) :
    Fragment.isVacant (html ns) = ns.all Node.isVacant := by
  induction ns with
  | nil => simp [html, Fragment.isVacant, uncommented, isAllBlank]
  | cons n ns ih =>
    simp only [isWellFormed, Bool.and_eq_true] at h
    have hi := ih h.2
    cases n with
    | text content =>
      have ht : '<' ∉ content := by simpa [Node.isWellFormed] using h.1
      simp only [Fragment.isVacant, html, Node.html, uncommented_text ht, List.all_cons,
        Node.isVacant, ← hi, isAllBlank, List.all_append]
    | comment body =>
      have hb : Text.occursIn "-->" body = false := by simpa [Node.isWellFormed] using h.1
      simp only [Fragment.isVacant, html, Node.html, uncommented_commented hb, List.all_cons,
        Node.isVacant, ← hi, Bool.true_and]
    | void name attributes =>
      have hn : isName name := by
        simp only [Node.isWellFormed, Bool.and_eq_true] at h
        exact h.1.1.1
      simp [html, Node.html, isVacant_opened hn, Node.isVacant]
    | element name attributes children =>
      have hn : isName name := by
        simp only [Node.isWellFormed, Bool.and_eq_true] at h
        exact h.1.1.1.1
      simp [html, Node.html, isVacant_opened hn, Node.isVacant]

/-! ## Headings that start a slide -/

theorem plainText?_html {ns : List Node} {t : Text} (h : isWellFormed ns)
    (ht : plainText? ns = some t) : html ns = t ∧ '<' ∉ t := by
  induction ns generalizing t with
  | nil =>
    obtain rfl : [] = t := by simpa [plainText?] using ht
    simp [html]
  | cons n ns ih =>
    simp only [isWellFormed, Bool.and_eq_true] at h
    cases n with
    | text content =>
      obtain ⟨u, hu, rfl⟩ := Option.map_eq_some_iff.1 ht
      obtain ⟨he, hm⟩ := ih h.2 hu
      have hc : '<' ∉ content := by simpa [Node.isWellFormed] using h.1
      simp [html, Node.html, he, hm, hc]
    | comment body => simp [plainText?] at ht
    | void name attributes => simp [plainText?] at ht
    | element name attributes children => simp [plainText?] at ht

/-- Nodes that are not all text have an angle bracket behind their first text, and it opens no
close tag. -/
theorem html_of_plainText?_eq_none {ns : List Node} (h : isWellFormed ns)
    (hn : plainText? ns = none) : ∃ t c u, html ns = t ++ '<' :: c :: u ∧ '<' ∉ t ∧ c ≠ '/' := by
  have opens : ∀ {name : Text} (attributes s : Text), isName name →
      ∃ t c u, opened name attributes ++ s = t ++ '<' :: c :: u ∧ '<' ∉ t ∧ c ≠ '/' := by
    intro name attributes s hname
    obtain ⟨c, u, hc, he⟩ := opened_eq hname attributes
    refine ⟨[], c, u ++ s, by simp [he], by simp, ?_⟩
    rintro rfl
    simp at hc
  induction ns with
  | nil => simp [plainText?] at hn
  | cons n ns ih =>
    simp only [isWellFormed, Bool.and_eq_true] at h
    cases n with
    | text content =>
      have hns : plainText? ns = none := by simpa [plainText?] using hn
      obtain ⟨t, c, u, he, ht, hc⟩ := ih h.2 hns
      have hcontent : '<' ∉ content := by simpa [Node.isWellFormed] using h.1
      exact ⟨content ++ t, c, u, by simp [html, Node.html, he], by simp [ht, hcontent], hc⟩
    | comment body =>
      exact ⟨[], '!', "--" ++ body ++ "-->" ++ html ns, by simp [html, Node.html, commented],
        by simp, by decide⟩
    | void name attributes =>
      simp only [Node.isWellFormed, Bool.and_eq_true] at h
      exact opens attributes (html ns) h.1.1.1
    | element name attributes children =>
      simp only [Node.isWellFormed, Bool.and_eq_true] at h
      simp only [html, Node.html, List.append_assoc]
      exact opens attributes _ h.1.1.1.1

/-- The name of a heading is its letter and its digit. -/
theorem eq_of_headingLevel? {name : Text} {n : Nat} (h : headingLevel? name = some n) :
    ∃ c d, name = [c, d] ∧ c.toLower = 'h' ∧ headingDigit? d = some n := by
  unfold headingLevel? at h
  split at h
  · next digit hs =>
    simp only [smallName, List.map_eq_cons_iff, List.map_eq_nil_iff] at hs
    obtain ⟨c, _, rfl, hc, d, _, rfl, hd, rfl⟩ := hs
    have hl : digit.isLower = false := by
      rw [headingDigit?_eq] at h
      split at h
      · cases hl : digit.isLower with
        | false => rfl
        | true =>
          have := isLower_iff.1 hl
          omega
      · simp at h
    exact ⟨c, d, rfl, hc, by rw [eq_of_toLower_eq hd hl, h]⟩
  · simp at h

/-- What follows the close tag of a notes heading. -/
private def afterClosing? (s : Text) : Option Text :=
  match s with
  | d :: '>' :: rest => (headingDigit? d).map fun _ => rest
  | _ => none

private theorem notesHeading?_opened {name attributes : Text} {n : Nat}
    (hl : headingLevel? name = some n) (ha : isInTag attributes) (s : Text) :
    notesHeading? (opened name attributes ++ s) =
      ((afterNotesWords? s).bind (dropWord? "</h")).bind afterClosing? := by
  obtain ⟨c, d, rfl, hc, hd⟩ := eq_of_headingLevel? hl
  have hbegin : dropWord? "<h" (opened [c, d] attributes ++ s) =
      some (d :: (attributes ++ '>' :: s)) := by
    simp [opened, dropWord?, isCaseOf, hc]
  have hdrop : (attributes ++ '>' :: s).dropWhile (· ≠ '>') = '>' :: s :=
    (read_inside (isInTag_iff.1 ha).2 s).2
  have hend : dropAffix? ">" ('>' :: s) = some s := by simp [dropAffix?]
  simp only [notesHeading?, hbegin, hdrop, hend, hd, Option.bind_eq_bind, Option.bind_some,
    Option.bind_assoc]
  rfl

/-- A heading element is read as a notes heading if its children are text that announces notes. -/
theorem notesHeading?_element {name attributes : Text} {children : List Node} {n : Nat}
    (hl : headingLevel? name = some n) (ha : isInTag attributes) (hc : isWellFormed children)
    (s : Text) :
    (notesHeading? (opened name attributes ++ (html children ++ (closed name ++ s)))).isSome =
      (plainText? children).any announcesNotes := by
  obtain ⟨c, d, rfl, hh, hd⟩ := eq_of_headingLevel? hl
  rw [notesHeading?_opened hl ha]
  cases hp : plainText? children with
  | some t =>
    obtain ⟨rfl, ht⟩ := plainText?_html hc hp
    have hend : dropWord? "</h" ('<' :: ('/' :: ([c, d] ++ ['>']) ++ s)) = some (d :: '>' :: s) := by
      simp [dropWord?, isCaseOf, hh]
    rw [closed_eq, List.cons_append, closing_after_notesWords ht, hend]
    cases ha : announcesNotes (html children) with
    | false => simp [ha]
    | true => simp [ha, afterClosing?, hd]
  | none =>
    obtain ⟨t, e, u, he, ht, hne⟩ := html_of_plainText?_eq_none hc hp
    have hend : dropWord? "</h" ('<' :: (e :: u ++ (closed [c, d] ++ s))) = none := by
      have hslash : isCaseOf '/' e = false := not_isCaseOf (by decide) hne
      simp [dropWord?, hslash]
    rw [he, List.append_assoc, List.cons_append, closing_after_notesWords ht, hend]
    split <;> rfl

theorem opensSlide_void {name attributes : Text} (h : smallName name ∈ voidElements) (level : Nat)
    (rest : List Token) : Fragment.opensSlide level (openTag name attributes) rest = false := by
  simp [Fragment.opensSlide, levelOfName?_void h]

theorem opensSlide_element {name attributes : Text} {children : List Node} (ha : isInTag attributes)
    (he : isElement name attributes) (hc : isWellFormed children) (level : Nat) (s : Text) :
    Fragment.opensSlide level (openTag name attributes)
      (tokens (html children ++ (closed name ++ s))) =
        (Node.element name attributes children).opensSlide level := by
  have hspell : spell (.tag (openTag name attributes) ::
      tokens (html children ++ (closed name ++ s))) =
        opened name attributes ++ (html children ++ (closed name ++ s)) := by
    have := spell_tokens (html children ++ (closed name ++ s))
    simp only [spell, List.flatMap_cons, Token.source, openTag_source] at this ⊢
    rw [this]
  simp only [Fragment.opensSlide, Node.opensSlide, elementName_openTag,
    levelOfName?_smallName he, hspell]
  cases hl : headingLevel? name with
  | none => rfl
  | some n =>
    rw [← notesHeading?_element hl ha hc s]
    simp

/-! ## The top level -/

/-- At the top level an open tag may end the piece under way. -/
private theorem cut_opened_top {name attributes : Text} (hn : isName name) (ha : isInTag attributes)
    (level : Nat) (pending s : Text) :
    cut level 0 pending (tokens (opened name attributes ++ s)) =
      let t := openTag name attributes
      if smallName name = ("hr" : Text) then pending :: cut level (depthInside 0 t) [] (tokens s)
      else if Fragment.opensSlide level t (tokens s) ∧ !Fragment.isVacant pending then
        pending :: cut level (depthInside 0 t) (opened name attributes) (tokens s)
      else cut level (depthInside 0 t) (pending ++ opened name attributes) (tokens s) := by
  rw [tokens_opened hn ha, cut]
  simp

/-- Behind its open tag an element joins the piece under way up to its close tag. -/
private theorem cut_element {name attributes : Text} {children : List Node} (hn : isName name)
    (he : isElement name attributes) (hc : isWellFormed children) (level : Nat) (pending s : Text) :
    cut level (depthInside 0 (openTag name attributes)) (pending ++ opened name attributes)
        (tokens (html children ++ (closed name ++ s))) =
      cut level 0 (pending ++ (Node.element name attributes children).html) (tokens s) := by
  rw [depthInside_openTag he, cut_nodes_inside level 0 _ _ children hc, cut_closed hn]
  simp only [Node.html, List.append_assoc]

private theorem hr_void : ("hr" : Text) ∈ voidElements := by
  simp [voidElements]

/-- The pieces of a forest are its groups. -/
theorem cut_html (level : Nat) {current ns : List Node} (hcur : isWellFormed current)
    (hns : isWellFormed ns) :
    cut level 0 (html current) (tokens (html ns)) = (groups level current ns).map html := by
  induction ns generalizing current with
  | nil => simp [html, tokens, cut, groups]
  | cons n ns ih =>
    simp only [isWellFormed, Bool.and_eq_true] at hns
    have hsnoc : isWellFormed (current ++ [n]) := by
      rw [isWellFormed_iff] at hcur ⊢
      intro m hm
      rcases List.mem_append.1 hm with hm | hm
      · exact hcur m hm
      · obtain rfl : m = n := by simpa using hm
        exact hns.1
    have hnext := ih hsnoc hns.2
    simp only [html_append, html, List.append_nil] at hnext
    have hvacant := isVacant_html hcur
    cases n with
    | text content =>
      have hc : '<' ∉ content := by simpa [Node.isWellFormed] using hns.1
      rw [html, Node.html, cut_text hc]
      simpa [groups, Node.isRule, Node.opensSlide, Node.html] using hnext
    | comment body =>
      have hb : Text.occursIn "-->" body = false := by simpa [Node.isWellFormed] using hns.1
      rw [html, Node.html, cut_commented hb]
      simpa [groups, Node.isRule, Node.opensSlide, Node.html] using hnext
    | void name attributes =>
      have hw := hns.1
      simp only [Node.isWellFormed, Bool.and_eq_true, decide_eq_true_eq] at hw
      obtain ⟨⟨hn, ha⟩, hv⟩ := hw
      rw [html, Node.html, cut_opened_top hn ha]
      simp only [opensSlide_void hv, depthInside_void hv, groups, Node.isRule, Node.opensSlide,
        decide_eq_true_eq, Bool.false_eq_true, false_and, if_false]
      by_cases hr : smallName name = ("hr" : Text)
      · have hnil := @ih [] rfl hns.2
        rw [if_pos hr, if_pos hr, List.map_cons, ← hnil, html]
      · rw [if_neg hr, if_neg hr, ← hnext, Node.html]
    | element name attributes children =>
      have hw := hns.1
      simp only [Node.isWellFormed, Bool.and_eq_true] at hw
      obtain ⟨⟨⟨hn, ha⟩, he⟩, hc⟩ := hw
      have hr : smallName name ≠ ("hr" : Text) := by
        intro e
        simp only [isElement, Bool.and_eq_true, decide_eq_true_eq] at he
        exact he.1.1 (e ▸ hr_void)
      have hsingle := @ih [.element name attributes children]
        (by simpa [isWellFormed] using hns.1) hns.2
      simp only [html, List.append_nil] at hsingle
      have hfirst := cut_element hn he hc level [] (html ns)
      simp only [List.nil_append] at hfirst
      rw [html, Node.html, List.append_assoc, List.append_assoc, cut_opened_top hn ha]
      simp only [if_neg hr, opensSlide_element ha he hc, hvacant, cut_element hn he hc, hfirst,
        groups, Node.isRule, hnext, hsingle, Bool.false_eq_true, if_false, Bool.not_eq_true',
        Bool.not_eq_true]
      split <;> rfl

/-- Splitting the document that a forest writes gives the fragments of the forest: nodes are never
cut open, and all of them but the rules are kept, in order. -/
theorem split_html_eq_fragments (forest : List Node) (h : isWellFormed forest) (level : Nat) :
    Fragment.split (html forest) level = fragments level forest ∧
      (groups level [] forest).flatten = forest.filter (!·.isRule) := by
  refine ⟨?_, by simpa using flatten_groups level [] forest⟩
  have hcut := @cut_html level [] forest rfl h
  rw [html] at hcut
  have hvacant : ∀ g ∈ groups level [] forest,
      (!Fragment.isVacant (html g)) = !g.all Node.isVacant := by
    intro g hg
    rw [isVacant_html]
    rw [isWellFormed_iff] at h ⊢
    intro n hn
    rcases mem_of_mem_groups hg hn with hn | hn
    · simp at hn
    · exact h n hn
  rw [Fragment.split, hcut, List.filter_map, List.map_map, fragments]
  congr 1
  exact List.filter_congr hvacant

/-- Rules and headings inside an element or a comment, a heading behind a comment, and notes. -/
def nestedForest : List Node :=
  [.comment " <hr> ", .element "h1" "" [.text "A"], .text "\n",
    .element "blockquote" " class=q" [.element "h1" "" [.text "B"], .void "hr" " /"],
    .element "H1" "" [.text " Presenter  Notes"], .void "hr" "", .text "\n",
    .element "h2" "" [.text "C"]]

theorem split_nestedForest : isWellFormed nestedForest ∧
    Fragment.split (html nestedForest) 1 =
      [("<!-- <hr> --><h1>A</h1>\n<blockquote class=q>" : Text)
        ++ "<h1>B</h1><hr /></blockquote><H1> Presenter  Notes</H1>", "<h2>C</h2>"] := by
  have h : isWellFormed nestedForest := by cbv
  refine ⟨h, ?_⟩
  rw [(split_html_eq_fragments nestedForest h 1).1]
  cbv

end Slideshow.Forest
