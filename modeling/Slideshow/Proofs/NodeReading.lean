import Slideshow.Proofs.BalancedText
import Slideshow.Proofs.HeadingMarks
import Slideshow.Proofs.QuotedForest

/-!
# Where headings of a forest are read

Notes headings, titles and close tags of titles are looked for in a text, place after place. In the
HTML of a forest that holds marks of headings in tags only, they are found at nodes: the first one in
document order, at any depth. A title ends at the first close tag of a title behind it.
-/
namespace Slideshow.Forest
open Text Markup Fragment

mutual

/-- A node and all nodes inside it, parents before children. -/
def Node.preorder : Node → List Node
  | .text content => [.text content]
  | .comment body => [.comment body]
  | .void name attributes => [.void name attributes]
  | .element name attributes children => .element name attributes children :: preorder children

def preorder : List Node → List Node
  | [] => []
  | n :: ns => n.preorder ++ preorder ns

end

namespace Node

def children : Node → List Node
  | element _ _ children => children
  | _ => []

/-- A mark of a heading stands in a comment or in the attributes of a tag. -/
def isMarked : Node → Bool
  | text _ => false
  | comment body => holdsMark body
  | void _ attributes => holdsMark attributes
  | element _ attributes _ => holdsMark attributes

def isNotesHeading : Node → Bool
  | element name _ children =>
    (headingLevel? name).isSome && (plainText? children).any announcesNotes
  | _ => false

/-- The digit in the name of a heading, in small letters. -/
def titleDigit? (name : Text) : Option Char :=
  match name with
  | ['h', digit] => (headingDigit? digit).map fun _ => digit
  | _ => none

/-- A heading that can title a slide. -/
def isTitle : Node → Bool
  | element name _ _ => (titleDigit? name).isSome
  | _ => false

end Node

/-! ## Nodes that are passed over -/

/-- Nodes of a kind are passed over: nothing is read at their tags, whatever follows them. -/
structure Passes {β : Type} (read : Text → Option β) (skip : Node → Bool) : Prop where
  readsMarks : ReadsMarks read
  opened : ∀ {name attributes : Text} {children : List Node},
    (Node.element name attributes children).isWellFormed → skip (.element name attributes children) →
      ∀ s, read (opened name attributes ++ (html children ++ (closed name ++ s))) = none
  closed : ∀ {name attributes : Text} {children : List Node}, isName name →
    skip (.element name attributes children) → ∀ s, read (closed name ++ s) = none

section Scan
variable {β : Type} {read : Text → Option β}

theorem scan_opened (h : ReadsMarks read) {name attributes s : Text} (hn : isName name)
    (hm : holdsMark attributes = false) (hread : read (opened name attributes ++ s) = none) :
    scan read (opened name attributes ++ s) =
      (scan read s).map fun p => (opened name attributes ++ p.1, p.2) := by
  have hs : ∀ u, opened name attributes ++ u = '<' :: (name ++ (attributes ++ '>' :: u)) := by
    simp [opened]
  have hend : scan read ('>' :: s) = (scan read s).map fun p => ('>' :: p.1, p.2) :=
    h.scan_letters (w := ['>']) (by simp) s
  rw [hs] at hread ⊢
  rw [scan_cons_of_none hread, h.scan_letters (not_mem_name hn rfl), h.scan_unmarked hm (.inr rfl),
    hend]
  simp [hs, Function.comp_def]

theorem scan_closed (h : ReadsMarks read) {name s : Text} (hn : isName name)
    (hread : read (closed name ++ s) = none) :
    scan read (closed name ++ s) = (scan read s).map fun p => (closed name ++ p.1, p.2) := by
  have hletters : '<' ∉ '/' :: (name ++ ['>']) := by simp [not_mem_name hn (c := '<') rfl]
  rw [closed_eq, List.cons_append] at hread ⊢
  rw [scan_cons_of_none hread, h.scan_letters hletters]
  simp [Function.comp_def]

/-- No void element is named like a heading. -/
theorem startsMark_void {name attributes : Text} (h : smallName name ∈ voidElements) (s : Text) :
    startsMark (opened name attributes ++ s) = false := by
  have hnames : voidElements.all fun v =>
      1 < v.length && v[0]? ≠ some '/' && (v[0]? ≠ some 'h' || v[1]? = some 'r') := by cbv
  have hname := List.all_eq_true.1 hnames _ h
  rcases name with _ | ⟨c, _ | ⟨d, name⟩⟩
  · simp [smallName] at hname
  · simp [smallName] at hname
  · simp only [smallName, List.map_cons, Bool.and_eq_true, Bool.or_eq_true, decide_eq_true_eq,
      ne_eq, List.getElem?_cons_zero, List.getElem?_cons_succ, Option.some.injEq, and_assoc] at hname
    obtain ⟨-, hfirst, hsecond⟩ := hname
    have hsource : opened (c :: d :: name) attributes ++ s =
        '<' :: c :: d :: (name ++ (attributes ++ '>' :: s)) := by simp [opened]
    have hslash : isCaseOf '/' c = false := by simp [isCaseOf, hfirst]
    rw [hsource, startsMark_cons, isNumbered_cons, isNumbered_cons, hslash]
    rcases hsecond with hc | hd
    · simp [isCaseOf, hc]
    · have hdigit : headingDigit? d = none := by
        rw [headingDigit?_eq, if_neg]
        intro hd'
        have hlow : d.toLower = d := toLower_of_not_isUpper (Bool.eq_false_iff.2 fun hu => by
          have := isUpper_iff.1 hu
          omega)
        rw [hlow] at hd
        simp [hd] at hd'
      simp [isNumbered, dropWord?, hdigit]

mutual

theorem scan_node {skip : Node → Bool} (h : Passes read skip) (s : Text) : (n : Node) →
    n.isWellFormed → (∀ m ∈ n.preorder, m.isMarked = false ∧ skip m) →
    scan read (n.html ++ s) = (scan read s).map fun p => (n.html ++ p.1, p.2)
  | .text content, hn, _ => by
    simp only [Node.isWellFormed, decide_eq_true_eq] at hn
    exact h.readsMarks.scan_letters hn s
  | .comment body, _, hm =>
    h.readsMarks.scan_comment (hm (.comment body) (by simp [Node.preorder])).1 s
  | .void name attributes, hn, hm => by
    simp only [Node.isWellFormed, Bool.and_eq_true, decide_eq_true_eq] at hn
    have hread : read (opened name attributes ++ s) = none := by
      rw [Option.eq_none_iff_forall_ne_some]
      intro b hb
      have hmark := h.readsMarks.startsMark hb
      simp [startsMark_void hn.2] at hmark
    have hmark := (hm (.void name attributes) (by simp [Node.preorder])).1
    exact scan_opened h.readsMarks hn.1.1 hmark hread
  | .element name attributes children, hn, hm => by
    obtain ⟨hname, _, _, hc⟩ := isWellFormed_element.1 hn
    obtain ⟨hmark, hskip⟩ := hm _ (by rw [Node.preorder]; exact List.mem_cons_self)
    have hinner : ∀ m ∈ preorder children, m.isMarked = false ∧ skip m := fun m hmem =>
      hm m (by rw [Node.preorder]; exact List.mem_cons_of_mem _ hmem)
    rw [Node.html, List.append_assoc, List.append_assoc,
      scan_opened h.readsMarks hname hmark (h.opened hn hskip s), scan_html h _ children hc hinner,
      scan_closed h.readsMarks hname (h.closed hname hskip s)]
    simp [Function.comp_def]

/-- A forest of nodes that are passed over is passed over. -/
theorem scan_html {skip : Node → Bool} (h : Passes read skip) (s : Text) : (ns : List Node) →
    isWellFormed ns → (∀ m ∈ preorder ns, m.isMarked = false ∧ skip m) →
    scan read (html ns ++ s) = (scan read s).map fun p => (html ns ++ p.1, p.2)
  | [], _, _ => by simp [html]
  | n :: ns, hns, hm => by
    obtain ⟨hn, hrest⟩ := isWellFormed_cons.1 hns
    rw [html, List.append_assoc, scan_node h _ n hn fun m hmem => hm m (List.mem_append_left _ hmem),
      scan_html h s ns hrest fun m hmem => hm m (List.mem_append_right _ hmem)]
    simp [Function.comp_def]

end

end Scan

/-! ## Notes headings -/

theorem append_bracket_inj {x : Char} {a b u v : Text} (ha : x ∉ a) (hb : x ∉ b) :
    a ++ x :: u = b ++ x :: v ↔ a = b ∧ u = v := by
  refine ⟨fun h => ?_, by rintro ⟨rfl, rfl⟩; rfl⟩
  obtain ⟨hfront, -, hbehind⟩ := append_cons_inj ha hb h
  exact ⟨hfront, hbehind⟩

/-- A heading in two letters. -/
theorem isSome_headingLevel?_iff {name : Text} : (headingLevel? name).isSome ↔
    ∃ c d, name = [c, d] ∧ isCaseOf 'h' c ∧ (headingDigit? d).isSome := by
  constructor
  · intro h
    obtain ⟨n, hn⟩ := Option.isSome_iff_exists.1 h
    obtain ⟨c, d, rfl, hc, hd⟩ := eq_of_headingLevel? hn
    exact ⟨c, d, rfl, by simp [isCaseOf, hc], by simp [hd]⟩
  · rintro ⟨c, d, rfl, hc, hd⟩
    have hlower : c.toLower = 'h' := by simpa [isCaseOf] using hc
    obtain ⟨n, hn⟩ := Option.isSome_iff_exists.1 hd
    have hdigit : d.toLower = d := toLower_of_not_isUpper (Bool.eq_false_iff.2 fun hu => by
      have hupper := isUpper_iff.1 hu
      rw [headingDigit?_eq] at hn
      split at hn
      · omega
      · simp at hn)
    simp [headingLevel?, smallName, hlower, hdigit, hd]

/-- What announces notes up to the first close tag is an element that does. -/
theorem isNotesHeading_of_afterNotes? {name : Text} (attributes : Text) {children : List Node}
    (hname : isName name) (hc : isWellFormed children) {s rest : Text}
    (h : afterNotes? (html children ++ '<' :: '/' :: (name ++ '>' :: s)) = some rest) :
    (Node.element name attributes children).isNotesHeading := by
  obtain ⟨t, c, d, ht, hwords, hletter, hdigit⟩ := afterNotes?_eq_some_iff.1 h
  have hbracket : '<' ∉ t := fun hm => by
    rcases of_mem_announcesNotes hwords hm with hb | hb | hb
    · simp [isBlank_bracket] at hb
    · simp at hb
    · simp at hb
  have hend : '>' ∉ [c, d] := by
    intro hm
    rcases List.mem_pair.1 hm with rfl | rfl
    · simp [show isCaseOf 'h' '>' = false by decide] at hletter
    · simp [show headingDigit? '>' = none by decide] at hdigit
  cases hplain : plainText? children with
  | some u =>
    obtain ⟨hu, hmem⟩ := plainText?_html hc hplain
    have hcut : html children ++ '<' :: '/' :: (name ++ '>' :: s) =
        t ++ '<' :: '/' :: ([c, d] ++ '>' :: rest) := by simpa using ht
    rw [hu, append_bracket_inj hmem hbracket] at hcut
    obtain ⟨rfl, htag⟩ := hcut
    have hsame := (append_bracket_inj (not_mem_name hname rfl) hend).1 (List.cons.inj htag).2
    simp only [Node.isNotesHeading, hplain, Option.any_some, hwords, Bool.and_true]
    exact isSome_headingLevel?_iff.2 ⟨c, d, hsame.1, hletter, hdigit⟩
  | none =>
    obtain ⟨u, e, v, hu, hmem, hslash⟩ := html_of_plainText?_eq_none hc hplain
    have hcut : u ++ '<' :: (e :: (v ++ '<' :: '/' :: (name ++ '>' :: s))) =
        t ++ '<' :: ('/' :: ([c, d] ++ '>' :: rest)) := by simpa [hu] using ht
    have hsame := (append_bracket_inj hmem hbracket).1 hcut
    exact absurd (List.cons.inj hsame.2).1 hslash

/-- A notes heading is read up to its own close tag, and no other element is read as one. -/
theorem notesHeading?_element_eq {name attributes : Text} {children : List Node}
    (h : (Node.element name attributes children).isWellFormed) (s : Text) :
    notesHeading? (opened name attributes ++ (html children ++ (closed name ++ s))) =
      if (Node.element name attributes children).isNotesHeading then some s else none := by
  obtain ⟨hname, ha, -, hc⟩ := isWellFormed_element.1 h
  have hinside : '>' ∉ '<' :: (name ++ attributes) := by
    simp [not_mem_name hname (c := '>') rfl, (isInTag_iff.1 ha).2]
  have hsource : opened name attributes ++ (html children ++ (closed name ++ s)) =
      '<' :: (name ++ attributes) ++ '>' :: (html children ++ '<' :: '/' :: (name ++ '>' :: s)) := by
    simp [opened, closed]
  rw [hsource, notesHeading?_tag hinside]
  by_cases hnotes : (Node.element name attributes children).isNotesHeading
  · rw [if_pos hnotes]
    simp only [Node.isNotesHeading, Bool.and_eq_true, Option.any_eq_true] at hnotes
    obtain ⟨hlevel, t, ht, hwords⟩ := hnotes
    obtain ⟨c, d, rfl, hletter, hdigit⟩ := isSome_headingLevel?_iff.1 hlevel
    obtain ⟨rfl, -⟩ := plainText?_html hc ht
    have hstarts : startsHeading ('<' :: ([c, d] ++ attributes)) := by
      simp [startsHeading, dropWord?, hletter, hdigit, show isCaseOf '<' '<' by decide]
    rw [if_pos hstarts]
    exact afterNotes?_eq_some_iff.2 ⟨_, c, d, by simp, hwords, hletter, hdigit⟩
  · rw [if_neg hnotes, ite_eq_right_iff]
    intro _
    rw [Option.eq_none_iff_forall_ne_some]
    exact fun rest hrest => hnotes (isNotesHeading_of_afterNotes? attributes hname hc hrest)

theorem notesHeading?_closed {name : Text} (s : Text) : notesHeading? (closed name ++ s) = none := by
  rw [closed_eq]
  simp [notesHeading?, dropWord?, show isCaseOf '<' '<' by decide,
    show isCaseOf 'h' '/' = false by decide]

theorem passes_notesHeading? : Passes notesHeading? (!·.isNotesHeading) where
  readsMarks := readsMarks_notesHeading?
  opened h hskip s := by
    rw [notesHeading?_element_eq h, if_neg (by simpa using hskip)]
  closed _ _ s := notesHeading?_closed s

theorem notesHeading?_html {n : Node} (hn : n.isWellFormed) (hnotes : n.isNotesHeading) (s : Text) :
    n.html ++ s ≠ [] ∧ notesHeading? (n.html ++ s) = some s := by
  cases n with
  | text content => simp [Node.isNotesHeading] at hnotes
  | comment body => simp [Node.isNotesHeading] at hnotes
  | void name attributes => simp [Node.isNotesHeading] at hnotes
  | element name attributes children =>
    rw [Node.html, List.append_assoc, List.append_assoc, notesHeading?_element_eq hn, if_pos hnotes]
    exact ⟨by simp [opened], rfl⟩

/-! ## Titles and their close tags -/

theorem titleDigit?_eq_some_iff {name : Text} {digit : Char} :
    Node.titleDigit? name = some digit ↔ name = ['h', digit] ∧ (headingDigit? digit).isSome := by
  constructor
  · intro h
    unfold Node.titleDigit? at h
    split at h
    · next d =>
      obtain ⟨n, hn, rfl⟩ := Option.map_eq_some_iff.1 h
      exact ⟨rfl, by simp [hn]⟩
    · simp at h
  · rintro ⟨rfl, hd⟩
    obtain ⟨n, hn⟩ := Option.isSome_iff_exists.1 hd
    simp [Node.titleDigit?, hn]

theorem isAlphanum_of_headingDigit? {c : Char} {n : Nat} (h : headingDigit? c = some n) :
    c.isAlphanum := by
  refine isAlphanum_iff.2 ?_
  rw [headingDigit?_eq] at h
  split at h
  · omega
  · simp at h

/-- The digit of a heading in small letters, and the rest of its tag. -/
theorem headingTag?_opened {name attributes : Text} (hn : isName name) (ha : isInTag attributes) :
    headingTag? ('<' :: (name ++ attributes)) =
      (Node.titleDigit? name).map fun digit => (digit, attributes) := by
  obtain ⟨c, name, rfl, -, hall⟩ := isName_iff.1 hn
  have hhead := (isInTag_iff.1 ha).1
  by_cases hc : 'h' = c
  · subst hc
    rcases name with _ | ⟨d, _ | ⟨e, name⟩⟩
    · cases attributes with
      | nil => simp [headingTag?, dropAffix?, Node.titleDigit?]
      | cons d attributes =>
        have hd : headingDigit? d = none := by
          rw [Option.eq_none_iff_forall_ne_some]
          intro n hn
          simp [isWord_of_alphanum (isAlphanum_of_headingDigit? hn)] at hhead
        simp [headingTag?, dropAffix?, Node.titleDigit?, hd]
    · cases hd : headingDigit? d <;>
        simp [headingTag?, dropAffix?, Node.titleDigit?, hd, hhead]
    · have he : isWord e := isWord_of_alphanum (hall e (by simp))
      simp [headingTag?, dropAffix?, Node.titleDigit?, he]
  · rcases name with _ | ⟨d, _ | ⟨e, name⟩⟩ <;>
      simp [headingTag?, dropAffix?, Node.titleDigit?, hc, Ne.symm hc]

theorem closingTag?_closed (name : Text) :
    closingTag? ('<' :: '/' :: name) = Node.titleDigit? name := by
  rcases name with _ | ⟨c, _ | ⟨d, _ | ⟨e, name⟩⟩⟩
  · simp [closingTag?, dropAffix?, Node.titleDigit?]
  · by_cases hc : 'h' = c <;> simp [closingTag?, dropAffix?, Node.titleDigit?, hc]
  · by_cases hc : 'h' = c
    · subst hc
      simp [closingTag?, dropAffix?, Node.titleDigit?]
    · simp [closingTag?, dropAffix?, Node.titleDigit?, hc, Ne.symm hc]
  · by_cases hc : 'h' = c <;> simp [closingTag?, dropAffix?, Node.titleDigit?, hc]

theorem closing?_closed {name : Text} (hn : isName name) (s : Text) :
    closing? (closed name ++ s) = (Node.titleDigit? name).map fun digit => (digit, s) := by
  have hsource : closed name ++ s = '<' :: '/' :: name ++ '>' :: s := by simp [closed_eq]
  rw [hsource, closing?_tag (by simp [not_mem_name hn (c := '>') rfl]), closingTag?_closed]

theorem headingRead?_opened {name attributes : Text} (hn : isName name) (ha : isInTag attributes)
    (s : Text) : Heading.read? (opened name attributes ++ s) =
      (Node.titleDigit? name).bind fun digit =>
        (cutAtClosing? s).map fun q => (⟨digit, attributes, q.1, q.2.1⟩, q.2.2) := by
  have hsource : opened name attributes ++ s = '<' :: (name ++ attributes) ++ '>' :: s := by
    simp [opened]
  have hinside : '>' ∉ '<' :: (name ++ attributes) := by
    simp [not_mem_name hn (c := '>') rfl, (isInTag_iff.1 ha).2]
  rw [hsource, Heading.read?_tag hinside, headingTag?_opened hn ha]
  cases Node.titleDigit? name <;> rfl

theorem passes_read? : Passes Heading.read? (!·.isTitle) where
  readsMarks := Heading.readsMarks_read?
  opened {name attributes children} h hskip s := by
    obtain ⟨hn, ha, -, -⟩ := isWellFormed_element.1 h
    have hdigit : Node.titleDigit? name = none := by simpa [Node.isTitle] using hskip
    rw [headingRead?_opened hn ha, hdigit, Option.bind_none]
  closed _ _ s := by simp [Heading.read?, closed_eq, dropAffix?]

theorem closing?_opened {name : Text} (hn : isName name) (attributes s : Text) :
    closing? (opened name attributes ++ s) = none := by
  obtain ⟨c, u, hc, hopen⟩ := opened_eq hn attributes
  have hslash : '/' ≠ c := by
    rintro rfl
    simp at hc
  simp [closing?, hopen, dropAffix?, hslash]

theorem passes_closing? : Passes closing? (!·.isTitle) where
  readsMarks := readsMarks_closing?
  opened h _ s := closing?_opened (isWellFormed_element.1 h).1 _ _
  closed {name attributes children} hn hskip s := by
    have hdigit : Node.titleDigit? name = none := by simpa [Node.isTitle] using hskip
    rw [closing?_closed hn, hdigit, Option.map_none]

/-! ## The first node that is not passed over -/

theorem preorder_append (ns ms : List Node) : preorder (ns ++ ms) = preorder ns ++ preorder ms := by
  induction ns with
  | nil => rfl
  | cons n ns ih => simp [preorder, ih]

mutual

theorem Node.isWellFormed_of_mem_preorder {m : Node} : (n : Node) → n.isWellFormed →
    m ∈ n.preorder → m.isWellFormed
  | .text _, h, hm => List.mem_singleton.1 hm ▸ h
  | .comment _, h, hm => List.mem_singleton.1 hm ▸ h
  | .void _ _, h, hm => List.mem_singleton.1 hm ▸ h
  | .element name attributes children, h, hm => by
    rw [Node.preorder, List.mem_cons] at hm
    rcases hm with rfl | hm
    · exact h
    · exact isWellFormed_of_mem_preorder children (isWellFormed_element.1 h).2.2.2 hm

theorem isWellFormed_of_mem_preorder {m : Node} : (ns : List Node) → isWellFormed ns →
    m ∈ preorder ns → m.isWellFormed
  | [], _, hm => by simp [preorder] at hm
  | n :: ns, h, hm => by
    rcases List.mem_append.1 hm with hm | hm
    · exact Node.isWellFormed_of_mem_preorder n (isWellFormed_cons.1 h).1 hm
    · exact isWellFormed_of_mem_preorder ns (isWellFormed_cons.1 h).2 hm

end

mutual

theorem Node.preorder_children_subset {m : Node} : (n : Node) → m ∈ n.preorder →
    preorder m.children ⊆ n.preorder
  | .text _, hm => by simp [List.mem_singleton.1 hm, Node.children, Forest.preorder]
  | .comment _, hm => by simp [List.mem_singleton.1 hm, Node.children, Forest.preorder]
  | .void _ _, hm => by simp [List.mem_singleton.1 hm, Node.children, Forest.preorder]
  | .element name attributes children, hm => by
    rw [Node.preorder, List.mem_cons] at hm
    rw [Node.preorder]
    rcases hm with rfl | hm
    · exact List.subset_cons_self _ _
    · exact List.subset_cons_of_subset _ (preorder_children_subset children hm)

theorem preorder_children_subset {m : Node} : (ns : List Node) → m ∈ preorder ns →
    preorder m.children ⊆ preorder ns
  | [], hm => by simp [preorder] at hm
  | n :: ns, hm => by
    rcases List.mem_append.1 hm with hm | hm
    · exact List.subset_append_of_subset_left _ (Node.preorder_children_subset n hm)
    · exact List.subset_append_of_subset_right _ (preorder_children_subset ns hm)

end

/-- A text in which reading starts at a place, and the number of elements around this place. -/
structure IsReadAt {β : Type} (read : Text → Option β) (text : Text) (depth : Nat)
    (before : Text) (n : Node) (after : Text) : Prop where
  around : Around depth before after
  html : text = before ++ (n.html ++ after)
  scan : ∀ s, scan read (text ++ s) =
    (scan read (n.html ++ (after ++ s))).map fun p => (before ++ p.1, p.2)

namespace IsReadAt
variable {β : Type} {read : Text → Option β} {text before after : Text} {depth : Nat} {n : Node}

theorem self (n : Node) : IsReadAt read n.html 0 [] n [] where
  around := .outside (isBalanced_text (by simp)) (isBalanced_text (by simp))
  html := by simp
  scan s := by simp

theorem append (h : IsReadAt read text depth before n after) {right : Text}
    (hright : IsBalanced right) : IsReadAt read (text ++ right) depth before n (after ++ right) where
  around := by simpa using h.around.widen (@isBalanced_text [] (by simp)) hright
  html := by simp [h.html]
  scan s := by rw [List.append_assoc, h.scan, List.append_assoc]

theorem passed (h : IsReadAt read text depth before n after) {left : Text}
    (hleft : IsBalanced left)
    (hscan : ∀ s, Markup.scan read (left ++ s) = (Markup.scan read s).map fun p => (left ++ p.1, p.2)) :
    IsReadAt read (left ++ text) depth (left ++ before) n after where
  around := by simpa using h.around.widen hleft (@isBalanced_text [] (by simp))
  html := by simp [h.html]
  scan s := by
    rw [List.append_assoc, hscan, h.scan]
    simp [Function.comp_def]

theorem inside (h : IsReadAt read text depth before n after) {name attributes : Text}
    (hn : isName name) (ha : isInTag attributes) (he : isElement name attributes)
    (hscan : ∀ s, Markup.scan read (opened name attributes ++ (text ++ (closed name ++ s))) =
      (Markup.scan read (text ++ (closed name ++ s))).map
        fun p => (opened name attributes ++ p.1, p.2)) :
    IsReadAt read (opened name attributes ++ text ++ closed name) (depth + 1)
      (opened name attributes ++ before) n (after ++ closed name) where
  around := by
    have hnil : IsBalanced [] := isBalanced_text (by simp)
    simpa using Around.inside hn ha he hnil hnil h.around
  html := by simp [h.html]
  scan s := by
    rw [List.append_assoc, List.append_assoc, hscan, h.scan]
    simp [Function.comp_def]

end IsReadAt

section First
variable {β : Type} {read : Text → Option β} {skip : Node → Bool}

mutual

private theorem exists_isReadAt_node (h : Passes read skip) {m : Node} : (n : Node) →
    n.isWellFormed → (∀ k ∈ n.preorder, k.isMarked = false) → n.preorder.find? (!skip ·) = some m →
    ∃ depth before after, IsReadAt read n.html depth before m after ∧ (depth = 0 → m = n)
  | .text content, _, _, hfirst => by
    obtain rfl : m = .text content := List.mem_singleton.1 (List.mem_of_find?_eq_some hfirst)
    exact ⟨0, [], [], .self _, fun _ => rfl⟩
  | .comment body, _, _, hfirst => by
    obtain rfl : m = .comment body := List.mem_singleton.1 (List.mem_of_find?_eq_some hfirst)
    exact ⟨0, [], [], .self _, fun _ => rfl⟩
  | .void name attributes, _, _, hfirst => by
    obtain rfl : m = .void name attributes :=
      List.mem_singleton.1 (List.mem_of_find?_eq_some hfirst)
    exact ⟨0, [], [], .self _, fun _ => rfl⟩
  | .element name attributes children, hn, hm, hfirst => by
    obtain ⟨hname, ha, he, hc⟩ := isWellFormed_element.1 hn
    rw [Node.preorder, List.find?_cons] at hfirst
    split at hfirst
    · obtain rfl := Option.some.inj hfirst
      exact ⟨0, [], [], .self _, fun _ => rfl⟩
    · next hskip =>
      have hskip : skip (.element name attributes children) := by simpa using hskip
      have hmark := hm _ (by rw [Node.preorder]; exact List.mem_cons_self)
      obtain ⟨depth, before, after, hread, -⟩ := exists_isReadAt h children hc
        (fun k hk => hm k (by rw [Node.preorder]; exact List.mem_cons_of_mem _ hk)) hfirst
      refine ⟨depth + 1, opened name attributes ++ before, after ++ closed name, ?_, by simp⟩
      rw [Node.html, ← List.append_assoc]
      exact hread.inside hname ha he fun s =>
        scan_opened h.readsMarks hname hmark (h.opened hn hskip s)

/-- Reading a forest starts at its first node that is not passed over. -/
theorem exists_isReadAt (h : Passes read skip) {m : Node} : (ns : List Node) →
    isWellFormed ns → (∀ k ∈ preorder ns, k.isMarked = false) →
    (preorder ns).find? (!skip ·) = some m →
    ∃ depth before after, IsReadAt read (html ns) depth before m after ∧ (depth = 0 → m ∈ ns)
  | [], _, _, hfirst => by simp [preorder] at hfirst
  | n :: ns, hns, hm, hfirst => by
    obtain ⟨hn, hrest⟩ := isWellFormed_cons.1 hns
    rw [preorder, List.find?_append, Option.or_eq_some_iff] at hfirst
    rcases hfirst with hfirst | ⟨hnone, hfirst⟩
    · obtain ⟨depth, before, after, hread, hsame⟩ := exists_isReadAt_node h n hn
        (fun k hk => hm k (List.mem_append_left _ hk)) hfirst
      exact ⟨depth, before, _, hread.append (isBalanced_html hrest),
        fun hdepth => hsame hdepth ▸ List.mem_cons_self⟩
    · have hpassed : ∀ k ∈ n.preorder, k.isMarked = false ∧ skip k := fun k hk =>
        ⟨hm k (List.mem_append_left _ hk), by simpa using List.find?_eq_none.1 hnone k hk⟩
      obtain ⟨depth, before, after, hread, hmem⟩ := exists_isReadAt h ns hrest
        (fun k hk => hm k (List.mem_append_right _ hk)) hfirst
      exact ⟨depth, _, after, hread.passed ⟨[n], isWellFormed_cons.2 ⟨hn, rfl⟩, by simp [html]⟩
        fun s => scan_node h s n hn hpassed, fun hdepth => List.mem_cons_of_mem _ (hmem hdepth)⟩

end

end First

/-! ## The close tag that ends a title -/

mutual

private theorem exists_scan_closing_node (s : Text) : (n : Node) → n.isWellFormed →
    (∀ m ∈ n.preorder, m.isMarked = false) → (∃ m ∈ n.preorder, m.isTitle) →
    ∃ depth inner digit rest, Opens (depth + 1) inner ∧ (headingDigit? digit).isSome ∧
      scan closing? (n.html ++ s) = some (inner, digit, rest)
  | .text _, _, _, ht => by simp [Node.preorder, Node.isTitle] at ht
  | .comment _, _, _, ht => by simp [Node.preorder, Node.isTitle] at ht
  | .void _ _, _, _, ht => by simp [Node.preorder, Node.isTitle] at ht
  | .element name attributes children, hn, hm, ht => by
    obtain ⟨hname, ha, he, hc⟩ := isWellFormed_element.1 hn
    have hmark := hm _ (by rw [Node.preorder]; exact List.mem_cons_self)
    have hinner : ∀ m ∈ preorder children, m.isMarked = false := fun m hmem =>
      hm m (by rw [Node.preorder]; exact List.mem_cons_of_mem _ hmem)
    have hopens := opens_opened hname ha he
    have hpast := fun u => scan_opened readsMarks_closing? (s := u) hname hmark
      (closing?_opened hname attributes u)
    rw [Node.html, List.append_assoc, List.append_assoc, hpast]
    by_cases hin : ∃ m ∈ preorder children, m.isTitle
    · obtain ⟨depth, inner, digit, rest, hinner, hdigit, hscan⟩ :=
        exists_scan_closing (closed name ++ s) children hc hinner hin
      exact ⟨1 + depth, _, digit, rest, hopens.append hinner, hdigit, by rw [hscan]; rfl⟩
    · have htitle : (Node.element name attributes children).isTitle := by
        obtain ⟨m, hmem, hm⟩ := ht
        rw [Node.preorder, List.mem_cons] at hmem
        rcases hmem with rfl | hmem
        · exact hm
        · exact absurd ⟨m, hmem, hm⟩ hin
      obtain ⟨digit, hdigit⟩ := Option.isSome_iff_exists.1 htitle
      have hclose : closing? (closed name ++ s) = some (digit, s) := by
        rw [closing?_closed hname, hdigit, Option.map_some]
      have hpassed : ∀ m ∈ preorder children, m.isMarked = false ∧ !m.isTitle := fun m hmem =>
        ⟨hinner m hmem, by simpa using fun hm => hin ⟨m, hmem, hm⟩⟩
      refine ⟨0, _, digit, s, hopens.append (isBalanced_html hc).opens,
        (titleDigit?_eq_some_iff.1 hdigit).2, ?_⟩
      rw [scan_html passes_closing? _ children hc hpassed,
        scan_of_read (by simp [closed_eq]) hclose]
      simp

/-- A forest with a title has a close tag of a title inside it, behind which elements are open. -/
theorem exists_scan_closing (s : Text) : (ns : List Node) → isWellFormed ns →
    (∀ m ∈ preorder ns, m.isMarked = false) → (∃ m ∈ preorder ns, m.isTitle) →
    ∃ depth inner digit rest, Opens (depth + 1) inner ∧ (headingDigit? digit).isSome ∧
      scan closing? (html ns ++ s) = some (inner, digit, rest)
  | [], _, _, ht => by simp [preorder] at ht
  | n :: ns, hns, hm, ht => by
    obtain ⟨hn, hrest⟩ := isWellFormed_cons.1 hns
    have hnode : ∀ m ∈ n.preorder, m.isMarked = false := fun m hmem =>
      hm m (List.mem_append_left _ hmem)
    rw [html, List.append_assoc]
    by_cases hin : ∃ m ∈ n.preorder, m.isTitle
    · exact exists_scan_closing_node (html ns ++ s) n hn hnode hin
    · have htail : ∃ m ∈ preorder ns, m.isTitle := by
        obtain ⟨m, hmem, hm⟩ := ht
        rcases List.mem_append.1 hmem with hmem | hmem
        · exact absurd ⟨m, hmem, hm⟩ hin
        · exact ⟨m, hmem, hm⟩
      obtain ⟨depth, inner, digit, rest, hinner, hdigit, hscan⟩ := exists_scan_closing s ns hrest
        (fun m hmem => hm m (List.mem_append_right _ hmem)) htail
      have hpassed : ∀ m ∈ n.preorder, m.isMarked = false ∧ !m.isTitle := fun m hmem =>
        ⟨hnode m hmem, by simpa using fun hm => hin ⟨m, hmem, hm⟩⟩
      have hbalanced : IsBalanced n.html := ⟨[n], isWellFormed_cons.2 ⟨hn, rfl⟩, by simp [html]⟩
      refine ⟨0 + depth, _, digit, rest, hbalanced.opens.append hinner, hdigit, ?_⟩
      rw [scan_node passes_closing? _ n hn hpassed, hscan, Option.map_some]

end

end Slideshow.Forest
