import Slideshow.Proofs.Forest
import Slideshow.Text.Escaped

/-!
# Forests of escaped text

In the HTML of a writer that escapes whatever it is given, text holds no angle bracket and attribute
values stand between double quotes. Such a forest is well-formed, and each angle bracket of its HTML
opens one of its own tags.
-/
namespace Slideshow.Forest
open Text Markup Fragment

/-- A key, and its value between double quotes. -/
def pair (key value : Text) : Text := " " ++ key ++ "=\"" ++ value ++ "\""

/-- A value holds nothing that could end it or its tag, for it is escaped. -/
structure IsAttribute (key value : Text) : Prop where
  isName_key : isName key
  quoted : '"' ∉ value ∧ '<' ∉ value ∧ '>' ∉ value
  isEscaped : ∃ text, value = escapedAttribute text

/-- The attributes that some keys and values write. -/
def AreAttributes (attributes : Text) : Prop :=
  ∃ as : List (Text × Text), attributes = as.flatMap (fun a => pair a.1 a.2) ∧
    ∀ a ∈ as, IsAttribute a.1 a.2

mutual

/-- Text is escaped, names are taken from two lists, and there are no comments. -/
def Node.IsQuoted (elements voids : List Text) : Node → Prop
  | .text content => ∃ text, content = escaped text
  | .comment _ => False
  | .void name attributes =>
    name ∈ voids ∧ ∃ quoted, AreAttributes quoted ∧ attributes = quoted ++ " /"
  | .element name attributes children =>
    name ∈ elements ∧ AreAttributes attributes ∧ AreQuoted elements voids children

def AreQuoted (elements voids : List Text) : List Node → Prop
  | [] => True
  | n :: ns => n.IsQuoted elements voids ∧ AreQuoted elements voids ns

end

/-! ## Attributes -/

theorem IsAttribute.of_escaped {key : Text} (hk : isName key) (text : Text) :
    IsAttribute key (escapedAttribute text) where
  isName_key := hk
  quoted := ⟨fun h => (mem_escapedAttribute h).1 rfl, fun h => (mem_escapedAttribute h).2.1 rfl,
    fun h => (mem_escapedAttribute h).2.2 rfl⟩
  isEscaped := ⟨text, rfl⟩

theorem AreAttributes.nil : AreAttributes [] := ⟨[], rfl, by simp⟩

theorem AreAttributes.cons {key attributes : Text} (hk : isName key) (text : Text)
    (h : AreAttributes attributes) :
    AreAttributes (pair key (escapedAttribute text) ++ attributes) := by
  obtain ⟨as, rfl, has⟩ := h
  refine ⟨(key, escapedAttribute text) :: as, rfl, ?_⟩
  intro a ha
  rcases List.mem_cons.1 ha with rfl | ha
  · exact .of_escaped hk text
  · exact has a ha

theorem AreAttributes.single {key : Text} (hk : isName key) (text : Text) :
    AreAttributes (pair key (escapedAttribute text)) := by
  simpa using AreAttributes.cons hk text .nil

theorem not_mem_name {name : Text} (hn : isName name) {c : Char} (hc : c.isAlphanum = false) :
    c ∉ name := by
  obtain ⟨-, -, -, -, hall⟩ := isName_iff.1 hn
  intro h
  simp [hall c h] at hc

theorem AreAttributes.not_mem {attributes : Text} (h : AreAttributes attributes) :
    '<' ∉ attributes ∧ '>' ∉ attributes := by
  obtain ⟨as, rfl, has⟩ := h
  have hno : ∀ c : Char, c.isAlphanum = false → c ∉ [' ', '=', '"'] →
      (∀ key value, IsAttribute key value → c ∉ value) →
        c ∉ as.flatMap fun a => pair a.1 a.2 := by
    intro c hc hmarks hvalue hmem
    obtain ⟨a, ha, hin⟩ := List.mem_flatMap.1 hmem
    have hkey := not_mem_name (has a ha).isName_key hc
    have hv := hvalue a.1 a.2 (has a ha)
    simp only [List.mem_cons, List.not_mem_nil, or_false, not_or] at hmarks
    simp [pair, hkey, hv, hmarks] at hin
  exact ⟨hno '<' (by decide) (by decide) fun _ _ ha => ha.quoted.2.1,
    hno '>' (by decide) (by decide) fun _ _ ha => ha.quoted.2.2⟩

/-- Attributes start with a space. -/
private theorem AreAttributes.head {attributes : Text} (h : AreAttributes attributes) :
    attributes.head?.any isWord = false := by
  obtain ⟨as, rfl, -⟩ := h
  cases as with
  | nil => rfl
  | cons a as => simpa [pair] using show isWord ' ' = false by decide

/-- Attributes end in a double quote. -/
private theorem AreAttributes.ending {attributes : Text} (h : AreAttributes attributes) :
    dropEnding? "/" attributes = none := by
  obtain ⟨as, rfl, -⟩ := h
  cases hd : dropEnding? "/" (as.flatMap fun a => pair a.1 a.2) with
  | none => rfl
  | some front =>
    rw [dropEnding?_eq_some_iff] at hd
    rcases List.eq_nil_or_concat as with rfl | ⟨as, a, rfl⟩
    · simp at hd
    · have hquote : (as.concat a).flatMap (fun a => pair a.1 a.2) =
          (as.flatMap (fun a => pair a.1 a.2) ++ " " ++ a.1 ++ "=\"" ++ a.2) ++ ['"'] := by
        simp [pair]
      have hslash : front ++ "/" = front ++ ['/'] := by simp
      have hlast := congrArg List.getLast? (hquote.symm.trans (hd.trans hslash))
      rw [List.getLast?_concat, List.getLast?_concat] at hlast
      simp at hlast

theorem AreAttributes.isInTag {attributes : Text} (h : AreAttributes attributes) :
    isInTag attributes := isInTag_iff.2 ⟨h.head, h.not_mem.2⟩

theorem AreAttributes.isInTag_slash {attributes : Text} (h : AreAttributes attributes) :
    Forest.isInTag (attributes ++ " /") := by
  refine isInTag_iff.2 ⟨?_, by simp [h.not_mem.2]⟩
  have hhead := h.head
  cases attributes with
  | nil => simpa using show isWord ' ' = false by decide
  | cons c s => simpa using hhead

section Names
variable {elements voids : List Text}

theorem areQuoted_iff {ns : List Node} :
    AreQuoted elements voids ns ↔ ∀ n ∈ ns, n.IsQuoted elements voids := by
  induction ns with
  | nil => simp [AreQuoted]
  | cons n ns ih => simp [AreQuoted, ih]

/-- Names that are read as the names of elements, and of void elements. -/
structure AreNames (elements voids : List Text) : Prop where
  isName : ∀ name ∈ elements ++ voids, isName name
  isElement : ∀ name ∈ elements, isElement name []
  isVoid : ∀ name ∈ voids, smallName name ∈ voidElements

mutual

private theorem isWellFormed_of_isQuoted (h : AreNames elements voids) :
    (n : Node) → n.IsQuoted elements voids → n.isWellFormed
  | .text content, hn => by
    obtain ⟨text, rfl⟩ := hn
    simpa [Node.isWellFormed] using fun hc => (mem_escaped hc).1 rfl
  | .comment _, hn => hn.elim
  | .void name attributes, hn => by
    obtain ⟨hname, quoted, hq, rfl⟩ := hn
    simp only [Node.isWellFormed, Bool.and_eq_true]
    exact ⟨⟨h.isName name (by simp [hname]), hq.isInTag_slash⟩, by simpa using h.isVoid name hname⟩
  | .element name attributes children, hn => by
    obtain ⟨hname, hq, hc⟩ := hn
    have hends := hq.ending
    have helement := h.isElement name hname
    simp only [Forest.isElement, Bool.and_eq_true] at helement
    simp only [Node.isWellFormed, Forest.isElement, Bool.and_eq_true]
    exact ⟨⟨⟨h.isName name (by simp [hname]), hq.isInTag⟩, helement.1, by simpa using hends⟩,
      isWellFormed_of_areQuoted h children hc⟩

theorem isWellFormed_of_areQuoted (h : AreNames elements voids) :
    (ns : List Node) → AreQuoted elements voids ns → isWellFormed ns
  | [], _ => rfl
  | n :: ns, hn => by
    simp only [isWellFormed, Bool.and_eq_true]
    exact ⟨isWellFormed_of_isQuoted h n hn.1, isWellFormed_of_areQuoted h ns hn.2⟩

end

/-! ## Angle brackets -/

/-- Something holds at each angle bracket of a text, whatever follows the text. -/
def AtBrackets (P : Text → Prop) (s : Text) : Prop :=
  ∀ before after, s = before ++ '<' :: after → ∀ tail, P ('<' :: after ++ tail)

namespace AtBrackets
variable {P : Text → Prop} {s t : Text}

theorem of_not_mem (h : '<' ∉ s) : AtBrackets P s := by
  rintro before after rfl
  simp at h

theorem append (hs : AtBrackets P s) (ht : AtBrackets P t) : AtBrackets P (s ++ t) := by
  intro before after h tail
  rcases List.append_eq_append_iff.1 h with ⟨more, rfl, hmore⟩ | ⟨more, rfl, hmore⟩
  · exact ht more after hmore tail
  · cases more with
    | nil => exact ht [] after hmore.symm tail
    | cons c more =>
      obtain ⟨rfl, rfl⟩ := List.cons.inj hmore
      simpa using hs before more rfl (t ++ tail)

/-- One more angle bracket in front. -/
theorem bracket (hs : AtBrackets P s) (h : ∀ tail, P ('<' :: s ++ tail)) :
    AtBrackets P ('<' :: s) := by
  intro before after he
  cases before with
  | nil =>
    obtain rfl := (List.cons.inj he).2
    exact h
  | cons c before => exact hs before after (List.cons.inj he).2

end AtBrackets

/-- Each angle bracket of a text opens a tag with one of some names, whatever follows the text. -/
def OpensTags (names : List Text) (s : Text) : Prop :=
  ∀ before after, s = before ++ '<' :: after → ∀ tail, ∃ tag rest,
    Tag.read? ('<' :: after ++ tail) = some (tag, rest) ∧ tag.name ∈ names

theorem opensTags_iff {names : List Text} {s : Text} : OpensTags names s ↔
    AtBrackets (fun u => ∃ tag rest, Tag.read? u = some (tag, rest) ∧ tag.name ∈ names) s := Iff.rfl

theorem OpensTags.of_not_mem {names : List Text} {s : Text} (h : '<' ∉ s) : OpensTags names s :=
  opensTags_iff.2 (.of_not_mem h)

theorem OpensTags.append {names : List Text} {s t : Text} (hs : OpensTags names s)
    (ht : OpensTags names t) : OpensTags names (s ++ t) :=
  opensTags_iff.2 ((opensTags_iff.1 hs).append (opensTags_iff.1 ht))

/-- A tag has no angle bracket but the one that opens it. -/
private theorem OpensTags.of_tag {names : List Text} {inside : Text} (h : '<' ∉ inside)
    (hread : ∀ tail, ∃ tag rest, Tag.read? ('<' :: inside ++ tail) = some (tag, rest) ∧
      tag.name ∈ names) : OpensTags names ('<' :: inside) :=
  opensTags_iff.2 (.bracket (.of_not_mem h) hread)

theorem OpensTags.opened {names : List Text} {name attributes : Text} (hm : name ∈ names)
    (hn : isName name) (ha : isInTag attributes) (hlt : '<' ∉ attributes) :
    OpensTags names (opened name attributes) := by
  have hs : Forest.opened name attributes = '<' :: (name ++ (attributes ++ ['>'])) := by
    simp [Forest.opened]
  rw [hs]
  refine .of_tag (by simp [hlt, not_mem_name hn (c := '<') rfl]) fun tail => ?_
  have hread := read?_opened hn ha tail
  rw [hs] at hread
  exact ⟨_, _, hread, by rwa [openTag_name]⟩

theorem OpensTags.closed {names : List Text} {name : Text} (hm : name ∈ names) (hn : isName name) :
    OpensTags names (closed name) := by
  rw [closed_eq]
  refine .of_tag (by simp [not_mem_name hn (c := '<') rfl]) fun tail => ?_
  have hread := read?_closed hn tail
  rw [closed_eq] at hread
  exact ⟨_, _, hread, hm⟩

mutual

private theorem opensTags_node (h : AreNames elements voids) : (n : Node) →
    n.IsQuoted elements voids → OpensTags (elements ++ voids) n.html
  | .text content, hn => by
    obtain ⟨text, rfl⟩ := hn
    exact .of_not_mem fun hc => (mem_escaped hc).1 rfl
  | .comment _, hn => hn.elim
  | .void name attributes, hn => by
    obtain ⟨hname, quoted, hq, rfl⟩ := hn
    have hm : name ∈ elements ++ voids := by simp [hname]
    exact .opened hm (h.isName name hm) hq.isInTag_slash (by simp [hq.not_mem.1])
  | .element name attributes children, hn => by
    obtain ⟨hname, hq, hc⟩ := hn
    have hm : name ∈ elements ++ voids := by simp [hname]
    have hopen := OpensTags.opened hm (h.isName name hm) hq.isInTag hq.not_mem.1
    exact hopen.append ((opensTags_html h children hc).append (.closed hm (h.isName name hm)))

/-- Each angle bracket that a forest of escaped text writes opens a tag of the forest. -/
theorem opensTags_html (h : AreNames elements voids) : (ns : List Node) →
    AreQuoted elements voids ns → OpensTags (elements ++ voids) (html ns)
  | [], _ => .of_not_mem (by simp [html])
  | n :: ns, hn => (opensTags_node h n hn.1).append (opensTags_html h ns hn.2)

end

end Names

end Slideshow.Forest
