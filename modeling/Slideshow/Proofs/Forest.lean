import Slideshow.Slide.Fragment
import Slideshow.Proofs.CharacterClasses

/-!
# HTML as a forest

A forest writes an HTML document, and its well-formedness says that the document can be read back
tag by tag. Here are the forest, its HTML, and what the tokens of that HTML are: one for each tag
and comment, whatever the trees around it.
-/
namespace Slideshow.Forest
open Text Markup Fragment

inductive Node
  | text (content : Text)
  | comment (body : Text)
  /-- An element without a close tag; its attributes may end in a slash. -/
  | void (name attributes : Text)
  | element (name attributes : Text) (children : List Node)
  deriving Repr

/-- The open tag of an element. -/
def opened (name attributes : Text) : Text := "<" ++ name ++ attributes ++ ">"

/-- The close tag of an element. -/
def closed (name : Text) : Text := "</" ++ name ++ ">"

def commented (body : Text) : Text := "<!--" ++ body ++ "-->"

mutual

def Node.html : Node → Text
  | .text content => content
  | .comment body => commented body
  | .void name attributes => opened name attributes
  | .element name attributes children => opened name attributes ++ (html children ++ closed name)

def html : List Node → Text
  | [] => []
  | n :: ns => n.html ++ html ns

end

theorem html_append (ns ms : List Node) : html (ns ++ ms) = html ns ++ html ms := by
  induction ns with
  | nil => rfl
  | cons n ns ih => simp [html, ih]

/-- ASCII letters and digits, a letter first. -/
def isName (name : Text) : Bool := name.head?.any Char.isAlpha && name.all Char.isAlphanum

/-- What may stand between a name and the end of its tag. -/
def isInTag (attributes : Text) : Bool := !attributes.head?.any isWord && '>' ∉ attributes

def smallName (name : Text) : Text := name.map Char.toLower

/-- Void elements have no close tag and other elements have one, with no slash at the end of the
open tag. A heading name spells its level with no leading zero. -/
def isElement (name attributes : Text) : Bool :=
  smallName name ∉ voidElements && dropAffix? "h0" (smallName name) = none
    && dropEnding? "/" attributes = none

mutual

/-- No text holds an angle bracket that opens a tag, no comment ends early, and tags are written
so that they are read as tags. -/
def Node.isWellFormed : Node → Bool
  | .text content => '<' ∉ content
  | .comment body => !Text.occursIn "-->" body
  | .void name attributes =>
    isName name && isInTag attributes && smallName name ∈ voidElements
  | .element name attributes children =>
    isName name && isInTag attributes && isElement name attributes && isWellFormed children

def isWellFormed : List Node → Bool
  | [] => true
  | n :: ns => n.isWellFormed && isWellFormed ns

end

theorem isWellFormed_iff {ns : List Node} : isWellFormed ns ↔ ∀ n ∈ ns, n.isWellFormed := by
  induction ns with
  | nil => simp [isWellFormed]
  | cons n ns ih => simp [isWellFormed, ih]

/-! ## Tags of a forest -/

/-- The tag that an open tag is read as: a slash at its end is no attribute. -/
def openTag (name attributes : Text) : Tag :=
  match dropEnding? "/" attributes with
  | some attributes => ⟨false, name, attributes, true⟩
  | none => ⟨false, name, attributes, false⟩

def closeTag (name : Text) : Tag := ⟨true, name, [], false⟩

@[simp] theorem openTag_closing (name attributes : Text) :
    (openTag name attributes).closing = false := by
  unfold openTag
  split <;> rfl

@[simp] theorem openTag_name (name attributes : Text) : (openTag name attributes).name = name := by
  unfold openTag
  split <;> rfl

@[simp] theorem elementName_openTag (name attributes : Text) :
    elementName (openTag name attributes) = smallName name := by
  unfold openTag
  split <;> rfl

@[simp] theorem openTag_source (name attributes : Text) :
    (openTag name attributes).source = opened name attributes := by
  unfold openTag
  split
  · next u hu =>
    rw [dropEnding?_eq_some_iff] at hu
    simp [Tag.source, opened, hu]
  · simp [Tag.source, opened]

@[simp] theorem closeTag_source (name : Text) : (closeTag name).source = closed name := by
  simp [closeTag, Tag.source, closed]

theorem isName_iff {name : Text} :
    isName name ↔ ∃ c s, name = c :: s ∧ c.isAlpha ∧ ∀ d ∈ name, d.isAlphanum := by
  cases name with
  | nil => simp [isName]
  | cons c s => simp [isName]

/-- A name is read up to the first character that is no word character. -/
private theorem read_name {name s : Text} (hn : isName name) (hs : s.head?.any isWord = false) :
    (name ++ s).takeWhile Char.isAlphanum = name ∧ (name ++ s).dropWhile Char.isAlphanum = s := by
  obtain ⟨c, t, -, -, hall⟩ := isName_iff.1 hn
  have hstop : s.head?.any Char.isAlphanum = false := by
    cases s with
    | nil => rfl
    | cons d s =>
      cases hd : d.isAlphanum with
      | false => exact hd
      | true => simp [isWord_of_alphanum hd] at hs
  exact ⟨takeWhile_run hall hstop, dropWhile_run hall hstop⟩

/-- Everything up to the closing bracket is inside the tag. -/
theorem read_inside {attributes : Text} (ha : '>' ∉ attributes) (s : Text) :
    (attributes ++ '>' :: s).takeWhile (· ≠ '>') = attributes ∧
      (attributes ++ '>' :: s).dropWhile (· ≠ '>') = '>' :: s :=
  ⟨takeWhile_run (ne_of_not_mem ha) rfl, dropWhile_run (ne_of_not_mem ha) rfl⟩

theorem isInTag_iff {attributes : Text} :
    isInTag attributes ↔ attributes.head?.any isWord = false ∧ '>' ∉ attributes := by
  simp [isInTag]

private theorem head_inside {attributes : Text} (ha : isInTag attributes) (s : Text) :
    (attributes ++ '>' :: s).head?.any isWord = false := by
  cases attributes with
  | nil => rfl
  | cons c t => simpa using (isInTag_iff.1 ha).1

/-- A tag is read back, whatever follows it. -/
theorem readNamed?_eq {name attributes : Text} (hn : isName name) (ha : isInTag attributes)
    (closing : Bool) (s : Text) :
    Tag.readNamed? closing (name ++ (attributes ++ '>' :: s)) =
      match dropEnding? "/" attributes with
      | some attributes => some (⟨closing, name, attributes, true⟩, s)
      | none => some (⟨closing, name, attributes, false⟩, s) := by
  obtain ⟨htake, hdrop⟩ := read_name hn (head_inside ha s)
  obtain ⟨htake', hdrop'⟩ := read_inside (isInTag_iff.1 ha).2 s
  have hfirst : name.head?.any Char.isAlpha = true := by
    simp only [isName, Bool.and_eq_true] at hn
    exact hn.1
  have hclose : dropAffix? (">" : Text) ('>' :: s) = some s := by
    simpa using dropAffix?_append (">" : Text) s
  simp only [Tag.readNamed?, Option.bind_eq_bind, Option.bind_some, htake, hdrop, hfirst,
    head_inside ha s, htake', hdrop', hclose]
  rfl

theorem read?_opened {name attributes : Text} (hn : isName name) (ha : isInTag attributes)
    (s : Text) :
    Tag.read? (opened name attributes ++ s) = some (openTag name attributes, s) := by
  have hslash : dropAffix? "/" (name ++ (attributes ++ '>' :: s)) = none := by
    obtain ⟨c, t, rfl, hc, -⟩ := isName_iff.1 hn
    have hne : '/' ≠ c := by
      rintro rfl
      simp at hc
    simpa using dropAffix?_cons_ne hne [] _
  have e : opened name attributes ++ s = ("<" : Text) ++ (name ++ (attributes ++ '>' :: s)) := by
    simp [opened]
  rw [e]
  simp only [Tag.read?, dropAffix?_append, Option.bind_eq_bind, Option.bind_some, hslash,
    readNamed?_eq hn ha, openTag]
  split <;> rfl

theorem read?_closed {name : Text} (hn : isName name) (s : Text) :
    Tag.read? (closed name ++ s) = some (closeTag name, s) := by
  have e : closed name ++ s = ("<" : Text) ++ (("/" : Text) ++ (name ++ ([] ++ '>' :: s))) := by
    simp [closed]
  rw [e]
  simp only [Tag.read?, dropAffix?_append, Option.bind_eq_bind, Option.bind_some]
  rw [readNamed?_eq hn (by simp [isInTag])]
  simp [dropEnding?, dropAffix?, closeTag]

theorem depthInside_openTag {name attributes : Text} (h : isElement name attributes) (d : Nat) :
    depthInside d (openTag name attributes) = d + 1 := by
  simp only [isElement, Bool.and_eq_true, decide_eq_true_eq] at h
  have hs : (openTag name attributes).selfClosing = false := by
    unfold openTag
    rw [h.2]
  simp [depthInside, hs, h.1.1]

theorem depthInside_void {name attributes : Text} (h : smallName name ∈ voidElements) (d : Nat) :
    depthInside d (openTag name attributes) = d := by
  simp [depthInside, h]

/-! ## Tokens of a forest -/

/-- A comment ends at its own mark: its body and the mark cannot form an earlier one. -/
theorem cutAt?_commentEnd {body : Text} (hb : Text.occursIn "-->" body = false) (s : Text) :
    cutAt? "-->" (body ++ ("-->" ++ s)) = some (body, s) := by
  induction body with
  | nil => simp [cutAt?, dropAffix?]
  | cons c body ih =>
    simp only [Text.occursIn, cutAt?] at hb
    split at hb
    · simp at hb
    · next hc =>
      have hrest : Text.occursIn "-->" body = false := by simpa [Text.occursIn] using hb
      have hnone : dropAffix? "-->" (c :: (body ++ ("-->" ++ s))) = none := by
        cases body with
        | nil => simp [dropAffix?]
        | cons d body =>
          cases body with
          | nil => simp [dropAffix?]
          | cons e body => simpa [dropAffix?] using hc
      simp only [List.cons_append, cutAt?, hnone, ih hrest, Option.map_some]

theorem comment?_commented {body : Text} (hb : Text.occursIn "-->" body = false) (s : Text) :
    comment? (commented body ++ s) = some (body, s) := by
  have e : commented body ++ s = ("<!--" : Text) ++ (body ++ ("-->" ++ s)) := by simp [commented]
  rw [e]
  simp only [comment?, dropAffix?_append, Option.bind_eq_bind, Option.bind_some]
  exact cutAt?_commentEnd hb s

theorem comment?_cons_of_ne {c : Char} (hc : c ≠ '!') (s : Text) :
    comment? ('<' :: c :: s) = none := by
  simp [comment?, dropAffix?, hc.symm]

theorem comment?_of_ne {c : Char} (hc : c ≠ '<') (s : Text) : comment? (c :: s) = none := by
  simp [comment?, dropAffix?, hc.symm]

theorem tokens_markup {s rest : Text} {token : Token}
    (h : Token.ofMarkup? s = some (token, rest)) : tokens s = token :: tokens rest := by
  cases s with
  | nil => simp [Token.ofMarkup?, comment?, Tag.read?, dropAffix?] at h
  | cons c t =>
    rw [tokens]
    split
    · next token' rest' h' =>
      rw [h] at h'
      simp only [Option.some.injEq, Prod.mk.injEq] at h'
      rw [h'.1, h'.2]
    · next h' => simp [h] at h'

theorem opened_eq {name : Text} (hn : isName name) (attributes : Text) :
    ∃ c s, c.isAlpha ∧ opened name attributes = '<' :: c :: s := by
  obtain ⟨c, t, rfl, hc, -⟩ := isName_iff.1 hn
  exact ⟨c, t ++ (attributes ++ ['>']), hc, by simp [opened]⟩

theorem closed_eq (name : Text) : closed name = '<' :: '/' :: (name ++ ['>']) := by simp [closed]

theorem comment?_opened {name : Text} (hn : isName name) (attributes s : Text) :
    comment? (opened name attributes ++ s) = none := by
  obtain ⟨c, t, hc, h⟩ := opened_eq hn attributes
  have hne : c ≠ '!' := by
    rintro rfl
    simp at hc
  rw [h]
  exact comment?_cons_of_ne hne (t ++ s)

theorem tokens_opened {name attributes : Text} (hn : isName name) (ha : isInTag attributes)
    (s : Text) :
    tokens (opened name attributes ++ s) = .tag (openTag name attributes) :: tokens s := by
  apply tokens_markup
  simp [Token.ofMarkup?, comment?_opened hn, read?_opened hn ha]

theorem tokens_closed {name : Text} (hn : isName name) (s : Text) :
    tokens (closed name ++ s) = .tag (closeTag name) :: tokens s := by
  have hc : comment? (closed name ++ s) = none := by
    rw [closed_eq]
    exact comment?_cons_of_ne (by decide) _
  apply tokens_markup
  simp [Token.ofMarkup?, hc, read?_closed hn]

theorem tokens_commented {body : Text} (hb : Text.occursIn "-->" body = false) (s : Text) :
    tokens (commented body ++ s) = .comment body :: tokens s := by
  apply tokens_markup
  simp [Token.ofMarkup?, comment?_commented hb]

/-- A character that opens no markup and the text up to the next angle bracket are plain. -/
theorem tokens_of_ofMarkup?_eq_none {c : Char} {s : Text} (h : Token.ofMarkup? (c :: s) = none) :
    tokens (c :: s) = .plain (c :: s.takeWhile (· ≠ '<')) :: tokens (s.dropWhile (· ≠ '<')) := by
  rw [tokens]
  split
  · next h' => simp [h] at h'
  · rfl

theorem tokens_plain {c : Char} (hc : c ≠ '<') (s : Text) :
    tokens (c :: s) = .plain (c :: s.takeWhile (· ≠ '<')) :: tokens (s.dropWhile (· ≠ '<')) :=
  tokens_of_ofMarkup?_eq_none
    (by simp [Token.ofMarkup?, comment?_of_ne hc, Tag.read?, dropAffix?, hc.symm])

end Slideshow.Forest
