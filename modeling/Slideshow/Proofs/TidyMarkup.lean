import Slideshow.Proofs.QuotedForest

/-!
# Tidy markup

Markup is tidy if its text holds no angle bracket, its elements are closed in turn, and its attributes
have values between double quotes that hold neither a quote nor an angle bracket. It is read from the
left with a stack of the open elements, and can be read on from any angle bracket. The markup that
leaves an empty stack empty is the HTML of a forest.
-/
namespace Slideshow.Forest
open Text Markup Fragment

/-! ## Attributes -/

/-- An attribute with the white space in front of it. -/
structure Attribute where
  gap : Text
  key : Text
  value : Text

def isKeyChar (c : Char) : Bool := !isBlank c && c ∉ ['"', '<', '>', '/', '=']

def Attribute.spell (a : Attribute) : Text := a.gap ++ a.key ++ "=\"" ++ a.value ++ "\""

structure Attribute.IsTidy (a : Attribute) : Prop where
  gap : a.gap ≠ [] ∧ ∀ c ∈ a.gap, isBlank c
  key : a.key ≠ [] ∧ ∀ c ∈ a.key, isKeyChar c
  value : '"' ∉ a.value ∧ '<' ∉ a.value ∧ '>' ∉ a.value

/-- Attributes one after the other, and white space. -/
def AreTidyAttributes (attributes : Text) : Prop :=
  ∃ (as : List Attribute) (gap : Text), (∀ a ∈ as, a.IsTidy) ∧ (∀ c ∈ gap, isBlank c) ∧
    attributes = as.flatMap Attribute.spell ++ gap

namespace Attribute.IsTidy
variable {a : Attribute} (h : a.IsTidy)
include h

theorem not_mem {c : Char} (hblank : isBlank c = false) (hkey : isKeyChar c = false)
    (hmarks : c ∉ ("=\"" : Text)) (hvalue : c ∉ a.value) : c ∉ a.spell := by
  have hgap : c ∉ a.gap := fun hc => by simp [h.gap.2 c hc] at hblank
  have hname : c ∉ a.key := fun hc => by simp [h.key.2 c hc] at hkey
  have hquote : c ∉ ("\"" : Text) := fun hc => hmarks (by simp_all)
  simp only [spell, List.mem_append, not_or]
  exact ⟨⟨⟨⟨hgap, hname⟩, hmarks⟩, hvalue⟩, hquote⟩

theorem bracket_not_mem : '<' ∉ a.spell ∧ '>' ∉ a.spell :=
  ⟨h.not_mem (by decide) (by decide) (by simp) h.value.2.1,
    h.not_mem (by decide) (by decide) (by simp) h.value.2.2⟩

/-- The first quote is the one in front of the value. -/
theorem quote_not_mem : '"' ∉ a.gap ++ a.key ++ "=" := by
  have hgap : '"' ∉ a.gap := fun hc => absurd (h.gap.2 _ hc) (by decide)
  have hkey : '"' ∉ a.key := fun hc => absurd (h.key.2 _ hc) (by decide)
  simp [hgap, hkey]

theorem exists_head : ∃ c s, a.spell = c :: s ∧ isBlank c := by
  obtain ⟨c, s, hgap⟩ := List.exists_cons_of_ne_nil h.gap.1
  exact ⟨c, s ++ a.key ++ "=\"" ++ a.value ++ "\"", by simp [spell, hgap], h.gap.2 c (by simp [hgap])⟩

end Attribute.IsTidy

/-- An attribute behind a single space. -/
theorem Attribute.IsTidy.spaced {key value : Text} (hkey : key ≠ [] && key.all isKeyChar)
    (hvalue : '"' ∉ value ∧ '<' ∉ value ∧ '>' ∉ value) : Attribute.IsTidy ⟨" ", key, value⟩ := by
  simp only [Bool.and_eq_true, decide_eq_true_eq, List.all_eq_true] at hkey
  exact ⟨by simp [show isBlank ' ' = true by decide], hkey, hvalue⟩

namespace AreTidyAttributes
variable {attributes : Text}

theorem nil : AreTidyAttributes [] := ⟨[], [], by simp, by simp, rfl⟩

theorem of_forall {as : List Attribute} (h : ∀ a ∈ as, a.IsTidy) {gap : Text}
    (hgap : ∀ c ∈ gap, isBlank c) : AreTidyAttributes (as.flatMap Attribute.spell ++ gap) :=
  ⟨as, gap, h, hgap, rfl⟩

section
variable (h : AreTidyAttributes attributes)
include h

theorem not_mem : '<' ∉ attributes ∧ '>' ∉ attributes := by
  obtain ⟨as, gap, has, hgap, rfl⟩ := h
  have hno : ∀ c : Char, isBlank c = false → (∀ a ∈ as, c ∉ a.spell) →
      c ∉ as.flatMap Attribute.spell ++ gap := by
    intro c hc hspell hmem
    rcases List.mem_append.1 hmem with hmem | hmem
    · obtain ⟨a, ha, hin⟩ := List.mem_flatMap.1 hmem
      exact hspell a ha hin
    · simp [hgap c hmem] at hc
  exact ⟨hno '<' (by decide) fun a ha => (has a ha).bracket_not_mem.1,
    hno '>' (by decide) fun a ha => (has a ha).bracket_not_mem.2⟩

theorem head : attributes.head?.any isWord = false := by
  obtain ⟨as, gap, has, hgap, rfl⟩ := h
  have hblank : ∀ c, isBlank c → isWord c = false := fun c hc =>
    Bool.eq_false_iff.2 fun hw => by simp [isBlank_of_isWord hw] at hc
  cases as with
  | nil =>
    cases gap with
    | nil => rfl
    | cons c gap => exact hblank c (hgap c (by simp))
  | cons a as =>
    obtain ⟨c, s, hs, hc⟩ := (has a (by simp)).exists_head
    simpa [hs] using hblank c hc

/-- Attributes end in a double quote or white space. -/
theorem ending : dropEnding? "/" attributes = none := by
  obtain ⟨as, gap, has, hgap, rfl⟩ := h
  rw [Option.eq_none_iff_forall_ne_some]
  intro front hfront
  rw [dropEnding?_eq_some_iff] at hfront
  have hlast := congrArg List.getLast? hfront
  have hslash : (front ++ "/").getLast? = some '/' := by simp
  rw [hslash] at hlast
  rcases List.eq_nil_or_concat gap with rfl | ⟨gap, c, rfl⟩
  · rcases List.eq_nil_or_concat as with rfl | ⟨as, a, rfl⟩
    · simp at hlast
    · have hquote : (as.concat a).flatMap Attribute.spell ++ ([] : Text) =
          (as.flatMap Attribute.spell ++ (a.gap ++ a.key ++ "=\"" ++ a.value)) ++ ['"'] := by
        simp [Attribute.spell]
      rw [hquote, List.getLast?_concat] at hlast
      simp at hlast
  · have hc : isBlank c := hgap c (by simp)
    rw [List.concat_eq_append, ← List.append_assoc, List.getLast?_concat, Option.some.injEq] at hlast
    rw [hlast] at hc
    exact absurd hc (by decide)

theorem isInTag : isInTag attributes := isInTag_iff.2 ⟨h.head, h.not_mem.2⟩

theorem isInTag_slash : Forest.isInTag (attributes ++ "/") := by
  refine isInTag_iff.2 ⟨?_, by simp [h.not_mem.2]⟩
  have hhead := h.head
  cases attributes with
  | nil => simpa using show isWord '/' = false by decide
  | cons c s => simpa using hhead

end

end AreTidyAttributes

/-! ## Tags -/

/-- An open tag as forests spell theirs: a name, tidy attributes and, for a void element, perhaps a
slash. -/
structure IsTidyTag (name inside : Text) : Prop where
  isName_name : isName name
  inside : ∃ attributes slash, AreTidyAttributes attributes ∧
    (slash = [] ∨ slash = "/" ∧ smallName name ∈ voidElements) ∧ inside = attributes ++ slash

namespace IsTidyTag
variable {name inside : Text}

theorem of_attributes (hn : isName name) (h : AreTidyAttributes inside) : IsTidyTag name inside :=
  ⟨hn, inside, [], h, .inl rfl, by simp⟩

variable (h : IsTidyTag name inside)
include h

theorem isInTag : isInTag inside := by
  obtain ⟨attributes, slash, ha, rfl | ⟨rfl, -⟩, rfl⟩ := h.inside
  · simpa using ha.isInTag
  · exact ha.isInTag_slash

theorem bracket_not_mem : '<' ∉ inside := by
  obtain ⟨attributes, slash, ha, rfl | ⟨rfl, -⟩, rfl⟩ := h.inside
  · simpa using ha.not_mem.1
  · simpa using ha.not_mem.1

end IsTidyTag

/-- A tag is read in one way only. -/
theorem opened_inj {name inside name' inside' s t : Text} (h : IsTidyTag name inside)
    (h' : IsTidyTag name' inside') (he : opened name inside ++ s = opened name' inside' ++ t) :
    name = name' ∧ inside = inside' ∧ s = t := by
  have hread := read?_opened h.isName_name h.isInTag s
  rw [he, read?_opened h'.isName_name h'.isInTag t, Option.some.injEq, Prod.mk.injEq] at hread
  obtain ⟨htag, rfl⟩ := hread
  obtain rfl : name' = name := by simpa using congrArg Tag.name htag
  have hsource := congrArg Tag.source htag
  rw [openTag_source, openTag_source, opened, opened] at hsource
  exact ⟨rfl, (List.append_cancel_left (List.append_cancel_right hsource)).symm, rfl⟩

theorem closed_inj {name name' s t : Text} (hn : isName name) (hn' : isName name')
    (he : closed name ++ s = closed name' ++ t) : name = name' ∧ s = t := by
  have hread := read?_closed hn s
  rw [he, read?_closed hn' t, Option.some.injEq, Prod.mk.injEq] at hread
  exact ⟨(congrArg Tag.name hread.1).symm, hread.2.symm⟩

theorem opened_ne_closed {name inside name' s t : Text} (h : IsTidyTag name inside)
    (hn' : isName name') : opened name inside ++ s ≠ closed name' ++ t := by
  intro he
  have hread := read?_opened h.isName_name h.isInTag s
  rw [he, read?_closed hn', Option.some.injEq, Prod.mk.injEq] at hread
  have hclosing := congrArg Tag.closing hread.1
  simp [closeTag] at hclosing

theorem letter_ne_opened {c : Char} (hc : c ≠ '<') {name inside s t : Text} :
    c :: s ≠ opened name inside ++ t := fun he => by
  simp [opened, hc] at he

theorem letter_ne_closed {c : Char} (hc : c ≠ '<') {name s t : Text} : c :: s ≠ closed name ++ t :=
  fun he => by simp [closed, hc] at he

/-! ## Forests -/

mutual

def Node.IsTidy : Node → Prop
  | .text content => '<' ∉ content ∧ '>' ∉ content
  | .comment _ => False
  | .void name attributes => IsTidyTag name attributes ∧ smallName name ∈ voidElements
  | .element name attributes children =>
    IsTidyTag name attributes ∧ smallName name ∉ voidElements ∧ AreTidy children

def AreTidy : List Node → Prop
  | [] => True
  | n :: ns => n.IsTidy ∧ AreTidy ns

end

/-- A text that some tidy forest writes. -/
def IsTidy (s : Text) : Prop := ∃ ns, AreTidy ns ∧ html ns = s

/-! ## Reading from the left -/

/-- The open elements behind an open tag, the innermost first. -/
def push (names : List Text) (name : Text) : List Text :=
  if smallName name ∈ voidElements then names else name :: names

/-- A character of a text, or a tag that is allowed in its place, and the names of the open elements
before and behind it. A close tag closes the innermost element and no other. -/
inductive Moves (ok : List Text → Text → Text → Prop) : List Text → Text → List Text → Prop
  | letter {names : List Text} {c : Char} (hopen : c ≠ '<') (hclose : c ≠ '>') : Moves ok names [c] names
  | opened {names : List Text} {name inside : Text} (htag : IsTidyTag name inside)
    (hok : ok names name inside) : Moves ok names (opened name inside) (push names name)
  | closed {names : List Text} {name : Text} (hn : isName name) :
    Moves ok (name :: names) (closed name) names

/-- Markup, and the names of the open elements before and behind it. -/
inductive Runs (ok : List Text → Text → Text → Prop) : List Text → Text → List Text → Prop
  | nil {names : List Text} : Runs ok names [] names
  | cons {names step behind : List Text} {piece s : Text} (hpiece : Moves ok names piece step)
    (hs : Runs ok step s behind) : Runs ok names (piece ++ s) behind

/-- Every open tag may stand everywhere. -/
def anywhere : List Text → Text → Text → Prop := fun _ _ _ => True

section Reading
variable {ok ok' : List Text → Text → Text → Prop} {names step behind : List Text} {s t : Text}

namespace Moves

/-- A piece has no angle bracket behind its first character. -/
theorem exists_cons {piece : Text} (h : Moves ok names piece behind) :
    ∃ c inside, piece = c :: inside ∧ '<' ∉ inside := by
  cases h with
  | letter => exact ⟨_, [], rfl, by simp⟩
  | @opened _ name inside htag =>
    exact ⟨'<', name ++ inside ++ ['>'], by simp [Forest.opened], by
      simp [not_mem_name htag.isName_name (c := '<') rfl, htag.bracket_not_mem]⟩
  | @closed _ name hn =>
    exact ⟨'<', '/' :: (name ++ ['>']), closed_eq name, by simp [not_mem_name hn (c := '<') rfl]⟩

/-- At the front of a text there is one piece only, and it leaves the same elements open. -/
theorem unique {other : List Text} {piece piece' : Text} (h : Moves ok names piece behind)
    (h' : Moves ok' names piece' other) (he : piece ++ s = piece' ++ t) :
    piece = piece' ∧ behind = other := by
  cases h with
  | letter hopen =>
    cases h' with
    | letter => exact ⟨by rw [(List.cons.inj he).1], rfl⟩
    | opened => exact absurd he (letter_ne_opened hopen)
    | closed => exact absurd he (letter_ne_closed hopen)
  | opened htag =>
    cases h' with
    | letter hopen => exact absurd he.symm (letter_ne_opened hopen)
    | opened htag' =>
      obtain ⟨rfl, rfl, -⟩ := opened_inj htag htag' he
      exact ⟨rfl, rfl⟩
    | closed hn => exact absurd he (opened_ne_closed htag hn)
  | closed hn =>
    cases h' with
    | letter hopen => exact absurd he.symm (letter_ne_closed hopen)
    | opened htag => exact absurd he.symm (opened_ne_closed htag hn)
    | closed => exact ⟨rfl, rfl⟩

theorem mono {piece : Text} (hok : ∀ names name inside, ok names name inside → ok' names name inside)
    (h : Moves ok names piece behind) : Moves ok' names piece behind := by
  cases h with
  | letter hopen hclose => exact .letter hopen hclose
  | opened htag h => exact .opened htag (hok _ _ _ h)
  | closed hn => exact .closed hn

end Moves

namespace Runs

theorem of_moves (h : Moves ok names s behind) : Runs ok names s behind := by
  simpa using cons h nil

theorem mono (hok : ∀ names name inside, ok names name inside → ok' names name inside)
    (h : Runs ok names s behind) : Runs ok' names s behind := by
  induction h with
  | nil => exact .nil
  | cons hpiece _ ih => exact .cons (hpiece.mono hok) ih

theorem append (hs : Runs ok names s step) (ht : Runs ok step t behind) :
    Runs ok names (s ++ t) behind := by
  induction hs with
  | nil => exact ht
  | cons hpiece _ ih =>
    rw [List.append_assoc]
    exact .cons hpiece (ih ht)

theorem letters (hopen : '<' ∉ s) (hclose : '>' ∉ s) : Runs ok names s names := by
  induction s with
  | nil => exact .nil
  | cons c s ih =>
    rw [List.mem_cons, not_or] at hopen hclose
    exact .cons (.letter (Ne.symm hopen.1) (Ne.symm hclose.1)) (ih hopen.2 hclose.2)

theorem eq_of_nil (h : Runs ok names [] behind) : names = behind := by
  generalize he : ([] : Text) = u at h
  cases h with
  | nil => rfl
  | cons hpiece =>
    obtain ⟨c, inside, rfl, -⟩ := hpiece.exists_cons
    simp at he

/-- Markup starts with a piece. -/
theorem exists_moves {c : Char} (h : Runs ok names (c :: s) behind) :
    ∃ piece rest step, c :: s = piece ++ rest ∧ Moves ok names piece step ∧ Runs ok step rest behind := by
  generalize he : c :: s = u at h
  cases h with
  | nil => simp at he
  | cons hpiece hs => exact ⟨_, _, _, rfl, hpiece, hs⟩

theorem of_moves_append {piece : Text} (hpiece : Moves ok' names piece step)
    (h : Runs ok names (piece ++ s) behind) : Runs ok step s behind := by
  obtain ⟨c, inside, hcons, -⟩ := hpiece.exists_cons
  rw [hcons, List.cons_append] at h
  obtain ⟨piece', rest, step', he, hpiece', hrest⟩ := h.exists_moves
  rw [← List.cons_append, ← hcons] at he
  obtain ⟨rfl, rfl⟩ := hpiece.unique hpiece' he
  rwa [List.append_cancel_left he]

/-- Markup can be read on from where a part of it ends. -/
theorem of_append (hs : Runs ok' names s step) (h : Runs ok names (s ++ t) behind) :
    Runs ok step t behind := by
  induction hs with
  | nil => exact h
  | cons hpiece _ ih =>
    rw [List.append_assoc] at h
    exact ih (h.of_moves_append hpiece)

/-- Before the next angle bracket there is text. -/
theorem of_letters (hs : '<' ∉ s) (h : Runs ok names (s ++ t) behind) :
    '>' ∉ s ∧ Runs ok names t behind := by
  induction s with
  | nil => exact ⟨by simp, h⟩
  | cons c s ih =>
    rw [List.mem_cons, not_or] at hs
    obtain ⟨piece, rest, step, he, hpiece, hrest⟩ := exists_moves h
    cases hpiece with
    | letter hopen hclose =>
      obtain ⟨rfl, rfl⟩ := List.cons.inj he
      obtain ⟨hmem, ht⟩ := ih hs.2 hrest
      exact ⟨by simp [hmem, Ne.symm hclose], ht⟩
    | opened => exact absurd he (letter_ne_opened (Ne.symm hs.1))
    | closed => exact absurd he (letter_ne_closed (Ne.symm hs.1))

/-- Markup can be parted in front of an angle bracket. -/
theorem exists_at_bracket (h : Runs ok names (s ++ '<' :: t) behind) :
    ∃ step, Runs ok names s step ∧ Runs ok step ('<' :: t) behind := by
  generalize he : s ++ '<' :: t = u at h
  induction h generalizing s with
  | nil => simp at he
  | @cons names step behind piece rest hpiece hrest ih =>
    obtain ⟨c, inside, rfl, hinside⟩ := hpiece.exists_cons
    cases s with
    | nil =>
      rw [List.nil_append] at he
      exact ⟨names, .nil, he ▸ .cons hpiece hrest⟩
    | cons d s =>
      obtain ⟨rfl, htail⟩ := List.cons.inj he
      rcases List.append_eq_append_iff.1 (show s ++ '<' :: t = inside ++ rest from htail) with
        ⟨more, rfl, hmore⟩ | ⟨more, rfl, hmore⟩
      · cases more with
        | nil =>
          rw [List.append_nil] at hpiece
          exact ⟨step, of_moves hpiece, by rwa [hmore]⟩
        | cons e more =>
          obtain ⟨rfl, -⟩ := List.cons.inj hmore
          simp at hinside
      · obtain ⟨next, hs, ht⟩ := ih hmore.symm
        exact ⟨next, .cons hpiece hs, ht⟩

/-- An angle bracket that no slash follows opens a tag. -/
theorem exists_opened {c : Char} (hc : c ≠ '/') (h : Runs ok names ('<' :: c :: s) behind) :
    ∃ name inside rest, '<' :: c :: s = opened name inside ++ rest ∧ IsTidyTag name inside ∧
      ok names name inside ∧ Runs ok (push names name) rest behind := by
  obtain ⟨piece, rest, step, he, hpiece, hrest⟩ := h.exists_moves
  cases hpiece with
  | letter hopen => exact absurd (List.cons.inj he).1.symm hopen
  | opened htag hok => exact ⟨_, _, rest, he, htag, hok, hrest⟩
  | closed =>
    rw [closed_eq] at he
    exact absurd (List.cons.inj (List.cons.inj he).2).1 hc

theorem of_opened {name inside : Text} (htag : IsTidyTag name inside)
    (h : Runs ok names (opened name inside ++ s) behind) :
    ok names name inside ∧ Runs ok (push names name) s behind := by
  have hcons : opened name inside ++ s = '<' :: (name ++ inside ++ ['>'] ++ s) := by simp [opened]
  rw [hcons] at h
  obtain ⟨piece, rest, step, he, hpiece, hrest⟩ := h.exists_moves
  rw [← hcons] at he
  cases hpiece with
  | letter hopen => exact absurd he.symm (letter_ne_opened hopen)
  | opened htag' hok =>
    obtain ⟨rfl, rfl, rfl⟩ := opened_inj htag htag' he
    exact ⟨hok, hrest⟩
  | closed hn => exact absurd he (opened_ne_closed htag hn)

theorem of_closed {name : Text} (hn : isName name) (h : Runs ok names (closed name ++ s) behind) :
    ∃ step, names = name :: step ∧ Runs ok step s behind := by
  rw [closed_eq, List.cons_append] at h
  obtain ⟨piece, rest, step, he, hpiece, hrest⟩ := h.exists_moves
  rw [← List.cons_append, ← closed_eq] at he
  cases hpiece with
  | letter hopen => exact absurd he.symm (letter_ne_closed hopen)
  | opened htag => exact absurd he.symm (opened_ne_closed htag hn)
  | closed hn' =>
    obtain ⟨rfl, rfl⟩ := closed_inj hn hn' he
    exact ⟨_, rfl, hrest⟩

end Runs

end Reading

/-! ## Forests and reading -/

mutual

private theorem runs_node (names : List Text) :
    (n : Node) → n.IsTidy → Runs anywhere names n.html names
  | .text content, h => .letters h.1 h.2
  | .comment _, h => h.elim
  | .void name attributes, ⟨htag, hv⟩ => by
    have hmoves := @Moves.opened anywhere names _ _ htag trivial
    rw [push, if_pos hv] at hmoves
    exact .of_moves hmoves
  | .element name attributes children, ⟨htag, hv, hchildren⟩ => by
    have hmoves := @Moves.opened anywhere names _ _ htag trivial
    rw [push, if_neg hv] at hmoves
    exact .cons hmoves ((runs_html (name :: names) children hchildren).append
      (.of_moves (.closed htag.isName_name)))

theorem runs_html (names : List Text) : (ns : List Node) → AreTidy ns →
    Runs anywhere names (html ns) names
  | [], _ => .nil
  | n :: ns, h => (runs_node names n h.1).append (runs_html names ns h.2)

end

theorem IsTidy.runs {s : Text} (h : IsTidy s) (names : List Text) : Runs anywhere names s names := by
  obtain ⟨ns, hns, rfl⟩ := h
  exact runs_html names ns hns

/-- What closes some open elements: a forest and a close tag for each of them, and a forest. -/
def Ends : List Text → Text → Prop
  | [], s => IsTidy s
  | name :: names, s => ∃ ns rest, AreTidy ns ∧ Ends names rest ∧ s = html ns ++ (closed name ++ rest)

theorem Ends.cons {names : List Text} {s : Text} (h : Ends names s) {n : Node} (hn : n.IsTidy) :
    Ends names (n.html ++ s) := by
  cases names with
  | nil =>
    obtain ⟨ns, hns, rfl⟩ := h
    exact ⟨n :: ns, ⟨hn, hns⟩, rfl⟩
  | cons name names =>
    obtain ⟨ns, rest, hns, hrest, rfl⟩ := h
    exact ⟨n :: ns, rest, ⟨hn, hns⟩, hrest, by simp [html]⟩

/-- An open tag in front of what closes the elements that it leaves open. -/
theorem Ends.opened {names : List Text} {name inside s : Text} (htag : IsTidyTag name inside)
    (h : Ends (push names name) s) : Ends names (opened name inside ++ s) := by
  rw [push] at h
  split at h
  · next hv => exact h.cons (n := .void name inside) ⟨htag, hv⟩
  · next hv =>
    obtain ⟨ns, rest, hns, hrest, rfl⟩ := h
    have hnode := hrest.cons (n := .element name inside ns) ⟨htag, hv, hns⟩
    simpa [Node.html] using hnode

theorem ends_of_runs {ok : List Text → Text → Text → Prop} {names behind : List Text} {s : Text}
    (h : Runs ok names s behind) (hbehind : behind = []) : Ends names s := by
  induction h with
  | nil =>
    subst hbehind
    exact ⟨[], trivial, rfl⟩
  | cons hpiece _ ih =>
    have hs := ih hbehind
    cases hpiece with
    | letter hopen hclose =>
      exact hs.cons (n := .text [_]) ⟨by simp [Ne.symm hopen], by simp [Ne.symm hclose]⟩
    | opened htag => exact .opened htag hs
    | closed => exact ⟨[], _, trivial, hs, rfl⟩

theorem Runs.isTidy {ok : List Text → Text → Text → Prop} {s : Text} (h : Runs ok [] s []) : IsTidy s :=
  ends_of_runs h rfl

/-- Tidy markup opens and closes its elements in turn. -/
theorem isTidy_iff {s : Text} : IsTidy s ↔ Runs anywhere [] s [] :=
  ⟨fun h => h.runs [], fun h => h.isTidy⟩

end Slideshow.Forest
