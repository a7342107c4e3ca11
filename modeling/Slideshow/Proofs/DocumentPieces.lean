import Slideshow.Proofs.Segments

/-!
# Pieces of a document

Splitting a document loses nothing of it but rules, vacant pieces and outer white space. Its pieces
with what stands between them make up the document. Between two pieces stands a rule, or nothing if
the second one starts with a heading; and every rule outside all elements stands between two pieces.
-/
namespace Slideshow.Fragment
open Text Markup

/-- A piece of a document behind another one, and the rule between the two if there is one. -/
structure Part where
  rule : Option Tag
  piece : List Token

def Part.tokens (p : Part) : List Token := (p.rule.map Token.tag).toList ++ p.piece

/-- What stands between a piece and the one before it. -/
def Part.separator (p : Part) : Text := (p.rule.map Tag.source).getD []

def partTokens (parts : List Part) : List Token := parts.flatMap Part.tokens

@[simp] theorem partTokens_nil : partTokens [] = [] := rfl

@[simp] theorem partTokens_cons (p : Part) (parts : List Part) :
    partTokens (p :: parts) = p.tokens ++ partTokens parts := rfl

theorem spell_partTokens (parts : List Part) :
    spell (partTokens parts) = parts.flatMap fun p => p.separator ++ spell p.piece := by
  induction parts with
  | nil => rfl
  | cons p parts ih =>
    obtain ⟨rule, piece⟩ := p
    cases rule <;> simp [ih, Part.tokens, Part.separator, Token.source]

/-- A piece starts with a heading of a level up to the split level, one that announces no notes. -/
def StartsWithHeading (level : Nat) (piece behind : List Token) : Prop := ∃ t more,
  piece = .tag t :: more ∧ t.closing = false ∧
    (∃ n ≤ level, levelOfName? (elementName t) = some n) ∧
    notesHeading? (spell (piece ++ behind)) = none

/-- Tokens at a depth, behind those of the piece under way, in pieces. -/
structure IsCut (level depth : Nat) (pending ts first : List Token) (parts : List Part) : Prop where
  /-- The piece under way goes on. -/
  pending_first : pending <+: first
  tokens_eq : pending ++ ts = first ++ partTokens parts
  /-- A tag stands between two pieces if and only if it is a rule outside all elements. -/
  rule : ∀ before t after, ts = before ++ .tag t :: after →
    (isRule (depthAfter depth before) (.tag t) ↔ ∃ front piece back,
      parts = front ++ ⟨some t, piece⟩ :: back ∧ pending ++ before = first ++ partTokens front)
  /-- A piece with no rule in front of it starts with a heading, outside all elements. -/
  heading : ∀ front piece back, parts = front ++ ⟨none, piece⟩ :: back →
    StartsWithHeading level piece (partTokens back) ∧
      ∃ before, pending ++ before = first ++ partTokens front ∧ depthAfter depth before = 0

/-! ## One token in front -/

/-- A rule outside all elements is a tag. -/
theorem exists_tag_of_isRule {depth : Nat} {t : Token} (h : isRule depth t) :
    ∃ tag, t = .tag tag := by
  cases t with
  | comment body => simp [isRule] at h
  | plain s => simp [isRule] at h
  | tag t => exact ⟨t, rfl⟩

theorem startsWithHeading_of_startsSlide {level depth : Nat} {rest more behind : List Token}
    {t : Token} (h : startsSlide level depth rest t) (hrest : rest = more ++ behind) :
    StartsWithHeading level (t :: more) behind := by
  cases t with
  | comment body => simp [startsSlide] at h
  | plain s => simp [startsSlide] at h
  | tag t =>
    simp only [startsSlide, opensSlide, Bool.and_eq_true, decide_eq_true_eq, Bool.not_eq_true',
      Option.any_eq_true, Option.isNone_iff_eq_none] at h
    obtain ⟨⟨-, hopen⟩, ⟨n, hname, hn⟩, hnotes⟩ := h
    exact ⟨t, more, rfl, hopen, ⟨n, hn, hname⟩, by rwa [List.cons_append, ← hrest]⟩

section Step
variable {level depth : Nat} {pending ts first : List Token} {parts : List Part} {t : Token}

/-- Parts behind one that starts with the token in front are the parts behind that token. -/
private theorem exists_front_cons {p : Part} {inner outer before : List Token} {rule : Option Tag}
    (hp : p.tokens = outer ++ first) (ht : outer ++ inner = [t]) :
    (∃ front piece back, parts = front ++ ⟨rule, piece⟩ :: back ∧
      inner ++ before = first ++ partTokens front) ↔
    ∃ front piece back, p :: parts = front ++ ⟨rule, piece⟩ :: back ∧
      pending ++ t :: before = pending ++ partTokens front := by
  have hmore : ∀ front, pending ++ t :: before = pending ++ partTokens (p :: front) ↔
      inner ++ before = first ++ partTokens front := by
    intro front
    rw [← List.singleton_append, ← ht, partTokens_cons, hp, List.append_cancel_left_eq,
      List.append_assoc, List.append_assoc, List.append_cancel_left_eq]
  constructor
  · rintro ⟨front, piece, back, rfl, hbefore⟩
    exact ⟨p :: front, piece, back, rfl, (hmore front).2 hbefore⟩
  · rintro ⟨_ | ⟨q, front⟩, piece, back, hparts, hbefore⟩
    · simp at hbefore
    · obtain ⟨rfl, rfl⟩ := List.cons.inj hparts
      exact ⟨front, piece, back, rfl, (hmore front).1 hbefore⟩

namespace IsCut

theorem nil (level depth : Nat) (pending : List Token) :
    IsCut level depth pending [] pending [] where
  pending_first := List.prefix_refl pending
  tokens_eq := by simp
  rule before t after h := by simp at h
  heading front piece back h := by simp at h

/-- A token that ends the piece under way stands in the part behind it, as the rule in front of the
next piece or as the start of that piece. -/
private theorem cons_part {p : Part} {inner : List Token} (outer : List Token)
    (hp : p.tokens = outer ++ first) (ht : outer ++ inner = [t])
    (hrule : ∀ tag, t = .tag tag → (isRule depth t ↔ p.rule = some tag))
    (hheading : p.rule = none → StartsWithHeading level p.piece (partTokens parts) ∧ depth = 0)
    (h : IsCut level (depthBehind depth t) inner ts first parts) :
    IsCut level depth pending (t :: ts) pending (p :: parts) where
  pending_first := List.prefix_refl pending
  tokens_eq := by
    rw [← List.singleton_append, ← ht, partTokens_cons, hp, List.append_assoc, List.append_assoc,
      h.tokens_eq]
  rule := by
    rintro (_ | ⟨u, before⟩) tag after hts
    · obtain ⟨rfl, rfl⟩ := List.cons.inj hts
      refine (hrule tag rfl).trans ⟨fun hr => ?_, ?_⟩
      · exact ⟨[], p.piece, parts, by rw [← hr]; rfl, by simp⟩
      · rintro ⟨_ | ⟨q, front⟩, piece, back, hparts, hbefore⟩
        · rw [(List.cons.inj hparts).1]
        · obtain ⟨rfl, -⟩ := List.cons.inj hparts
          have hne : p.tokens ≠ [] := by
            rintro hnil
            obtain ⟨rfl, rfl⟩ : outer = [] ∧ first = [] := by simpa [hp] using hnil
            simp [show inner = [.tag tag] from ht] at h
            simpa using h.pending_first
          simp [hne] at hbefore
    · obtain ⟨rfl, htail⟩ := List.cons.inj hts
      exact (h.rule before tag after htail).trans (exists_front_cons hp ht)
  heading := by
    rintro (_ | ⟨q, front⟩) piece back hparts
    · obtain ⟨rfl, rfl⟩ := List.cons.inj hparts
      obtain ⟨hstart, hdepth⟩ := hheading rfl
      exact ⟨hstart, [], by simp, hdepth⟩
    · obtain ⟨rfl, hrest⟩ := List.cons.inj hparts
      obtain ⟨hstart, before, hbefore, hdepth⟩ := h.heading front piece back hrest
      refine ⟨hstart, t :: before, ?_, hdepth⟩
      rw [← List.singleton_append, ← ht, partTokens_cons, hp, List.append_assoc, List.append_assoc,
        hbefore]

/-- A rule ends the piece under way. -/
theorem cons_rule {tag : Tag} (hrule : isRule depth (.tag tag))
    (h : IsCut level (depthBehind depth (.tag tag)) [] ts first parts) :
    IsCut level depth pending (.tag tag :: ts) pending (⟨some tag, first⟩ :: parts) :=
  cons_part [.tag tag] rfl rfl (by rintro _ ⟨⟩; simpa using hrule) (by simp) h

/-- A heading that starts a slide ends the piece under way and starts the next one. -/
theorem cons_heading (hrule : isRule depth t = false) (hstart : startsSlide level depth ts t)
    (h : IsCut level (depthBehind depth t) [t] ts first parts) :
    IsCut level depth pending (t :: ts) pending (⟨none, first⟩ :: parts) := by
  obtain ⟨more, rfl⟩ := h.pending_first
  have hts : ts = more ++ partTokens parts := by simpa using h.tokens_eq
  exact cons_part [] rfl rfl (by simp [hrule])
    (fun _ => ⟨startsWithHeading_of_startsSlide hstart hts, eq_zero_of_startsSlide hstart⟩) h

/-- Any other token joins the piece under way. -/
theorem cons_join (hrule : isRule depth t = false)
    (h : IsCut level (depthBehind depth t) (pending ++ [t]) ts first parts) :
    IsCut level depth pending (t :: ts) first parts where
  pending_first := (List.prefix_append pending [t]).trans h.pending_first
  tokens_eq := by simpa using h.tokens_eq
  rule := by
    rintro (_ | ⟨u, before⟩) tag after hts
    · obtain ⟨rfl, rfl⟩ := List.cons.inj hts
      refine iff_of_false (by simpa [depthAfter] using hrule) ?_
      rintro ⟨front, piece, back, -, hbefore⟩
      obtain ⟨more, rfl⟩ := h.pending_first
      simp at hbefore
    · obtain ⟨rfl, htail⟩ := List.cons.inj hts
      have hrest := h.rule before tag after htail
      simp only [List.append_assoc, List.singleton_append] at hrest
      exact hrest
  heading front piece back hparts := by
    obtain ⟨hstart, before, hbefore, hdepth⟩ := h.heading front piece back hparts
    exact ⟨hstart, t :: before, by simpa using hbefore, hdepth⟩

end IsCut

end Step

/-! ## The pieces of a document -/

/-- The pieces of tokens are cut at the rules and the headings between them. -/
theorem exists_isCut (level depth : Nat) (pending ts : List Token) : ∃ first parts,
    IsCut level depth pending ts first parts ∧
      cut level depth (spell pending) ts = (first :: parts.map Part.piece).map spell := by
  induction ts generalizing depth pending with
  | nil => exact ⟨pending, [], .nil level depth pending, rfl⟩
  | cons t ts ih =>
    rw [cut_cons]
    split
    · next hrule =>
      obtain ⟨first, parts, hcut, htexts⟩ := ih (depthBehind depth t) []
      obtain ⟨tag, rfl⟩ := exists_tag_of_isRule hrule
      exact ⟨pending, _, hcut.cons_rule hrule, by simpa using htexts⟩
    · next hrule =>
      rw [Bool.not_eq_true] at hrule
      split
      · next hstart =>
        obtain ⟨first, parts, hcut, htexts⟩ := ih (depthBehind depth t) [t]
        rw [Bool.and_eq_true] at hstart
        exact ⟨pending, _, hcut.cons_heading hrule hstart.1, by simpa using htexts⟩
      · obtain ⟨first, parts, hcut, htexts⟩ := ih (depthBehind depth t) (pending ++ [t])
        exact ⟨first, parts, hcut.cons_join hrule, by simpa using htexts⟩

/-- The pieces of a document with the rules between them are the document, and its fragments are
those of its pieces that are not vacant, without the white space around them. -/
theorem exists_pieces_of_split (html : Text) (level : Nat) : ∃ first parts,
    IsCut level 0 [] (tokens html) first parts ∧
      html = spell first ++ parts.flatMap (fun p => p.separator ++ spell p.piece) ∧
      split html level =
        (((first :: parts.map Part.piece).map spell).filter fun f => !isVacant f).map trim := by
  obtain ⟨first, parts, hcut, htexts⟩ := exists_isCut level 0 [] (tokens html)
  refine ⟨first, parts, hcut, ?_, by rw [split, ← htexts]; rfl⟩
  have htokens := congrArg spell hcut.tokens_eq
  rwa [List.nil_append, spell_append, spell_tokens, spell_partTokens] at htokens

end Slideshow.Fragment
