import Slideshow.Proofs.Sections
import Slideshow.Proofs.ReadBlocks

/-!
# The styles of titles

Which titles a document has, and in which styles, does not depend on the ranks of the styles. So the
titles are told first, in the order in which the reader comes to them and without any table of
styles. Then the table is followed through the reader: it grows by the styles of these titles in this
order, through every nested body, and each title gets the place of its style in it.
-/
namespace Slideshow.Restructured
open Text

/-! ## The order in which titles are met -/

/-- Lines that are still to be read, and what the reader knows when it comes to them: whether a
literal block was announced, and whether no text stands right above. -/
structure Passage where
  literal : Bool
  fresh : Bool
  lines : List Text

namespace Passage

/-- A nested body, or a whole document. -/
def body (lines : List Text) : Passage := ⟨false, true, lines⟩

/-- The lines that are left behind a block. -/
def behind (all left : List Text) : Passage := ⟨false, endsBlank all left, left⟩

/-- Only the body of a directive that is neither an image nor code is read. -/
def ofDirective : Option Directive → List Passage
  | none => []
  | some d => if d.name ∈ imageNames ∨ d.name ∈ codeNames then [] else [body d.body]

/-- What the first line of a passage opens: a title, maybe, and the passages that are read next,
nested bodies before the lines behind them. -/
def next : Passage → Option (Style × Text) × List Passage
  | ⟨_, _, []⟩ => (none, [])
  | ⟨literal, fresh, line :: rest⟩ =>
    if line = [] then (none, [⟨literal, true, rest⟩])
    else if literal = true ∧ 0 < indent line then
      (none, [behind (line :: rest) (afterIndented (line :: rest))])
    else match Opening.of fresh line rest with
    | .title style text after => (some (style, text), [⟨false, false, after⟩])
    | .transition => (none, [⟨false, false, rest⟩])
    | .markup text =>
      (none, ofDirective (Directive.of? text (indented rest))
        ++ [behind (line :: rest) (afterIndented rest)])
    | .quote =>
      (none, [body (indented (line :: rest)),
        behind (line :: rest) (afterIndented (line :: rest))])
    | .list bullet =>
      (none, (itemsOf bullet (line :: rest)).1.map body
        ++ [behind (line :: rest) (itemsOf bullet (line :: rest)).2])
    | .paragraph =>
      (none, [⟨(paragraphOf (line :: rest.takeWhile (· ≠ []))).2, false,
        rest.dropWhile (· ≠ [])⟩])

/-- What is read next weighs less. -/
theorem weight_lt_of_mem_next {p q : Passage} (h : q ∈ p.next.2) :
    weight q.lines < weight p.lines := by
  obtain ⟨literal, fresh, lines⟩ := p
  cases lines with
  | nil => simp [next] at h
  | cons line rest =>
    rw [next] at h
    split at h
    · obtain rfl := List.mem_singleton.1 h
      simp
    split at h
    · next hliteral =>
      obtain rfl := List.mem_singleton.1 h
      exact weight_afterIndented_lt rest hliteral.2
    split at h
    · next style text after hopen =>
      obtain rfl := List.mem_singleton.1 h
      exact Opening.of_eq_title hopen
    · obtain rfl := List.mem_singleton.1 h
      simp
    · next text hopen =>
      rcases List.mem_append.1 h with h | h
      · cases hd : Directive.of? text (indented rest) with
        | none => simp [hd, ofDirective] at h
        | some d =>
          rw [hd, ofDirective] at h
          split at h
          · simp at h
          · obtain rfl := List.mem_singleton.1 h
            exact Directive.weight_body_lt (Opening.of_eq_markup hopen) hd
      · obtain rfl := List.mem_singleton.1 h
        have := weight_afterIndented_le rest
        simp only [behind, weight_cons]
        omega
    · next hopen =>
      have hpos := Opening.of_eq_quote hopen
      simp only [List.mem_cons, List.not_mem_nil, or_false] at h
      rcases h with rfl | rfl
      · exact weight_indented_lt rest hpos
      · exact weight_afterIndented_lt rest hpos
    · next bullet hopen =>
      obtain ⟨m, hm, rfl⟩ := Opening.of_eq_list hopen
      have hlt := weight_itemsOf_lt rest hm
      rcases List.mem_append.1 h with h | h
      · obtain ⟨item, hitem, rfl⟩ := List.mem_map.1 h
        have := weight_le_weights hitem
        simp only [body]
        omega
      · obtain rfl := List.mem_singleton.1 h
        simp only [behind]
        omega
    · obtain rfl := List.mem_singleton.1 h
      have := weight_le_of_sublist
        (List.dropWhile_suffix (fun l : Text => decide (l ≠ [])) (l := rest)).sublist
      simp only [weight_cons]
      omega

/-- The titles of a passage in the order in which they are met, each with its style. -/
def titles (p : Passage) : List (Style × Text) :=
  p.next.1.toList ++ p.next.2.attach.flatMap fun q => q.1.titles
termination_by weight p.lines
decreasing_by exact weight_lt_of_mem_next q.2

theorem titles_eq (p : Passage) : p.titles = p.next.1.toList ++ p.next.2.flatMap titles := by
  rw [titles, List.flatMap_subtype (g := titles) fun _ _ => rfl, List.unattach_attach]

end Passage

/-- The titles of a document in the order in which they are met. -/
def titlesMet (source : Text) : List (Style × Text) := (Passage.body (linesOf source)).titles

/-! ## Ranks of the styles -/

/-- The styles known behind some titles. -/
def knownBehind (known : List Style) (titles : List (Style × Text)) : List Style :=
  (titles.map (·.1)).foldl met known

/-- The styles known behind some titles, and the titles with the ranks of their styles among them. -/
def ranked (known : List Style) (titles : List (Style × Text)) : List Style × List (Nat × Text) :=
  (knownBehind known titles,
    titles.map fun p => ((knownBehind known titles).idxOf p.1 + 1, p.2))

/-- A style that is known keeps its rank, whatever is met after it. -/
theorem ranked_append (known : List Style) (ts us : List (Style × Text)) :
    ranked known (ts ++ us) =
      ((ranked (ranked known ts).1 us).1,
        (ranked known ts).2 ++ (ranked (ranked known ts).1 us).2) := by
  have hall : knownBehind known (ts ++ us) = knownBehind (knownBehind known ts) us := by
    rw [knownBehind, List.map_append, List.foldl_append]
    rfl
  have hkept : ∀ p ∈ ts, (knownBehind (knownBehind known ts) us).idxOf p.1 =
      (knownBehind known ts).idxOf p.1 :=
    fun p hp => idxOf_foldl_met (mem_foldl_met (List.mem_map_of_mem hp) known) _
  simp only [ranked, hall, List.map_append]
  exact Prod.ext rfl (congrArg (· ++ _) (List.map_congr_left fun p hp => by rw [hkept p hp]))

theorem ranked_cons (known : List Style) (style : Style) (text : Text)
    (ts : List (Style × Text)) :
    ranked known ((style, text) :: ts) =
      ((ranked (rankOf known style).2 ts).1,
        ((rankOf known style).1, text) :: (ranked (rankOf known style).2 ts).2) := by
  have hone : ranked known [(style, text)] =
      ((rankOf known style).2, [((rankOf known style).1, text)]) := by
    rw [rankOf_eq]
    rfl
  rw [← List.singleton_append, ranked_append, hone]
  rfl

/-! ## The titles among blocks -/

mutual

/-- The titles in a block with their ranks, in the order in which they are written. -/
def Block.titles : Block → List (Nat × Text)
  | .title rank text => [(rank, text)]
  | .quote body => titlesIn body
  | .list _ items => titlesInBodies items
  | .admonition _ body => titlesIn body
  | .container _ body => titlesIn body
  | .paragraph _ | .transition | .literal _ | .image _ _ | .code _ _ => []

def titlesIn : List Block → List (Nat × Text)
  | [] => []
  | b :: bs => b.titles ++ titlesIn bs

def titlesInBodies : List (List Block) → List (Nat × Text)
  | [] => []
  | body :: bodies => titlesIn body ++ titlesInBodies bodies

end

theorem titlesIn_append (bs cs : List Block) :
    titlesIn (bs ++ cs) = titlesIn bs ++ titlesIn cs := by
  induction bs with
  | nil => rfl
  | cons b bs ih => rw [List.cons_append, titlesIn, titlesIn, ih, List.append_assoc]

/-- What was read agrees with the titles that were met: the same styles are known behind it, and it
holds these titles with these ranks. -/
def Agrees {β : Type} (titlesOf : β → List (Nat × Text)) (known : List Style)
    (titles : List (Style × Text)) (read : List Style × β) : Prop :=
  (read.1, titlesOf read.2) = ranked known titles

section Agrees
variable {known : List Style} {ts us : List (Style × Text)}

/-- Blocks that stand one behind the other agree with the titles of both. -/
theorem Agrees.append {first second : List Style × List Block}
    (h₁ : Agrees titlesIn known ts first) (h₂ : Agrees titlesIn first.1 us second) :
    Agrees titlesIn known (ts ++ us) (second.1, first.2 ++ second.2) := by
  rw [Agrees] at h₁ h₂ ⊢
  rw [ranked_append, ← h₁, ← h₂, titlesIn_append]

/-- A block without titles. -/
theorem Agrees.skip {read : List Style × List Block} (h : Agrees titlesIn known ts read) {b : Block}
    (hb : b.titles = []) : Agrees titlesIn known ts (withBlock b read) := by
  rw [Agrees] at h ⊢
  rw [← h, withBlock, titlesIn, hb, List.nil_append]

/-- A block around blocks that were read. -/
theorem Agrees.around {β : Type} {titlesOf : β → List (Nat × Text)} {inner : List Style × β}
    {read : List Style × List Block} {b : Block} (hi : Agrees titlesOf known ts inner)
    (hb : b.titles = titlesOf inner.2) (hr : Agrees titlesIn inner.1 us read) :
    Agrees titlesIn known (ts ++ us) (withBlock b read) := by
  have hone : Agrees titlesIn known ts (inner.1, [b]) := by
    rw [Agrees] at hi ⊢
    rw [← hi, titlesIn, titlesIn, List.append_nil, hb]
  exact hone.append hr

end Agrees

/-- What a directive makes agrees with the titles in its body. -/
theorem agrees_madeBlocks {known : List Style} {d? : Option Directive}
    (h : ∀ d, d? = some d →
      Agrees titlesIn known (Passage.body d.body).titles (blocks known false true d.body)) :
    Agrees titlesIn known ((Passage.ofDirective d?).flatMap Passage.titles) (madeBlocks known d?) := by
  cases d? with
  | none => rfl
  | some d =>
    rw [madeBlocks, Passage.ofDirective]
    by_cases himage : d.name ∈ imageNames
    · simp only [himage, true_or, if_true]
      rfl
    by_cases hcode : d.name ∈ codeNames
    · simp only [himage, hcode, or_true, if_true, if_false]
      rfl
    simp only [himage, hcode, or_self, if_false, List.flatMap_singleton]
    have hbody := h d rfl
    split
    · simpa [Agrees, titlesIn, Block.titles] using hbody
    · simpa [Agrees, titlesIn, Block.titles] using hbody

/-- The reader meets the titles in the order told before, whatever it knows. -/
private theorem agrees_blocks_and_bodies :
    (∀ known literal fresh lines, Agrees titlesIn known (Passage.titles ⟨literal, fresh, lines⟩)
        (blocks known literal fresh lines)) ∧
      ∀ known items, Agrees titlesInBodies known
        ((items.map Passage.body).flatMap Passage.titles) (bodies known items) := by
  refine blocks.mutual_induct
    (fun known literal fresh lines => Agrees titlesIn known (Passage.titles ⟨literal, fresh, lines⟩)
      (blocks known literal fresh lines))
    (fun known items => Agrees titlesInBodies known
      ((items.map Passage.body).flatMap Passage.titles) (bodies known items))
    ?nil ?blank ?literal ?title ?transition ?markup ?quote ?list ?paragraph ?none ?body
  case nil =>
    intro known literal fresh
    rw [blocks_nil, Passage.titles_eq]
    rfl
  case blank =>
    intro known literal fresh lines ih
    rw [blocks_blank, Passage.titles_eq]
    simpa [Passage.next] using ih
  case literal =>
    intro known literal fresh line rest hl hi after ih
    rw [blocks_literal hl hi, Passage.titles_eq]
    simp only [Passage.next, hl, hi, if_false, and_self, if_true, Option.toList_none, List.nil_append,
      List.flatMap_singleton]
    exact ih.skip rfl
  case title =>
    intro known literal fresh line rest hl hn style text after h rank next hrank ih
    rw [blocks_title hl hn h, Passage.titles_eq]
    simp only [Passage.next, hl, hn, h, if_false, Option.toList_some, List.flatMap_singleton,
      List.singleton_append]
    rw [Agrees, ranked_cons, hrank, ← ih]
    rfl
  case transition =>
    intro known literal fresh line rest hl hn h ih
    rw [blocks_transition hl hn h, Passage.titles_eq]
    simp only [Passage.next, hl, hn, h, if_false, Option.toList_none, List.nil_append,
      List.flatMap_singleton]
    exact ih.skip rfl
  case markup =>
    intro known literal fresh line rest hl hn text h after next made hmade hbody ih
    have hm : madeBlocks known (Directive.of? text (indented rest)) = (next, made) := by
      rw [← hmade]
      cases Directive.of? text (indented rest) with
      | none => rfl
      | some d => rfl
    have hread := agrees_madeBlocks hbody
    rw [blocks_markup hl hn h, Passage.titles_eq]
    simp only [Passage.next, hl, hn, h, if_false, Option.toList_none, List.nil_append,
      List.flatMap_append, List.flatMap_singleton]
    rw [hm] at hread ⊢
    exact hread.append ih
  case quote =>
    intro known literal fresh line rest hl hn h next body hbody after hb ih
    rw [blocks_quote hl hn h, Passage.titles_eq]
    simp only [Passage.next, hl, hn, h, if_false, Option.toList_none, List.nil_append,
      List.flatMap_cons, List.flatMap_nil, List.append_nil]
    rw [hbody] at hb ⊢
    exact hb.around rfl ih
  case list =>
    intro known literal fresh line rest hl hn bullet h split next items hitems hi ih
    rw [blocks_list hl hn h, Passage.titles_eq]
    simp only [Passage.next, hl, hn, h, if_false, Option.toList_none, List.nil_append,
      List.flatMap_append, List.flatMap_singleton]
    rw [hitems] at hi ⊢
    exact hi.around rfl ih
  case paragraph =>
    intro known literal fresh line rest hl hn h text announced hp ih
    rw [blocks_paragraph hl hn h, Passage.titles_eq]
    simp only [Passage.next, hl, hn, h, if_false, Option.toList_none, List.nil_append,
      List.flatMap_singleton, hp]
    exact ih.skip rfl
  case none =>
    intro known
    rw [bodies_nil]
    rfl
  case body =>
    intro known item items next body hbody hb ih
    have hitem : (next, titlesIn body) = ranked known (Passage.body item).titles := by
      rw [hbody] at hb
      exact hb
    rw [bodies_cons, hbody, List.map_cons, List.flatMap_cons, Agrees, ranked_append, ← hitem, ← ih]
    rfl

/-! ## Ranks by first appearance -/

/-- The rank of a style among some styles: its place in the order of their first appearance. -/
def rankAmong (styles : List Style) (style : Style) : Nat := styles.eraseDups.idxOf style + 1

/-- The titles of a document are those that are met, in this order, each with the rank of its style
among all styles of the document. -/
theorem titlesIn_ofSource (source : Text) :
    titlesIn (Block.ofSource source) =
      (titlesMet source).map fun p => (rankAmong ((titlesMet source).map (·.1)) p.1, p.2) := by
  have hread := agrees_blocks_and_bodies.1 [] false true (linesOf source)
  have hall : knownBehind [] (titlesMet source) = ((titlesMet source).map (·.1)).eraseDups := by
    simp [knownBehind, foldl_met]
  simp only [rankAmong, ← hall]
  exact congrArg Prod.snd hread

section Rank
variable {styles before : List Style} {style other : Style}

/-- Ranks tell styles apart. -/
theorem rankAmong_eq_iff (h : style ∈ styles) :
    rankAmong styles style = rankAmong styles other ↔ style = other := by
  rw [rankAmong, rankAmong, Nat.add_right_cancel_iff, List.idxOf_inj (List.mem_eraseDups.2 h)]

/-- What is met later does not change a rank. -/
theorem rankAmong_append (h : style ∈ before) (after : List Style) :
    rankAmong (before ++ after) style = rankAmong before style := by
  rw [rankAmong, rankAmong, List.eraseDups_append, List.idxOf_append_of_mem (List.mem_eraseDups.2 h)]

/-- A new style gets the next rank. -/
theorem rankAmong_new (h : style ∉ before) (after : List Style) :
    rankAmong (before ++ style :: after) style = before.eraseDups.length + 1 := by
  have hnew : (style :: after).removeAll before = style :: after.removeAll before := by
    simp [List.removeAll, h]
  have hnot : style ∉ before.eraseDups := fun hm => h (List.mem_eraseDups.1 hm)
  rw [rankAmong, List.eraseDups_append, hnew, List.eraseDups_cons,
    List.idxOf_append_of_notMem hnot, List.idxOf_cons_self, Nat.add_zero]

/-- The number of the styles is the rank of one of them. -/
theorem exists_rankAmong_eq_length (h : before ≠ []) :
    ∃ style ∈ before, rankAmong before style = before.eraseDups.length := by
  induction before using List.reverseRecOn with
  | nil => exact absurd rfl h
  | append_singleton front last ih =>
    by_cases hl : last ∈ front
    · obtain ⟨style, hs, hrank⟩ := ih (List.ne_nil_of_mem hl)
      refine ⟨style, List.mem_append_left _ hs, ?_⟩
      rw [rankAmong_append hs, hrank, List.eraseDups_append]
      simp [List.removeAll, hl]
    · refine ⟨last, by simp, ?_⟩
      rw [rankAmong_new hl, List.eraseDups_append]
      simp [List.removeAll, hl, List.eraseDups_cons]

/-- No rank is left out: behind other styles, each comes at most one after the rank of one of
them. -/
theorem exists_rankAmong_before (h : before ≠ []) (style : Style) (after : List Style) :
    ∃ other ∈ before, rankAmong (before ++ style :: after) style ≤
      rankAmong (before ++ style :: after) other + 1 := by
  by_cases hs : style ∈ before
  · exact ⟨style, hs, Nat.le_succ _⟩
  · obtain ⟨other, ho, hrank⟩ := exists_rankAmong_eq_length h
    exact ⟨other, ho, by rw [rankAmong_append ho, rankAmong_new hs, hrank]⟩

/-- The first style has the first rank. -/
theorem rankAmong_head (style : Style) (after : List Style) :
    rankAmong (style :: after) style = 1 := by
  rw [rankAmong, List.eraseDups_cons, List.idxOf_cons_self]

end Rank

/-- An adornment that stands above, too, is another style. -/
example : [⟨'=', false⟩, ⟨'-', false⟩, ⟨'=', false⟩, ⟨'=', true⟩].map
    (rankAmong [⟨'=', false⟩, ⟨'-', false⟩, ⟨'=', false⟩, ⟨'=', true⟩]) = [1, 2, 1, 3] := by decide

end Slideshow.Restructured
