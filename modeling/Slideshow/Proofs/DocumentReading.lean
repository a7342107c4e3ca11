import Slideshow.Proofs.PrintedLine

/-!
# Reading printed documents

Reading undoes printing: the HTML of a printed document is what the document means. The induction is
on the document. Each part is taken off the front of the lines, and its own lines are those of a
smaller document.
-/
namespace Slideshow.Restructured
open Text

/-! ## Ends of printed lines -/

theorem EndsInText.append {ls : List Text} (h : EndsInText ls) (front : List Text) :
    EndsInText (front ++ ls) := by
  obtain ⟨l, hl, hne⟩ := h
  exact ⟨l, by simp [List.getLast?_append, hl], hne⟩

theorem EndsInText.hanging {ls : List Text} (h : EndsInText ls) (marker : Text) :
    EndsInText (hanging marker ls) := by
  match ls with
  | [] =>
    obtain ⟨l, hl, -⟩ := h
    simp at hl
  | [t] =>
    obtain ⟨l, hl, hne⟩ := h
    obtain rfl : t = l := by simpa using hl
    exact ⟨marker ++ t, by simp [Restructured.hanging], by simp [hne]⟩
  | t :: k :: ls =>
    obtain ⟨l, hl, hne⟩ := h
    have hrest : EndsInText (k :: ls) := ⟨l, by simpa using hl, hne⟩
    exact (hrest.map_shifted marker.length).append [marker ++ t]

mutual

theorem endsInText_lines : (p : Part) → p.isDocument → EndsInText p.lines
  | .paragraph t, h => ⟨t, rfl, ne_nil_of_isPlainLine h⟩
  | .list numbered items, h => by
    simp only [Part.isDocument, Bool.and_eq_true, Bool.not_eq_true'] at h
    exact endsInText_itemLines numbered 1 items h.2 (by rintro rfl; simp at h)
  | .quote body, h => by
    simp only [Part.isDocument, Bool.and_eq_true] at h
    refine (endsInText_printedLines body h.2 ?_).map_shifted 4
    rintro rfl
    simp at h

theorem endsInText_printedLines : (ps : List Part) → isDocument ps → ps ≠ [] →
    EndsInText (printedLines ps)
  | [], _, hne => absurd rfl hne
  | [p], h, _ => by
    simp only [isDocument, Bool.and_eq_true] at h
    simpa [printedLines] using endsInText_lines p h.1.1
  | p :: q :: ps, h, _ => by
    rw [isDocument, Bool.and_eq_true] at h
    have hrest := endsInText_printedLines (q :: ps) h.2 (by simp)
    rw [printedLines]
    exact ((hrest.append [[]]).append p.lines)

theorem endsInText_itemLines (numbered : Bool) (number : Nat) : (items : List (List Part)) →
    areBodies items → items ≠ [] → EndsInText (itemLines numbered number items)
  | [], _, hne => absurd rfl hne
  | [item], h, _ => by
    simp only [areBodies, Bool.and_eq_true] at h
    have hitem : item ≠ [] := by
      rintro rfl
      simp at h
    simpa [itemLines] using
      (endsInText_printedLines item h.1.2 hitem).hanging (markerOf numbered number)
  | item :: next :: items, h, _ => by
    rw [areBodies, Bool.and_eq_true] at h
    rw [itemLines]
    exact (endsInText_itemLines numbered (number + 1) (next :: items) h.2 (by simp)).append _

end

/-! ## Items of a list -/

/-- The items start at the margin. -/
private theorem head_itemLines (numbered : Bool) (number : Nat) {item : List Part}
    {items : List (List Part)} (h : areBodies (item :: items)) :
    ∃ l ls, itemLines numbered number (item :: items) = l :: ls ∧ l ≠ [] ∧ indent l = 0 := by
  simp only [areBodies, Bool.and_eq_true] at h
  obtain ⟨t, qs, -, ht, -, he⟩ := printedLines_of_body h.1.1 h.1.2
  refine ⟨markerOf numbered number ++ t, _, by rw [itemLines, he, hanging, List.cons_append], ?_,
    indent_marked numbered number t⟩
  simp [ne_nil_of_isPlainLine ht]

/-- Nothing follows a list, or a blank line and then a line that is neither indented nor marked. -/
def IsBehindList (tail : List Text) : Prop :=
  tail = [] ∨ ∃ l rest, tail = [] :: l :: rest ∧ l ≠ [] ∧ indent l = 0 ∧ marker? l = none

theorem length_markerOf_pos (numbered : Bool) (number : Nat) :
    0 < (markerOf numbered number).length := by
  obtain ⟨c, s, h, -⟩ := head_markerOf numbered number
  simp [h]

/-- What stands behind an item, the next item or the end of the list, does not continue it. -/
private theorem find?_behind_item (numbered : Bool) (number : Nat) {width : Nat}
    {items : List (List Part)} {tail : List Text} (hw : 0 < width) (h : areBodies items)
    (ht : IsBehindList tail) :
    ((itemLines numbered number items ++ tail).find? (· ≠ [])).any (width ≤ indent ·) = false := by
  cases items with
  | nil =>
    rcases ht with rfl | ⟨l, rest, rfl, hl, hi, -⟩
    · rfl
    · simp [itemLines, hl, hi]
      omega
  | cons item items =>
    obtain ⟨l, ls, he, hl, hi⟩ := head_itemLines numbered number h
    simp [he, hl, hi]
    omega

/-- The items of a printed list are read as their own lines. -/
theorem itemsOf_itemLines (numbered : Bool) {tail : List Text} (ht : IsBehindList tail)
    (items : List (List Part)) (h : areBodies items) (number : Nat) :
    itemsOf (bulletOf numbered)
        ((itemLines numbered number items ++ tail).dropWhile (· = [])) =
      (items.map printedLines, tail.dropWhile (· = [])) := by
  induction items generalizing number with
  | nil =>
    rcases ht with rfl | ⟨l, rest, rfl, hl, -, hm⟩
    · simp [itemLines, itemsOf]
    · simp [itemLines, itemsOf, hl, hm]
  | cons item items ih =>
    simp only [areBodies, Bool.and_eq_true] at h
    obtain ⟨⟨hp, hd⟩, hs⟩ := h
    obtain ⟨t, qs, rfl, hplain, hqs, he⟩ := printedLines_of_body hp hd
    have hends := endsInText_printedLines _ hd (by simp)
    rw [he] at hends
    have hmore : ∀ {ls : List Text}, EndsInText (t :: ls) → ls = [] ∨ EndsInText ls := by
      intro ls hls
      obtain ⟨l, hl, hne⟩ := hls
      cases ls with
      | nil => exact .inl rfl
      | cons k ls => exact .inr ⟨l, by simpa using hl, hne⟩
    have hne : markerOf numbered number ++ t ≠ [] := by simp [ne_nil_of_isPlainLine hplain]
    have hcont := continuation_shifted (n := (markerOf numbered number).length) (hmore hends)
      (find?_behind_item numbered (number + 1) (length_markerOf_pos numbered number) hs ht)
    rw [itemLines, he, hanging, List.append_assoc, List.cons_append, List.dropWhile_cons,
      if_neg (by simpa using hne), itemsOf, marker?_marked hplain]
    simp only [if_true, hcont, ih hs (number + 1), List.map_cons, he]

/-! ## Blocks of a document -/

mutual

/-- The block that a part is read as. -/
def Part.block : Part → Block
  | .paragraph t => .paragraph t
  | .list numbered items => .list numbered (bodyBlocks items)
  | .quote body => .quote (documentBlocks body)

def documentBlocks : List Part → List Block
  | [] => []
  | p :: ps => p.block :: documentBlocks ps

def bodyBlocks : List (List Part) → List (List Block)
  | [] => []
  | body :: bodies => documentBlocks body :: bodyBlocks bodies

end

/-- The lines behind a part. -/
def linesBehind (ps : List Part) : List Text := if ps.isEmpty then [] else [] :: printedLines ps

theorem printedLines_cons (p : Part) (ps : List Part) :
    printedLines (p :: ps) = p.lines ++ linesBehind ps := by
  rw [printedLines, linesBehind]

/-- A document that does not start with a quote starts at the margin. -/
private theorem head_printedLines {p : Part} {ps : List Part} (h : isDocument (p :: ps))
    (hp : ∀ body, p ≠ .quote body) :
    ∃ l ls, printedLines (p :: ps) = l :: ls ∧ l ≠ [] ∧ indent l = 0 := by
  simp only [isDocument, Bool.and_eq_true] at h
  cases p with
  | paragraph t =>
    obtain ⟨c, s, rfl, hc, -⟩ := isPlainLine_iff.1 (show isPlainLine t from h.1.1)
    exact ⟨c :: s, linesBehind ps, by rw [printedLines_cons]; rfl, by simp,
      indent_cons (isLetter_ne hc (by decide)) s⟩
  | list numbered items =>
    simp only [Part.isDocument, Bool.and_eq_true] at h
    cases items with
    | nil => simp at h
    | cons item items =>
      obtain ⟨l, ls, he, hl, hi⟩ := head_itemLines numbered 1 h.1.1.2
      exact ⟨l, ls ++ linesBehind ps, by rw [printedLines_cons, Part.lines, he]; rfl, hl, hi⟩
  | quote body => exact absurd rfl (hp body)

private theorem isOutside_linesBehind {body ps : List Part} (h : isDocument ps)
    (hp : ps.head?.all (Part.quote body).mayPrecede) : IsOutside (linesBehind ps) := by
  cases ps with
  | nil => exact .inl rfl
  | cons p ps =>
    obtain ⟨l, ls, he, hl, hi⟩ := head_printedLines h (by
      rintro other rfl
      simp [Part.mayPrecede] at hp)
    exact .inr ⟨l, ls, by simp [linesBehind, he], hl, hi⟩

private theorem isBehindList_linesBehind {numbered : Bool} {items : List (List Part)}
    {ps : List Part} (h : isDocument ps) (hp : ps.head?.all (Part.list numbered items).mayPrecede) :
    IsBehindList (linesBehind ps) := by
  cases ps with
  | nil => exact .inl rfl
  | cons p ps =>
    obtain ⟨t, qs, he, ht, -, hl⟩ := @printedLines_of_body (p :: ps)
      (by simpa [Part.mayPrecede] using hp) h
    obtain ⟨c, s, rfl, hc, -⟩ := isPlainLine_iff.1 ht
    exact .inr ⟨c :: s, _, by simp [linesBehind, hl]; rfl, by simp,
      indent_cons (isLetter_ne hc (by decide)) s, marker?_plain hc s⟩

private theorem dropWhile_linesBehind {ps : List Part} (h : isDocument ps) :
    (linesBehind ps).dropWhile (· = []) = printedLines ps := by
  cases ps with
  | nil => rfl
  | cons p ps =>
    have hp := h
    simp only [isDocument, Bool.and_eq_true] at hp
    have hne : p.lines.head?.all (· ≠ []) := by
      cases p with
      | paragraph t => simpa [Part.lines] using ne_nil_of_isPlainLine hp.1.1
      | list numbered items =>
        simp only [Part.isDocument, Bool.and_eq_true] at hp
        cases items with
        | nil => rfl
        | cons item items =>
          obtain ⟨l, ls, he, hl, -⟩ := head_itemLines numbered 1 hp.1.1.2
          simpa [Part.lines, he] using hl
      | quote body =>
        simp only [Part.isDocument, Bool.and_eq_true] at hp
        obtain ⟨t, qs, -, ht, -, he⟩ := printedLines_of_body hp.1.1.1 hp.1.1.2
        simpa [Part.lines, he, shifted_eq_nil_iff] using ne_nil_of_isPlainLine ht
    obtain ⟨l, hl⟩ := endsInText_lines p hp.1.1
    have hlines : p.lines ≠ [] := by
      intro hnil
      simp [hnil] at hl
    obtain ⟨k, ks, hks⟩ := List.exists_cons_of_ne_nil hlines
    have hk : k ≠ [] := by simpa [hks] using hne
    simp [linesBehind, printedLines_cons, hks, hk]

/-- Behind a part the rest of the document is read. -/
private theorem blocks_linesBehind {ps : List Part} {styles : List Style} {read : List Block}
    (h : ∀ fresh, blocks styles false fresh (printedLines ps) = (styles, read)) (fresh : Bool) :
    blocks styles false fresh (linesBehind ps) = (styles, read) := by
  cases ps with
  | nil => exact h fresh
  | cons p ps =>
    rw [linesBehind, if_neg (by simp), blocks_blank]
    exact h true

theorem trim_plain {t : Text} (h : isPlainLine t) : trim t = t := by
  obtain ⟨c, s, rfl, hc, hend, -⟩ := isPlainLine_iff.1 h
  have hleft : trimLeft (c :: s) = c :: s := by simp [trimLeft, isBlank_of_isLetter hc]
  rw [trim, hleft, trimRight_eq_self hend]

theorem paragraphOf_plain {t : Text} (h : isPlainLine t) : paragraphOf [t] = (t, false) := by
  obtain ⟨c, s, ht, -, -, -, -, -, -, hend⟩ := isPlainLine_iff.1 h
  have hline : unlines ([t].map trim) = t := by simp [trim_plain h]
  simp only [paragraphOf, hline, hend]

/-! ## One part -/

section Part
variable {ps : List Part} {styles : List Style} {read : List Block}
variable (hread : ∀ fresh, blocks styles false fresh (printedLines ps) = (styles, read))
include hread

private theorem blocks_of_paragraph {t : Text} (h : isDocument (.paragraph t :: ps)) (fresh : Bool) :
    blocks styles false fresh (printedLines (.paragraph t :: ps)) =
      (styles, .paragraph t :: read) := by
  have hprinted := isPrinted_of_mem_printedLines _ h
  simp only [isDocument, Part.isDocument, Bool.and_eq_true] at h
  have ht := h.1.1
  have hlines : printedLines (.paragraph t :: ps) = t :: linesBehind ps := printedLines_cons _ _
  have hstop : (linesBehind ps).takeWhile (· ≠ []) = [] ∧
      (linesBehind ps).dropWhile (· ≠ []) = linesBehind ps := by
    unfold linesBehind
    split <;> simp
  rw [hlines] at hprinted ⊢
  have hopen := opening_plain ht (fun l hl => hprinted l (List.mem_cons_of_mem t hl)) fresh
  rw [blocks_paragraph (ne_nil_of_isPlainLine ht) (by simp) hopen, hstop.1, hstop.2,
    paragraphOf_plain ht, blocks_linesBehind hread false]
  rfl

private theorem blocks_of_quote {body : List Part} {inner : List Block}
    (h : isDocument (.quote body :: ps))
    (hbody : blocks styles false true (printedLines body) = (styles, inner)) (fresh : Bool) :
    blocks styles false fresh (printedLines (.quote body :: ps)) =
      (styles, .quote inner :: read) := by
  have hprinted := isPrinted_of_mem_printedLines _ h
  simp only [isDocument, Part.isDocument, Bool.and_eq_true] at h
  obtain ⟨⟨⟨hp, hd⟩, hnext⟩, hps⟩ := h
  obtain ⟨t, qs, hqs, ht, -, he⟩ := printedLines_of_body hp hd
  obtain ⟨c, s, hcs, hc, -⟩ := isPlainLine_iff.1 ht
  have hends := endsInText_printedLines body hd (by simp [hqs])
  have hinside := isPrinted_of_mem_printedLines body hd
  generalize (if qs.isEmpty then [] else [] :: printedLines qs) = more at he
  have hlines : printedLines (.quote body :: ps) =
      shifted 4 t :: (more.map (shifted 4) ++ linesBehind ps) := by
    rw [printedLines_cons, Part.lines, he]
    rfl
  have hcut := indented_shifted (n := 4) (by decide) (isLetter_ne hc (by decide))
    (hcs ▸ he ▸ hends) (isOutside_linesBehind hps hnext)
  rw [← hcs, List.map_cons, List.cons_append, dropWhile_linesBehind hps, ← he] at hcut
  rw [hlines] at hprinted ⊢
  have hopen := opening_shifted (hinside t (by simp [he])) (ne_nil_of_isPlainLine ht)
    (fun l hl => hprinted l (List.mem_cons_of_mem _ hl)) fresh
  rw [blocks_quote (by simpa [shifted_eq_nil_iff] using ne_nil_of_isPlainLine ht) (by simp) hopen,
    hcut.1, hcut.2, hbody, hread]
  rfl

private theorem blocks_of_list {numbered : Bool} {items : List (List Part)}
    {inner : List (List Block)} (h : isDocument (.list numbered items :: ps))
    (hitems : bodies styles (items.map printedLines) = (styles, inner)) (fresh : Bool) :
    blocks styles false fresh (printedLines (.list numbered items :: ps)) =
      (styles, .list numbered inner :: read) := by
  have hprinted := isPrinted_of_mem_printedLines _ h
  simp only [isDocument, Part.isDocument, Bool.and_eq_true] at h
  obtain ⟨⟨⟨hne, hbodies⟩, hnext⟩, hps⟩ := h
  have hcut := itemsOf_itemLines numbered (isBehindList_linesBehind hps hnext) items hbodies 1
  obtain ⟨item, others, rfl⟩ := List.exists_cons_of_ne_nil (show items ≠ [] by simpa using hne)
  simp only [areBodies, Bool.and_eq_true] at hbodies
  obtain ⟨t, qs, -, ht, -, he⟩ := printedLines_of_body hbodies.1.1 hbodies.1.2
  obtain ⟨more, hmore⟩ : ∃ more, itemLines numbered 1 (item :: others) ++ linesBehind ps =
      (markerOf numbered 1 ++ t) :: more := by
    rw [itemLines, he]
    exact ⟨_, rfl⟩
  have hstart : markerOf numbered 1 ++ t ≠ [] := by simp [ne_nil_of_isPlainLine ht]
  have hlines : printedLines (.list numbered (item :: others) :: ps) =
      (markerOf numbered 1 ++ t) :: more := by
    rw [printedLines_cons, Part.lines, hmore]
  rw [hmore, List.dropWhile_cons, if_neg (by simpa using hstart), dropWhile_linesBehind hps] at hcut
  rw [hlines] at hprinted ⊢
  have hopen := opening_marked ht (fun l hl => hprinted l (List.mem_cons_of_mem _ hl))
    numbered 1 fresh
  rw [blocks_list hstart (by simp) hopen, hcut, hitems, hread]
  cases numbered <;> rfl

end Part

/-! ## The whole document -/

private theorem isDocument_tail {p : Part} {ps : List Part} (h : isDocument (p :: ps)) :
    p.isDocument ∧ isDocument ps := by
  simp only [isDocument, Bool.and_eq_true] at h
  exact ⟨h.1.1, h.2⟩

mutual

/-- The lines of a document are read as its blocks, whatever was read before. -/
theorem blocks_printedLines : (ps : List Part) → isDocument ps → (styles : List Style) →
    (fresh : Bool) → blocks styles false fresh (printedLines ps) = (styles, documentBlocks ps)
  | [], _, styles, fresh => by simp [printedLines, documentBlocks]
  | .paragraph t :: ps, h, styles, fresh => by
    have hps := (isDocument_tail h).2
    exact blocks_of_paragraph (blocks_printedLines ps hps styles) h fresh
  | .quote body :: ps, h, styles, fresh => by
    obtain ⟨hbody, hps⟩ := isDocument_tail h
    simp only [Part.isDocument, Bool.and_eq_true] at hbody
    exact blocks_of_quote (blocks_printedLines ps hps styles) h
      (blocks_printedLines body hbody.2 styles true) fresh
  | .list numbered items :: ps, h, styles, fresh => by
    obtain ⟨hitems, hps⟩ := isDocument_tail h
    simp only [Part.isDocument, Bool.and_eq_true] at hitems
    exact blocks_of_list (blocks_printedLines ps hps styles) h
      (bodies_printedLines items hitems.2 styles) fresh

theorem bodies_printedLines : (items : List (List Part)) → areBodies items →
    (styles : List Style) →
      bodies styles (items.map printedLines) = (styles, bodyBlocks items)
  | [], _, styles => by simp [bodyBlocks]
  | item :: items, h, styles => by
    simp only [areBodies, Bool.and_eq_true] at h
    rw [List.map_cons, bodies_cons, blocks_printedLines item h.1.2 styles true,
      bodies_printedLines items h.2 styles]
    rfl

end

end Slideshow.Restructured
