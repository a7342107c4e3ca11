import Slideshow.Proofs.IndexedLines
import Slideshow.Proofs.BlockEquations

/-!
# A reader of blocks by index

A second reader of blocks, which keeps an index into its lines. In one turn it takes what the line at
the index opens, and tells what became of it, the next index and whether a literal block was
announced. Each part of a turn has a result, and it is what the reader of lists finds.
-/
namespace Slideshow.Restructured
open Text

/-! ## Options and directives -/

/-- The number of bytes in front of the first occurrence of a character. -/
def findByte? (c : Char) : Text → Option Nat
  | [] => none
  | d :: s => if d = c then some 0 else (findByte? c s).map (d.utf8Size + ·)

theorem findByte?_eq (c : Char) (s : Text) :
    findByte? c s = (cutAt? [c] s).map fun p => byteLength p.1 := by
  induction s with
  | nil => rfl
  | cons d s ih =>
    rw [findByte?, cutAt?]
    by_cases h : c = d
    · simp [dropAffix?, h]
    · simp [dropAffix?, h, Ne.symm h, ih, Function.comp_def]

/-- A field, read with cuts at bytes. -/
def optionAt? (line : Text) : Option (Option (Text × Text)) :=
  match dropAffix? ":" line with
  | none => some none
  | some rest =>
    match findByte? ':' rest with
    | none => some none
    | some stop => do
      let key ← splitAtByte? stop rest
      let value ← splitAtByte? (stop + 1) rest
      let key := trim key.1
      some (if key = [] || ' ' ∈ key then none else some (key, trim value.2))

theorem optionAt?_eq_some (line : Text) : optionAt? line = some (option? line) := by
  rw [optionAt?, option?]
  cases dropAffix? ":" line with
  | none => rfl
  | some rest =>
    have hcolon : (":" : Text) = [':'] := by simp
    simp only [findByte?_eq, hcolon, Option.bind_eq_bind, Option.bind_some]
    cases hcut : cutAt? [':'] rest with
    | none => rfl
    | some p =>
      obtain ⟨key, value⟩ := p
      have hrest : rest = key ++ ':' :: value := by simpa using eq_append_of_cutAt? hcut
      have hvalue : splitAtByte? (byteLength key + 1) rest = some (key ++ [':'], value) :=
        splitAtByte?_eq_some_iff.2 ⟨by simp [hrest], by
          rw [byteLength_append]
          rfl⟩
      simp only [Option.map_some, hvalue]
      rw [hrest, splitAtByte?_append]
      rfl

/-- The fields in front of a body. -/
def optionsAt? : List Text → Option (List (Text × Text))
  | [] => some []
  | line :: body => do
    match ← optionAt? line with
    | none => some []
    | some field => (optionsAt? body).map (field :: ·)

theorem optionsAt?_eq_some (body : List Text) :
    optionsAt? body = some ((body.map option?).takeWhile Option.isSome |>.filterMap id) := by
  induction body with
  | nil => rfl
  | cons line body ih =>
    rw [optionsAt?, optionAt?_eq_some, List.map_cons, List.takeWhile_cons]
    cases option? line with
    | none => rfl
    | some field => simp [ih]

/-- The directive that explicit markup writes, its fields read with cuts at bytes. -/
def directiveAt? (text : Text) (body : List Text) : Option (Option Directive) :=
  match Directive.of? text [] with
  | none => some none
  | some head => do
    let options ← optionsAt? body
    let content ← slice? body options.length body.length
    some (some { head with options, content := content.dropWhile (· = []) })

theorem directiveAt?_eq_some (text : Text) (body : List Text) :
    directiveAt? text body = some (Directive.of? text body) := by
  have hcount : ((body.map option?).takeWhile Option.isSome |>.filterMap id).length =
      ((body.map option?).takeWhile Option.isSome).length :=
    List.filterMap_length_eq_length.2 fun field hfield =>
      List.all_eq_true.1 List.all_takeWhile field hfield
  have hle : ((body.map option?).takeWhile Option.isSome).length ≤ body.length := by
    simpa using (List.takeWhile_prefix Option.isSome (l := body.map option?)).length_le
  have hslice : slice? body ((body.map option?).takeWhile Option.isSome).length body.length =
      some (body.drop ((body.map option?).takeWhile Option.isSome).length) := by
    rw [slice?, if_pos ⟨hle, Nat.le_refl _⟩, List.take_of_length_le (by simp)]
  simp only [directiveAt?, optionsAt?_eq_some, Directive.of?, Option.bind_eq_bind,
    Option.bind_some, hcount, hslice]
  cases text.head? with
  | none => rfl
  | some first =>
    by_cases hfirst : first.isAlpha
    · simp only [Option.bind_some, hfirst]
      cases dropAffix? "::" (text.dropWhile fun c => isWord c || decide (c = '-')) <;> rfl
    · simp [hfirst]

/-! ## Paragraphs -/

/-- A paragraph's text, with two colons at its end cut off by bytes. -/
def paragraphAt? (ls : List Text) : Option (Text × Bool) :=
  let text := unlines (ls.map trim)
  if (dropEnding? "::" text).isNone then some (text, false)
  else do
    let text ← splitAtByte? (byteLength text - 2) text
    let trimmed := byteLength (trimRight text.1)
    if trimmed < byteLength text.1 then do
      let text ← splitAtByte? trimmed text.1
      some (text.1, true)
    else some (text.1 ++ ":", true)

theorem paragraphAt?_eq_some (ls : List Text) : paragraphAt? ls = some (paragraphOf ls) := by
  rw [paragraphAt?, paragraphOf]
  cases hend : dropEnding? "::" (unlines (ls.map trim)) with
  | none => rfl
  | some text =>
    have hcolons : byteLength "::" = 2 := by cbv
    rw [dropEnding?_eq_some_iff] at hend
    simp only [Option.isNone_some, Bool.false_eq_true, if_false, hend, byteLength_append, hcolons,
      Nat.add_sub_cancel, splitAtByte?_append, Option.bind_eq_bind, Option.bind_some]
    obtain ⟨blank, hblank⟩ := trimRight_initial text
    by_cases hnil : blank = []
    · have hself : text = trimRight text := by simpa [hnil] using hblank.symm
      rw [if_neg (by rw [← hself]; omega), if_pos hself]
    · have hne : text ≠ trimRight text := fun hself => hnil (by
        rw [← hself] at hblank
        simpa using hblank)
      have hlt : byteLength (trimRight text) < byteLength text := by
        have := byteLength_pos hnil
        have hlength := congrArg byteLength hblank
        rw [byteLength_append] at hlength
        omega
      have hcut : splitAtByte? (byteLength (trimRight text)) text = some (trimRight text, blank) :=
        splitAtByte?_eq_some_iff.2 ⟨hblank.symm, rfl⟩
      rw [if_pos hlt, if_neg hne, hcut]
      rfl

/-! ## Markers and items -/

/-- The bullet and the width of a marker, its spaces counted behind the first byte. -/
def bulletAt? (line : Text) : Option (Option (Option Char × Nat)) :=
  match line with
  | c :: ' ' :: _ =>
    if c = '-' || c = '*' || c = '+' then do
      let cut ← splitAtByte? 1 line
      let spaces := (cut.2.takeWhile (· = ' ')).length
      some (if 1 + spaces < byteLength line then some (some c, 1 + spaces) else none)
    else some none
  | _ => some none

/-- What stands at the front of the line of a list item, and its width in bytes. -/
def markerAt? (line : Text) : Option (Option (Option Char × Nat)) := do
  match ← bulletAt? line with
  | some found => some (some found)
  | none => some ((numberMarker? line).map fun m => (m.bullet, m.width))

theorem bulletAt?_cons_space (c : Char) (rest : Text) :
    bulletAt? (c :: ' ' :: rest) =
      some ((bulletMarker? (c :: ' ' :: rest)).map fun m => (m.bullet, m.width)) := by
  rw [bulletAt?, bulletMarker?]
  by_cases hbullet : (c = '-' || c = '*' || c = '+' : Bool)
  · have hone : c.utf8Size = 1 := by
      simp only [Bool.or_eq_true, decide_eq_true_eq] at hbullet
      rcases hbullet with (rfl | rfl) | rfl <;> decide
    have hcut : splitAtByte? 1 (c :: ' ' :: rest) = some ([c], ' ' :: rest) :=
      splitAtByte?_eq_some_iff.2 ⟨rfl, by simp [hone]⟩
    obtain ⟨spaces, hrest, -, hwidth⟩ := exists_spaces_append rest
    have hle := (List.dropWhile_suffix (fun d => decide (d = ' ')) (l := rest)).length_le
    have hcount : ((' ' :: rest).takeWhile (· = ' ')).length =
        1 + (rest.length - (rest.dropWhile (· = ' ')).length) := by
      have hsplit := congrArg List.length
        (List.takeWhile_append_dropWhile (l := rest) (p := (· = ' ')))
      rw [List.length_append] at hsplit
      simp only [List.takeWhile_cons, decide_true, if_true, List.length_cons]
      omega
    have hbytes : byteLength (c :: ' ' :: rest) =
        2 + (rest.length - (rest.dropWhile (· = ' ')).length)
          + byteLength (rest.dropWhile (· = ' ')) := by
      have hlength : byteLength rest =
          byteLength spaces + byteLength (rest.dropWhile (· = ' ')) := by
        conv => lhs; rw [hrest]
        exact byteLength_append ..
      rw [byteLength_cons, byteLength_cons, hone, hlength, byteLength, hwidth,
        show ' '.utf8Size = 1 by decide]
      omega
    simp only [hbullet, if_true, hcut, Option.bind_eq_bind, Option.bind_some, Bool.true_and,
      hcount, hbytes]
    by_cases hcontent : rest.dropWhile (· = ' ') = []
    · have hnone : byteLength (rest.dropWhile (· = ' ')) = 0 := by rw [hcontent]; rfl
      rw [if_neg (by omega), if_neg (by simp [hcontent])]
      rfl
    · have hpos := byteLength_pos hcontent
      rw [if_pos (by omega), if_pos (by simpa using hcontent)]
      simp only [Option.map_some, List.length_cons, Option.some.injEq, Prod.mk.injEq, true_and]
      omega
  · simp [hbullet]

theorem bulletAt?_eq_some (line : Text) :
    bulletAt? line = some ((bulletMarker? line).map fun m => (m.bullet, m.width)) := by
  match line with
  | [] => rfl
  | [c] => rfl
  | c :: d :: rest =>
    by_cases hspace : d = ' '
    · rw [hspace]
      exact bulletAt?_cons_space c rest
    · simp [bulletAt?, bulletMarker?, hspace]

theorem markerAt?_eq_some (line : Text) :
    markerAt? line = some ((marker? line).map fun m => (m.bullet, m.width)) := by
  rw [markerAt?, bulletAt?_eq_some, marker?]
  cases bulletMarker? line <;> rfl

section Items
variable {lines left : List Text} {i next : Nat}

/-- The lines that continue an item of a width, without that margin, and the index behind them. -/
def continuationAt? (width : Nat) (lines : List Text) (i : Nat) : Option (List Text × Nat) :=
  if h : i < lines.length then
    let line := lines[i]
    let continued := if line = [] then ((lines.drop i).find? (· ≠ [])).any (width ≤ indent ·)
      else width ≤ indent line
    if continued then do
      let cut ← withoutMargin? width line
      let more ← continuationAt? width lines (i + 1)
      some (cut :: more.1, more.2)
    else some ([], i)
  else some ([], i)
termination_by lines.length - i

/-- A line that is not blank answers for itself. -/
theorem continues_eq (width : Nat) (l : Text) (ls : List Text) :
    continues width l ls =
      if l = [] then ((l :: ls).find? (· ≠ [])).any (width ≤ indent ·)
      else decide (width ≤ indent l) := by
  split
  · rfl
  · next hl => simp [continues, hl]

theorem continuationAt?_eq_some (width : Nat) (h : i ≤ lines.length) :
    ∃ next, continuationAt? width lines i =
        some ((continuation width (lines.drop i)).1, next) ∧
      Reaches lines i next (continuation width (lines.drop i)).2 := by
  fun_induction continuationAt? width lines i with
  | case1 i hi line continued hcontinued ih =>
    obtain ⟨next, hmore, hreach⟩ := ih hi
    have hcut : withoutMargin? width line = some (line.drop width) :=
      withoutMargin?_eq_some fun hl => by simpa [continued, hl] using hcontinued
    have hcontinues : continues width line (lines.drop (i + 1)) := by
      rw [continues_eq, ← List.drop_eq_getElem_cons hi]
      exact hcontinued
    rw [List.drop_eq_getElem_cons hi, continuation, if_pos hcontinues]
    refine ⟨next, ?_, hreach.of_le (Nat.le_succ i)⟩
    simp only [hcut, hmore, Option.bind_eq_bind, Option.bind_some]
    rfl
  | case2 i hi line continued hcontinued =>
    have hcontinues : ¬continues width line (lines.drop (i + 1)) := by
      rw [continues_eq, ← List.drop_eq_getElem_cons hi]
      exact hcontinued
    have hkept := Reaches.refl h
    rw [List.drop_eq_getElem_cons hi, continuation, if_neg hcontinues]
    rw [List.drop_eq_getElem_cons hi] at hkept
    exact ⟨i, rfl, hkept⟩
  | case3 i hi =>
    have hkept := Reaches.refl h
    rw [List.drop_eq_nil_of_le (Nat.le_of_not_lt hi)] at hkept ⊢
    exact ⟨i, rfl, hkept⟩

/-- The item of a kind of list that starts at an index, if one does, and the index of the first line
behind it that is not blank. -/
def itemAt? (bullet : Option Char) (lines : List Text) (i : Nat) :
    Option (Option (List Text × Nat)) :=
  if i < lines.length then do
    let line ← lines[i]?
    match ← markerAt? line with
    | none => some none
    | some marker =>
      if marker.1 = bullet then do
        let cut ← splitAtByte? marker.2 line
        let more ← continuationAt? marker.2 lines (i + 1)
        some (some (cut.2 :: more.1, skipWhile (· = []) lines more.2))
      else some none
  else some none

/-- The items of a list in so many turns, and the index behind the list. -/
def itemsAt? : Nat → Option Char → List Text → Nat → Option (List (List Text) × Nat)
  | 0, _, _, _ => none
  | turns + 1, bullet, lines, i => do
    match ← itemAt? bullet lines i with
    | none => some ([], i)
    | some (item, next) => do
      let more ← itemsAt? turns bullet lines next
      some (item :: more.1, more.2)

/-- What the reader of an item finds at an index is the first item of the list that stands there. -/
theorem itemAt?_cases (bullet : Option Char) (lines : List Text) (i : Nat) :
    (itemAt? bullet lines i = some none ∧
      itemsOf bullet (lines.drop i) = ([], lines.drop i)) ∨
    ∃ item next left, itemAt? bullet lines i = some (some (item, next)) ∧
      Reaches lines (i + 1) next left ∧
      itemsOf bullet (lines.drop i) =
        (item :: (itemsOf bullet left).1, (itemsOf bullet left).2) := by
  rcases hdrop : lines.drop i with _ | ⟨line, rest⟩
  · have hend : ¬i < lines.length := by simpa using hdrop
    exact .inl ⟨if_neg hend, by rw [itemsOf]⟩
  obtain ⟨hi, hline, rfl⟩ := drop_eq_cons hdrop
  rw [itemAt?, if_pos hi, hline, itemsOf]
  simp only [Option.bind_eq_bind, Option.bind_some, markerAt?_eq_some]
  cases hm : marker? line with
  | none => exact .inl ⟨rfl, rfl⟩
  | some m =>
    simp only [Option.map_some]
    by_cases hb : m.bullet = bullet
    · obtain ⟨front, hfront, -, hwidth, -⟩ := exists_front_of_marker? hm
      have hcut : splitAtByte? m.width line = some (front, m.content) :=
        splitAtByte?_eq_some_iff.2 ⟨hfront, hwidth⟩
      obtain ⟨next, hmore, hreach⟩ := continuationAt?_eq_some m.width hi
      have hskip := reaches_skipWhile (· = []) hreach.le_length
      rw [hreach.drop_eq] at hskip
      simp only [hb, if_true, hcut, hmore, Option.bind_some]
      exact .inr ⟨_, _, _, rfl, hskip.of_le hreach.le, rfl⟩
    · exact .inl ⟨by simp only [hb, if_false], by simp only [hb, if_false]⟩

/-- Each turn takes a line at least, so as many turns as there are lines will do. -/
theorem itemsAt?_eq_some (bullet : Option Char) {turns : Nat} (h : i ≤ lines.length)
    (hturns : lines.length - i < turns) :
    ∃ next, itemsAt? turns bullet lines i = some ((itemsOf bullet (lines.drop i)).1, next) ∧
      Reaches lines i next (itemsOf bullet (lines.drop i)).2 := by
  induction turns generalizing i with
  | zero => omega
  | succ turns ih =>
    rw [itemsAt?]
    rcases itemAt?_cases bullet lines i with
      ⟨hitem, hitems⟩ | ⟨item, next, left, hitem, hreach, hitems⟩
    · rw [hitem, hitems]
      exact ⟨i, rfl, Reaches.refl h⟩
    · have hle := hreach.le
      have hbound := hreach.le_length
      obtain ⟨last, hmore, hlast⟩ := ih hbound (by omega)
      rw [hreach.drop_eq] at hmore hlast
      refine ⟨last, ?_, ?_⟩
      · simp only [hitem, hmore, hitems, Option.bind_eq_bind, Option.bind_some]
      · rw [hitems]
        exact hlast.of_le (by omega)

end Items

/-! ## Turns -/

/-- What one turn makes: blocks, or lines that are read when the styles before them are known. -/
inductive Made
  | ready (made : List Block)
  | title (style : Style) (text : Text)
  | quote (body : List Text)
  | list (ordered : Bool) (items : List (List Text))
  | directive (found : Option Directive)

/-- The bodies that are given to the reader again. -/
def Made.nested : Made → List (List Text)
  | .quote body => [body]
  | .list _ items => items
  | .directive (some d) => if d.name ∈ imageNames ∨ d.name ∈ codeNames then [] else [d.body]
  | _ => []

section Read
variable (read : List Style → List Text → Option (List Style × List Block))

def readItems? (styles : List Style) :
    List (List Text) → Option (List Style × List (List Block))
  | [] => some (styles, [])
  | item :: items => do
    let first ← read styles item
    let more ← readItems? first.1 items
    some (more.1, first.2 :: more.2)

/-- The blocks of a turn, its bodies read by a reader. -/
def Made.read? (styles : List Style) : Made → Option (List Style × List Block)
  | .ready made => some (styles, made)
  | .title style text => some ((rankOf styles style).2, [.title (rankOf styles style).1 text])
  | .quote body => (read styles body).map fun r => (r.1, [.quote r.2])
  | .list ordered items => (readItems? read styles items).map fun r => (r.1, [.list ordered r.2])
  | .directive none => some (styles, [])
  | .directive (some d) =>
    if d.name ∈ imageNames then some (styles, [d.image])
    else if d.name ∈ codeNames then some (styles, [.code d.argument d.content])
    else (read styles d.body).map fun r =>
      (r.1, [if d.name ∈ admonitionNames then .admonition d.name r.2 else .container d.name r.2])

end Read

/-- The reader of lists on a body. -/
def blocksOf (styles : List Style) (body : List Text) : Option (List Style × List Block) :=
  some (blocks styles false true body)

section Read
variable {read other : List Style → List Text → Option (List Style × List Block)}

theorem readItems?_congr {items : List (List Text)}
    (h : ∀ item ∈ items, ∀ styles, read styles item = other styles item) (styles : List Style) :
    readItems? read styles items = readItems? other styles items := by
  induction items generalizing styles with
  | nil => rfl
  | cons item items ih =>
    simp only [readItems?, h item List.mem_cons_self,
      ih fun k hk => h k (List.mem_cons_of_mem item hk)]

/-- Only the bodies of a turn are read. -/
theorem Made.read?_congr {made : Made}
    (h : ∀ body ∈ made.nested, ∀ styles, read styles body = other styles body)
    (styles : List Style) : made.read? read styles = made.read? other styles := by
  cases made with
  | ready => rfl
  | title => rfl
  | quote body => simp only [Made.read?, h body (by simp [Made.nested])]
  | list ordered items =>
    have hitems : readItems? read styles items = readItems? other styles items :=
      readItems?_congr h styles
    rw [Made.read?, Made.read?, hitems]
  | directive found =>
    cases found with
    | none => rfl
    | some d =>
      by_cases hname : d.name ∈ imageNames ∨ d.name ∈ codeNames
      · rcases hname with hname | hname <;> simp [Made.read?, hname]
      · simp only [Made.read?, h d.body (by simp [Made.nested, hname])]

theorem readItems?_blocksOf (styles : List Style) (items : List (List Text)) :
    readItems? blocksOf styles items = some (bodies styles items) := by
  induction items generalizing styles with
  | nil => rw [bodies_nil]; rfl
  | cons item items ih =>
    rw [bodies_cons]
    simp only [readItems?, blocksOf, Option.bind_eq_bind, Option.bind_some]
    rw [show readItems? _ _ items = _ from ih _]
    rfl

theorem read?_directive (styles : List Style) (found : Option Directive) :
    (Made.directive found).read? blocksOf styles = some (madeBlocks styles found) := by
  cases found with
  | none => rfl
  | some d =>
    simp only [Made.read?, madeBlocks, blocksOf, Option.map_some]
    split
    · rfl
    · split <;> rfl

end Read

/-- What a turn makes, the index it leaves, and whether it announces a literal block. -/
structure Turn where
  made : Made
  next : Nat
  literal : Bool

/-- The turn from a line that is neither blank nor in a literal block. -/
def opened? (lines : List Text) (i : Nat) (line : Text) : Option Turn := do
  match ← titleAt? lines i line with
  | some (style, text, next) => some ⟨.title style text, next, false⟩
  | none =>
    if ← transitionAt? lines i line then some ⟨.ready [.transition], i + 1, false⟩
    else match dropAffix? ".. " line with
    | some text => do
      let body ← indentedAt? lines (i + 1)
      let found ← directiveAt? text body.1
      some ⟨.directive found, body.2, false⟩
    | none =>
      if 0 < indent line then do
        let body ← indentedAt? lines i
        some ⟨.quote body.1, body.2, false⟩
      else do
        match ← markerAt? line with
        | some (bullet, _) => do
          let items ← itemsAt? (lines.length + 1) bullet lines i
          some ⟨.list bullet.isNone items.1, items.2, false⟩
        | none => do
          let stop := skipWhile (· ≠ []) lines i
          let paragraph ← slice? lines i stop
          let text ← paragraphAt? paragraph
          some ⟨.ready [.paragraph text.1], stop, text.2⟩

/-- The turn from an index. -/
def turn? (lines : List Text) (i : Nat) (literal : Bool) : Option Turn := do
  let line ← lines[i]?
  if line = [] then some ⟨.ready [], i + 1, literal⟩
  else if literal = true ∧ 0 < indent line then do
    let block ← indentedAt? lines i
    some ⟨.ready [.literal block.1], block.2, false⟩
  else opened? lines i line

end Slideshow.Restructured
