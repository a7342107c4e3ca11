import Slideshow.Proofs.Forest

/-!
# The depth of tags

Splitting counts the elements that are open, and a close tag at depth zero would go unnoticed. Here
the count fails at such a tag. A forest leaves the depth as it was.
-/
namespace Slideshow.Fragment
open Text Markup

/-- The depth behind some tokens, when each close tag among them finds an open element. -/
def depthBehind? (depth : Nat) : List Token → Option Nat
  | [] => some depth
  | .tag t :: rest =>
    if t.closing then
      if depth = 0 then none else depthBehind? (depth - 1) rest
    else depthBehind? (depthInside depth t) rest
  | .comment _ :: rest => depthBehind? depth rest
  | .plain _ :: rest => depthBehind? depth rest

theorem depthBehind?_append (depth : Nat) (ts rest : List Token) :
    depthBehind? depth (ts ++ rest) = (depthBehind? depth ts).bind (depthBehind? · rest) := by
  induction ts generalizing depth with
  | nil => rfl
  | cons token ts ih =>
    cases token with
    | comment body => exact ih depth
    | plain text => exact ih depth
    | tag t =>
      simp only [List.cons_append, depthBehind?]
      split
      · split
        · rfl
        · exact ih (depth - 1)
      · exact ih (depthInside depth t)

private theorem cut_step {level depth next : Nat} {token : Token} {ts : List Token}
    (h : depthBehind? depth (token :: ts) = some next) (pending : Text) (rest : List Token) :
    ∃ step done current, depthBehind? step ts = some next ∧
      cut level depth pending (token :: rest) = done ++ cut level step current rest := by
  cases token with
  | comment body => exact ⟨depth, [], _, h, rfl⟩
  | plain text => exact ⟨depth, [], _, h, rfl⟩
  | tag t =>
    rw [depthBehind?] at h
    rw [cut]
    split at h
    · next hclosing =>
      split at h
      · simp at h
      · exact ⟨depth - 1, [], _, h, by rw [if_pos hclosing]; rfl⟩
    · next hclosing =>
      rw [if_neg hclosing]
      split
      · exact ⟨depthInside depth t, [pending], _, h, rfl⟩
      · split
        · exact ⟨depthInside depth t, [pending], _, h, rfl⟩
        · exact ⟨depthInside depth t, [], _, h, rfl⟩

/-- Behind some tokens the rest is cut at the depth that was counted. -/
theorem cut_depthBehind? {level depth next : Nat} {ts : List Token}
    (h : depthBehind? depth ts = some next) (pending : Text) (rest : List Token) :
    ∃ done current, cut level depth pending (ts ++ rest) = done ++ cut level next current rest := by
  induction ts generalizing depth pending with
  | nil =>
    obtain rfl : depth = next := by simpa [depthBehind?] using h
    exact ⟨[], pending, rfl⟩
  | cons token ts ih =>
    obtain ⟨step, done, current, hstep, hcut⟩ := @cut_step level _ _ _ _ h pending (ts ++ rest)
    obtain ⟨more, last, hmore⟩ := ih hstep current
    exact ⟨done ++ more, last, by rw [List.cons_append, hcut, hmore, List.append_assoc]⟩

end Slideshow.Fragment

namespace Slideshow.Forest
open Text Markup Fragment

/-- Text up to the next angle bracket does not count. -/
private theorem depthBehind?_dropWhile (depth : Nat) (s : Text) :
    depthBehind? depth (tokens (s.dropWhile (· ≠ '<'))) = depthBehind? depth (tokens s) := by
  cases s with
  | nil => rfl
  | cons c s =>
    by_cases hc : c = '<'
    · simp [hc]
    · rw [tokens_plain hc, depthBehind?, List.dropWhile_cons, if_pos (by simpa using hc)]

private theorem depthBehind?_text {content : Text} (h : '<' ∉ content) (depth : Nat) (s : Text) :
    depthBehind? depth (tokens (content ++ s)) = depthBehind? depth (tokens s) := by
  rw [← depthBehind?_dropWhile, List.dropWhile_append_of_pos (ne_of_not_mem h), depthBehind?_dropWhile]

mutual

private theorem depthBehind?_node (depth : Nat) (s : Text) : (n : Node) → n.isWellFormed →
    depthBehind? depth (tokens (n.html ++ s)) = depthBehind? depth (tokens s)
  | .text content, h => by
    simp only [Node.isWellFormed, decide_eq_true_eq] at h
    exact depthBehind?_text h depth s
  | .comment body, h => by
    simp only [Node.isWellFormed, Bool.not_eq_true'] at h
    rw [Node.html, tokens_commented h, depthBehind?]
  | .void name attributes, h => by
    simp only [Node.isWellFormed, Bool.and_eq_true, decide_eq_true_eq] at h
    rw [Node.html, tokens_opened h.1.1 h.1.2, depthBehind?, if_neg (by simp), depthInside_void h.2]
  | .element name attributes children, h => by
    simp only [Node.isWellFormed, Bool.and_eq_true] at h
    obtain ⟨⟨⟨hn, ha⟩, he⟩, hc⟩ := h
    rw [Node.html, List.append_assoc, List.append_assoc, tokens_opened hn ha, depthBehind?,
      if_neg (by simp), depthInside_openTag he, depthBehind?_html_append (depth + 1) _ children hc,
      tokens_closed hn, depthBehind?, if_pos (by rfl), if_neg (by omega), Nat.add_sub_cancel]

/-- A forest closes what it opens, and nothing else. -/
theorem depthBehind?_html_append (depth : Nat) (s : Text) : (ns : List Node) → isWellFormed ns →
    depthBehind? depth (tokens (html ns ++ s)) = depthBehind? depth (tokens s)
  | [], _ => rfl
  | n :: ns, h => by
    simp only [isWellFormed, Bool.and_eq_true] at h
    rw [html, List.append_assoc, depthBehind?_node depth _ n h.1,
      depthBehind?_html_append depth s ns h.2]

end

theorem depthBehind?_html {ns : List Node} (h : isWellFormed ns) (depth : Nat) :
    depthBehind? depth (tokens (html ns)) = some depth := by
  have hns := depthBehind?_html_append depth [] ns h
  rw [List.append_nil] at hns
  rw [hns, tokens, depthBehind?]

end Slideshow.Forest
