import Slideshow.Template.Value
import Slideshow.Text.Blank
import Slideshow.Text.Case
import Slideshow.Text.Pattern

/-! # Expressions of templates

An expression is evaluated for its value or asked for its truth. The two differ for names: a name
that nothing answers to has no value, but it is false.
-/
namespace Slideshow.Template
open Text

/-- A name followed by fields and positions. -/
structure Path where
  root : Text
  keys : List Text := []
  deriving DecidableEq

inductive Sign
  | plus
  | minus
  deriving DecidableEq

inductive Expr
  | literal (v : Value)
  | path (p : Path)
  | sum (sign : Sign) (a b : Expr)
  | filtered (e : Expr) (filter : Text)
  | not (e : Expr)
  | and (a b : Expr)
  | or (a b : Expr)
  | equal (a b : Expr)
  | differ (a b : Expr)

/-! ### Scopes -/

/-- One turn of a loop. -/
structure Turn where
  name : Text
  item : Value
  index : Nat
  count : Nat

/-- Besides its item, a loop tells how far it has come. -/
def Turn.find? (t : Turn) (p : Path) : Option Value :=
  if p = ⟨"loop", ["index"]⟩ then some (.number (t.index + 1))
  else if p = ⟨"loop", ["index0"]⟩ then some (.number t.index)
  else if p = ⟨"loop", ["first"]⟩ then some (.flag (t.index = 0))
  else if p = ⟨"loop", ["last"]⟩ then some (.flag (t.index + 1 = t.count))
  else if p.root = t.name then t.item.walk? p.keys
  else none

structure Scope where
  /-- The loops around, innermost first. -/
  turns : List Turn
  values : List (Text × Value)

/-- The innermost loop that can follow the path answers, and last the values of the page. -/
def Scope.find? (s : Scope) (p : Path) : Option Value :=
  (s.turns.findSome? (·.find? p)).or ((s.values.lookup p.root).bind (·.walk? p.keys))

/-! ### Filters -/

/-- A comment on one line, or anything between angle brackets. -/
def bracketed? (s : Text) : Option (Text × Text) :=
  match (dropAffix? "<!--" s).bind (cutAt? "-->") with
  | some (body, rest) => if '\n' ∈ body then tag? s else some ("<!--" ++ body ++ "-->", rest)
  | none => tag? s
where
  tag? (s : Text) : Option (Text × Text) :=
    match s with
    | '<' :: s => match s.dropWhile (· ≠ '>') with
      | _ :: rest => some ("<" ++ s.takeWhile (· ≠ '>') ++ ">", rest)
      | [] => none
    | _ => none

theorem eq_append_of_tag? {s t rest : Text} (h : bracketed?.tag? s = some (t, rest)) :
    s = t ++ rest ∧ t ≠ [] := by
  unfold bracketed?.tag? at h
  split at h
  · next s =>
    split at h
    · next c r hr =>
      simp only [Option.some.injEq, Prod.mk.injEq] at h
      obtain ⟨rfl, rfl⟩ := h
      have e := List.takeWhile_append_dropWhile (l := s) (p := fun c => decide (c ≠ '>'))
      have hc : c = '>' := by
        have := List.head?_dropWhile_not (fun c => decide (c ≠ '>')) s
        rw [hr] at this
        simpa using this
      rw [hr, hc] at e
      refine ⟨?_, by simp⟩
      conv => lhs; rw [← e]
      simp
    · simp at h
  · simp at h

theorem eq_append_of_bracketed? {s t rest : Text} (h : bracketed? s = some (t, rest)) :
    s = t ++ rest ∧ t ≠ [] := by
  simp only [bracketed?] at h
  split at h
  · next body r hb =>
    split at h
    · exact eq_append_of_tag? h
    · obtain ⟨u, hu, hc⟩ := Option.bind_eq_some_iff.1 hb
      rw [dropAffix?_eq_some_iff] at hu
      have := eq_append_of_cutAt? hc
      simp only [Option.some.injEq, Prod.mk.injEq] at h
      obtain ⟨rfl, rfl⟩ := h
      exact ⟨by simp [hu, this], by simp⟩
  · exact eq_append_of_tag? h

def brackets : Pattern { t : Text // t ≠ [] } where
  read? s := match _part : bracketed? s with
    | some (t, rest) => some (⟨t, (eq_append_of_bracketed? _part).2⟩, rest)
    | none => none
  spell t := t.1
  spell_ne_nil t := t.2
  eq_append_of_read? {s a rest} h := by
    split at h
    · next t r hb =>
      simp only [Option.some.injEq, Prod.mk.injEq] at h
      obtain ⟨rfl, rfl⟩ := h
      exact (eq_append_of_bracketed? hb).1
    · simp at h

inductive Filter
  | upper
  | lower
  | trim
  | stripTags
  | length

namespace Filter

def ofName? (name : Text) : Option Filter :=
  if name = "upper" then some upper
  else if name = "lower" then some lower
  else if name = "trim" then some trim
  else if name = "striptags" then some stripTags
  else if name = "length" then some length
  else none

def run? : Filter → Value → Option Value
  | upper, .text t => some (.text (Text.upper t))
  | lower, .text t => some (.text (Text.lower t))
  | trim, .text t => some (.text (Text.trim t))
  | stripTags, .text t => some (.text (brackets.replace (fun _ => []) t))
  | length, .text t => some (.number t.length)
  | length, .list items => some (.number items.length)
  | length, .record fields => some (.number fields.length)
  | _, _ => none

end Filter

/-! ### Evaluation -/

namespace Expr

/-- The path that an expression filters. -/
def path? : Expr → Option Path
  | path p => some p
  | filtered e _ => e.path?
  | _ => none

/-- Sums stay within 64 bits. -/
def total? (sign : Sign) (a b : Value) : Option Value :=
  match a, b with
  | .number a, .number b =>
    let n := match sign with
      | .plus => a + b
      | .minus => a - b
    if -9223372036854775808 ≤ n ∧ n < 9223372036854775808 then some (.number n) else none
  | _, _ => none

/-- A number is neither equal to what is no number nor different from it. -/
def comparable (a b : Value) : Bool := a.isNumber = b.isNumber

mutual

def value? (s : Scope) : Expr → Option Value
  | literal v => some v
  | path p => s.find? p
  | sum sign a b => (a.value? s).bind fun x => (b.value? s).bind fun y => total? sign x y
  | filtered e name => (Filter.ofName? name).bind fun f => (e.value? s).bind f.run?
  | not e =>
    if e.path?.any fun p => (s.find? p).isNone then some (.flag true)
    else (e.value? s).map fun v => .flag (!v.isTrue)
  | and a b =>
    (a.truth? s).bind fun x => if x then (b.truth? s).map .flag else some (.flag false)
  | or a b => (a.truth? s).bind fun x => if x then some (.flag true) else (b.truth? s).map .flag
  | equal a b => (a.value? s).bind fun x => (b.value? s).map fun y => .flag (x.same y)
  | differ a b => (a.value? s).bind fun x => (b.value? s).map fun y =>
      .flag (comparable x y && !x.same y)

/-- What cannot be had of a name is false; what cannot be had otherwise is an error. -/
def truth? (s : Scope) : Expr → Option Bool
  | literal v => some v.isTrue
  | path p => some ((s.find? p).any Value.isTrue)
  | filtered e name =>
    if e.path?.isSome then
      some (((Filter.ofName? name).bind fun f => (e.value? s).bind f.run?).any Value.isTrue)
    else e.truth? s
  | sum sign a b =>
    ((a.value? s).bind fun x => (b.value? s).bind fun y => total? sign x y).map Value.isTrue
  | not e =>
    match e.path? with
    | some p =>
      some ((s.find? p).isNone || (e.value? s).any fun v => !v.isTrue)
    | none => (e.truth? s).map (!·)
  | and a b => (a.truth? s).bind fun x => if x then b.truth? s else some false
  | or a b => (a.truth? s).bind fun x => if x then some true else b.truth? s
  | equal a b => (a.value? s).bind fun x => (b.value? s).map fun y => x.same y
  | differ a b => (a.value? s).bind fun x => (b.value? s).map fun y =>
      comparable x y && !x.same y

end

end Expr

end Slideshow.Template
