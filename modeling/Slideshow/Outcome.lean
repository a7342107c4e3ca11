import Slideshow.Failure

/-! # Outcomes

An action reports messages and ends with a value or a failure. What it reported before it failed
stays reported, and nothing that follows a failure is run.
-/
namespace Slideshow

inductive Severity
  | notice
  | warning
  | error
  deriving DecidableEq, Repr

def Severity.name : Severity → Text
  | notice => "notice"
  | warning => "warning"
  | error => "error"

structure Message where
  severity : Severity
  text : Text
  deriving DecidableEq, Repr

structure Outcome (α : Type) where
  messages : List Message
  result : Except Failure α

namespace Outcome

instance : Monad Outcome where
  pure a := ⟨[], .ok a⟩
  bind x f :=
    match x.result with
    | .error e => ⟨x.messages, .error e⟩
    | .ok a => ⟨x.messages ++ (f a).messages, (f a).result⟩

instance : LawfulMonad Outcome := LawfulMonad.mk' Outcome
  (by
    rintro α ⟨messages, error | a⟩
    · rfl
    · exact congrArg (Outcome.mk · (.ok a)) (List.append_nil messages))
  (by
    intro α β a f
    rfl)
  (by
    rintro α β γ ⟨messages, error | a⟩ f g
    · rfl
    · simp only [bind]
      split <;> simp_all)

def fail {α : Type} (f : Failure) : Outcome α := ⟨[], .error f⟩

def ofExcept {α : Type} (r : Except Failure α) : Outcome α := ⟨[], r⟩

/-- Report a message. A message of severity error is also the failure of the action. -/
def report (severity : Severity) (text : Text) : Outcome Unit :=
  ⟨[⟨severity, text⟩], if severity = .error then .error (.user text) else .ok ()⟩

end Outcome

end Slideshow
