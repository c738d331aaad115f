/-!
# Logged results

A result together with the records that were logged on the way to it. Records logged before a
failure are kept.
-/

namespace ClassSplice

inductive LogLevel
  | info | warn | error
  deriving DecidableEq, Repr

def LogLevel.name : LogLevel → String
  | .info => "INFO"
  | .warn => "WARN"
  | .error => "ERROR"

structure LogRecord where
  level : LogLevel
  text : String
  deriving DecidableEq, Repr

/-- A result and the records logged on the way, the oldest first. -/
structure Logged (ε α : Type) where
  outcome : Except ε α
  log : List LogRecord

namespace Logged

variable {ε ε' α β : Type}

instance : Monad (Logged ε) where
  pure a := ⟨.ok a, []⟩
  bind x f :=
    match x.outcome with
    | .error e => ⟨.error e, x.log⟩
    | .ok a => ⟨(f a).outcome, x.log ++ (f a).log⟩

@[simp] theorem outcome_pure (a : α) : (pure a : Logged ε α).outcome = .ok a := rfl

@[simp] theorem log_pure (a : α) : (pure a : Logged ε α).log = [] := rfl

theorem outcome_bind (x : Logged ε α) (f : α → Logged ε β) :
    (x >>= f).outcome = x.outcome >>= fun a => (f a).outcome := by
  obtain ⟨_ | _, _⟩ := x <;> rfl

/-- A result without records, its error seen through `f`. -/
def ofExcept (f : ε → ε') (x : Except ε α) : Logged ε' α := ⟨x.mapError f, []⟩

def fail (e : ε) : Logged ε α := ⟨.error e, []⟩

def warn (text : String) : Logged ε Unit := ⟨.ok (), [⟨.warn, text⟩]⟩

/-- The same result with its error seen as another. -/
def mapError (f : ε → ε') (x : Logged ε α) : Logged ε' α := ⟨x.outcome.mapError f, x.log⟩

end Logged

end ClassSplice
