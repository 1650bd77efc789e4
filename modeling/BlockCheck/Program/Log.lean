/-!
# Logged computations

A computation that fails or gives a value, and what it has logged until then. The log is part of the result, so a run
and its log are one value; `outcome_bind` says that the log has no influence on what a computation gives.
-/

namespace BlockCheck

inductive LogLevel
  | error
  | warn
  | info
  | debug
  | trace
  deriving DecidableEq, Repr

namespace LogLevel

/-- The level as it is printed. -/
def name : LogLevel → String
  | .error => "ERROR"
  | .warn => "WARN"
  | .info => "INFO"
  | .debug => "DEBUG"
  | .trace => "TRACE"

/-- The number of steps from silence to the level. -/
def rank : LogLevel → Nat
  | .error => 1
  | .warn => 2
  | .info => 3
  | .debug => 4
  | .trace => 5

end LogLevel

structure LogEntry where
  level : LogLevel
  message : String
  deriving DecidableEq, Repr

structure Logged (ε α : Type) where
  /-- The entries in the order they were written. -/
  log : List LogEntry
  outcome : Except ε α

namespace Logged

variable {ε ε' α β : Type}

instance : Monad (Logged ε) where
  pure a := ⟨[], .ok a⟩
  bind x f :=
    match x.outcome with
    | .ok a =>
      let y := f a
      ⟨x.log ++ y.log, y.outcome⟩
    | .error e => ⟨x.log, .error e⟩

/-- Writes an entry. -/
def tell (level : LogLevel) (message : String) : Logged ε Unit := ⟨[⟨level, message⟩], .ok ()⟩

def fail (e : ε) : Logged ε α := ⟨[], .error e⟩

/-- The same computation with another account of its failure. -/
def mapError (f : ε → ε') (x : Logged ε α) : Logged ε' α := ⟨x.log, x.outcome.mapError f⟩

@[simp] theorem outcome_pure (a : α) : (pure a : Logged ε α).outcome = .ok a := rfl

@[simp] theorem outcome_tell (level : LogLevel) (message : String) :
    (tell level message : Logged ε Unit).outcome = .ok () := rfl

@[simp] theorem outcome_bind (x : Logged ε α) (f : α → Logged ε β) :
    (x >>= f).outcome = x.outcome.bind fun a => (f a).outcome := by
  obtain ⟨log, outcome⟩ := x
  cases outcome <;> rfl

end Logged

end BlockCheck
