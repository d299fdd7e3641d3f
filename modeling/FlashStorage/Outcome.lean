/-!
# Outcomes

A storage operation finishes with a value, is refused with an error that its
caller can act on, or halts.  Halting is for conditions that no caller is
expected to survive: a sum that leaves the 64-bit range, a list filled past its
capacity, a lock taken twice from the same place.  What an operation had done
before it halted stays done.
-/

namespace FlashStorage

/-- Why an operation was abandoned without an answer. -/
inductive Halt where
  | addOverflow
  | subOverflow
  | listFull
  | lockHeld
deriving DecidableEq, Repr

def Halt.message : Halt → String
  | .addOverflow => "attempt to add with overflow"
  | .subOverflow => "attempt to subtract with overflow"
  | .listFull => "partition list holds at most 8 entries"
  | .lockHeld => "lock is not reentrant"

/-- A value, a refusal, or a halt. -/
inductive Outcome (ε α : Type) where
  | ok (value : α)
  | error (cause : ε)
  | halt (reason : Halt)
deriving DecidableEq, Repr

namespace Outcome

variable {ε ε' α β : Type}

/-- Go on with the value; a refusal and a halt both end the sequence. -/
def bind (outcome : Outcome ε α) (next : α → Outcome ε β) : Outcome ε β :=
  match outcome with
  | .ok value => next value
  | .error cause => .error cause
  | .halt reason => .halt reason

instance : Monad (Outcome ε) where
  pure := .ok
  bind := bind

@[simp] theorem pure_eq (value : α) :
    (pure value : Outcome ε α) = .ok value := rfl

@[simp] theorem ok_bind (value : α) (next : α → Outcome ε β) :
    (Outcome.ok value >>= next) = next value := rfl

@[simp] theorem error_bind (cause : ε) (next : α → Outcome ε β) :
    (Outcome.error cause >>= next) = .error cause := rfl

@[simp] theorem halt_bind (reason : Halt) (next : α → Outcome ε β) :
    (Outcome.halt reason >>= next) = .halt reason := rfl

/-- A sequence finishes exactly when its first part does and the rest then
does. -/
theorem bind_eq_ok_iff {outcome : Outcome ε α} {next : α → Outcome ε β}
    {result : β} :
    (outcome >>= next) = .ok result ↔
      ∃ value, outcome = .ok value ∧ next value = .ok result := by
  cases outcome <;> simp

theorem bind_eq_error_iff {outcome : Outcome ε α} {next : α → Outcome ε β}
    {cause : ε} :
    (outcome >>= next) = .error cause ↔
      outcome = .error cause ∨
        ∃ value, outcome = .ok value ∧ next value = .error cause := by
  cases outcome <;> simp

theorem bind_eq_halt_iff {outcome : Outcome ε α} {next : α → Outcome ε β}
    {reason : Halt} :
    (outcome >>= next) = .halt reason ↔
      outcome = .halt reason ∨
        ∃ value, outcome = .ok value ∧ next value = .halt reason := by
  cases outcome <;> simp

instance : LawfulMonad (Outcome ε) := LawfulMonad.mk' _
  (by intro _ outcome; cases outcome <;> rfl)
  (by intros; rfl)
  (by intro _ _ _ outcome _ _; cases outcome <;> rfl)

/-- Read a refusal in wider terms. -/
def mapError (widen : ε → ε') : Outcome ε α → Outcome ε' α
  | .ok value => .ok value
  | .error cause => .error (widen cause)
  | .halt reason => .halt reason

@[simp] theorem mapError_ok (widen : ε → ε') (value : α) :
    (Outcome.ok value : Outcome ε α).mapError widen = .ok value := rfl

@[simp] theorem mapError_error (widen : ε → ε') (cause : ε) :
    (Outcome.error cause : Outcome ε α).mapError widen =
      .error (widen cause) := rfl

@[simp] theorem mapError_halt (widen : ε → ε') (reason : Halt) :
    (Outcome.halt reason : Outcome ε α).mapError widen = .halt reason := rfl

/-- A computation that cannot halt, its refusals read in wider terms. -/
def lift (widen : ε → ε') : Except ε α → Outcome ε' α
  | .ok value => .ok value
  | .error cause => .error (widen cause)

@[simp] theorem lift_ok (widen : ε → ε') (value : α) :
    lift widen (.ok value : Except ε α) = .ok value := rfl

@[simp] theorem lift_error (widen : ε → ε') (cause : ε) :
    (lift widen (.error cause : Except ε α)) = .error (widen cause) := rfl

theorem mapError_eq_error_iff {widen : ε → ε'} {outcome : Outcome ε α}
    {cause : ε'} :
    outcome.mapError widen = .error cause ↔
      ∃ inner, outcome = .error inner ∧ widen inner = cause := by
  cases outcome <;> simp

theorem mapError_eq_halt_iff {widen : ε → ε'} {outcome : Outcome ε α}
    {reason : Halt} :
    outcome.mapError widen = .halt reason ↔ outcome = .halt reason := by
  cases outcome <;> simp

theorem mapError_eq_ok_iff {widen : ε → ε'} {outcome : Outcome ε α}
    {value : α} :
    outcome.mapError widen = .ok value ↔ outcome = .ok value := by
  cases outcome <;> simp

theorem lift_eq_ok_iff {widen : ε → ε'} {result : Except ε α} {value : α} :
    lift widen result = .ok value ↔ result = .ok value := by
  cases result <;> simp

/-- Refuse with `cause` unless the condition holds. -/
def require (condition : Bool) (cause : ε) : Outcome ε Unit :=
  if condition then .ok () else .error cause

@[simp] theorem require_true (cause : ε) : require true cause = .ok () := rfl

@[simp] theorem require_false (cause : ε) :
    require false cause = .error cause := rfl

theorem require_eq_ok_iff {condition : Bool} {cause : ε} {value : Unit} :
    require condition cause = .ok value ↔ condition = true := by
  cases condition <;> simp

end Outcome

end FlashStorage
