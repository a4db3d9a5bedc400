import Mathlib.Data.List.Basic

/-! # Failures of the history store -/

namespace RAGuardian.History

/-- The `ConversationHistoryError` family. -/
inductive HistoryError
  | conversationHistory (message : String)
  | turnConflict (message : String)
  | turnInProgress (message : String) (retryAfter : Nat)
  | continuity (message : String) (expectedParentTurnId : Option String)
  | quotaExceeded (message : String)
  | conversationNotFound (message : String)
  | conversationArchived (message : String)
deriving DecidableEq, Repr

namespace HistoryError

def turnIdConflict : HistoryError := .turnConflict "turn_id_conflict"

def inProgress (message : String) : HistoryError := .turnInProgress message 5

def notFound : HistoryError := .conversationNotFound "conversation_not_found"

def archived : HistoryError := .conversationArchived "conversation_archived"

end HistoryError

/-- Everything a store operation can raise: the documented family, or an
exception of a library that no handler of the operation translates. -/
inductive StoreError
  | history (error : HistoryError)
  | integrity
  | typeError
  | valueError
  | attributeError
  | jsonDecode
deriving DecidableEq, Repr

def StoreError.isHistory : StoreError → Bool
  | .history _ => true
  | _ => false

/-- `if not condition: raise error` -/
def require (condition : Prop) [Decidable condition] (error : StoreError) :
    Except StoreError Unit :=
  if condition then .ok () else .error error

@[simp] theorem require_eq_ok {condition : Prop} [Decidable condition]
    {error : StoreError} {result : Unit} :
    require condition error = .ok result ↔ condition := by
  unfold require
  split <;> simp_all

theorem require_eq_error {condition : Prop} [Decidable condition]
    {error raised : StoreError} :
    require condition error = .error raised ↔ ¬ condition ∧ error = raised := by
  unfold require
  split <;> simp_all

/-- `value`, or the exception its absence stands for. -/
def orRaise (error : StoreError) : Option α → Except StoreError α
  | some value => .ok value
  | none => .error error

@[simp] theorem orRaise_eq_ok {error : StoreError} {value : Option α} {result : α} :
    orRaise error value = .ok result ↔ value = some result := by
  cases value <;> simp [orRaise]

/-- A computation returns exactly when its first part returns and the rest
returns on that result. -/
theorem bind_eq_ok {computation : Except StoreError α}
    {continuation : α → Except StoreError β} {result : β} :
    (computation >>= continuation) = .ok result ↔
      ∃ value, computation = .ok value ∧ continuation value = .ok result := by
  cases computation <;> simp [bind, Except.bind]

theorem bind_eq_error {computation : Except StoreError α}
    {continuation : α → Except StoreError β} {raised : StoreError} :
    (computation >>= continuation) = .error raised ↔
      computation = .error raised ∨
        ∃ value, computation = .ok value ∧ continuation value = .error raised := by
  cases computation <;> simp [bind, Except.bind]

@[simp] theorem pure_eq_ok {value result : α} :
    (pure value : Except StoreError α) = .ok result ↔ value = result := by
  simp [pure, Except.pure]

end RAGuardian.History
