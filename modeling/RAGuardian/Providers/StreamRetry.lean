import RAGuardian.Foundation.Text

/-! # Streams that are retried

A provider's stream that fails is started again. What it has yielded is delivered
already. -/

namespace RAGuardian.Providers

/-! ## Errors -/

/-- What `get_exception_type` returns. -/
inductive ExceptionType
  | rateLimit
  | timeout
  | auth
  | permission
  | notFound
  | unknown
deriving DecidableEq, Repr

/-- `part in text` -/
def contains (part text : String) : Bool :=
  text.toList.tails.any fun rest => part.toList.isPrefixOf rest

/-- An exception, by its text, and whether it is one of the `exceptions`. -/
structure Raised where
  message : String
  listed : Bool := true
deriving DecidableEq, Repr

/-- `ErrorUtils.get_exception_type` -/
def Raised.exceptionType (error : Raised) : ExceptionType :=
  let message := Text.lower error.message
  if contains "rate" message || contains "429" message then .rateLimit
  else if contains "timeout" message || contains "504" message then .timeout
  else if contains "401" message || contains "unauthorized" message then .auth
  else if contains "403" message || contains "forbidden" message then .permission
  else if contains "not found" message || contains "404" message then .notFound
  else .unknown

/-- `ErrorUtils.is_retryable` -/
def Raised.isRetryable (error : Raised) : Bool :=
  error.exceptionType ∈ [.rateLimit, .timeout, .unknown]

/-! ## Attempts -/

/-- What a call of the generator function yields, and how it ends. -/
structure Attempt where
  chunks : List String
  raised : Option Raised := none
deriving DecidableEq, Repr

inductive Ending
  | returned
  | raised (error : Raised)
  | noAttempts
deriving DecidableEq, Repr

/-- The chunks a consumer gets, and how the stream ends. -/
structure Delivered where
  chunks : List String
  ending : Ending
deriving DecidableEq, Repr

/-- `attempt < max_retries - 1 and ErrorUtils.is_retryable(e)`, for an exception that is
listed; `left` attempts are left. -/
def Raised.retried (error : Raised) (left : Nat) : Bool :=
  error.listed && left ≠ 0 && error.isRetryable

/-- The loop of `retry_stream_with_backoff`, from an attempt on. -/
def retryFrom (func : Nat → Attempt) : Nat → Nat → Delivered
  | 0, _ => ⟨[], .noAttempts⟩
  | left + 1, attempt =>
      match (func attempt).raised with
      | none => ⟨(func attempt).chunks, .returned⟩
      | some error =>
          if error.retried left then
            let rest := retryFrom func left (attempt + 1)
            ⟨(func attempt).chunks ++ rest.chunks, rest.ending⟩
          else ⟨(func attempt).chunks, .raised error⟩

/-- `ErrorUtils.retry_stream_with_backoff` -/
def retryStreamWithBackoff (func : Nat → Attempt) (maxRetries : Int) : Delivered :=
  retryFrom func maxRetries.toNat 0

/-! ### Asynchronous streams -/

/-- What the thread of a generator puts into the queue. -/
inductive QueueItem
  | chunk (text : String)
  | error (error : Raised)
  | none
deriving DecidableEq, Repr

/-- `sync_stream` -/
def syncStream (attempt : Attempt) : List QueueItem :=
  attempt.chunks.map .chunk ++ (attempt.raised.map QueueItem.error).toList ++ [.none]

/-- The loop that reads the queue. -/
def readQueue : List QueueItem → Attempt
  | [] => ⟨[], none⟩
  | .none :: _ => ⟨[], none⟩
  | .error error :: _ => ⟨[], some error⟩
  | .chunk text :: items => { readQueue items with chunks := text :: (readQueue items).chunks }

/-- What the function returns: a coroutine for an asynchronous generator, such a generator,
a generator, or a single value. -/
inductive Produced
  | coroutine (attempt : Attempt)
  | asyncGenerator (attempt : Attempt)
  | generator (attempt : Attempt)
  | value (chunk : String)
deriving DecidableEq, Repr

/-- What the body of the `try` yields. -/
def Produced.attempt : Produced → Attempt
  | coroutine attempt => attempt
  | asyncGenerator attempt => attempt
  | generator attempt => readQueue (syncStream attempt)
  | value chunk => ⟨[chunk], none⟩

/-- `ErrorUtils.retry_stream_with_backoff_async` -/
def retryStreamWithBackoffAsync (func : Nat → Produced) (maxRetries : Int) : Delivered :=
  retryFrom (fun attempt => (func attempt).attempt) maxRetries.toNat 0

/-- What the stream itself yields. -/
def Produced.source : Produced → Attempt
  | coroutine attempt => attempt
  | asyncGenerator attempt => attempt
  | generator attempt => attempt
  | value chunk => ⟨[chunk], none⟩

/-- The queue passes on what the generator yields. -/
theorem readQueue_syncStream (attempt : Attempt) : readQueue (syncStream attempt) = attempt := by
  obtain ⟨chunks, raised⟩ := attempt
  induction chunks with
  | nil => cases raised <;> rfl
  | cons text rest induction =>
      change { readQueue (syncStream ⟨rest, raised⟩) with
        chunks := text :: (readQueue (syncStream ⟨rest, raised⟩)).chunks } = _
      rw [induction]

theorem Produced.attempt_eq (produced : Produced) : produced.attempt = produced.source := by
  cases produced with
  | generator attempt => exact readQueue_syncStream attempt
  | _ => rfl

/-! ## One answer -/

/-- The attempts that are made. -/
def attemptsFrom (func : Nat → Attempt) : Nat → Nat → List Attempt
  | 0, _ => []
  | left + 1, attempt =>
      func attempt ::
        if (func attempt).raised.any (·.retried left) then attemptsFrom func left (attempt + 1)
        else []

def attemptsMade (func : Nat → Attempt) (maxRetries : Int) : List Attempt :=
  attemptsFrom func maxRetries.toNat 0

/-- A stream that ends normally delivers what the last attempt yields, and one that raises
delivers the beginning of what one attempt yields. -/
def OneAnswer (delivered : Delivered) (made : List Attempt) : Prop :=
  if delivered.ending = .returned then
    made.getLast?.map Attempt.chunks = some delivered.chunks
  else delivered.chunks = [] ∨ ∃ attempt ∈ made, delivered.chunks <+: attempt.chunks

/-- If the last attempt does not fail, the others yield nothing. If it fails, at most one
attempt yields something. -/
def Unmixed (made : List Attempt) : Prop :=
  if made.getLast?.any (·.raised.isNone) then
    ∀ attempt ∈ made.dropLast, attempt.chunks = []
  else (made.filter fun attempt => attempt.chunks ≠ []).length ≤ 1

section

variable {func : Nat → Attempt} {made : List Attempt}

/-- The chunks of all attempts are delivered. -/
theorem retryFrom_chunks (left attempt : Nat) :
    (retryFrom func left attempt).chunks =
      (attemptsFrom func left attempt).flatMap Attempt.chunks := by
  induction left generalizing attempt with
  | zero => rfl
  | succ left induction =>
      rw [retryFrom, attemptsFrom, List.flatMap_cons]
      cases raised : (func attempt).raised with
      | none => exact (List.append_nil _).symm
      | some error =>
          dsimp only [Option.any]
          by_cases retried : error.retried left
          · rw [if_pos retried, if_pos retried, induction]
          · rw [if_neg retried, if_neg retried, List.flatMap_nil, List.append_nil]

theorem attemptsFrom_ne_nil {left attempt : Nat} (some : left ≠ 0) :
    attemptsFrom func left attempt ≠ [] := by
  cases left with
  | zero => exact absurd rfl some
  | succ left => exact List.cons_ne_nil _ _

/-- The stream ends normally if the last attempt does. -/
theorem retryFrom_returned (left attempt : Nat) :
    (retryFrom func left attempt).ending = .returned ↔
      (attemptsFrom func left attempt).getLast?.any (·.raised.isNone) := by
  induction left generalizing attempt with
  | zero =>
      rw [retryFrom, attemptsFrom]
      decide
  | succ left induction =>
      rw [retryFrom, attemptsFrom]
      cases raised : (func attempt).raised with
      | none => simp [raised]
      | some error =>
          dsimp only [Option.any]
          by_cases retried : error.retried left
          · have more : left ≠ 0 := by
              rintro rfl
              simp [Raised.retried] at retried
            rw [if_pos retried, if_pos retried,
              List.getLast?_cons_of_ne_nil (attemptsFrom_ne_nil more)]
            exact induction (attempt + 1)
          · rw [if_neg retried, if_neg retried]
            simp [raised]

theorem flatMap_eq_nil :
    made.flatMap Attempt.chunks = [] ↔ ∀ attempt ∈ made, attempt.chunks = [] :=
  List.flatMap_eq_nil_iff

/-- All chunks are those of the last attempt if the others yield nothing. -/
theorem flatMap_eq_last :
    made.getLast?.map Attempt.chunks = some (made.flatMap Attempt.chunks) ↔
      made ≠ [] ∧ ∀ attempt ∈ made.dropLast, attempt.chunks = [] := by
  induction made using List.reverseRecOn with
  | nil => simp
  | append_singleton earlier final _ =>
      rw [List.getLast?_concat, List.dropLast_concat, List.flatMap_append, List.flatMap_singleton,
        Option.map_some, Option.some.injEq, List.self_eq_append_left, flatMap_eq_nil]
      simp

theorem flatMap_filter :
    (made.filter fun attempt => attempt.chunks ≠ []).flatMap Attempt.chunks =
      made.flatMap Attempt.chunks := by
  induction made with
  | nil => rfl
  | cons attempt rest induction =>
      rw [List.flatMap_cons, List.filter_cons]
      by_cases silent : attempt.chunks = []
      · rw [if_neg (by simpa using silent), induction, silent, List.nil_append]
      · rw [if_pos (by simpa using silent), List.flatMap_cons, induction]

/-- All chunks are the beginning of one attempt's if the others yield nothing. -/
theorem flatMap_prefix_iff :
    (made.flatMap Attempt.chunks = [] ∨
        ∃ attempt ∈ made, made.flatMap Attempt.chunks <+: attempt.chunks) ↔
      (made.filter fun attempt => attempt.chunks ≠ []).length ≤ 1 := by
  constructor
  · rintro (silent | ⟨attempt, member, within⟩)
    · rw [List.filter_eq_nil_iff.mpr]
      · exact Nat.zero_le 1
      · intro attempt member
        simpa using flatMap_eq_nil.mp silent attempt member
    · obtain ⟨before, after, rfl⟩ := List.append_of_mem member
      have short := within.length_le
      rw [List.flatMap_append, List.flatMap_cons, List.length_append, List.length_append] at short
      have first : before.flatMap Attempt.chunks = [] := List.eq_nil_of_length_eq_zero (by omega)
      have second : after.flatMap Attempt.chunks = [] := List.eq_nil_of_length_eq_zero (by omega)
      have silent : ∀ attempts : List Attempt, attempts.flatMap Attempt.chunks = [] →
          attempts.filter (fun attempt => attempt.chunks ≠ []) = [] := by
        intro attempts none
        rw [List.filter_eq_nil_iff]
        intro attempt member
        simpa using flatMap_eq_nil.mp none attempt member
      rw [List.filter_append, silent before first, List.nil_append, List.filter_cons,
        silent after second]
      split <;> simp
  · intro few
    rw [← flatMap_filter]
    cases kept : made.filter fun attempt => attempt.chunks ≠ [] with
    | nil => exact .inl rfl
    | cons attempt rest =>
        rw [kept, List.length_cons] at few
        have alone : rest = [] := List.eq_nil_of_length_eq_zero (by omega)
        subst alone
        have member : attempt ∈ made.filter fun attempt => attempt.chunks ≠ [] := by
          rw [kept]
          exact List.mem_cons_self
        have whole : [attempt].flatMap Attempt.chunks = attempt.chunks :=
          List.flatMap_singleton ..
        exact .inr ⟨attempt, (List.mem_filter.mp member).1, whole ▸ List.prefix_rfl⟩

theorem retryFrom_oneAnswer_iff (left attempt : Nat) :
    OneAnswer (retryFrom func left attempt) (attemptsFrom func left attempt) ↔
      Unmixed (attemptsFrom func left attempt) := by
  have returned := @retryFrom_returned func left attempt
  rw [OneAnswer, Unmixed, retryFrom_chunks]
  by_cases ends : (retryFrom func left attempt).ending = .returned
  · rw [if_pos ends, if_pos (returned.mp ends), flatMap_eq_last, and_iff_right]
    intro none
    rw [returned, none] at ends
    cases ends
  · rw [if_neg ends, if_neg (ends ∘ returned.mpr), flatMap_prefix_iff]

end

/-- A stream delivers one answer exactly if no attempt yields something before or after the
attempt whose chunks are delivered. -/
theorem retryStream_one_answer_iff (func : Nat → Attempt) (produced : Nat → Produced)
    (maxRetries : Int) :
    (OneAnswer (retryStreamWithBackoff func maxRetries) (attemptsMade func maxRetries) ↔
        Unmixed (attemptsMade func maxRetries)) ∧
      (OneAnswer (retryStreamWithBackoffAsync produced maxRetries)
          (attemptsMade (fun attempt => (produced attempt).source) maxRetries) ↔
        Unmixed (attemptsMade (fun attempt => (produced attempt).source) maxRetries)) := by
  refine ⟨retryFrom_oneAnswer_iff _ _, ?_⟩
  have same : (fun attempt => (produced attempt).attempt) =
      fun attempt => (produced attempt).source := funext fun attempt => (produced attempt).attempt_eq
  rw [retryStreamWithBackoffAsync, same]
  exact retryFrom_oneAnswer_iff _ _

/-- The first attempt fails after its first chunk. -/
def brokenOnce : Nat → Attempt
  | 0 => ⟨["Hel"], some { message := "Read timeout" }⟩
  | _ => ⟨["Hello"], none⟩

/-- The chunk that was delivered is delivered again with the retry. -/
theorem retryStream_repeats :
    ¬ ∀ (func : Nat → Attempt) (produced : Nat → Produced) (maxRetries : Int),
      OneAnswer (retryStreamWithBackoff func maxRetries) (attemptsMade func maxRetries) ∧
        OneAnswer (retryStreamWithBackoffAsync produced maxRetries)
          (attemptsMade (fun attempt => (produced attempt).source) maxRetries) := by
  intro claim
  have one := (claim brokenOnce (fun attempt => .generator (brokenOnce attempt)) 3).1
  have delivered : retryStreamWithBackoff brokenOnce 3 = ⟨["Hel", "Hello"], .returned⟩ := by
    decide +kernel
  have made : (attemptsMade brokenOnce 3).getLast?.map Attempt.chunks = some ["Hello"] := by
    decide +kernel
  rw [OneAnswer, delivered, if_pos rfl, made] at one
  exact absurd one (by decide)

end RAGuardian.Providers
