import ComputedCss.Notice
import ComputedCss.Sheet

/-!
# Outcomes

What an operation leaves behind: its result, the value or style that it worked on, the sheet, and
the notices that it raised. The last three are there also when the operation fails.
-/

namespace ComputedCss

/-- The outcome of an operation on a `σ` that answers with an `α`. -/
structure Outcome (ν σ α : Type) where
  result : Except (ValueError ν) α
  subject : σ
  sheet : Sheet ν
  notices : List Notice

namespace Outcome

variable {ν σ τ α β : Type}

/-- An operation that fails and changes nothing. -/
def failed (error : ValueError ν) (subject : σ) (sheet : Sheet ν) : Outcome ν σ α :=
  ⟨.error error, subject, sheet, []⟩

/-- The outcome with another answer. -/
def map (f : α → β) (outcome : Outcome ν σ α) : Outcome ν σ β :=
  { outcome with result := outcome.result.map f }

/-- The outcome of the same operation, seen as one on something around its subject. -/
def around (f : σ → τ) (outcome : Outcome ν σ α) : Outcome ν τ α :=
  { outcome with subject := f outcome.subject }

/-- The outcome with notices raised before it. -/
def after (notices : List Notice) (outcome : Outcome ν σ α) : Outcome ν σ α :=
  { outcome with notices := notices ++ outcome.notices }

end Outcome

end ComputedCss
