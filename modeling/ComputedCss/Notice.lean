/-!
# Notices

What the computation reports besides its results. A notice is shown once: a log remembers the keys
of the notices it has seen, and the key of a notice is made of its component and its message.

* `Noted` is a result together with the notices raised on the way to it.
* `Log.record` shows a notice that is new and says whether it was.
-/

namespace ComputedCss

/-- How loudly a notice is shown. -/
inductive Severity where
  /-- A request was pointless but harmless. -/
  | info
  /-- A value could not be computed as it was meant. -/
  | warning
deriving DecidableEq, Repr

/-- One report. -/
structure Notice where
  severity : Severity
  component : String
  message : String
deriving DecidableEq, Repr

namespace Notice

/-- A warning of the style component. -/
def warning (message : String) : Notice := ⟨.warning, "CSS", message⟩

/-- A remark of the style component. -/
def info (message : String) : Notice := ⟨.info, "CSS", message⟩

/-- What a log remembers of a notice. -/
def key (component message : String) : String :=
  "[" ++ component ++ "] " ++ message

/-- The line that shows a notice: dimmed for a remark, yellow with a sign for a warning. -/
def line (notice : Notice) : String :=
  let text := "[Kestrel " ++ notice.component ++ "] " ++ notice.message
  match notice.severity with
  | .info => "\x1b[2m" ++ text ++ "\x1b[0m"
  | .warning => "\x1b[33m" ++ text ++ " ⚠\x1b[39m"

end Notice

/-! ## Results with notices -/

/-- A result, and the notices raised on the way to it in order. -/
structure Noted (α : Type) where
  value : α
  notices : List Notice

namespace Noted

instance : Monad Noted where
  pure value := ⟨value, []⟩
  bind x f := ⟨(f x.value).value, x.notices ++ (f x.value).notices⟩

@[simp] theorem value_pure {α : Type} (a : α) : (pure a : Noted α).value = a := rfl

@[simp] theorem notices_pure {α : Type} (a : α) : (pure a : Noted α).notices = [] := rfl

@[simp] theorem value_bind {α β : Type} (x : Noted α) (f : α → Noted β) :
    (x >>= f).value = (f x.value).value := rfl

@[simp] theorem notices_bind {α β : Type} (x : Noted α) (f : α → Noted β) :
    (x >>= f).notices = x.notices ++ (f x.value).notices := rfl

instance : LawfulMonad Noted :=
  LawfulMonad.mk' Noted
    (fun x => by
      show (⟨x.value, x.notices ++ []⟩ : Noted _) = x
      simp)
    (fun _ _ => rfl)
    (fun x f g => by
      show (⟨_, (x.notices ++ _) ++ _⟩ : Noted _) = ⟨_, x.notices ++ (_ ++ _)⟩
      simp)

/-- Raises a notice. -/
def tell (notice : Notice) : Noted Unit := ⟨(), [notice]⟩

end Noted

/-! ## The log -/

/-- The keys of the notices reported so far. -/
structure Log where
  keys : List String

namespace Log

/-- A log that has seen nothing. -/
def empty : Log := ⟨[]⟩

/-- Whether a message of a component has been reported. -/
def reported (log : Log) (component message : String) : Bool :=
  log.keys.contains (Notice.key component message)

/-- Reports a notice, and says whether it is new. -/
def record (log : Log) (notice : Notice) : Log × Bool :=
  let key := Notice.key notice.component notice.message
  if log.keys.contains key then (log, false) else (⟨key :: log.keys⟩, true)

/-- Reports notices in order, and gives those that are new. -/
def recordAll (log : Log) (notices : List Notice) : Log × List Notice :=
  notices.foldl
    (fun (log, shown) notice =>
      let (log, new) := log.record notice
      (log, if new then shown ++ [notice] else shown))
    (log, [])

end Log

end ComputedCss
