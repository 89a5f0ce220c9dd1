import Mathlib.Data.List.Induction
import Mathlib.Tactic.SplitIfs
import ComputedCss.Session.Run

/-!
# What a log remembers

A log remembers keys, and the key of a notice sets its component in brackets before its message. So
two notices are shown once between them when they have the same key: when they are the same pair of
a component and a message, or when the component of one goes on, past a closing bracket, into what
is the message of the other.

* `Notice.key_eq_iff`: the pairs that have the same key.
* `Log.mem_keys_after`: the keys in a log are those reported after it was last cleared.
* `reported_once`: what a log answers and shows after any calls, and the pairs that it never takes
  for another.
-/

namespace ComputedCss

/-! ## Keys -/

namespace Notice

/-- The text closes a bracket before a space. -/
def ClosesBracket (text : String) : Prop :=
  ∃ front back, text = front ++ "] " ++ back

/-- The second component is the first one and goes on, past a closing bracket, with the beginning of
the first message. -/
def RunsInto (component message component' message' : String) : Prop :=
  ∃ middle, component' = component ++ "] " ++ middle ∧ message = middle ++ "] " ++ message'

/-- A log does not tell the two pairs of a component and a message apart. -/
def Alike (component message component' message' : String) : Prop :=
  component = component' ∧ message = message' ∨
    RunsInto component message component' message' ∨
    RunsInto component' message' component message

/-- The notice has that component and that message. -/
def IsAbout (component message : String) (notice : Notice) : Prop :=
  notice.component = component ∧ notice.message = message

theorem toList_key (component message : String) :
    (key component message).toList =
      '[' :: (component.toList ++ ']' :: ' ' :: message.toList) := by
  simp [key]

theorem runsInto_of_append {component message component' message' : String} {more : List Char}
    (hcomponent : component'.toList = component.toList ++ more)
    (hmessage : ']' :: ' ' :: message.toList = more ++ ']' :: ' ' :: message'.toList) :
    component = component' ∧ message = message' ∨
      RunsInto component message component' message' := by
  match more with
  | [] =>
    obtain ⟨-, hrest⟩ := List.cons.inj hmessage
    obtain ⟨-, hrest⟩ := List.cons.inj hrest
    refine .inl ⟨?_, String.toList_injective hrest⟩
    apply String.toList_injective
    rw [hcomponent, List.append_nil]
  | [c] =>
    -- A bracket would have to be the space after one.
    obtain ⟨-, hrest⟩ := List.cons.inj hmessage
    exact absurd (List.cons.inj hrest).1 (by decide)
  | c :: d :: middle =>
    rw [List.cons_append, List.cons_append] at hmessage
    obtain ⟨rfl, hspace⟩ := List.cons.inj hmessage
    obtain ⟨rfl, hmiddle⟩ := List.cons.inj hspace
    refine .inr ⟨String.ofList middle, ?_, ?_⟩
    · apply String.toList_injective
      simp [hcomponent]
    · apply String.toList_injective
      simp [hmiddle]

theorem ne_append_bracket (text more : String) : text ≠ text ++ "] " ++ more := by
  intro h
  have hlength := congrArg String.length h
  rw [String.length_append, String.length_append, show "] ".length = 2 from rfl] at hlength
  omega

theorem key_of_runsInto {component message component' message' : String}
    (h : RunsInto component message component' message') :
    key component message = key component' message' := by
  obtain ⟨middle, rfl, rfl⟩ := h
  simp only [key, String.append_assoc]

/-- **The pairs that have the same key.** -/
theorem key_eq_iff (component message component' message' : String) :
    key component message = key component' message' ↔
      Alike component message component' message' := by
  constructor
  · intro h
    have hlist := congrArg String.toList h
    rw [toList_key, toList_key] at hlist
    have hrest := (List.cons.inj hlist).2
    rcases List.append_eq_append_iff.mp hrest with ⟨more, hcomponent, hmessage⟩ |
      ⟨more, hcomponent, hmessage⟩
    · exact (runsInto_of_append hcomponent hmessage).imp_right .inl
    · rcases runsInto_of_append hcomponent hmessage with ⟨hcomponent, hmessage⟩ | hruns
      · exact .inl ⟨hcomponent.symm, hmessage.symm⟩
      · exact .inr (.inr hruns)
  · rintro (⟨rfl, rfl⟩ | hruns | hruns)
    · rfl
    · exact key_of_runsInto hruns
    · exact (key_of_runsInto hruns).symm

theorem alike_iff_of_not_closesBracket {component message : String}
    (hcomponent : ¬ ClosesBracket component) (hmessage : ¬ ClosesBracket message)
    (component' message' : String) :
    Alike component message component' message' ↔
      component = component' ∧ message = message' := by
  constructor
  · rintro (hsame | ⟨middle, -, hmiddle⟩ | ⟨middle, hmiddle, -⟩)
    · exact hsame
    · exact absurd ⟨middle, message', hmiddle⟩ hmessage
    · exact absurd ⟨component', middle, hmiddle⟩ hcomponent
  · exact .inl

end Notice

/-! ## Calls -/

/-- A call that changes a log. -/
inductive LogCall where
  | report (notice : Notice)
  | clear

/-- The call as a step of a session. -/
def LogCall.step {ν : Type} : LogCall → Step ν
  | report notice => .report notice
  | clear => .clearReports

/-- A notice of some sort was reported after the log was last cleared. -/
def LogCall.Reported (sort : Notice → Prop) (calls : List LogCall) : Prop :=
  ∃ before notice after, calls = before ++ .report notice :: after ∧ .clear ∉ after ∧ sort notice

namespace Log

/-- The log after a call, and the lines that the call shows. -/
def perform (log : Log) : LogCall → Log × List String
  | .report notice =>
    ((log.recordAll [notice]).1, (log.recordAll [notice]).2.map Notice.line)
  | .clear => (.empty, [])

/-- The log after some calls. -/
def after (calls : List LogCall) : Log :=
  calls.foldl (fun log call => (log.perform call).1) .empty

end Log

namespace LogCall

variable {sort : Notice → Prop} {calls : List LogCall}

theorem reported_report (notice : Notice) :
    Reported sort (calls ++ [.report notice]) ↔ Reported sort calls ∨ sort notice := by
  constructor
  · rintro ⟨before, found, after, heq, hclear, hsort⟩
    rcases List.eq_nil_or_concat after with rfl | ⟨after, last, rfl⟩
    · obtain ⟨-, hlast⟩ := List.append_inj' heq rfl
      obtain rfl : notice = found := by simpa using hlast
      exact .inr hsort
    · rw [List.concat_eq_append] at heq hclear
      rw [← List.cons_append, ← List.append_assoc] at heq
      obtain ⟨hcalls, -⟩ := List.append_inj' heq rfl
      exact .inl ⟨before, found, after, hcalls,
        fun hmem => hclear (List.mem_append_left _ hmem), hsort⟩
  · rintro (⟨before, found, after, rfl, hclear, hsort⟩ | hsort)
    · refine ⟨before, found, after ++ [.report notice], by simp, ?_, hsort⟩
      simpa using hclear
    · exact ⟨calls, notice, [], rfl, List.not_mem_nil, hsort⟩

theorem not_reported_clear : ¬ Reported sort (calls ++ [.clear]) := by
  rintro ⟨before, found, after, heq, hclear, -⟩
  rcases List.eq_nil_or_concat after with rfl | ⟨after, last, rfl⟩
  · obtain ⟨-, hlast⟩ := List.append_inj' heq rfl
    exact absurd hlast (by simp)
  · rw [List.concat_eq_append] at heq hclear
    rw [← List.cons_append, ← List.append_assoc] at heq
    obtain ⟨-, hlast⟩ := List.append_inj' heq rfl
    obtain rfl : clear = last := by simpa using hlast
    exact hclear (List.mem_append_right _ List.mem_cons_self)

theorem reported_congr {sort' : Notice → Prop} (h : ∀ notice, sort notice ↔ sort' notice) :
    Reported sort calls ↔ Reported sort' calls := by
  rw [show sort = sort' from funext fun notice => propext (h notice)]

theorem reported_singleton (notice : Notice) : Reported sort [.report notice] ↔ sort notice := by
  have hnone : ¬ Reported sort [] := by
    rintro ⟨before, found, after, heq, -⟩
    exact absurd heq (by simp)
  rw [show [LogCall.report notice] = [] ++ [.report notice] from rfl, reported_report]
  exact or_iff_right hnone

end LogCall

/-! ## Logs -/

namespace Log

variable {log : Log} {calls : List LogCall}

theorem reported_eq (log : Log) (component message : String) :
    log.reported component message = true ↔ Notice.key component message ∈ log.keys :=
  List.contains_iff_mem

theorem mem_keys_report {key : String} (notice : Notice) :
    key ∈ (log.perform (.report notice)).1.keys ↔
      key ∈ log.keys ∨ Notice.key notice.component notice.message = key := by
  show key ∈ (log.record notice).1.keys ↔ _
  unfold record
  dsimp only
  split_ifs with hknown
  · rw [List.contains_iff_mem] at hknown
    exact ⟨.inl, fun h => h.elim id fun h => h ▸ hknown⟩
  · rw [List.mem_cons, or_comm, eq_comm]

theorem shown_report (notice : Notice) :
    (log.perform (.report notice)).2 =
      if log.reported notice.component notice.message then [] else [notice.line] := by
  show (if (log.record notice).2 then [notice] else []).map Notice.line = _
  unfold record reported
  dsimp only
  split_ifs <;> simp_all

/-- **The keys in a log are those that were reported after it was last cleared.** -/
theorem mem_keys_after (calls : List LogCall) (key : String) :
    key ∈ (after calls).keys ↔
      LogCall.Reported (fun notice => Notice.key notice.component notice.message = key) calls := by
  induction calls using List.reverseRecOn with
  | nil =>
    refine ⟨fun h => absurd h List.not_mem_nil, ?_⟩
    rintro ⟨before, found, rest, heq, -⟩
    exact absurd heq (by simp)
  | append_singleton calls call ih =>
    rw [after, List.foldl_append, ← after]
    cases call with
    | report notice => rw [LogCall.reported_report, ← ih]; exact mem_keys_report notice
    | clear => exact ⟨fun h => absurd h List.not_mem_nil, fun h => absurd h LogCall.not_reported_clear⟩

theorem reported_after (calls : List LogCall) (component message : String) :
    (after calls).reported component message = true ↔
      LogCall.Reported (fun notice =>
        Notice.Alike notice.component notice.message component message) calls := by
  rw [reported_eq, mem_keys_after]
  exact LogCall.reported_congr fun notice => Notice.key_eq_iff _ _ _ _

end Log

theorem Session.log_run {ν : Type} [Scalar ν] (session : Session ν) (calls : List LogCall) :
    (session.run (calls.map LogCall.step)).1.log =
      calls.foldl (fun log call => (log.perform call).1) session.log := by
  induction calls generalizing session with
  | nil => rfl
  | cons call calls ih =>
    show ((session.step call.step).1.run (calls.map LogCall.step)).1.log = _
    rw [ih, List.foldl_cons]
    cases call with
    | report notice => rfl
    | clear => rfl

/-- **A notice is shown once between two clearings of the log.** After any calls a log says that a
message of a component was reported exactly when a notice alike was reported since it was last
cleared, and then it shows no such notice again. Every log tells a pair from all others exactly when
no bracket is closed before a space in the component or in the message. -/
theorem reported_once (ν : Type) [Scalar ν] (component message : String) :
    (∀ calls : List LogCall,
      let session : Session ν := (Session.empty.run (calls.map LogCall.step)).1
      let alike := LogCall.Reported (fun notice =>
        Notice.Alike notice.component notice.message component message) calls
      ((session.step (.wasReported component message)).2 = .truth true ↔ alike) ∧
      ∀ severity, let notice : Notice := ⟨severity, component, message⟩
        (alike → (session.log.perform (.report notice)).2 = []) ∧
        (¬ alike → (session.log.perform (.report notice)).2 = [notice.line])) ∧
    ((∀ calls, (Log.after calls).reported component message = true ↔
        LogCall.Reported (Notice.IsAbout component message) calls) ↔
      ¬ Notice.ClosesBracket component ∧ ¬ Notice.ClosesBracket message) := by
  refine ⟨fun calls => ?_, fun hexact => ⟨?_, ?_⟩, ?_⟩
  · have hlog : (Session.empty.run (ν := ν) (calls.map LogCall.step)).1.log = Log.after calls :=
      Session.log_run _ calls
    have hreported := Log.reported_after calls component message
    dsimp only
    rw [← hreported, hlog]
    refine ⟨?_, fun severity => ⟨fun h => ?_, fun h => ?_⟩⟩
    · show Answer.truth (Session.log _ |>.reported component message) = .truth true ↔ _
      rw [hlog, Answer.truth.injEq]
    · rw [Log.shown_report, if_pos h]
    · rw [Log.shown_report, if_neg h]
  · -- What comes before the bracket is the component of another notice.
    rintro ⟨front, back, rfl⟩
    let other : Notice := ⟨.warning, front, back ++ "] " ++ message⟩
    have hexact := hexact [.report other]
    rw [Log.reported_after, LogCall.reported_singleton, LogCall.reported_singleton] at hexact
    exact Notice.ne_append_bracket front back (hexact.mp (.inr (.inl ⟨back, rfl, rfl⟩))).1
  · rintro ⟨front, back, rfl⟩
    let other : Notice := ⟨.warning, component ++ "] " ++ front, back⟩
    have hexact := hexact [.report other]
    rw [Log.reported_after, LogCall.reported_singleton, LogCall.reported_singleton] at hexact
    exact Notice.ne_append_bracket component front (hexact.mp (.inr (.inr ⟨front, rfl, rfl⟩))).1.symm
  · rintro ⟨hcomponent, hmessage⟩ calls
    rw [Log.reported_after]
    refine LogCall.reported_congr fun notice => ?_
    have hsame := Notice.alike_iff_of_not_closesBracket hcomponent hmessage notice.component
      notice.message
    rw [← Notice.key_eq_iff, eq_comm, Notice.key_eq_iff, hsame]
    exact and_congr eq_comm eq_comm

/-- A component with a closing bracket is taken for another one with a longer message. -/
theorem reported_without_report :
    (Log.after [.report ⟨.warning, "a", "b] c"⟩]).reported "a] b" "c" = true ∧
    ¬ LogCall.Reported (Notice.IsAbout "a] b" "c") [.report ⟨.warning, "a", "b] c"⟩] := by
  rw [Log.reported_after, LogCall.reported_singleton, LogCall.reported_singleton]
  exact ⟨.inr (.inl ⟨"b", rfl, rfl⟩), fun h => absurd h.1 (by decide)⟩

end ComputedCss
