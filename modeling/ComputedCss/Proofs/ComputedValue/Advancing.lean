import ComputedCss.Number.Exact
import ComputedCss.Proofs.ComputedValue.Operations

/-!
# Computation moves forward

A relative value is left to layout or completed, and what is completed stays as it is. Other holders
may do anything to the sheet in between.

* `Holder.run`: one holder of a declaration takes turns with all the others.
* `Computation.Advances`: a state that another can lead to; `advances_on`: one pass.
* `computation_advances`: a run of passes.
-/

namespace ComputedCss

variable {ν : Type} [Scalar ν]

/-! ## Turns -/

/-- A turn in the life of a computed value. -/
inductive Turn (ν : Type) where
  /-- An operation on the value. -/
  | own (operation : Operation ν)
  /-- Anything that the other holders do to the sheet. -/
  | others (change : Sheet ν → Sheet ν)

/-- A computed value and the sheet on which it stands. -/
structure Holder (ν : Type) where
  value : Style.Entry ν
  sheet : Sheet ν

namespace Holder

/-- What a turn leaves behind. -/
def take (holder : Holder ν) : Turn ν → Holder ν
  | .own operation =>
    let outcome := operation.on holder.value holder.sheet
    ⟨outcome.subject, outcome.sheet⟩
  | .others change => { holder with sheet := change holder.sheet }

/-- What some turns leave behind. -/
def run (holder : Holder ν) (turns : List (Turn ν)) : Holder ν :=
  turns.foldl take holder

theorem of_run {P : Holder ν → Prop} {Q : Turn ν → Prop}
    (hkeeps : ∀ holder turn, Q turn → P holder → P (holder.take turn)) {turns : List (Turn ν)}
    (hturns : ∀ turn ∈ turns, Q turn) {holder : Holder ν} (h : P holder) :
    P (holder.run turns) := by
  induction turns generalizing holder with
  | nil => exact h
  | cons turn turns ih =>
    have hturn := hkeeps holder turn (hturns turn List.mem_cons_self) h
    exact ih (fun turn hmem => hturns turn (List.mem_cons_of_mem _ hmem)) hturn

end Holder

/-! ## Stages -/

namespace Computation

omit [Scalar ν]

/-- How far a state has come: relative, left to layout, complete. -/
def stage : Computation ν → Nat
  | relative _ _ => 0
  | pendingLayout _ _ _ => 1
  | absolute _ _ | nonNumeric => 2

/-- A state that the passes can lead to. What is complete stays. -/
structure Advances (before after : Computation ν) : Prop where
  stage : before.stage ≤ after.stage
  complete : before.isOpen = false → after = before

variable {before state after : Computation ν}

theorem Advances.refl (state : Computation ν) : state.Advances state :=
  ⟨Nat.le_refl _, fun _ => rfl⟩

theorem Advances.trans (h : before.Advances state) (hafter : state.Advances after) :
    before.Advances after := by
  refine ⟨Nat.le_trans h.stage hafter.stage, fun hclosed => ?_⟩
  have hstate : state = before := h.complete hclosed
  rw [hafter.complete (hstate ▸ hclosed), hstate]

theorem advances_of_isOpen (hopen : before.isOpen = true) (h : before.stage ≤ after.stage) :
    before.Advances after := by
  refine ⟨h, fun hclosed => ?_⟩
  rw [hclosed] at hopen
  exact absurd hopen Bool.false_ne_true

theorem Advances.ne_relative (h : before.Advances after) (hpending : before.isPending = true) (x : ν)
    (type : ValueType) : after ≠ .relative x type := by
  rintro rfl
  have hstage := h.stage
  cases before with
  | pendingLayout => exact absurd hstage (by simp [Computation.stage])
  | _ => exact absurd hpending Bool.false_ne_true

end Computation

namespace ComputedValue

variable {v : Style.Entry ν} {sheet : Sheet ν}

theorem advances_of_pass {outcome : Outcome ν (Style.Entry ν) (Effect ν)}
    (h : Pass v sheet outcome) : v.state.Advances outcome.subject.state := by
  cases h with
  | closed | failed => exact .refl v.state
  | adopted x type y type' effect notices hstate hread =>
    rw [hstate]
    exact Computation.advances_of_isOpen rfl (by simp [Computation.stage])
  | finished pixels effect notices hopen =>
    refine Computation.advances_of_isOpen hopen ?_
    cases v.state <;> simp [finish, Computation.stage]
  | deferred x property axis effect notices hnumber haxis =>
    have hopen : v.state.isOpen = true := by rw [isOpen_eq_isSome, hnumber]; rfl
    refine Computation.advances_of_isOpen hopen ?_
    cases hstate : v.state with
    | relative | pendingLayout => simp [Computation.stage]
    | _ =>
      rw [hstate] at hopen
      exact absurd hopen Bool.false_ne_true

/-- A pass moves the computation forward, whatever the sheet says. -/
theorem advances_on {operation : Operation ν} (h : operation.isPass = true) (v : Style.Entry ν)
    (sheet : Sheet ν) : v.state.Advances (operation.on v sheet).subject.state :=
  advances_of_pass (pass_on h v sheet)

end ComputedValue

namespace Holder

theorem advances_run {turns : List (Turn ν)}
    (hturns : ∀ operation, Turn.own operation ∈ turns → operation.isPass = true)
    (holder : Holder ν) : holder.value.state.Advances (holder.run turns).value.state := by
  refine of_run (P := fun later => holder.value.state.Advances later.value.state)
    (Q := fun turn => ∀ operation, turn = .own operation → operation.isPass = true) ?_
    (fun turn hmem operation hturn => hturns operation (hturn ▸ hmem)) (.refl _)
  intro later turn hturn h
  cases turn with
  | own operation =>
    exact h.trans (ComputedValue.advances_on (hturn operation rfl) later.value later.sheet)
  | others change => exact h

end Holder

/-- **Computation moves forward.** A value that was left to layout does not become relative again. A
value that is complete stays as it is: whatever the sheet says, the style pass has nothing to do for
it, the layout pass gives its number, and neither writes a declaration. -/
theorem computation_advances (holder : Holder ν) {turns : List (Turn ν)}
    (hturns : ∀ operation, Turn.own operation ∈ turns → operation.isPass = true) :
    let later := holder.run turns
    (holder.value.isPending = true → ∀ x type, later.value.state ≠ .relative x type) ∧
    (holder.value.requiresComputation = false →
      later.value.requiresComputation = false ∧
      later.value.state = holder.value.state ∧
      ∀ sheet,
        (∀ parent property,
          (later.value.resolveAgainst parent property sheet).result = .ok .unchanged) ∧
        (∀ property, (later.value.resolve property sheet).result = .ok .unchanged) ∧
        (∀ block,
          (∀ x type, holder.value.state = .absolute x type →
            (later.value.bind block sheet).result = .ok x) ∧
          (holder.value.state = .nonNumeric →
            ∃ error, (later.value.bind block sheet).result = .error error)) ∧
        ∀ operation : Operation ν, operation.isPass = true →
          (operation.on later.value sheet).subject = later.value ∧
            (operation.on later.value sheet).sheet = sheet) := by
  intro later
  have hadvances := holder.advances_run hturns
  refine ⟨fun hpending => hadvances.ne_relative hpending, fun hclosed => ?_⟩
  have hstate : later.value.state = holder.value.state := hadvances.complete hclosed
  have hlater : later.value.state.isOpen = false := hstate ▸ hclosed
  refine ⟨hlater, hstate, fun sheet => ⟨?_, ?_, ?_, ?_⟩⟩
  · intro parent property
    exact ComputedValue.resolveAgainst_of_closed hlater parent property sheet
  · intro property
    exact ComputedValue.resolveAgainst_of_closed hlater later.value.context property sheet
  · intro block
    rw [← hstate]
    exact ComputedValue.bind_of_closed hlater block sheet
  · intro operation hoperation
    exact ComputedValue.unaffected_of_closed (ComputedValue.pass_on hoperation later.value sheet) hlater

/-- A percentage that has just been read. -/
def freshHalf : Holder Rat :=
  let (id, sheet) := Sheet.empty.add (.ofPrimitive (.numeric 50 .percentage))
  let (value, sheet) := ComputedValue.ofDeclaration id none .standard sheet
  ⟨value, sheet⟩

/-- Passes under two properties, between which another holder writes a length. -/
def passesAroundWrite : List (Turn Rat) :=
  [.own (.resolve .height), .others (·.write 0 (.ofPrimitive (.numeric 7 .px))),
    .own (.resolve .left), .own (.bind ⟨1000, 400⟩), .own (.resolve .fontSize)]

/-- The percentage waits for layout once it has been resolved, and stays 500 pixels once it is
bound. -/
theorem computation_advances_freshHalf :
    let waiting := freshHalf.run (passesAroundWrite.take 1)
    let bound := freshHalf.run (passesAroundWrite.take 4)
    (∀ x type, (waiting.run passesAroundWrite).value.state ≠ .relative x type) ∧
    bound.value.state = .absolute 500 .px ∧
    (bound.run passesAroundWrite).value.state = .absolute 500 .px ∧
    ∀ block sheet, ((bound.run passesAroundWrite).value.bind block sheet).result = .ok 500 := by
  intro waiting bound
  have hturns : ∀ operation, Turn.own operation ∈ passesAroundWrite → operation.isPass = true := by
    intro operation hmem
    simp only [passesAroundWrite, List.mem_cons, List.not_mem_nil, Turn.own.injEq, or_false,
      reduceCtorEq, false_or] at hmem
    rcases hmem with rfl | rfl | rfl | rfl <;> rfl
  have hbound : bound.value.state = .absolute 500 .px := by with_unfolding_all rfl
  obtain ⟨hpending, -⟩ := computation_advances waiting hturns
  obtain ⟨-, hcomplete⟩ := computation_advances bound hturns
  obtain ⟨-, hstate, hpasses⟩ := hcomplete (by
    show bound.value.state.isOpen = false
    rw [hbound]
    rfl)
  refine ⟨hpending ?_, hbound, hstate.trans hbound, fun block sheet => ?_⟩
  · rfl
  · obtain ⟨-, -, hbind, -⟩ := hpasses sheet
    exact (hbind block).1 500 .px hbound

end ComputedCss
