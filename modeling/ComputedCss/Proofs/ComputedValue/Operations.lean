import ComputedCss.ComputedValue.Writers
import ComputedCss.Proofs.ComputedValue.Passes
import ComputedCss.Proofs.Value.Failures
import ComputedCss.Session.Basic

/-!
# Operations on a computed value

The operations that change a computed value, as data, so that one can speak of runs of them. What
an operation can do is said once, for a value in any state and over any sheet.

* `Operation.on`: the operation on a value, with its effect.
* `number_eq_ok`: the values that have a computed number.
* `Pass`, `pass_on`: the outcomes of the two passes.
* `Operation.Acts`, `acts_on`: the outcomes of every operation.
* `Operation.unchanged_of_error`: an operation that fails changes nothing.
* `Operation.sheet_on`: an operation writes no declaration but that of its value.
-/

namespace ComputedCss

/-- An operation that changes a computed value. -/
inductive Operation (ν : Type) where
  | resolveAgainst (parent : Option (Style ν)) (property : Property)
  | resolve (property : Property)
  | bind (block : ContainingBlock ν)
  | setNumber (type : ValueType) (value : ν)
  | setString (text : String)
  | setText (text : String)

/-- Whether the operation is the style pass or the layout pass, and not a writer. -/
def Operation.isPass {ν : Type} : Operation ν → Bool
  | resolveAgainst _ _ | resolve _ | bind _ => true
  | setNumber _ _ | setString _ | setText _ => false

variable {ν : Type} [Scalar ν]

/-- The operation on a computed value. -/
def Operation.on (operation : Operation ν) (v : Style.Entry ν) (sheet : Sheet ν) :
    Outcome ν (Style.Entry ν) (Effect ν) :=
  match operation with
  | resolveAgainst parent property => (v.resolveAgainst parent property sheet).map .resolution
  | resolve property => (v.resolve property sheet).map .resolution
  | bind block => (v.bind block sheet).map .number
  | setNumber type value => (v.setNumber type value sheet).map fun _ => .done
  | setString text => (v.setString text sheet).map fun _ => .done
  | setText text => (v.setText text sheet).map fun _ => .done

/-! ## The passes -/

namespace ComputedValue

variable {v : Style.Entry ν} {sheet : Sheet ν}

omit [Scalar ν] in
theorem isOpen_eq_isSome (state : Computation ν) : state.isOpen = (openNumber? state).isSome := by
  cases state <;> rfl

omit [Scalar ν] in
theorem requireScalar_eq (v : Style.Entry ν) :
    v.requireScalar = if v.kind = .scalar then .ok () else .error (.kindMismatch .scalar) := by
  unfold requireScalar isScalar
  simp only [beq_iff_eq]

omit [Scalar ν] in
theorem number_eq_ok {x : ν} : v.number sheet = .ok x ↔
    v.kind = .scalar ∧ ∃ type, v.state = .absolute x type := by
  unfold number
  rw [requireScalar_eq]
  by_cases hkind : v.kind = .scalar
  · rw [if_pos hkind]
    cases hstate : v.state with
    | absolute y type => simp [hkind, Bind.bind, Except.bind, pure, Except.pure]
    | relative | pendingLayout =>
      simp [Bind.bind, Except.bind, throw, throwThe, MonadExceptOf.throw]
    | nonNumeric =>
      cases v.type sheet with
      | error error => simp [Bind.bind, Except.bind]
      | ok type => simp [Bind.bind, Except.bind, throw, throwThe, MonadExceptOf.throw]
  · rw [if_neg hkind]
    simp [hkind, Bind.bind, Except.bind]

omit [Scalar ν] in
theorem exists_error_of_number (h : ∀ x type, v.state ≠ .absolute x type) (sheet : Sheet ν) :
    ∃ error, v.number sheet = .error error := by
  cases hnumber : v.number sheet with
  | error error => exact ⟨error, rfl⟩
  | ok x =>
    obtain ⟨-, type, hstate⟩ := number_eq_ok.mp hnumber
    exact absurd hstate (h x type)

theorem basis_eq_layout {config : Config ν} {parent : Option (Style ν)} {property : Property}
    {x : ν} {type : ValueType} {axis : Axis}
    (h : Reading.result (basis config parent property sheet x type) = .ok (.layout axis)) :
    type = .percentage ∧ property.layoutAxis? = some axis := by
  by_cases hrelative : type.isRelative = true
  · rcases basis_cases config parent property sheet x hrelative with
      ⟨error, herror, -⟩ | ⟨pixels, hpixels⟩ | ⟨axis', hlayout, htype, haxis⟩
    · simp [h] at herror
    · simp [h] at hpixels
    · obtain rfl : axis = axis' := by simpa [h] using hlayout
      exact ⟨htype, haxis⟩
  · -- A number that is not relative has no basis.
    have hnone : Reading.result (basis config parent property sheet x type) =
        .error (.unsupportedUnit type) := by
      cases type with
      | dimension unit =>
        cases unit with
        | em | ex => exact absurd rfl hrelative
        | _ => rfl
      | percentage => exact absurd rfl hrelative
      | _ => rfl
    simp [h] at hnone

/-- The outcomes of a pass. -/
inductive Pass (v : Style.Entry ν) (sheet : Sheet ν) :
    Outcome ν (Style.Entry ν) (Effect ν) → Prop
  | closed (effect notices) : v.state.isOpen = false →
    Pass v sheet ⟨.ok effect, v, sheet, notices⟩
  | adopted (x type y type' effect notices) : v.state = .relative x type →
    Computation.ofValue v.config (sheet.get v.declaration).value = .absolute y type' →
    Pass v sheet ⟨.ok effect, { v with state := .absolute y type' }, sheet, notices⟩
  | failed (error notices) : Pass v sheet ⟨.error error, v, sheet, notices⟩
  | finished (pixels effect notices) : v.state.isOpen = true →
    Pass v sheet
      ⟨.ok effect, (v.finish pixels sheet).subject, (v.finish pixels sheet).sheet, notices⟩
  | deferred (x property axis effect notices) : openNumber? v.state = some (x, .percentage) →
    property.layoutAxis? = some axis →
    Pass v sheet ⟨.ok effect, { v with state := .pendingLayout x property axis }, sheet, notices⟩

theorem pass_resolveAgainst (parent : Option (Style ν)) (property : Property) (v : Style.Entry ν)
    (sheet : Sheet ν) :
    Pass v sheet ((v.resolveAgainst parent property sheet).map .resolution) := by
  unfold resolveAgainst
  dsimp only
  rcases adopt_cases v sheet with h | ⟨x, type, y, type', hstate, hread, h⟩
  · rw [h]
    have hopen := isOpen_eq_isSome v.state
    cases hnumber : openNumber? v.state with
    | none =>
      rw [hnumber] at hopen
      exact .closed _ _ hopen
    | some number =>
      obtain ⟨value, type⟩ := number
      rw [hnumber] at hopen
      dsimp only
      cases hbasis : (basis v.config parent property sheet value type).run.value with
      | error error => exact .failed error _
      | ok basis =>
        cases basis with
        | length pixels => exact .finished pixels _ _ hopen
        | layout axis =>
          obtain ⟨rfl, haxis⟩ := basis_eq_layout hbasis
          exact .deferred value property axis _ _ hnumber haxis
  · rw [h]
    exact .adopted x type y type' _ _ hstate hread

theorem pass_bind (block : ContainingBlock ν) (v : Style.Entry ν) (sheet : Sheet ν) :
    Pass v sheet ((v.bind block sheet).map .number) := by
  have hfailed : (∀ x type, v.state ≠ .absolute x type) →
      Pass v sheet ((⟨v.number sheet, v, sheet, []⟩ : Outcome ν _ ν).map .number) := by
    intro hnot
    obtain ⟨error, herror⟩ := exists_error_of_number hnot sheet
    rw [herror]
    exact .failed error _
  unfold bind
  dsimp only
  rcases adopt_cases v sheet with h | ⟨x, type, y, type', hstate, hread, h⟩
  · rw [h]
    cases hstate : v.state with
    | pendingLayout percentage property axis => exact .finished _ _ _ (by rw [hstate]; rfl)
    | absolute value type => exact .closed _ _ (by rw [hstate]; rfl)
    | relative value type => exact hfailed (by simp [hstate])
    | nonNumeric => exact hfailed (by simp [hstate])
  · rw [h]
    exact .adopted x type y type' _ _ hstate hread

theorem pass_on {operation : Operation ν} (h : operation.isPass = true) (v : Style.Entry ν)
    (sheet : Sheet ν) : Pass v sheet (operation.on v sheet) := by
  cases operation with
  | resolveAgainst parent property => exact pass_resolveAgainst parent property v sheet
  | resolve property => exact pass_resolveAgainst v.context property v sheet
  | bind block => exact pass_bind block v sheet
  | _ => exact absurd h Bool.false_ne_true

/-! ### Values that are computed -/

theorem adopt_of_isOpen_eq_false (hv : v.state.isOpen = false) (sheet : Sheet ν) :
    v.adopt sheet = v := by
  rcases adopt_cases v sheet with h | ⟨x, type, y, type', hstate, -, -⟩
  · exact h
  · rw [hstate] at hv
    exact absurd hv.symm Bool.false_ne_true

theorem resolveAgainst_of_closed (hv : v.state.isOpen = false) (parent : Option (Style ν))
    (property : Property) (sheet : Sheet ν) :
    (v.resolveAgainst parent property sheet).result = .ok .unchanged := by
  have hnumber : openNumber? v.state = none := by
    rw [isOpen_eq_isSome] at hv
    simpa using hv
  unfold resolveAgainst
  dsimp only
  rw [adopt_of_isOpen_eq_false hv, hnumber]

theorem bind_of_closed (hv : v.state.isOpen = false) (block : ContainingBlock ν) (sheet : Sheet ν) :
    (∀ x type, v.state = .absolute x type → (v.bind block sheet).result = .ok x) ∧
    (v.state = .nonNumeric → ∃ error, (v.bind block sheet).result = .error error) := by
  unfold bind
  dsimp only
  rw [adopt_of_isOpen_eq_false hv]
  constructor
  · intro x type hstate
    rw [hstate]
  · intro hstate
    rw [hstate]
    exact exists_error_of_number (by simp [hstate]) sheet

theorem unaffected_of_closed {outcome : Outcome ν (Style.Entry ν) (Effect ν)}
    (h : Pass v sheet outcome) (hv : v.state.isOpen = false) :
    outcome.subject = v ∧ outcome.sheet = sheet := by
  cases h with
  | closed | failed => exact ⟨rfl, rfl⟩
  | adopted x type y type' effect notices hstate hread =>
    rw [hstate] at hv
    exact absurd hv.symm Bool.false_ne_true
  | finished pixels effect notices hopen =>
    rw [hv] at hopen
    exact absurd hopen Bool.false_ne_true
  | deferred x property axis effect notices hnumber haxis =>
    rw [isOpen_eq_isSome, hnumber] at hv
    exact absurd hv.symm Bool.false_ne_true

end ComputedValue

/-! ## All operations -/

namespace Operation

open ComputedValue (Pass pass_on)

variable {v : Style.Entry ν} {sheet : Sheet ν} {operation : Operation ν}

/-- The declarations that a writer can leave behind. -/
inductive Writes (v : Style.Entry ν) (sheet : Sheet ν) : Operation ν → Declaration ν → Prop
  | number (type value current) : v.primitive sheet = .ok current → current.type.isNumeric = true →
    Writes v sheet (.setNumber type value) (.ofPrimitive (.numeric value type))
  | string (text current primitive) : v.primitive sheet = .ok current →
    current.withString? text = some primitive →
    Writes v sheet (.setString text) (.ofPrimitive primitive)
  | text (text value) : Value.parse? text = .ok value →
    Writes v sheet (.setText text) ⟨Text.trimmed text, value⟩

/-- The outcomes of an operation. -/
inductive Acts (v : Style.Entry ν) (sheet : Sheet ν) (operation : Operation ν) :
    Outcome ν (Style.Entry ν) (Effect ν) → Prop
  | failed (error notices) : Acts v sheet operation ⟨.error error, v, sheet, notices⟩
  | passed (outcome) : operation.isPass = true → Pass v sheet outcome →
    Acts v sheet operation outcome
  | wrote (declaration notices) : Writes v sheet operation declaration →
    Acts v sheet operation
      ⟨.ok .done, v.refresh (sheet.write v.declaration declaration),
        sheet.write v.declaration declaration, notices⟩

theorem acts_on (operation : Operation ν) (v : Style.Entry ν) (sheet : Sheet ν) :
    Acts v sheet operation (operation.on v sheet) := by
  cases operation with
  | resolveAgainst | resolve | bind => exact .passed _ rfl (pass_on rfl v sheet)
  | setNumber type value =>
    unfold on ComputedValue.setNumber
    dsimp only
    cases hprimitive : v.primitive sheet with
    | error error => exact .failed error []
    | ok current =>
      dsimp only
      split_ifs with hnumeric
      · exact .wrote _ [] (.number type value current hprimitive hnumeric)
      · exact .failed _ []
  | setString text =>
    unfold on ComputedValue.setString
    dsimp only
    cases hprimitive : v.primitive sheet with
    | error error => exact .failed error []
    | ok current =>
      dsimp only
      cases hwith : current.withString? text with
      | none => exact .failed _ []
      | some primitive => exact .wrote _ [] (.string text current primitive hprimitive hwith)
  | setText text =>
    unfold on ComputedValue.setText Sheet.writeText
    dsimp only
    cases hparse : (Value.parse? text : Except (ValueError ν) (Value ν)) with
    | error error =>
      rw [read_eq_error hparse]
      exact .failed error _
    | ok value =>
      rw [read_eq_ok hparse]
      exact .wrote _ _ (.text text value hparse)

/-- **An operation that fails changes neither its value nor a declaration.** -/
theorem unchanged_of_error {error : ValueError ν}
    (h : (operation.on v sheet).result = .error error) :
    (operation.on v sheet).subject = v ∧ (operation.on v sheet).sheet = sheet := by
  have hacts := acts_on operation v sheet
  generalize operation.on v sheet = outcome at hacts h ⊢
  cases hacts with
  | failed => exact ⟨rfl, rfl⟩
  | passed outcome hoperation hpass =>
    cases hpass with
    | closed | failed => exact ⟨rfl, rfl⟩
    | adopted | finished | deferred => exact absurd h (by simp)
  | wrote => exact absurd h (by simp)

/-- An operation writes no declaration but that of its value: a pass writes pixels. -/
theorem sheet_on (operation : Operation ν) (v : Style.Entry ν) (sheet : Sheet ν) :
    (operation.on v sheet).sheet = sheet ∨
    ∃ declaration, (operation.on v sheet).sheet = sheet.write v.declaration declaration ∧
      ((∃ pixels, declaration = .ofPrimitive (.numeric pixels .px)) ∨
        Writes v sheet operation declaration) := by
  have hacts := acts_on operation v sheet
  generalize operation.on v sheet = outcome at hacts ⊢
  cases hacts with
  | failed => exact .inl rfl
  | passed outcome hoperation hpass =>
    cases hpass with
    | closed | failed | adopted | deferred => exact .inl rfl
    | finished pixels => exact .inr ⟨_, rfl, .inl ⟨_, rfl⟩⟩
  | wrote declaration notices hwrites => exact .inr ⟨declaration, rfl, .inr hwrites⟩

theorem subject_on (operation : Operation ν) (v : Style.Entry ν) (sheet : Sheet ν) :
    (operation.on v sheet).subject.declaration = v.declaration ∧
    (operation.on v sheet).subject.config = v.config ∧
    (operation.on v sheet).subject.context = v.context := by
  have hacts := acts_on operation v sheet
  generalize operation.on v sheet = outcome at hacts ⊢
  cases hacts with
  | failed => exact ⟨rfl, rfl, rfl⟩
  | passed outcome hoperation hpass => cases hpass <;> exact ⟨rfl, rfl, rfl⟩
  | wrote => exact ⟨rfl, rfl, rfl⟩

end Operation

end ComputedCss
