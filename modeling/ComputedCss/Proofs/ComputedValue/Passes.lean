import ComputedCss.Proofs.ComputedValue.Errors

/-!
# What the passes do

Everything that the style pass and the layout pass can do to a computed value, said once.

* `Computation.ofValue_cases`: the states of a value that has just been read.
* `stylePass_resolveAgainst`: the style pass does nothing, fails over the parent style, finishes, or
  leaves a percentage to layout.
* `bind_of_pendingLayout`: the layout pass finishes what waits for it.
-/

namespace ComputedCss

variable {ν : Type} [Scalar ν]

theorem Computation.ofValue_cases (config : Config ν) (value : Value ν) :
    Computation.ofValue config value = .nonNumeric ∨ value.kind = .scalar ∧
      ((∃ x type, type.isRelative = true ∧ Computation.ofValue config value = .relative x type) ∨
      (∃ pixels, Computation.ofValue config value = .absolute (config.snap pixels) .px) ∨
      (∃ x type, type.isRelative = false ∧ type.isAbsoluteLength = false ∧
        Computation.ofValue config value = .absolute x type)) := by
  cases value with
  | list items separator => exact .inl rfl
  | single p =>
    cases p with
    | numeric x type =>
      refine .inr ⟨rfl, ?_⟩
      by_cases hrelative : type.isRelative = true
      · refine .inl ⟨x, type, hrelative, ?_⟩
        show (if type.isRelative then _ else _) = _
        exact if_pos hrelative
      · rcases Length.toPixels_cases x type with ⟨-, pixels, hpixels⟩ | ⟨hlength, herror⟩
        · refine .inr (.inl ⟨pixels, (if_neg hrelative).trans ?_⟩)
          rw [hpixels]
        · have hplain : type.isRelative = false := by simpa using hrelative
          refine .inr (.inr ⟨x, type, hplain, hlength, (if_neg hrelative).trans ?_⟩)
          rw [herror]
    | _ => exact .inl rfl

namespace ComputedValue

variable {Context : Type} {v : Style.Entry ν} {sheet : Sheet ν}

/-- What the value has left to resolve is a percentage or a multiple of a font size. -/
def Resolvable (v : Style.Entry ν) : Prop :=
  ∀ x type, openNumber? v.state = some (x, type) → type.isRelative = true ∧ v.kind = .scalar

/-- The value shows what its declaration says. -/
structure IsRead (v : Style.Entry ν) (sheet : Sheet ν) : Prop where
  kind : v.kind = (sheet.get v.declaration).value.kind
  state : v.state = Computation.ofValue v.config (sheet.get v.declaration).value

theorem isRead_ofDeclaration (declaration : DeclarationId) (context : Option (Style ν))
    (config : Config ν) (sheet : Sheet ν) :
    (ofDeclaration declaration context config sheet).1.IsRead
      (ofDeclaration declaration context config sheet).2 :=
  ⟨rfl, rfl⟩

theorem IsRead.resolvable (hv : v.IsRead sheet) : v.Resolvable := by
  intro x type h
  rw [hv.state] at h
  rcases Computation.ofValue_cases v.config (sheet.get v.declaration).value with
    hnone | ⟨hkind, ⟨y, type', hrelative, hstate⟩ | ⟨pixels, hstate⟩ | ⟨y, type', -, -, hstate⟩⟩
  · rw [hnone] at h
    exact absurd h (by simp [openNumber?])
  · rw [hstate] at h
    obtain ⟨rfl, rfl⟩ : y = x ∧ type' = type := by simpa [openNumber?] using h
    exact ⟨hrelative, hv.kind.trans hkind⟩
  · rw [hstate] at h
    exact absurd h (by simp [openNumber?])
  · rw [hstate] at h
    exact absurd h (by simp [openNumber?])

theorem adopt_cases (v : Style.Entry ν) (sheet : Sheet ν) :
    v.adopt sheet = v ∨ ∃ y type' x type, v.state = .relative y type' ∧
      Computation.ofValue v.config (sheet.get v.declaration).value = .absolute x type ∧
      v.adopt sheet = { v with state := .absolute x type } := by
  unfold adopt
  split
  · rename_i y type' x type hstate hread
    exact .inr ⟨y, type', x, type, hstate, hread, rfl⟩
  · exact .inl rfl

theorem adopt_of_read {x y : ν} {type type' : ValueType} (hstate : v.state = .relative x type)
    (hread : Computation.ofValue v.config (sheet.get v.declaration).value = .absolute y type') :
    v.adopt sheet = { v with state := .absolute y type' } := by
  unfold adopt
  rw [hstate, hread]

theorem adopt_of_not_read
    (hread : ∀ y type', Computation.ofValue v.config (sheet.get v.declaration).value ≠
      .absolute y type') : v.adopt sheet = v := by
  rcases adopt_cases v sheet with h | ⟨-, -, y, type', -, hsaid, -⟩
  · exact h
  · exact absurd hsaid (hread y type')

theorem adopt_of_absolute {x : ν} {type : ValueType} (hstate : v.state = .absolute x type)
    (sheet : Sheet ν) : v.adopt sheet = v := by
  unfold adopt
  rw [hstate]

theorem declaration_adopt (v : Style.Entry ν) (sheet : Sheet ν) :
    (v.adopt sheet).declaration = v.declaration := by
  rcases adopt_cases v sheet with h | ⟨-, -, y, type', -, -, h⟩
  · rw [h]
  · rw [h]

theorem config_adopt (v : Style.Entry ν) (sheet : Sheet ν) :
    (v.adopt sheet).config = v.config := by
  rcases adopt_cases v sheet with h | ⟨-, -, y, type', -, -, h⟩
  · rw [h]
  · rw [h]

theorem IsRead.adopt_eq (hv : v.IsRead sheet) : v.adopt sheet = v := by
  rcases adopt_cases v sheet with h | ⟨y, type', x, type, hstate, hread, -⟩
  · exact h
  · rw [← hv.state, hstate] at hread
    exact absurd hread (by simp)

theorem adopt_of_isPending (hv : v.isPending = true) (sheet : Sheet ν) : v.adopt sheet = v := by
  rcases adopt_cases v sheet with h | ⟨y, type', x, type, hstate, -, -⟩
  · exact h
  · rw [isPending, hstate] at hv
    exact absurd hv Bool.false_ne_true

omit [Scalar ν] in
theorem not_isPending_of_openNumber? (h : openNumber? v.state = none) : v.isPending = false := by
  unfold isPending
  cases hstate : v.state with
  | pendingLayout percentage property axis =>
    rw [hstate] at h
    exact absurd h (by simp [openNumber?])
  | _ => rfl

/-! ## The style pass -/

/-- The outcomes of the style pass on a value that has nothing to adopt. -/
inductive StylePass (parent : Option (Style ν)) (property : Property) (v : Style.Entry ν)
    (sheet : Sheet ν) : Outcome ν (Style.Entry ν) (Resolution ν) → Prop
  | unchanged (notices) : openNumber? v.state = none →
    StylePass parent property v sheet ⟨.ok .unchanged, v, sheet, notices⟩
  | failed (error notices) : BasisError parent property sheet error →
    StylePass parent property v sheet ⟨.error error, v, sheet, notices⟩
  | resolved (pixels notices) : v.kind = .scalar →
    StylePass parent property v sheet
      ⟨.ok (.resolved (v.config.snap pixels)), (v.finish pixels sheet).subject,
        (v.finish pixels sheet).sheet, notices⟩
  | deferred (value axis notices) : property.layoutAxis? = some axis → v.kind = .scalar →
    StylePass parent property v sheet
      ⟨.ok (.pendingLayout property value axis),
        { v with state := .pendingLayout value property axis }, sheet, notices⟩

theorem stylePass_resolveAgainst (parent : Option (Style ν)) (property : Property)
    (hv : (v.adopt sheet).Resolvable) :
    StylePass parent property (v.adopt sheet) sheet (v.resolveAgainst parent property sheet) := by
  unfold resolveAgainst
  dsimp only
  cases hopen : openNumber? (v.adopt sheet).state with
  | none => exact .unchanged _ hopen
  | some number =>
    obtain ⟨value, type⟩ := number
    obtain ⟨hrelative, hkind⟩ := hv value type hopen
    dsimp only
    rcases basis_cases (v.adopt sheet).config parent property sheet value hrelative with
      ⟨error, herror, hparent⟩ | ⟨pixels, hpixels⟩ | ⟨axis, hlayout, -, haxis⟩
    · rw [show (basis _ parent property sheet value type).run.value = _ from herror]
      exact .failed error _ hparent
    · rw [show (basis _ parent property sheet value type).run.value = _ from hpixels]
      exact .resolved pixels _ hkind
    · rw [show (basis _ parent property sheet value type).run.value = _ from hlayout]
      exact .deferred value axis _ haxis hkind

/-! ## The layout pass -/

/-- A pending value, completed against its containing block. -/
def bound (block : ContainingBlock ν) (v : Style.Entry ν) : Style.Entry ν :=
  match v.state with
  | .pendingLayout percentage _ axis =>
    { v with
      state := .absolute (v.config.snap (percentage / 100.0 * block.dimension axis)) .px }
  | _ => v

theorem bound_of_not_isPending (hv : v.isPending = false) (block : ContainingBlock ν) :
    v.bound block = v := by
  unfold bound
  cases hstate : v.state with
  | pendingLayout percentage property axis =>
    rw [isPending, hstate] at hv
    exact absurd hv.symm Bool.false_ne_true
  | _ => rfl

theorem isPending_bound (block : ContainingBlock ν) (v : Style.Entry ν) :
    (v.bound block).isPending = false := by
  cases hv : v.isPending with
  | false => rw [bound_of_not_isPending hv, hv]
  | true =>
    unfold bound
    split
    · rfl
    · rename_i hnot
      unfold isPending Computation.isPending at hv
      split at hv
      · rename_i percentage pending axis hstate
        exact absurd hstate (hnot percentage pending axis)
      · exact absurd hv Bool.false_ne_true

theorem declaration_bound (v : Style.Entry ν) (block : ContainingBlock ν) :
    (v.bound block).declaration = v.declaration := by
  unfold bound
  split
  · rfl
  · rfl

theorem kind_bound (v : Style.Entry ν) (block : ContainingBlock ν) :
    (v.bound block).kind = v.kind := by
  unfold bound
  split
  · rfl
  · rfl

theorem bind_of_pendingLayout {percentage : ν} {property : Property} {axis : Axis}
    (hstate : v.state = .pendingLayout percentage property axis) (block : ContainingBlock ν)
    (sheet : Sheet ν) :
    let pixels := v.config.snap (percentage / 100.0 * block.dimension axis)
    v.bind block sheet =
      ⟨.ok pixels, v.bound block, sheet.write v.declaration (.ofPrimitive (.numeric pixels .px)),
        []⟩ := by
  have hv : v.isPending = true := by
    unfold isPending
    rw [hstate]
    rfl
  unfold bind
  dsimp only
  rw [adopt_of_isPending hv]
  simp only [finish, bound, hstate]

theorem bind_of_isPending (hv : v.isPending = true) (block : ContainingBlock ν) :
    ∃ pixels, ∀ sheet, v.bind block sheet =
      ⟨.ok pixels, v.bound block, sheet.write v.declaration (.ofPrimitive (.numeric pixels .px)),
        []⟩ := by
  cases hstate : v.state with
  | pendingLayout percentage property axis => exact ⟨_, bind_of_pendingLayout hstate block⟩
  | _ =>
    rw [isPending, hstate] at hv
    exact absurd hv Bool.false_ne_true

end ComputedValue

end ComputedCss
