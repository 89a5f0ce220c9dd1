import ComputedCss.Proofs.ComputedValue.Operations
import ComputedCss.Proofs.Style.Sound

/-!
# What a resolution says about its value

A resolution answers with pixels, with a percentage that waits for layout, or with nothing to
resolve. The value that it leaves behind and the declaration of the value say the same.

* `Agrees`: what a resolution says about the value that it left behind.
* `agrees_derive`: a derivation establishes it.
* `agrees_bind`: the layout pass keeps it.
-/

namespace ComputedCss

variable {ν : Type} [Scalar ν]

/-- What a resolution says about the value that it left behind. -/
inductive Agrees (sheet : Sheet ν) (v : Style.Entry ν) : Resolution ν → Prop
  | resolved (pixels : ν) : v.kind = .scalar → v.state = .absolute pixels .px →
    sheet.get v.declaration = .ofPrimitive (.numeric pixels .px) → Agrees sheet v (.resolved pixels)
  | pendingLayout (property : Property) (percentage : ν) (axis : Axis) : v.kind = .scalar →
    v.state = .pendingLayout percentage property axis →
    v.declaration < sheet.declarations.length →
    Agrees sheet v (.pendingLayout property percentage axis)
  | unchanged : ComputedValue.openNumber? v.state = none → Agrees sheet v .unchanged

variable {v : Style.Entry ν} {sheet : Sheet ν} {resolution : Resolution ν}

theorem Agrees.state_of_pendingLayout {property : Property} {percentage : ν} {axis : Axis}
    (h : Agrees sheet v (.pendingLayout property percentage axis)) :
    v.state = .pendingLayout percentage property axis := by
  cases h with
  | pendingLayout _ _ _ _ hstate _ => exact hstate

theorem agrees_of_stylePass {parent : Option (Style ν)} {property : Property}
    {settled : Outcome ν (Style.Entry ν) (Resolution ν)}
    (hdeclared : v.declaration < sheet.declarations.length)
    (h : ComputedValue.StylePass parent property v sheet settled)
    (hresult : settled.result = .ok resolution) :
    Agrees settled.sheet settled.subject resolution := by
  cases h with
  | unchanged notices hopen =>
    obtain rfl := Except.ok.inj hresult
    exact .unchanged hopen
  | failed error notices herror => exact absurd hresult (by simp)
  | resolved pixels notices hkind =>
    obtain rfl := Except.ok.inj hresult
    exact .resolved _ hkind rfl (Sheet.get_write_self hdeclared _)
  | deferred percentage axis notices haxis hkind =>
    obtain rfl := Except.ok.inj hresult
    exact .pendingLayout _ _ _ hkind rfl hdeclared

/-- A derivation that succeeds sets a value that can stand under its property, and with which its
answer agrees. -/
theorem agrees_derive {style : Style ν} {property : Property} {text : String}
    (hparent : ∀ w, Style.parentLookup? style.parent property = some w →
      w.declaration < sheet.declarations.length)
    (h : (style.derive property text sheet).result = .ok resolution) :
    ∃ v, (style.derive property text sheet).subject.own? property = some v ∧
      v.state.Stands property ∧ Agrees (style.derive property text sheet).sheet v resolution := by
  have hderives := Style.derives property text style sheet
  generalize style.derive property text sheet = outcome at hderives h ⊢
  cases hderives with
  | unreadable error notices hparse => exact absurd h (by simp)
  | failed declaration settled error notices hpass hresult => exact absurd h (by simp)
  | set declaration settled resolution' notices hpass hresult =>
    obtain rfl := Except.ok.inj h
    exact ⟨settled.subject, Style.own?_set_self _ _ _, (Style.stands_of_stylePass hpass hresult).1,
      agrees_of_stylePass (Style.declared_drawn hparent) hpass hresult⟩

theorem agrees_bind (hkind : v.kind = .scalar) (hpending : v.isPending = true)
    (hdeclared : v.declaration < sheet.declarations.length) (block : ContainingBlock ν) :
    ∃ pixels, (v.bind block sheet).result = .ok pixels ∧
      Agrees (v.bind block sheet).sheet (v.bind block sheet).subject (.resolved pixels) ∧
      (v.bind block sheet).subject.isPending = false := by
  cases hstate : v.state with
  | pendingLayout percentage property axis =>
    rw [ComputedValue.bind_of_pendingLayout hstate block sheet]
    refine ⟨_, rfl, .resolved _ ?_ ?_ ?_, ComputedValue.isPending_bound block v⟩
    · rw [ComputedValue.kind_bound, hkind]
    · simp only [ComputedValue.bound, hstate]
    · rw [ComputedValue.declaration_bound]
      exact Sheet.get_write_self hdeclared _
  | _ =>
    rw [ComputedValue.isPending, hstate] at hpending
    exact absurd hpending Bool.false_ne_true

end ComputedCss
