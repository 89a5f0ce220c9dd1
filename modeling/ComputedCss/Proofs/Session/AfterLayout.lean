import ComputedCss.Proofs.Session.Answers
import ComputedCss.Proofs.Session.Typed

/-!
# After layout

Binding a style completes the values that stand on it. What the style looks up may stand on an
ancestor, which is bound to a containing block of its own, or is not bound.

* `Style.lookup?_bind`: what a style looks up after it has been bound.
* `eq_textIndent`: there is one property that is inherited and also waits for layout.
* `pending_after_layout`: so a text indent that is handed down is all that may still wait.
-/

namespace ComputedCss

variable {ν : Type}

theorem Property.eq_textIndent {property : Property} {axis : Axis}
    (hinherited : property.isInherited = true) (haxis : property.layoutAxis? = some axis) :
    property = .textIndent := by
  cases property with
  | textIndent => rfl
  | fontSize | lineHeight => exact absurd haxis (by simp [layoutAxis?])
  | _ => exact absurd hinherited Bool.false_ne_true

theorem Style.inherited_of_lookup? {style : Style ν} {property : Property} {v : Entry ν}
    (hown : style.own? property = none) (h : style.lookup? property = some v) :
    property.isInherited = true ∧ parentLookup? style.parent property = some v := by
  rw [lookup?_of_own?_eq_none hown] at h
  split at h
  · rename_i hinherited
    exact ⟨hinherited, h⟩
  · exact absurd h (by simp)

theorem ComputedValue.isPending_iff {v : Style.Entry ν} :
    v.isPending = true ↔ ∃ x property axis, v.state = .pendingLayout x property axis := by
  unfold isPending
  cases hstate : v.state with
  | pendingLayout x property axis => simp [Computation.isPending]
  | _ => simp [Computation.isPending]

variable [Scalar ν] {style : Style ν} {property : Property} {v : Style.Entry ν} {sheet : Sheet ν}

namespace Style

theorem own?_bind (block : ContainingBlock ν) (style : Style ν) (sheet : Sheet ν)
    (property : Property) :
    (style.bind block sheet).subject.own? property = (style.own? property).map (·.bound block) := by
  show (bindEach block style.properties sheet).subject.lookup property = _
  rw [(bindEach_spec block style.properties sheet).2]
  exact lookup_map (·.bound block) property style.properties

theorem lookup?_bind (block : ContainingBlock ν) (style : Style ν) (sheet : Sheet ν)
    (property : Property) :
    (style.bind block sheet).subject.lookup? property =
      match style.own? property with
      | some v => some (v.bound block)
      | none => style.lookup? property := by
  have hbound := own?_bind block style sheet property
  cases hown : style.own? property with
  | some v =>
    rw [hown] at hbound
    exact lookup?_of_own? hbound
  | none =>
    rw [hown] at hbound
    rw [lookup?_of_own?_eq_none hbound, lookup?_of_own?_eq_none hown]
    rfl

theorem pending_of_lookup?_bind
    (hline : ∀ ancestor, style.Lineage ancestor → ancestor.Sound sheet) (block : ContainingBlock ν)
    (h : (style.bind block sheet).subject.lookup? property = some v) (hpending : v.isPending = true) :
    property = .textIndent ∧ style.own? property = none ∧
      parentLookup? style.parent property = some v := by
  rw [lookup?_bind] at h
  cases hown : style.own? property with
  | some w =>
    rw [hown] at h
    obtain rfl := Option.some.inj h
    rw [ComputedValue.isPending_bound] at hpending
    exact absurd hpending Bool.false_ne_true
  | none =>
    rw [hown] at h
    obtain ⟨hinherited, hparent⟩ := inherited_of_lookup? hown h
    obtain ⟨ancestor, hancestor, hmem⟩ := mem_of_parentLookup? hparent
    have hstands := (hline ancestor hancestor).stands property v hmem
    obtain ⟨x, pending, axis, hstate⟩ := ComputedValue.isPending_iff.mp hpending
    rw [hstate] at hstands
    exact ⟨Property.eq_textIndent hinherited hstands.2, rfl, hparent⟩

end Style

theorem ComputedValue.typed_bound (h : v.Typed) (block : ContainingBlock ν) :
    (v.bound block).Typed := by
  unfold bound
  split
  · rename_i percentage pending axis hstate
    have hkind : v.kind = .scalar := h.scalar (by rw [hstate]; rfl)
    exact ⟨.inr hkind, fun x type hrelative => absurd hrelative (by simp)⟩
  · exact h

omit [Scalar ν] in
theorem ComputedValue.isPending_iff_number (h : v.Typed) (sheet : Sheet ν) :
    v.isPending = true ↔
      ∃ x property axis, v.number sheet = .error (.pendingLayout property x axis) := by
  rw [isPending_iff]
  constructor
  · rintro ⟨x, property, axis, hstate⟩
    have hkind : v.kind = .scalar := h.scalar (by rw [hstate]; rfl)
    refine ⟨x, property, axis, ?_⟩
    unfold number
    rw [requireScalar_eq, if_pos hkind, hstate]
    rfl
  · rintro ⟨x, property, axis, hnumber⟩
    rcases error_of_number hnumber with herror | ⟨y, type, -, herror⟩ |
      ⟨y, pending, other, hstate, -⟩ | ⟨type, -, herror⟩
    · exact absurd herror (by simp)
    · exact absurd herror (by simp)
    · exact ⟨y, pending, other, hstate⟩
    · exact absurd herror (by simp)

/-- **After layout only a text indent that is handed down still waits.** A style of a tree that has
been bound reports, for every property, nothing or a value that does not wait for layout. The one
exception is `text-indent`, when the style has none of its own and is handed down one that waits:
this one is reported as it was. A value waits exactly when asking for its number fails over the
containing block. -/
theorem pending_after_layout {steps : List (Step ν)}
    (hsteps : ∀ step ∈ steps, step.buildsStyles = true)
    (hstyle : (Session.empty.run steps).1.HasStyle style) (block : ContainingBlock ν) :
    let bound := style.bind block (Session.empty.run steps).1.sheet
    (∀ property, style.own? property = none →
      bound.subject.lookup? property = style.lookup? property) ∧
    ∀ property v, bound.subject.lookup? property = some v →
      (v.isPending = true ↔ property = .textIndent ∧ style.own? .textIndent = none ∧
        ∃ w, Style.parentLookup? style.parent .textIndent = some w ∧ w.isPending = true) ∧
      ((∃ x pending axis, v.number bound.sheet = .error (.pendingLayout pending x axis)) ↔
        v.isPending = true) := by
  have hsound : (Session.empty.run steps).1.Sound :=
    Session.sound_of_run hsteps Session.sound_empty
  have hline : ∀ ancestor, style.Lineage ancestor →
      ancestor.Sound (Session.empty.run steps).1.sheet := fun ancestor hancestor =>
    hsound ancestor (hstyle.of_lineage hancestor)
  intro bound
  refine ⟨fun property hown => ?_, fun property v hlookup => ⟨⟨fun hpending => ?_, ?_⟩, ?_⟩⟩
  · show (style.bind block _).subject.lookup? property = _
    rw [Style.lookup?_bind, hown]
  · obtain ⟨rfl, hown, hparent⟩ := Style.pending_of_lookup?_bind hline block hlookup hpending
    exact ⟨rfl, hown, v, hparent, hpending⟩
  · rintro ⟨rfl, hown, w, hparent, hpending⟩
    change (style.bind block _).subject.lookup? .textIndent = some v at hlookup
    rw [Style.lookup?_bind, hown] at hlookup
    obtain ⟨-, hsame⟩ := Style.inherited_of_lookup? hown hlookup
    rw [hparent] at hsame
    obtain rfl := Option.some.inj hsame
    exact hpending
  · have htyped : ∀ {w}, style.Has w → w.Typed := fun hw =>
      Session.typed_of_run steps (Session.holds_of_hasStyle hstyle hw)
    refine (ComputedValue.isPending_iff_number ?_ bound.sheet).symm
    change (style.bind block _).subject.lookup? property = some v at hlookup
    rw [Style.lookup?_bind] at hlookup
    cases hown : style.own? property with
    | some w =>
      rw [hown] at hlookup
      obtain rfl := Option.some.inj hlookup
      exact ComputedValue.typed_bound (htyped (Style.has_of_own? hown)) block
    | none =>
      rw [hown] at hlookup
      exact htyped (Style.has_of_lookup? hlookup)

/-- A page with a text indent that waits for layout, and a box in it with a value of its own. -/
def indentOnPage : List (Step Rat) :=
  [.root "page" .standard, .derive "page" .textIndent "50%", .child "box" "page",
    .derive "box" .left "50%"]

theorem pending_after_layout_indentOnPage :
    let session := (Session.empty.run indentOnPage).1
    let block : ContainingBlock Rat := ⟨1000, 400⟩
    ∃ box v, session.style? "box" = some box ∧
      (box.bind block session.sheet).subject.lookup? .left = some v ∧ v.isPending = false := by
  intro session block
  have hbox : ((session.style? "box").bind fun box =>
      (box.bind block session.sheet).subject.lookup? .left).isSome = true := by decide +kernel
  obtain ⟨v, hv⟩ := Option.isSome_iff_exists.mp hbox
  obtain ⟨box, hstyle, hlookup⟩ := Option.bind_eq_some_iff.mp hv
  have hsteps : ∀ step ∈ indentOnPage, step.buildsStyles = true := by decide
  have hhas : session.HasStyle box := Session.hasStyle_of_style? hstyle .self
  obtain ⟨-, hreported⟩ := pending_after_layout hsteps hhas block
  refine ⟨box, v, hstyle, hlookup, Bool.eq_false_iff.mpr fun hpending => ?_⟩
  obtain ⟨hindent, -⟩ := (hreported .left v hlookup).1.mp hpending
  exact absurd hindent (by decide)

/-- The box still reports the text indent of the page as a percentage of some block. -/
theorem waits_after_layout_indentOnPage :
    let session := (Session.empty.run indentOnPage).1
    let block : ContainingBlock Rat := ⟨1000, 400⟩
    ∃ box v, session.style? "box" = some box ∧ (box.bind block session.sheet).result = .ok 1 ∧
      (box.bind block session.sheet).subject.lookup? .textIndent = some v ∧
      v.state = .pendingLayout 50 .textIndent .width ∧
      v.number (box.bind block session.sheet).sheet =
        .error (.pendingLayout .textIndent 50 .width) := by
  intro session block
  have hbox : ∃ (box : Style Rat) (v : Style.Entry Rat), session.style? "box" = some box ∧
      (box.bind block session.sheet).result = .ok 1 ∧
      (box.bind block session.sheet).subject.lookup? .textIndent = some v ∧ v.kind = .scalar ∧
      v.state = .pendingLayout 50 .textIndent .width :=
    ⟨_, _, by with_unfolding_all rfl, by with_unfolding_all rfl, by with_unfolding_all rfl,
      by with_unfolding_all rfl, by with_unfolding_all rfl⟩
  obtain ⟨box, v, hstyle, hcount, hlookup, hkind, hstate⟩ := hbox
  refine ⟨box, v, hstyle, hcount, hlookup, hstate, ?_⟩
  unfold ComputedValue.number
  rw [ComputedValue.requireScalar_eq, if_pos hkind, hstate]
  rfl

end ComputedCss
