import ComputedCss.Number.Exact
import ComputedCss.Proofs.Session.Layout
import ComputedCss.Proofs.Session.Styles
import ComputedCss.Proofs.Style.Binding

/-!
# Binding a style

The values of a style may have come there in any way, over declarations that they share with each
other and with anyone else. Binding the style completes what waits for layout and nothing else.

* `bound_exactly_pending`: the count, what becomes of each value, and that a second binding does
  nothing.
-/

namespace ComputedCss

variable {ν : Type} [Scalar ν] {style : Style ν} {order : List Property}

/-- **Binding a style completes exactly what waits for layout.** The style may have come about by any
steps, and others may have written the declarations of its values. In whatever order the values are
taken, binding them does not fail and counts those that were pending. Each of these becomes the
number of pixels that its own percentage, axis and settings make of the block, and the other values
stay as they are. A second binding, to any block, does nothing. -/
theorem bound_exactly_pending (steps : List (Step ν))
    (hstyle : (Session.empty.run steps).1.HasStyle style)
    (horder : order.Perm (style.properties.map Prod.fst)) (block : ContainingBlock ν)
    (sheet : Sheet ν) :
    let bound := style.bindIn block order sheet
    bound.result = .ok style.pending.length ∧ bound.subject.pending = [] ∧
    (∀ property v, style.own? property = some v →
      ∃ w, bound.subject.own? property = some w ∧ w.config = v.config ∧
        (∀ percentage pending axis, v.state = .pendingLayout percentage pending axis →
          w.state = .absolute (v.config.snap (percentage / 100.0 * block.dimension axis)) .px) ∧
        (v.isPending = false → w = v)) ∧
    (∀ property, style.own? property = none → bound.subject.own? property = none) ∧
    (∀ block' order',
      bound.subject.bindIn block' order' bound.sheet = ⟨.ok 0, bound.subject, bound.sheet, []⟩) ∧
    style.bind block sheet = style.bindIn block (style.properties.map Prod.fst) sheet := by
  intro bound
  have hkeys := Session.keys_of_run steps hstyle
  have hown : ∀ property, bound.subject.own? property = (style.own? property).map (·.bound block) :=
    Style.own?_bindIn_of_perm horder block sheet
  have hsettled : ∀ property w, bound.subject.own? property = some w → w.isPending = false := by
    intro property w hw
    rw [hown] at hw
    obtain ⟨v, -, rfl⟩ := Option.map_eq_some_iff.mp hw
    exact ComputedValue.isPending_bound block v
  refine ⟨?_, ?_, fun property v hv => ?_, fun property hnone => ?_,
    fun block' order' => ?_, ?_⟩
  · rw [Style.result_bindIn (horder.symm.nodup hkeys) block style sheet, horder.countP_eq,
      Style.countP_pendsOn hkeys]
  · have hsubject : (bound.subject.properties.map Prod.fst).Nodup :=
      (Style.keys_bindIn block order style sheet).symm ▸ hkeys
    exact Style.pending_eq_nil hsubject hsettled
  · refine ⟨v.bound block, ?_, ComputedValue.config_bound v block, ?_, ?_⟩
    · rw [hown, hv]
      rfl
    · intro percentage pending axis hstate
      exact ComputedValue.state_bound hstate block
    · intro hpending
      exact ComputedValue.bound_of_not_isPending hpending block
  · rw [hown, hnone]
    rfl
  · exact Style.bindIn_of_settled hsettled block' order' bound.sheet
  · exact (Style.bindIn_stored hkeys block sheet).symm

/-- A page into which two values have been moved that wait for layout over one declaration. -/
def halvesInserted : List (Step Rat) :=
  [.new "half" "50%" .standard none, .copy "other" (.value "half"),
    .resolve (.value "half") .height, .resolve (.value "other") .left, .root "page" .standard,
    .insert "page" .height "half", .insert "page" .left "other"]

/-- Each half is taken of its own axis, though the declaration is written twice. -/
theorem bound_exactly_pending_halvesInserted :
    let session := (Session.empty.run halvesInserted).1
    let order := [Property.left, .fontSize, .height]
    let block : ContainingBlock Rat := ⟨1000, 400⟩
    ∃ style, session.style? "page" = some style ∧
      (style.bindIn block order session.sheet).result = .ok 2 ∧
      (∃ w, (style.bindIn block order session.sheet).subject.own? .left = some w ∧
        w.state = .absolute 500 .px) ∧
      ∃ w, (style.bindIn block order session.sheet).subject.own? .height = some w ∧
        w.state = .absolute 200 .px := by
  intro session order block
  have hpage : ∃ (style : Style Rat) (half other : Style.Entry Rat),
      session.style? "page" = some style ∧
      style.properties.map Prod.fst = [.fontSize, .height, .left] ∧ style.pending.length = 2 ∧
      style.own? .height = some half ∧ style.own? .left = some other ∧
      half.state = .pendingLayout 50 .height .height ∧
      other.state = .pendingLayout 50 .left .width ∧
      half.config = .standard ∧ other.config = .standard :=
    ⟨_, _, _, by with_unfolding_all rfl, by with_unfolding_all rfl, by with_unfolding_all rfl,
      by with_unfolding_all rfl, by with_unfolding_all rfl, by with_unfolding_all rfl,
      by with_unfolding_all rfl, by with_unfolding_all rfl, by with_unfolding_all rfl⟩
  obtain ⟨style, half, other, hstyle, hkeys, htwo, hhalf, hother, hhigh, hwide, hconfig, hconfig'⟩ :=
    hpage
  have horder : order.Perm (style.properties.map Prod.fst) := by
    rw [hkeys]
    decide
  obtain ⟨hresult, -, hvalues, -⟩ := bound_exactly_pending halvesInserted
    (Session.hasStyle_of_style? hstyle .self) horder block session.sheet
  obtain ⟨w, hw, -, hpixels, -⟩ := hvalues .left other hother
  obtain ⟨w', hw', -, hpixels', -⟩ := hvalues .height half hhalf
  have h500 : Config.standard.snap (50 / 100.0 * block.dimension .width : Rat) = 500 := by
    decide +kernel
  have h200 : Config.standard.snap (50 / 100.0 * block.dimension .height : Rat) = 200 := by
    decide +kernel
  refine ⟨style, hstyle, htwo ▸ hresult, ⟨w, hw, ?_⟩, w', hw', ?_⟩
  · rw [hpixels 50 .left .width hwide, hconfig', h500]
  · rw [hpixels' 50 .height .height hhigh, hconfig, h200]

end ComputedCss
