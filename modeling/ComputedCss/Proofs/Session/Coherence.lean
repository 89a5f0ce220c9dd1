import ComputedCss.Number.Exact
import ComputedCss.Proofs.ComputedValue.Coherent
import ComputedCss.Proofs.Session.Holders

/-!
# Coherence in every run

* `invariant_coherent`: what is read is coherent, and every operation keeps it so.
* `coherent_of_run`: every value that a run leaves behind is coherent, and the errors about units
  that are no lengths do not come up.
-/

namespace ComputedCss

variable {ν : Type} [Scalar ν]

namespace ComputedValue

theorem coherent_on (hfloor : ∀ x : ν, Scalar.floor (Scalar.floor x) = Scalar.floor x)
    {v : Style.Entry ν} (hv : v.Coherent) (operation : Operation ν) (sheet : Sheet ν) :
    (operation.on v sheet).subject.Coherent := by
  cases operation with
  | resolveAgainst parent property => exact coherent_resolveAgainst hfloor hv parent property sheet
  | resolve property => exact coherent_resolveAgainst hfloor hv v.context property sheet
  | bind block => exact coherent_bind hfloor hv block sheet
  | setNumber type value => exact coherent_setNumber hfloor hv type value sheet
  | setString text => exact coherent_setString hfloor hv text sheet
  | setText text => exact coherent_setText hfloor hv text sheet

theorem invariant_coherent (hfloor : ∀ x : ν, Scalar.floor (Scalar.floor x) = Scalar.floor x) :
    Invariant (ν := ν) Coherent where
  made := coherent_ofDeclaration hfloor
  kept := coherent_on hfloor

end ComputedValue

/-- **Every computed value is coherent, however its declaration is shared.** The run makes values,
copies them, wraps their declarations again, and resolves and writes them in any order. -/
theorem coherent_of_run (hfloor : ∀ x : ν, Scalar.floor (Scalar.floor x) = Scalar.floor x)
    (steps : List (Step ν)) {v : Style.Entry ν} (h : (Session.empty.run steps).1.Holds v) :
    v.Coherent ∧
    (∀ parent property sheet type,
      (v.resolveAgainst parent property sheet).result ≠ .error (.unsupportedUnit type)) ∧
    (∀ target sheet type, v.numberIn target sheet ≠ .error (.unsupportedUnit type)) := by
  have hcoherent : v.Coherent := (ComputedValue.invariant_coherent hfloor).of_run steps h
  refine ⟨hcoherent, fun parent property sheet type => ?_, fun target sheet type => ?_⟩
  · exact ComputedValue.resolveAgainst_ne_unsupportedUnit hfloor hcoherent parent property sheet type
  · exact ComputedValue.numberIn_ne_unsupportedUnit target type

/-- A percentage under two holders, one of which binds it. -/
def sharedPercentage : List (Step Rat) :=
  [.new "first" "50%" .standard none, .wrap "second" (.value "first") .standard none,
    .resolve (.value "first") .height, .bind (.value "first") ⟨1000, 401⟩,
    .resolve (.value "second") .height]

theorem coherent_of_shared_percentage :
    ∃ v, (Session.empty.run sharedPercentage).1.values.lookup "second" = some v ∧ v.Coherent := by
  have hsome : ((Session.empty.run sharedPercentage).1.values.lookup "second").isSome = true := by
    decide +kernel
  obtain ⟨v, hv⟩ := Option.isSome_iff_exists.mp hsome
  have hholds : (Session.empty.run sharedPercentage).1.Holds v := .inl ⟨"second", mem_of_lookup hv⟩
  exact ⟨v, hv, (coherent_of_run Exact.floor_floor sharedPercentage hholds).1⟩

end ComputedCss
