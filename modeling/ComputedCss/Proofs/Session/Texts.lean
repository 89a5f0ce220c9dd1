import ComputedCss.Proofs.Session.Writing
import ComputedCss.Proofs.Value.Faithful

/-!
# Texts and values in a run

However many holders a declaration has, and in whatever order they write it, its text is read as the
value that it shows.

* `Session.Respects`: what a step may not do to a declaration.
* `Session.written_of_step`, `Session.written_of_run`: what all other steps leave behind.
* `text_says_value`: every declaration of a run.
-/

namespace ComputedCss

namespace Session

section

variable {ν : Type} [Scalar ν]

/-- The step does not give a declaration a value without a text, nor a number in another type than
the standard ones, nor a text with a null character. It puts a text in the place of a string only. -/
def Respects (session : Session ν) (id : DeclarationId) : Step ν → Prop
  | .newFrom _ _ _ _ => id ≠ session.sheet.declarations.length
  | .writePrimitive target _ => ∀ v, session.read? target = some v → v.declaration ≠ id
  | .setNumber target type _ =>
    ∀ v, session.own? target = some v → v.declaration = id → type.IsStandard
  | .setString target text => ∀ v, session.own? target = some v → v.declaration = id →
    (∃ s, (session.sheet.get id).value = .single (.string s)) ∧ '\x00' ∉ text.toList
  | _ => True

variable {session : Session ν} {id : DeclarationId} {step : Step ν}

theorem written_of_says {declaration : Declaration ν} (hstep : session.Respects id step)
    (h : session.Says id step declaration) : declaration.Written := by
  cases h with
  | pixels x => exact .number x .px trivial
  | text text value hparse => exact .read text value hparse
  | value name value config context hid => exact absurd hid hstep
  | number target type x v hv hid => exact .number x type (hstep v hv hid)
  | string target text v current primitive hv hid hcurrent hwith =>
    obtain ⟨⟨s, hs⟩, hnull⟩ := hstep v hv hid
    -- The component that is there is a string, and so is the one that takes its place.
    have hstring : v.primitive session.sheet = .ok (.string s) := by
      unfold ComputedValue.primitive
      rw [hid, hs]
      rfl
    obtain rfl : Primitive.string s = current := Except.ok.inj (hstring.symm.trans hcurrent)
    obtain rfl : Primitive.string text = primitive := Option.some.inj hwith
    exact .string text hnull
  | primitive target primitive v hv hid => exact absurd hid (hstep v hv)

theorem written_of_step (hstep : session.Respects id step)
    (h : id < session.sheet.declarations.length → (session.sheet.get id).Written)
    (hid : id < (session.step step).1.sheet.declarations.length) :
    ((session.step step).1.sheet.get id).Written := by
  rcases (changes_of_step session step).get id hid with ⟨hold, hsame⟩ | hsays
  · rw [hsame]
    exact h hold
  · exact written_of_says hstep hsays

theorem written_of_run {steps : List (Step ν)}
    (hsteps : ∀ before step after, steps = before ++ step :: after →
      (session.run before).1.Respects id step)
    (h : id < session.sheet.declarations.length → (session.sheet.get id).Written)
    (hid : id < (session.run steps).1.sheet.declarations.length) :
    ((session.run steps).1.sheet.get id).Written := by
  induction steps generalizing session with
  | nil => exact h hid
  | cons step steps ih =>
    have hrest : ∀ before later after, steps = before ++ later :: after →
        ((session.step step).1.run before).1.Respects id later := by
      intro before later after hsplit
      have hrun := hsteps (step :: before) later after (congrArg (step :: ·) hsplit)
      exact hrun
    exact ih hrest (written_of_step (hsteps [] step steps rfl) h) hid

end

end Session

/-- **The text of a declaration and its value do not drift apart.** The declaration may be made by any
step, and have any number of holders that write, resolve and bind it. As long as the steps respect
it, its text is read as a value that equals its own; if it shows a number that has been written, this
number has to be finite, and its digits have to be read as that number. -/
theorem text_says_value {steps : List (Step Float)} {id : DeclarationId}
    (hid : id < (Session.empty.run steps).1.sheet.declarations.length)
    (hsteps : ∀ before step after, steps = before ++ step :: after →
      (Session.empty.run before).1.Respects id step)
    (hfinite : ∀ x type, (Session.empty.run steps).1.sheet.get id = .ofPrimitive (.numeric x type) →
      (Binary64.ofFloat x).isFinite = true)
    (hback : ∀ x type, (Session.empty.run steps).1.sheet.get id = .ofPrimitive (.numeric x type) →
      (Binary64.ofFloat x).isFinite = true → ReadsBack x) :
    ∃ w, Value.parse? ((Session.empty.run steps).1.sheet.get id).text = .ok w ∧
      (w == ((Session.empty.run steps).1.sheet.get id).value) = true := by
  have hnone : id < (Session.empty : Session Float).sheet.declarations.length →
      ((Session.empty : Session Float).sheet.get id).Written := fun h => absurd h (Nat.not_lt_zero id)
  exact (Session.written_of_run hsteps hnone hid).faithful hfinite hback

/-- A multiple of a font size under two holders, one of which writes a percentage. -/
def writtenOver : List (Step Float) :=
  [.new "width" " 1em " .standard none, .wrap "other" (.value "width") .standard none,
    .setNumber (.value "other") .percentage 12.5, .setText (.value "width") "url("]

theorem writtenOver_get :
    ((Session.empty.run writtenOver).1.sheet.get 0).text = "12.5%" ∧
      ((Session.empty.run writtenOver).1.sheet.get 0).value.primitive?.bind Primitive.number? =
        some 12.5 ∧
      0 < (Session.empty.run writtenOver).1.sheet.declarations.length := by
  decide +kernel

theorem respects_of_writtenOver : ∀ before step after, writtenOver = before ++ step :: after →
    (Session.empty.run before).1.Respects 0 step := by
  intro before step after hsplit
  have hmem : step ∈ writtenOver := hsplit ▸ List.mem_append_right before List.mem_cons_self
  simp only [writtenOver, List.mem_cons, List.not_mem_nil, or_false] at hmem
  rcases hmem with rfl | rfl | rfl | rfl
  case inr.inr.inl => exact fun _ _ _ => True.intro
  all_goals exact True.intro

theorem eq_of_writtenOver {x : Float} {type : ValueType}
    (h : (Session.empty.run writtenOver).1.sheet.get 0 = .ofPrimitive (.numeric x type)) :
    x = 12.5 := by
  have hnumber := writtenOver_get.2.1
  rw [h] at hnumber
  exact Option.some.inj hnumber

theorem text_says_value_writtenOver :
    let declaration := (Session.empty.run writtenOver).1.sheet.get 0
    declaration.text = "12.5%" ∧
      ∃ w, Value.parse? declaration.text = .ok w ∧ (w == declaration.value) = true := by
  have hfinite : (Binary64.ofFloat 12.5).isFinite = true := by decide +kernel
  have hback : ReadsBack (12.5 : Float) := ⟨⟨false, 125, -1⟩, by decide +kernel, by decide +kernel⟩
  obtain ⟨htext, -, hid⟩ := writtenOver_get
  refine ⟨htext, text_says_value hid respects_of_writtenOver ?_ ?_⟩
  · intro x type h
    rw [eq_of_writtenOver h]
    exact hfinite
  · intro x type h _
    rw [eq_of_writtenOver h]
    exact hback

end ComputedCss
