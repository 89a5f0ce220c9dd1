import ComputedCss.Number.Double
import ComputedCss.Proofs.ComputedValue.Advancing
import ComputedCss.Proofs.Session.Typed

/-!
# Readings of a computed length

A length that has been computed can be read as the computed number and as a number of pixels. The
first reading looks at the state of the value only, the second one also at the declaration, which
other holders write.

* `numberIn_px`: the number of pixels.
* `Holder.absolute_run`: a number that has been computed stays.
* `readings_agree_iff`: when the two readings are the same.
-/

namespace ComputedCss

variable {ν : Type} [Scalar ν]

/-- The number of a component that is a number of pixels. -/
def Primitive.pixels? : Primitive ν → Option ν
  | .numeric x type => if type = .px then some x else none
  | _ => none

namespace ComputedValue

variable {v : Style.Entry ν} {sheet : Sheet ν} {pixels : ν}

omit [Scalar ν] in
theorem primitive_eq_ok {p : Primitive ν} : v.primitive sheet = .ok p ↔
    (sheet.get v.declaration).value = .single p := by
  unfold primitive
  cases (sheet.get v.declaration).value with
  | single q => simp [Value.primitive?]
  | list items separator => simp [Value.primitive?]

theorem numberIn_px (hkind : v.kind = .scalar) (hstate : v.state = .absolute pixels .px)
    (sheet : Sheet ν) :
    v.numberIn .px sheet = (v.primitive sheet).map fun p => p.pixels?.getD pixels := by
  unfold numberIn
  rw [requireScalar_eq, if_pos hkind, hstate]
  cases v.primitive sheet with
  | error error => rfl
  | ok p =>
    cases p with
    | numeric x type =>
      by_cases htype : type = .px
      · subst htype
        rfl
      · simp [Bind.bind, Except.bind, pure, Except.pure, Except.map, Option.filter,
          Primitive.pixels?, htype]
    | _ => rfl

theorem numberIn_px_eq_iff (hkind : v.kind = .scalar) (hstate : v.state = .absolute pixels .px)
    (sheet : Sheet ν) :
    v.numberIn .px sheet = .ok pixels ↔ ∃ p, (sheet.get v.declaration).value = .single p ∧
      ∀ x, p = .numeric x .px → x = pixels := by
  rw [numberIn_px hkind hstate]
  cases hprimitive : v.primitive sheet with
  | error error =>
    constructor
    · intro h
      exact absurd h (by simp [Except.map])
    · rintro ⟨p, hp, -⟩
      rw [primitive_eq_ok.mpr hp] at hprimitive
      exact absurd hprimitive (by simp)
  | ok p =>
    have hvalue : (sheet.get v.declaration).value = .single p := primitive_eq_ok.mp hprimitive
    have hmap : (Except.ok p : Except (ValueError ν) (Primitive ν)).map
        (fun p => p.pixels?.getD pixels) = .ok pixels ↔ p.pixels?.getD pixels = pixels := by
      simp [Except.map]
    rw [hmap, hvalue]
    constructor
    · intro h
      refine ⟨p, rfl, ?_⟩
      rintro x rfl
      simpa [Primitive.pixels?] using h
    · rintro ⟨q, hq, hpixels⟩
      obtain rfl := Value.single.inj hq
      cases p with
      | numeric x type =>
        by_cases htype : type = .px
        · subst htype
          simpa [Primitive.pixels?] using hpixels x rfl
        · simp [Primitive.pixels?, htype]
      | _ => rfl

end ComputedValue

/-! ## Runs -/

namespace Holder

variable {holder : Holder ν} {turns : List (Turn ν)}

theorem declaration_run (holder : Holder ν) (turns : List (Turn ν)) :
    (holder.run turns).value.declaration = holder.value.declaration := by
  refine of_run (P := fun later => later.value.declaration = holder.value.declaration)
    (Q := fun _ => True) ?_ (fun _ _ => trivial) rfl
  intro later turn _ h
  cases turn with
  | own operation => exact (operation.subject_on later.value later.sheet).1.trans h
  | others change => exact h

theorem typed_run (h : holder.value.Typed) (turns : List (Turn ν)) :
    (holder.run turns).value.Typed := by
  refine of_run (P := fun later => later.value.Typed) (Q := fun _ => True) ?_
    (fun _ _ => trivial) h
  intro later turn _ h
  cases turn with
  | own operation => exact ComputedValue.typed_on h operation later.sheet
  | others change => exact h

theorem absolute_run (h : holder.value.Typed) {x : ν} {type : ValueType}
    (hstate : holder.value.state = .absolute x type)
    (hturns : ∀ operation, Turn.own operation ∈ turns → operation.isPass = true) :
    (holder.run turns).value.state = .absolute x type ∧
      (holder.run turns).value.kind = .scalar := by
  have hcomplete : holder.value.state.isOpen = false := by rw [hstate]; rfl
  have hlater : (holder.run turns).value.state = .absolute x type :=
    ((holder.advances_run hturns).complete hcomplete).trans hstate
  refine ⟨hlater, (typed_run h turns).kind.resolve_left ?_⟩
  rw [hlater]
  simp

end Holder

/-- **The two readings of a computed length.** An operation has brought a value to a number of
pixels. As long as nothing is written through the value, this stays its computed number, whatever
the other holders do. Read in pixels it is the same number exactly if the declaration says one
component that is no other number of pixels. What the declaration says in pixels is read in its
place, and over a list nothing is read. -/
theorem readings_agree_iff (steps : List (Step ν)) {v : Style.Entry ν}
    (hv : (Session.empty.run steps).1.Holds v) {operation : Operation ν} (sheet : Sheet ν)
    {pixels : ν} (hpixels : (operation.on v sheet).subject.state = .absolute pixels .px)
    {turns : List (Turn ν)}
    (hturns : ∀ operation, Turn.own operation ∈ turns → operation.isPass = true) :
    let later := Holder.run ⟨(operation.on v sheet).subject, (operation.on v sheet).sheet⟩ turns
    let said := (later.sheet.get v.declaration).value
    later.value.number later.sheet = .ok pixels ∧
    (later.value.numberIn .px later.sheet = .ok pixels ↔
      ∃ p, said = .single p ∧ ∀ x, p = .numeric x .px → x = pixels) ∧
    (∀ x, said = .single (.numeric x .px) → later.value.numberIn .px later.sheet = .ok x) ∧
    ∀ items separator, said = .list items separator →
      later.value.numberIn .px later.sheet = .error (.kindMismatch .scalar) := by
  intro later said
  have htyped : (operation.on v sheet).subject.Typed :=
    ComputedValue.typed_on (Session.typed_of_run steps hv) operation sheet
  obtain ⟨hstate, hkind⟩ : later.value.state = .absolute pixels .px ∧ later.value.kind = .scalar :=
    Holder.absolute_run htyped hpixels hturns
  have hdeclaration : later.value.declaration = v.declaration :=
    (Holder.declaration_run _ turns).trans (operation.subject_on v sheet).1
  have hsaid : (later.sheet.get later.value.declaration).value = said := by rw [hdeclaration]
  refine ⟨ComputedValue.number_eq_ok.mpr ⟨hkind, .px, hstate⟩, ?_, ?_, ?_⟩
  · rw [ComputedValue.numberIn_px_eq_iff hkind hstate, hsaid]
  · intro x hx
    rw [ComputedValue.numberIn_px hkind hstate, ComputedValue.primitive_eq_ok.mpr (hsaid.trans hx)]
    simp [Except.map, Primitive.pixels?]
  · intro items separator hlist
    rw [ComputedValue.numberIn_px hkind hstate]
    unfold ComputedValue.primitive
    rw [hsaid, hlist]
    rfl

/-- A percentage of the height that waits for layout. -/
def halfOfHeight : List (Step Float) :=
  [.new "first" "50%" .standard none, .resolveAgainst "first" .height none]

/-- Another holder writes a length in points, and the value is asked for its number again. -/
def writtenInPoints : List (Turn Float) :=
  [.others (·.write 0 (.ofPrimitive (.numeric 12 (.dimension .pt)))), .own (.bind ⟨0, 400⟩)]

/-- Points are not taken for pixels. -/
theorem readings_agree_iff_writtenInPoints :
    ∃ v, (Session.empty.run halfOfHeight).1.Holds v ∧
      let outcome := (Operation.bind ⟨0, 1000⟩).on v (Session.empty.run halfOfHeight).1.sheet
      let later := Holder.run ⟨outcome.subject, outcome.sheet⟩ writtenInPoints
      later.value.number later.sheet = .ok 500 ∧ later.value.numberIn .px later.sheet = .ok 500 := by
  have hfirst : ∃ v, (Session.empty.run halfOfHeight).1.values.lookup "first" = some v ∧
      let outcome := (Operation.bind ⟨0, 1000⟩).on v (Session.empty.run halfOfHeight).1.sheet
      let later := Holder.run ⟨outcome.subject, outcome.sheet⟩ writtenInPoints
      outcome.subject.state = .absolute 500 .px ∧
        (later.sheet.get v.declaration).value = .single (.numeric 12 (.dimension .pt)) :=
    ⟨_, by with_unfolding_all rfl, by with_unfolding_all rfl, by with_unfolding_all rfl⟩
  obtain ⟨v, hv, hpixels, hpoints⟩ := hfirst
  have hholds : (Session.empty.run halfOfHeight).1.Holds v := .value (mem_of_lookup hv)
  have hturns : ∀ operation, Turn.own operation ∈ writtenInPoints → operation.isPass = true := by
    intro operation hmem
    simp only [writtenInPoints, List.mem_cons, List.not_mem_nil, Turn.own.injEq, or_false,
      reduceCtorEq, false_or] at hmem
    rw [hmem]
    rfl
  obtain ⟨hnumber, hagree, -⟩ := readings_agree_iff halfOfHeight hholds _ hpixels hturns
  refine ⟨v, hholds, hnumber, hagree.mpr ⟨_, hpoints, fun x hx => ?_⟩⟩
  exact absurd hx (by simp)

/-- Two copies of a percentage of the height, each bound to a block of its own. -/
def boundApart : List (Step Float) :=
  [.new "first" "50%" .standard none, .copy "second" (.value "first"),
    .resolve (.value "first") .height, .resolve (.value "second") .height,
    .bind (.value "first") ⟨0, 1000⟩, .bind (.value "second") ⟨0, 400⟩]

/-- The first copy keeps its number, and its number of pixels is that of the second one. -/
theorem readings_differ_boundApart :
    ∃ v, (Session.empty.run (boundApart.take 5)).1.read? (.value "first") = some v ∧
      v.state = .absolute 500 .px ∧
      let later := (Session.empty.run boundApart).1
      later.read? (.value "first") = some v ∧ v.number later.sheet = .ok 500 ∧
        v.numberIn .px later.sheet = .ok 200 := by
  refine ⟨_, by with_unfolding_all rfl, by with_unfolding_all rfl, by with_unfolding_all rfl,
    by with_unfolding_all rfl, by with_unfolding_all rfl⟩

end ComputedCss
