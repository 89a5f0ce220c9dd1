import ComputedCss.Number.Double
import ComputedCss.Proofs.Session.Declared
import ComputedCss.Proofs.Session.Typed
import ComputedCss.Proofs.Style.Dependence

/-!
# A value and its copies

A copy starts from what the declaration says now; the value itself keeps what it read earlier. The
two are resolved alike as long as the declaration says a number that the value takes over, or still
says the number that the value has.

* `basis_eq_ok`: what a relative number amounts to does not depend on the sheet.
* `resolveAgainst_alike`: one relative number, resolved over two sheets.
* `resolveCopy_eq`, `resolveCopy_write_alike`: a value next to a copy, made now or earlier.
* `resolves_like_copy`: a value that is resolved after the others have written, next to its copy.
-/

namespace ComputedCss

variable {ν : Type} [Scalar ν]

namespace ComputedValue

/-! ## Bases -/

section

variable {config : Config ν} {parent : Option (Style ν)} {property : Property} {sheet : Sheet ν}

theorem fontSize_eq_ok {size : ν} (h : Reading.result (fontSize config parent sheet) = .ok size)
    (other : Sheet ν) : Reading.result (fontSize config parent other) = .ok size := by
  unfold fontSize at h ⊢
  split at h
  · rw [Reading.result_ofExcept] at h ⊢
    exact number_eq_ok.mpr (number_eq_ok.mp h)
  · exact h

omit [Scalar ν] in
theorem lineHeight_eq_ok {height : ν} (h : Reading.result (lineHeight parent sheet) = .ok height)
    (other : Sheet ν) : Reading.result (lineHeight parent other) = .ok height := by
  unfold lineHeight at h ⊢
  split at h
  · rw [Reading.result_ofExcept] at h ⊢
    exact number_eq_ok.mpr (number_eq_ok.mp h)
  · exact h

omit [Scalar ν] in
theorem length_eq_ok {r r' : Reading ν ν} {f : ν → ν} {b : Basis ν}
    (hr : ∀ y, r.result = .ok y → r'.result = .ok y)
    (h : Reading.result (r >>= fun y => pure (Basis.length (f y))) = .ok b) :
    Reading.result (r' >>= fun y => pure (Basis.length (f y))) = .ok b := by
  obtain ⟨y, hy, hb⟩ := Reading.result_bind_eq_ok.mp h
  exact Reading.result_bind_eq_ok.mpr ⟨y, hr y hy, hb⟩

theorem basis_eq_ok {x : ν} {type : ValueType} {b : Basis ν}
    (h : Reading.result (basis config parent property sheet x type) = .ok b) (other : Sheet ν) :
    Reading.result (basis config parent property other x type) = .ok b := by
  have hsize := fun y (hy : (fontSize config parent sheet).result = .ok y) => fontSize_eq_ok hy other
  have hheight := fun y (hy : (lineHeight parent sheet).result = .ok y) => lineHeight_eq_ok hy other
  unfold basis at h ⊢
  split at h
  · exact length_eq_ok hsize h
  · exact length_eq_ok hsize h
  · split at h
    · exact length_eq_ok hheight h
    · exact length_eq_ok hsize h
    · exact h
  · exact h

end

/-! ## One relative number -/

variable {v w : Style.Entry ν} {sheet other : Sheet ν}

theorem resolveAgainst_alike (hdeclaration : w.declaration = v.declaration)
    (hconfig : w.config = v.config) (hstate : (w.adopt other).state = (v.adopt sheet).state)
    (parent : Option (Style ν)) (property : Property) :
    let first := v.resolveAgainst parent property sheet
    let second := w.resolveAgainst parent property other
    (∀ resolution, first.result = .ok resolution ↔ second.result = .ok resolution) ∧
    first.subject.state = second.subject.state ∧
    ((first.sheet = sheet ∧ second.sheet = other) ∨
      ∃ declaration, first.sheet = sheet.write v.declaration declaration ∧
        second.sheet = other.write v.declaration declaration) := by
  have hsettings : (w.adopt other).config = (v.adopt sheet).config := by
    rw [config_adopt, config_adopt, hconfig]
  have hplace : (w.adopt other).declaration = (v.adopt sheet).declaration := by
    rw [declaration_adopt, declaration_adopt, hdeclaration]
  unfold resolveAgainst
  dsimp only
  rw [hstate]
  cases openNumber? (v.adopt sheet).state with
  | none => exact ⟨fun _ => .rfl, hstate.symm, .inl ⟨rfl, rfl⟩⟩
  | some number =>
    obtain ⟨x, type⟩ := number
    dsimp only
    rw [hsettings]
    cases hbasis : (basis (v.adopt sheet).config parent property sheet x type).run.value with
    | ok b =>
      have hother := basis_eq_ok hbasis other
      rw [show (basis _ parent property other x type).run.value = _ from hother]
      cases b with
      | length pixels =>
        unfold finish
        dsimp only [Outcome.map, Outcome.after]
        rw [hsettings, hplace, declaration_adopt]
        exact ⟨fun _ => .rfl, rfl, .inr ⟨_, rfl, rfl⟩⟩
      | layout axis => exact ⟨fun _ => .rfl, rfl, .inl ⟨rfl, rfl⟩⟩
    | error error =>
      cases hother : (basis (v.adopt sheet).config parent property other x type).run.value with
      | ok b =>
        -- What is known over one sheet is known over the other.
        have hknown := basis_eq_ok hother sheet
        rw [show Reading.result _ = _ from hbasis] at hknown
        exact absurd hknown (by simp)
      | error error' => exact ⟨fun _ => by simp, hstate.symm, .inl ⟨rfl, rfl⟩⟩

/-! ## Copies -/

/-- What a copy makes of the style pass, taken from what the declaration says now. -/
def resolveCopy (parent : Option (Style ν)) (property : Property) (v : Style.Entry ν)
    (sheet : Sheet ν) : Outcome ν (Style.Entry ν) (Resolution ν) :=
  (v.copy sheet).1.resolveAgainst parent property (v.copy sheet).2

/-- A copy shows what the declaration says, so it has nothing to take over. -/
theorem adopt_copy (v : Style.Entry ν) (sheet : Sheet ν) :
    (v.copy sheet).1.adopt (v.copy sheet).2 = (v.copy sheet).1 :=
  (isRead_ofDeclaration v.declaration v.context v.config sheet).adopt_eq

theorem resolveCopy_eq (hsame : (v.copy sheet).1.state = (v.adopt sheet).state)
    (parent : Option (Style ν)) (property : Property) :
    let own := v.resolveAgainst parent property sheet
    let copied := v.resolveCopy parent property sheet
    own.result = copied.result ∧ own.subject.state = copied.subject.state ∧
      own.sheet.declarations = copied.sheet.declarations := by
  have hadopted : ((v.copy sheet).1.adopt (v.copy sheet).2).state = (v.adopt sheet).state := by
    rw [adopt_copy, hsame]
  have hget : ∀ source w, Style.parentLookup? parent source = some w →
      (v.copy sheet).2.get w.declaration = sheet.get w.declaration := fun _ _ _ => rfl
  obtain ⟨hresult, hstate, -⟩ := resolveAgainst_congr hadopted rfl hget property
  obtain ⟨-, -, hsheets⟩ := resolveAgainst_alike (v := v) (w := (v.copy sheet).1) rfl rfl hadopted
    parent property
  refine ⟨hresult.symm, hstate.symm, ?_⟩
  rcases hsheets with ⟨hown, hcopied⟩ | ⟨declaration, hown, hcopied⟩
  · exact (congrArg Sheet.declarations hown).trans (congrArg Sheet.declarations hcopied).symm
  · exact (congrArg Sheet.declarations hown).trans (congrArg Sheet.declarations hcopied).symm

theorem resolveCopy_write_alike (hkeeps : v.adopt sheet = v) {declaration : Declaration ν}
    (hread : (v.copy (sheet.write v.declaration declaration)).1.state = v.state)
    (parent : Option (Style ν)) (property : Property) :
    let own := v.resolveAgainst parent property sheet
    let before := sheet.write v.declaration declaration
    let earlier := v.resolveCopy parent property before
    (∀ resolution, own.result = .ok resolution ↔ earlier.result = .ok resolution) ∧
    own.subject.state = earlier.subject.state ∧
    (own.sheet = sheet ∧ earlier.sheet.declarations = before.declarations ∨
      own.sheet.declarations = earlier.sheet.declarations) := by
  intro own before earlier
  have hsame : ((v.copy before).1.adopt (v.copy before).2).state = (v.adopt sheet).state := by
    rw [adopt_copy, hkeeps, hread]
  obtain ⟨hresult, hstate, hsheets⟩ := resolveAgainst_alike (v := v) (w := (v.copy before).1)
    rfl rfl hsame parent property
  refine ⟨hresult, hstate, ?_⟩
  rcases hsheets with ⟨hown, hcopied⟩ | ⟨written, hown, hcopied⟩
  · have hkept : earlier.sheet.declarations = (v.copy before).2.declarations :=
      congrArg Sheet.declarations hcopied
    exact .inl ⟨hown, hkept⟩
  · -- What is written replaces what the declaration said before.
    refine .inr ?_
    have hlist : earlier.sheet.declarations =
        (sheet.declarations.set v.declaration declaration).set v.declaration written :=
      congrArg Sheet.declarations hcopied
    rw [hlist, List.set_set]
    exact congrArg Sheet.declarations hown

theorem resolveAgainst_of_read {x y : ν} {type type' : ValueType}
    (hstate : v.state = .relative x type)
    (hread : Computation.ofValue v.config (sheet.get v.declaration).value = .absolute y type')
    (parent : Option (Style ν)) (property : Property) :
    ∃ notices, v.resolveAgainst parent property sheet =
      ⟨.ok .unchanged, { v with state := .absolute y type' }, sheet, notices⟩ := by
  unfold resolveAgainst
  dsimp only
  rw [adopt_of_read hstate hread]
  exact ⟨_, rfl⟩

end ComputedValue

/-- **Resolved like a copy.** A value was relative when it was last read, and others may have
written its declaration since. If the declaration says a number that is not relative, or still the
number of the value, then the style pass answers, leaves and writes the same for the value as for a
copy that is made now; over a number that is not relative it writes nothing. If the declaration says
anything else, the value is resolved from its own number, like a copy made when the declaration
still said it. -/
theorem resolves_like_copy (steps : List (Step ν)) {v : Style.Entry ν}
    (hv : (Session.empty.run steps).1.Holds v) {x : ν} {type : ValueType}
    (hstate : v.state = .relative x type) {sheet : Sheet ν}
    (hsheet : (Session.empty.run steps).1.sheet.declarations.length ≤ sheet.declarations.length)
    (parent : Option (Style ν)) (property : Property) :
    let said := Computation.ofValue v.config (sheet.get v.declaration).value
    let own := v.resolveAgainst parent property sheet
    let copied := v.resolveCopy parent property sheet
    (said = .relative x type ∨ (∃ y type', said = .absolute y type') →
      own.result = copied.result ∧ own.subject.state = copied.subject.state ∧
        own.sheet.declarations = copied.sheet.declarations) ∧
    (∀ y type', said = .absolute y type' →
      own.result = .ok .unchanged ∧ own.subject.state = said ∧ own.sheet = sheet) ∧
    ((∀ y type', said ≠ .absolute y type') →
      ∀ declaration, declaration.value = .single (.numeric x type) →
        let before := sheet.write v.declaration declaration
        let earlier := v.resolveCopy parent property before
        (∀ resolution, own.result = .ok resolution ↔ earlier.result = .ok resolution) ∧
        own.subject.state = earlier.subject.state ∧
        (own.sheet = sheet ∧ earlier.sheet.declarations = before.declarations ∨
          own.sheet.declarations = earlier.sheet.declarations)) := by
  intro said own copied
  have htyped : v.Typed := Session.typed_of_run steps hv
  have hdeclared : v.declaration < sheet.declarations.length :=
    Nat.lt_of_lt_of_le (Session.declared_of_run steps v hv) hsheet
  have hkeeps : (∀ y type', said ≠ .absolute y type') → v.adopt sheet = v :=
    ComputedValue.adopt_of_not_read
  refine ⟨fun hsaid => ?_, fun y type' hsaid => ?_, fun hsaid declaration hvalue => ?_⟩
  · refine ComputedValue.resolveCopy_eq ?_ parent property
    show said = _
    rcases hsaid with hsaid | ⟨y, type', hsaid⟩
    · rw [hkeeps (by simp [hsaid]), hsaid, hstate]
    · rw [ComputedValue.adopt_of_read hstate hsaid, hsaid]
  · obtain ⟨notices, hown⟩ := ComputedValue.resolveAgainst_of_read hstate hsaid parent property
    rw [show own = _ from hown]
    exact ⟨rfl, hsaid.symm, rfl⟩
  · refine ComputedValue.resolveCopy_write_alike (hkeeps hsaid) ?_ parent property
    show Computation.ofValue v.config ((sheet.write v.declaration declaration).get _).value = _
    rw [Sheet.get_write_self hdeclared, hvalue, hstate]
    exact if_pos (htyped.relative x type hstate)

/-- A value of one font size. -/
def oneFontSize : List (Step Float) :=
  [.new "first" "1em" .standard none]

/-- The sheet after another holder has written a length. -/
def lengthWritten : Sheet Float := ⟨[⟨"7px", .single (.numeric 7 .px)⟩], [none]⟩

/-- The sheet after another holder has written twice the font size. -/
def twiceWritten : Sheet Float := ⟨[⟨"2em", .single (.numeric 2 (.dimension .em))⟩], [none]⟩

/-- Over the length there is nothing to resolve. Over twice the font size, the value still becomes
one font size. -/
theorem resolves_like_copy_oneFontSize :
    ∃ v, (Session.empty.run oneFontSize).1.Holds v ∧
      (v.resolveAgainst none .fontSize lengthWritten).result = .ok .unchanged ∧
      (v.resolveAgainst none .fontSize lengthWritten).sheet = lengthWritten ∧
      (v.resolveAgainst none .fontSize twiceWritten).result = .ok (.resolved 16) := by
  have hfirst : ∃ v, (Session.empty.run oneFontSize).1.values.lookup "first" = some v ∧
      v.state = .relative 1 (.dimension .em) ∧
      Computation.ofValue v.config (lengthWritten.get v.declaration).value = .absolute 7 .px ∧
      Computation.ofValue v.config (twiceWritten.get v.declaration).value =
        .relative 2 (.dimension .em) ∧
      (v.resolveCopy none .fontSize (twiceWritten.write v.declaration
        ⟨"1em", .single (.numeric 1 (.dimension .em))⟩)).result = .ok (.resolved 16) :=
    ⟨_, by with_unfolding_all rfl, by with_unfolding_all rfl, by with_unfolding_all rfl,
      by with_unfolding_all rfl, by with_unfolding_all rfl⟩
  obtain ⟨v, hv, hstate, hlength, htwice, hcopied⟩ := hfirst
  have hholds : (Session.empty.run oneFontSize).1.Holds v := .value (mem_of_lookup hv)
  have hcount : (Session.empty.run oneFontSize).1.sheet.declarations.length = 1 := by
    decide +kernel
  obtain ⟨-, habsolute, -⟩ := resolves_like_copy oneFontSize hholds hstate
    (show _ ≤ lengthWritten.declarations.length from Nat.le_of_eq hcount) none .fontSize
  obtain ⟨hresult, -, hkept⟩ := habsolute 7 .px hlength
  obtain ⟨-, -, hother⟩ := resolves_like_copy oneFontSize hholds hstate
    (show _ ≤ twiceWritten.declarations.length from Nat.le_of_eq hcount) none .fontSize
  obtain ⟨hown, -, -⟩ := hother (by simp [htwice]) ⟨"1em", .single (.numeric 1 (.dimension .em))⟩ rfl
  exact ⟨v, hholds, hresult, hkept, (hown _).mpr hcopied⟩

/-- A value of one font size, the text of which another holder replaces by twice that. -/
def doubledByOther : List (Step Float) :=
  [.new "first" "1em" .standard none, .wrap "second" (.value "first") .standard none,
    .setText (.value "second") "2em"]

/-- The value becomes one font size, and a copy two. -/
theorem resolves_unlike_copy_doubledByOther :
    let session := (Session.empty.run doubledByOther).1
    ∃ v, session.read? (.value "first") = some v ∧ v.state = .relative 1 (.dimension .em) ∧
      (v.resolveAgainst none .fontSize session.sheet).result = .ok (.resolved 16) ∧
      (v.resolveCopy none .fontSize session.sheet).result = .ok (.resolved 32) :=
  ⟨_, by with_unfolding_all rfl, by with_unfolding_all rfl, by with_unfolding_all rfl,
    by with_unfolding_all rfl⟩

end ComputedCss
