import ComputedCss.Proofs.ComputedValue.SoleHolder
import ComputedCss.Proofs.Session.Declared
import ComputedCss.Proofs.Session.Readings

/-!
# Reading what has been written

A writer replaces what the declaration says and reads it again. So what a value shows right after it
depends on nothing that the value has been before, and the reader that belongs to the writer gives
back what has been written.

* `Operation.exists_writes`: what a writer that succeeds leaves behind.
* `ComputedValue.IsRead.numberIn`: a number is read as it is written in the type it is written in.
* `read_after_write`: the three writers, for every value of a run.
-/

namespace ComputedCss

variable {ν : Type}

theorem Primitive.string?_of_withString? {text : String} {p q : Primitive ν}
    (h : p.withString? text = some q) : q.string? = some text ∧ q.type = p.type := by
  cases p with
  | string | uri | ident | attr =>
    obtain rfl := Option.some.inj h
    exact ⟨rfl, rfl⟩
  | _ => exact absurd h (by simp [withString?])

variable [Scalar ν]

/-! ## Values that show their declarations -/

namespace ComputedValue

variable {v : Style.Entry ν} {sheet : Sheet ν} {x : ν} {type : ValueType}

theorem IsRead.state_cases (h : v.IsRead sheet)
    (hsaid : (sheet.get v.declaration).value = .single (.numeric x type)) :
    (type.isRelative = true ∧ v.state = .relative x type) ∨
    (type.isRelative = false ∧ ∃ y type', v.state = .absolute y type') := by
  have hstate := h.state
  rw [hsaid] at hstate
  simp only [Computation.ofValue, Value.primitive?] at hstate
  by_cases hrelative : type.isRelative = true
  · rw [if_pos hrelative] at hstate
    exact .inl ⟨hrelative, hstate⟩
  · rw [if_neg hrelative] at hstate
    refine .inr ⟨by simpa using hrelative, ?_⟩
    split at hstate
    · exact ⟨_, _, hstate⟩
    · exact ⟨_, _, hstate⟩

theorem IsRead.numberIn (h : v.IsRead sheet)
    (hsaid : (sheet.get v.declaration).value = .single (.numeric x type)) :
    v.numberIn type sheet = .ok x := by
  have hkind : v.kind = .scalar := by rw [h.kind, hsaid]; rfl
  unfold ComputedValue.numberIn
  rw [requireScalar_eq, if_pos hkind]
  rcases h.state_cases hsaid with ⟨-, hstate⟩ | ⟨-, y, type', hstate⟩
  · rw [hstate]
    simp [Bind.bind, Except.bind, pure, Except.pure]
  · rw [hstate, primitive_eq_ok.mpr hsaid]
    simp [Bind.bind, Except.bind, pure, Except.pure, Option.filter]

theorem IsRead.requiresComputation (h : v.IsRead sheet)
    (hsaid : (sheet.get v.declaration).value = .single (.numeric x type)) :
    v.requiresComputation = type.isRelative := by
  unfold ComputedValue.requiresComputation
  rcases h.state_cases hsaid with ⟨hrelative, hstate⟩ | ⟨hplain, y, type', hstate⟩
  · rw [hstate, hrelative]
    rfl
  · rw [hstate, hplain]
    rfl

end ComputedValue

/-! ## Writers -/

namespace Operation

variable {v : Style.Entry ν} {sheet : Sheet ν} {operation : Operation ν}

theorem exists_writes (hoperation : operation.isPass = false)
    (hdeclared : v.declaration < sheet.declarations.length) {effect : Effect ν}
    (hresult : (operation.on v sheet).result = .ok effect) :
    ∃ declaration, Writes v sheet operation declaration ∧
      (operation.on v sheet).sheet.get v.declaration = declaration ∧
      (operation.on v sheet).subject = v.refresh (operation.on v sheet).sheet := by
  have hacts := acts_on operation v sheet
  generalize operation.on v sheet = outcome at hacts hresult ⊢
  cases hacts with
  | failed => exact absurd hresult (by simp)
  | passed outcome hpass => exact absurd (hoperation.symm.trans hpass) Bool.false_ne_true
  | wrote declaration notices hwrites =>
    exact ⟨declaration, hwrites, Sheet.get_write_self hdeclared declaration, rfl⟩

end Operation

namespace ComputedValue

variable {v : Style.Entry ν} {sheet : Sheet ν}

theorem read_setNumber (hdeclared : v.declaration < sheet.declarations.length) {type : ValueType}
    {x : ν} (hresult : (v.setNumber type x sheet).result = .ok ()) :
    let after := v.setNumber type x sheet
    after.subject.numberIn type after.sheet = .ok x ∧
      after.subject.specifiedType = some type ∧
      after.subject.requiresComputation = type.isRelative := by
  intro after
  have hon : ((Operation.setNumber type x).on v sheet).result = .ok .done :=
    congrArg (Except.map fun _ => Effect.done) hresult
  obtain ⟨declaration, hwrites, hget, hsubject⟩ := Operation.exists_writes rfl hdeclared hon
  have hafter : after.subject = v.refresh after.sheet := hsubject
  have hsaid : (after.sheet.get v.declaration).value = .single (.numeric x type) := by
    cases hwrites with
    | number => exact congrArg Declaration.value hget
  have hread : (v.refresh after.sheet).IsRead after.sheet := isRead_refresh v after.sheet
  rw [hafter]
  refine ⟨hread.numberIn hsaid, ?_, hread.requiresComputation hsaid⟩
  show (after.sheet.get v.declaration).value.primitive?.map Primitive.type = some type
  rw [hsaid]
  rfl

theorem read_setString (hdeclared : v.declaration < sheet.declarations.length) {text : String}
    (hresult : (v.setString text sheet).result = .ok ()) :
    let after := v.setString text sheet
    after.subject.string after.sheet = .ok text ∧
      ∃ before now, v.primitive sheet = .ok before ∧
        after.subject.primitive after.sheet = .ok now ∧ now.type = before.type := by
  intro after
  have hon : ((Operation.setString text).on v sheet).result = .ok .done :=
    congrArg (Except.map fun _ => Effect.done) hresult
  obtain ⟨declaration, hwrites, hget, hsubject⟩ := Operation.exists_writes rfl hdeclared hon
  have hafter : after.subject = v.refresh after.sheet := hsubject
  cases hwrites with
  | string _ before now hbefore hwith =>
    obtain ⟨hstring, htype⟩ := Primitive.string?_of_withString? hwith
    have hnow : (v.refresh after.sheet).primitive after.sheet = .ok now :=
      primitive_eq_ok.mpr (congrArg Declaration.value hget)
    rw [hafter]
    refine ⟨?_, before, now, hbefore, hnow, htype⟩
    simp [string, hnow, hstring, Bind.bind, Except.bind, pure, Except.pure]

theorem read_setText (hdeclared : v.declaration < sheet.declarations.length) {text : String}
    (hresult : (v.setText text sheet).result = .ok ()) :
    let after := v.setText text sheet
    ∃ value, Value.parse? text = .ok value ∧
      ∀ (other : Sheet ν) (id : DeclarationId) (context : Option (Style ν)),
        (other.get id).value = value →
        let fresh := (ofDeclaration id context v.config other).1
        after.subject.kind = fresh.kind ∧ after.subject.specifiedType = fresh.specifiedType ∧
          after.subject.state = fresh.state := by
  intro after
  have hon : ((Operation.setText text).on v sheet).result = .ok .done :=
    congrArg (Except.map fun _ => Effect.done) hresult
  obtain ⟨declaration, hwrites, hget, hsubject⟩ := Operation.exists_writes rfl hdeclared hon
  have hafter : after.subject = v.refresh after.sheet := hsubject
  cases hwrites with
  | text _ value hparse =>
    have hsaid : (after.sheet.get v.declaration).value = value := congrArg Declaration.value hget
    refine ⟨value, hparse, ?_⟩
    intro other id context hother fresh
    rw [hafter]
    show (after.sheet.get v.declaration).value.kind = (other.get id).value.kind ∧
      (after.sheet.get v.declaration).value.primitive?.map Primitive.type =
        (other.get id).value.primitive?.map Primitive.type ∧
      Computation.ofValue v.config (after.sheet.get v.declaration).value =
        Computation.ofValue v.config (other.get id).value
    rw [hsaid, hother]
    exact ⟨rfl, rfl, rfl⟩

end ComputedValue

/-- **What has been written is read.** A value of a run may be in any state, may share its declaration
and may not have seen what others have written there. Right after it has accepted a number, it reads
this number in the type of the number, and is left to be computed if this type is relative. Right
after it has accepted a text for its string, it reads this text, and its component has the type that
it has had. Right after it has accepted a text for its whole value, it shows what a new value shows
over what the text says. -/
theorem read_after_write (steps : List (Step ν)) {v : Style.Entry ν}
    (hv : (Session.empty.run steps).1.Holds v) :
    let sheet := (Session.empty.run steps).1.sheet
    (∀ type x, (v.setNumber type x sheet).result = .ok () →
      let after := v.setNumber type x sheet
      after.subject.numberIn type after.sheet = .ok x ∧
        after.subject.specifiedType = some type ∧
        after.subject.requiresComputation = type.isRelative) ∧
    (∀ text, (v.setString text sheet).result = .ok () →
      let after := v.setString text sheet
      after.subject.string after.sheet = .ok text ∧
        ∃ before now, v.primitive sheet = .ok before ∧
          after.subject.primitive after.sheet = .ok now ∧ now.type = before.type) ∧
    ∀ text, (v.setText text sheet).result = .ok () →
      let after := v.setText text sheet
      ∃ value, Value.parse? text = .ok value ∧
        ∀ (other : Sheet ν) (id : DeclarationId) (context : Option (Style ν)),
          (other.get id).value = value →
          let fresh := (ComputedValue.ofDeclaration id context v.config other).1
          after.subject.kind = fresh.kind ∧ after.subject.specifiedType = fresh.specifiedType ∧
            after.subject.state = fresh.state := by
  intro sheet
  have hdeclared : v.declaration < sheet.declarations.length := Session.declared_of_run steps v hv
  exact ⟨fun type x => ComputedValue.read_setNumber hdeclared,
    fun text => ComputedValue.read_setString hdeclared,
    fun text => ComputedValue.read_setText hdeclared⟩

/-- A width that another holder has written, and an address. -/
def widthAndImage : List (Step Float) :=
  [.new "width" "1em" .standard none, .wrap "other" (.value "width") .standard none,
    .setText (.value "other") "4px", .new "image" "url(a)" .standard none]

/-- The width has not seen that it is in pixels, which are not rounded for their reader. -/
theorem read_after_write_widthAndImage :
    ∃ v w, (Session.empty.run widthAndImage).1.Holds v ∧
      (Session.empty.run widthAndImage).1.Holds w ∧
      let sheet := (Session.empty.run widthAndImage).1.sheet
      v.state = .relative 1 (.dimension .em) ∧
      ((v.setNumber .px 2.5 sheet).result = .ok () ∧
        (v.setNumber .px 2.5 sheet).subject.numberIn .px (v.setNumber .px 2.5 sheet).sheet =
          .ok 2.5) ∧
      ((w.setString "b" sheet).result = .ok () ∧
        (w.setString "b" sheet).subject.string (w.setString "b" sheet).sheet = .ok "b") ∧
      (v.setText "red" sheet).result = .ok () ∧ (v.setText "red" sheet).subject.kind = .scalar := by
  obtain ⟨v, w, hv, hw, hstate, hnumber, hstring, htext⟩ :
      ∃ v w, (Session.empty.run widthAndImage).1.values.lookup "width" = some v ∧
        (Session.empty.run widthAndImage).1.values.lookup "image" = some w ∧
        let sheet := (Session.empty.run widthAndImage).1.sheet
        v.state = .relative 1 (.dimension .em) ∧
        (v.setNumber .px 2.5 sheet).result = .ok () ∧ (w.setString "b" sheet).result = .ok () ∧
        (v.setText "red" sheet).result = .ok () :=
    ⟨_, _, by with_unfolding_all rfl, by with_unfolding_all rfl, by with_unfolding_all rfl,
      by with_unfolding_all rfl, by with_unfolding_all rfl, by with_unfolding_all rfl⟩
  have hwidth : (Session.empty.run widthAndImage).1.Holds v := .value (mem_of_lookup hv)
  have himage : (Session.empty.run widthAndImage).1.Holds w := .value (mem_of_lookup hw)
  have hred : Value.parse? "red" = .ok (.single (.ident "red") : Value Float) := by
    with_unfolding_all rfl
  obtain ⟨value, hvalue, hkind⟩ := (read_after_write widthAndImage hwidth).2.2 "red" htext
  obtain rfl : Value.single (.ident "red") = value := Except.ok.inj (hred.symm.trans hvalue)
  refine ⟨v, w, hwidth, himage, hstate, ⟨hnumber, ?_⟩, ⟨hstring, ?_⟩, htext, ?_⟩
  · exact ((read_after_write widthAndImage hwidth).1 .px 2.5 hnumber).1
  · exact ((read_after_write widthAndImage himage).2.1 "b" hstring).1
  · exact (hkind ⟨[.ofPrimitive (.ident "red")], []⟩ 0 none rfl).1

end ComputedCss
