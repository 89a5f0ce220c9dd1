import ComputedCss.Number.Exact
import ComputedCss.Proofs.ComputedValue.Agreement
import ComputedCss.Proofs.ComputedValue.Bases
import ComputedCss.Proofs.ComputedValue.SoleHolder
import ComputedCss.Proofs.Value.Classified

/-!
# Numbers and their types

Only the numeric types carry a number. What is read keeps to this, and so does everything that is
done to a value and its copies, except that a number can be written in any type.

* `Value.Numeric`, `Computation.Numeric`: the numbers of a value and of a state have numeric types.
* `Holders.act`, `Holders.perform`: what is done to values over one declaration, copies included.
* `numeric_act`, `numeric_perform_iff`: a turn keeps the types numeric, unless it writes a number in another type.
* `isNumber_perform`: a declaration that says a number goes on to say one, and so to accept one.
* `numeric_of_perform`: both, for every value over a text that has been read.
-/

namespace ComputedCss

variable {ν : Type}

/-- Every number of the value has a numeric type. -/
def Value.Numeric (value : Value ν) : Prop :=
  ∀ p ∈ value.items, ∀ type ∈ p.types, type.isNumeric = true

/-- A computed number has a numeric type. -/
def Computation.Numeric (state : Computation ν) : Prop :=
  ∀ x type, state = .absolute x type → type.isNumeric = true

/-- The value is a number with a numeric type. -/
def Value.IsNumber (value : Value ν) : Prop :=
  ∃ x type, value = .single (.numeric x type) ∧ type.isNumeric = true

theorem ValueType.IsRead.isNumeric {type : ValueType} (h : type.IsRead) : type.isNumeric = true := by
  cases type with
  | number | percentage | dimension | unknownDimension => rfl
  | _ => exact absurd h (by simp [IsRead])

theorem Value.numeric_iff_of_number {x : ν} {type : ValueType} :
    (Value.single (.numeric x type)).Numeric ↔ type.isNumeric = true := by
  simp [Numeric, items, Primitive.types]

theorem Primitive.types_of_withString? {text : String} {p q : Primitive ν}
    (h : p.withString? text = some q) : q.types = [] := by
  cases p with
  | string | uri | ident | attr =>
    obtain rfl := Option.some.inj h
    rfl
  | _ => exact absurd h (by simp [withString?])

theorem Primitive.isNumeric_type {p : Primitive ν} (h : p.type.isNumeric = true) :
    ∃ x type, p = .numeric x type ∧ type.isNumeric = true := by
  cases p with
  | numeric x type => exact ⟨x, type, rfl, h⟩
  | _ => exact absurd h Bool.false_ne_true

variable [Scalar ν]

theorem Value.numeric_of_parse {text : String} {value : Value ν}
    (h : Value.parse? text = .ok value) : value.Numeric := by
  intro p hp type htype
  exact (((wellFormed_of_parse h).items p hp).types type htype).isNumeric

theorem Computation.numeric_ofValue {value : Value ν} (h : value.Numeric) (config : Config ν) :
    (ofValue config value).Numeric := by
  intro x type hstate
  cases value with
  | list items separator => exact absurd hstate (by simp [ofValue, Value.primitive?])
  | single p =>
    cases p with
    | numeric y type' =>
      have htype' : type'.isNumeric = true := Value.numeric_iff_of_number.mp h
      simp only [ofValue, Value.primitive?] at hstate
      split_ifs at hstate with hrelative
      split at hstate
      · obtain ⟨-, rfl⟩ := Computation.absolute.inj hstate
        rfl
      · obtain ⟨-, rfl⟩ := Computation.absolute.inj hstate
        exact htype'
    | _ => exact absurd hstate (by simp [ofValue, Value.primitive?])

/-! ## One operation -/

namespace ComputedValue

variable {v : Style.Entry ν} {sheet : Sheet ν} {type : ValueType} {x : ν}

omit [Scalar ν] in
theorem single_of_primitive {p : Primitive ν} (h : v.primitive sheet = .ok p) :
    (sheet.get v.declaration).value = .single p := by
  unfold primitive at h
  cases hvalue : (sheet.get v.declaration).value with
  | single q =>
    rw [hvalue] at h
    exact congrArg Value.single (Except.ok.inj h)
  | list items separator =>
    rw [hvalue] at h
    exact absurd h (by simp [Value.primitive?])

theorem setNumber_of_single {p : Primitive ν} (h : (sheet.get v.declaration).value = .single p)
    (type : ValueType) (x : ν) : v.setNumber type x sheet =
      if p.type.isNumeric then v.replaceBy (.numeric x type) sheet
      else .failed (.notNumeric p.type) v sheet := by
  unfold setNumber primitive
  rw [h]
  rfl

theorem setNumber_of_isNumber (h : (sheet.get v.declaration).value.IsNumber) (type : ValueType)
    (x : ν) : v.setNumber type x sheet = v.replaceBy (.numeric x type) sheet := by
  obtain ⟨y, unit, hvalue, hunit⟩ := h
  rw [setNumber_of_single hvalue]
  exact if_pos hunit

theorem setNumber_eq_ok_iff :
    (v.setNumber type x sheet).result = .ok () ↔ (sheet.get v.declaration).value.IsNumber := by
  refine ⟨fun h => ?_, fun h => by rw [setNumber_of_isNumber h]; rfl⟩
  cases hvalue : (sheet.get v.declaration).value with
  | list items separator =>
    unfold setNumber primitive at h
    rw [hvalue] at h
    exact absurd h (by simp [Value.primitive?, Outcome.failed])
  | single p =>
    rw [setNumber_of_single hvalue] at h
    split_ifs at h with hnumeric
    · obtain ⟨y, unit, rfl, hunit⟩ := Primitive.isNumeric_type hnumeric
      exact ⟨y, unit, rfl, hunit⟩
    · exact absurd h (by simp [Outcome.failed])

theorem numeric_of_writes {operation : Operation ν} {declaration : Declaration ν}
    (hwrites : operation.Writes v sheet declaration)
    (hoperation : ∀ type x, operation = .setNumber type x →
      (v.setNumber type x sheet).result = .ok () → type.isNumeric = true) :
    declaration.value.Numeric := by
  cases hwrites with
  | number type x current hcurrent hnumeric =>
    refine Value.numeric_iff_of_number.mpr (hoperation type x rfl ?_)
    rw [setNumber_of_single (single_of_primitive hcurrent), if_pos hnumeric]
    rfl
  | string text current primitive hcurrent hwith =>
    intro p hp type htype
    obtain rfl := List.mem_singleton.mp hp
    rw [Primitive.types_of_withString? hwith] at htype
    exact absurd htype List.not_mem_nil
  | text text value hparse => exact Value.numeric_of_parse hparse

theorem numeric_on (hstate : v.state.Numeric) (hsaid : (sheet.get v.declaration).value.Numeric)
    (hdeclared : v.declaration < sheet.declarations.length) {operation : Operation ν}
    (hoperation : ∀ type x, operation = .setNumber type x →
      (v.setNumber type x sheet).result = .ok () → type.isNumeric = true) :
    (operation.on v sheet).subject.state.Numeric ∧
      ((operation.on v sheet).sheet.get v.declaration).value.Numeric := by
  have hacts := Operation.acts_on operation v sheet
  generalize operation.on v sheet = outcome at hacts ⊢
  cases hacts with
  | failed => exact ⟨hstate, hsaid⟩
  | passed outcome hpasses hpass =>
    cases hpass with
    | closed | failed => exact ⟨hstate, hsaid⟩
    | adopted y type y' type' effect notices hrelative hread =>
      refine ⟨fun z unit hadopted => ?_, hsaid⟩
      obtain ⟨-, rfl⟩ := Computation.absolute.inj hadopted
      exact Computation.numeric_ofValue hsaid v.config _ _ hread
    | finished pixels effect notices hopen =>
      refine ⟨fun z unit hfinished => ?_, ?_⟩
      · obtain ⟨-, rfl⟩ := Computation.absolute.inj hfinished
        rfl
      · show ((sheet.write v.declaration _).get v.declaration).value.Numeric
        rw [Sheet.get_write_self hdeclared]
        exact Value.numeric_iff_of_number.mpr rfl
    | deferred => exact ⟨fun z unit hpending => absurd hpending (by simp), hsaid⟩
  | wrote declaration notices hwrites =>
    have hwritten : (sheet.write v.declaration declaration).get v.declaration = declaration :=
      Sheet.get_write_self hdeclared declaration
    have hnumeric := numeric_of_writes hwrites hoperation
    refine ⟨?_, hwritten.symm ▸ hnumeric⟩
    refine Computation.numeric_ofValue ?_ v.config
    exact hwritten.symm ▸ hnumeric

end ComputedValue

/-! ## Values over one declaration -/

/-- A turn in the life of a value and its copies. -/
inductive FamilyTurn (ι ν : Type) where
  /-- An operation on one of the values. -/
  | operate (i : ι) (operation : Operation ν)
  /-- A copy of one of the values, which takes the place of another. -/
  | copy (i j : ι)
  /-- Anything that is done to other declarations. -/
  | others (change : Sheet ν → Sheet ν)

variable {ι : Type}

/-- Whatever is done to other declarations leaves this one alone. -/
def FamilyTurn.Spares (id : DeclarationId) : FamilyTurn ι ν → Prop
  | .operate _ _ | .copy _ _ => True
  | .others change => (Turn.others change).Spares id

/-- Besides, the turn writes a number only in a numeric type, and a text only if it is that of a
number. -/
def FamilyTurn.KeepsNumber (id : DeclarationId) (turn : FamilyTurn ι ν) : Prop :=
  turn.Spares id ∧ ∀ i,
    (∀ type x, turn = .operate i (.setNumber type x) → type.isNumeric = true) ∧
    ∀ text (value : Value ν), turn = .operate i (.setText text) →
      Value.parse? text = .ok value → value.IsNumber

namespace Holders

variable [DecidableEq ι] {holders : Holders ι ν} {id : DeclarationId} {turn : FamilyTurn ι ν}

/-- What a turn leaves behind. -/
def act (holders : Holders ι ν) : FamilyTurn ι ν → Holders ι ν
  | .operate i operation =>
    let outcome := operation.on (holders.value i) holders.sheet
    ⟨Function.update holders.value i outcome.subject, outcome.sheet⟩
  | .copy i j =>
    let copied := (holders.value i).copy holders.sheet
    ⟨Function.update holders.value j copied.1, copied.2⟩
  | .others change => { holders with sheet := change holders.sheet }

/-- What some turns leave behind. -/
def perform (holders : Holders ι ν) (turns : List (FamilyTurn ι ν)) : Holders ι ν :=
  turns.foldl act holders

/-- The holders refer to one declaration, which is on the sheet. -/
structure Family (holders : Holders ι ν) (id : DeclarationId) : Prop where
  declared : id < holders.sheet.declarations.length
  refers : ∀ i, (holders.value i).declaration = id

/-- The numbers of the declaration and of the states have numeric types. -/
structure Numeric (holders : Holders ι ν) (id : DeclarationId) : Prop where
  said : (holders.sheet.get id).value.Numeric
  states : ∀ i, (holders.value i).state.Numeric

/-- The turn writes a number to the declaration in a type that has none. -/
def Mistypes (holders : Holders ι ν) (turn : FamilyTurn ι ν) : Prop :=
  ∃ i type x, turn = .operate i (.setNumber type x) ∧ type.isNumeric = false ∧
    ((holders.value i).setNumber type x holders.sheet).result = .ok ()

theorem family_act (h : holders.Family id) (hturn : turn.Spares id) :
    (holders.act turn).Family id := by
  cases turn with
  | operate i operation =>
    obtain ⟨hdeclaration, -⟩ := operation.subject_on (holders.value i) holders.sheet
    refine ⟨?_, (Function.forall_update_iff holders.value fun _ v => v.declaration = id).mpr
      ⟨hdeclaration.trans (h.refers i), fun j _ => h.refers j⟩⟩
    show id < (operation.on (holders.value i) holders.sheet).sheet.declarations.length
    rcases operation.sheet_on (holders.value i) holders.sheet with hsheet | ⟨declaration, hsheet, -⟩
    · rw [hsheet]
      exact h.declared
    · rw [hsheet]
      exact Nat.lt_of_lt_of_eq h.declared List.length_set.symm
  | copy i j =>
    exact ⟨h.declared, (Function.forall_update_iff holders.value fun _ v => v.declaration = id).mpr
      ⟨h.refers i, fun j _ => h.refers j⟩⟩
  | others change => exact ⟨(hturn holders.sheet h.declared).1, h.refers⟩

theorem said_of_setNumber {i : ι} {type : ValueType} {x : ν} (h : holders.Family id)
    (hresult : ((holders.value i).setNumber type x holders.sheet).result = .ok ()) :
    ((holders.act (.operate i (.setNumber type x))).sheet.get id).value = .single (.numeric x type) := by
  obtain rfl := h.refers i
  have hnumber := ComputedValue.setNumber_eq_ok_iff.mp hresult
  show (((holders.value i).setNumber type x holders.sheet).sheet.get _).value = _
  rw [ComputedValue.setNumber_of_isNumber hnumber]
  exact congrArg Declaration.value (Sheet.get_write_self h.declared _)

/-- **A turn keeps the types numeric, unless it writes a number in another type.** -/
theorem numeric_act (hfamily : holders.Family id) (hturn : turn.Spares id) (h : holders.Numeric id) :
    (holders.act turn).Numeric id ↔ ¬ holders.Mistypes turn := by
  constructor
  · rintro hnumeric ⟨i, type, x, rfl, htype, hresult⟩
    have hsaid := hnumeric.said
    rw [said_of_setNumber hfamily hresult, Value.numeric_iff_of_number, htype] at hsaid
    exact Bool.false_ne_true hsaid
  · intro hkeeps
    cases turn with
    | operate i operation =>
      obtain rfl := hfamily.refers i
      have htyped : ∀ type x, operation = .setNumber type x →
          ((holders.value i).setNumber type x holders.sheet).result = .ok () →
          type.isNumeric = true := by
        intro type x hoperation hresult
        by_contra htype
        exact hkeeps ⟨i, type, x, congrArg _ hoperation, by simpa using htype, hresult⟩
      have hon := ComputedValue.numeric_on (h.states i) h.said hfamily.declared htyped
      exact ⟨hon.2, (Function.forall_update_iff holders.value fun _ v => v.state.Numeric).mpr
        ⟨hon.1, fun j _ => h.states j⟩⟩
    | copy i j =>
      obtain rfl := hfamily.refers i
      exact ⟨h.said, (Function.forall_update_iff holders.value fun _ v => v.state.Numeric).mpr
        ⟨Computation.numeric_ofValue h.said _, fun j _ => h.states j⟩⟩
    | others change =>
      have hget := (hturn holders.sheet hfamily.declared).2
      exact ⟨show ((change holders.sheet).get id).value.Numeric from hget.symm ▸ h.said, h.states⟩

/-! ## Accepting numbers -/

theorem isNumber_act (hfamily : holders.Family id) (hturn : turn.KeepsNumber id)
    (h : (holders.sheet.get id).value.IsNumber) : ((holders.act turn).sheet.get id).value.IsNumber := by
  obtain ⟨hspares, hkeeps⟩ := hturn
  cases turn with
  | operate i operation =>
    obtain rfl := hfamily.refers i
    obtain ⟨hnumber, htext⟩ := hkeeps i
    show ((operation.on (holders.value i) holders.sheet).sheet.get _).value.IsNumber
    rcases operation.sheet_on (holders.value i) holders.sheet with
      hsame | ⟨declaration, hsheet, hwritten⟩
    · rw [hsame]
      exact h
    · rw [hsheet, Sheet.get_write_self hfamily.declared]
      rcases hwritten with ⟨pixels, rfl⟩ | hwrites
      · exact ⟨pixels, .px, rfl, rfl⟩
      · cases hwrites with
        | number type x current hcurrent hnumeric => exact ⟨x, type, rfl, hnumber type x rfl⟩
        | text text value hparse => exact htext text value rfl hparse
        | string text current primitive hcurrent hwith =>
          -- There is no text to replace where a number stands.
          obtain ⟨y, unit, hvalue, hunit⟩ := h
          obtain rfl := Value.single.inj
            (hvalue.symm.trans (ComputedValue.single_of_primitive hcurrent))
          exact absurd hwith (by simp [Primitive.withString?])
  | copy i j => exact h
  | others change =>
    have hget := (hspares holders.sheet hfamily.declared).2
    show ((change holders.sheet).get id).value.IsNumber
    rw [hget]
    exact h

theorem perform_append (holders : Holders ι ν) (before after : List (FamilyTurn ι ν)) :
    holders.perform (before ++ after) = (holders.perform before).perform after :=
  List.foldl_append

theorem family_perform (h : holders.Family id) {turns : List (FamilyTurn ι ν)}
    (hturns : ∀ turn ∈ turns, turn.Spares id) : (holders.perform turns).Family id := by
  induction turns generalizing holders with
  | nil => exact h
  | cons turn turns ih =>
    exact ih (family_act h (hturns turn List.mem_cons_self)) fun turn hmem =>
      hturns turn (List.mem_cons_of_mem _ hmem)

theorem isNumber_perform (hfamily : holders.Family id) {turns : List (FamilyTurn ι ν)}
    (hturns : ∀ turn ∈ turns, turn.KeepsNumber id) (h : (holders.sheet.get id).value.IsNumber) :
    ((holders.perform turns).sheet.get id).value.IsNumber := by
  induction turns generalizing holders with
  | nil => exact h
  | cons turn turns ih =>
    have hturn := hturns turn List.mem_cons_self
    exact ih (family_act hfamily hturn.1)
      (fun turn hmem => hturns turn (List.mem_cons_of_mem _ hmem)) (isNumber_act hfamily hturn h)

theorem numeric_perform_iff (hfamily : holders.Family id) (h : holders.Numeric id)
    {turns : List (FamilyTurn ι ν)} (hturns : ∀ turn ∈ turns, turn.Spares id) :
    (∀ n, (holders.perform (turns.take n)).Numeric id) ↔
      ∀ n turn, turns[n]? = some turn → ¬ (holders.perform (turns.take n)).Mistypes turn := by
  have hstep : ∀ n turn, turns[n]? = some turn →
      (holders.perform (turns.take n)).Numeric id →
      ((holders.perform (turns.take (n + 1))).Numeric id ↔
        ¬ (holders.perform (turns.take n)).Mistypes turn) := by
    intro n turn hturn hnumeric
    have hbefore : (holders.perform (turns.take n)).Family id :=
      family_perform hfamily fun turn hmem => hturns turn (List.mem_of_mem_take hmem)
    have hspares := hturns turn (List.mem_of_getElem? hturn)
    rw [List.take_add_one, hturn, perform_append]
    exact numeric_act hbefore hspares hnumeric
  constructor
  · intro hall n turn hturn
    exact (hstep n turn hturn (hall n)).mp (hall (n + 1))
  · intro hkeeps n
    induction n with
    | zero => exact h
    | succ n ih =>
      cases hturn : turns[n]? with
      | some turn => exact (hstep n turn hturn ih).mpr (hkeeps n turn hturn)
      | none =>
        -- There are no more turns.
        rw [List.take_add_one, hturn]
        simpa using ih

end Holders

/-- **A number has a numeric type as long as none is written in another.** Some values stand over a
declaration that has been read from a text. They are resolved, bound and written in any way, and
copied, while others do what they like to other declarations. Then the numbers of the declaration and
of the states have numeric types after every turn exactly when no number is written in another type,
and until then a value with a number has a numeric type. After a number has been written in a numeric
type every value accepts a number, as long as nobody writes the text of something else; after one in
another type none does. -/
theorem numeric_of_perform {ι : Type} [DecidableEq ι] {text : String} {sheet : Sheet ν}
    {id : DeclarationId} (hid : id < sheet.declarations.length)
    (hparse : Value.parse? text = .ok (sheet.get id).value) (context : ι → Option (Style ν))
    (config : ι → Config ν) {turns : List (FamilyTurn ι ν)}
    (hturns : ∀ turn ∈ turns, turn.Spares id) :
    let family : Holders ι ν :=
      ⟨fun i => (ComputedValue.ofDeclaration id (context i) (config i) sheet).1, sheet⟩
    let after := fun n => family.perform (turns.take n)
    ((∀ n, (after n).Numeric id) ↔
      ∀ n turn, turns[n]? = some turn → ¬ (after n).Mistypes turn) ∧
    (∀ n, (after n).Numeric id → ∀ i x, ((after n).value i).number (after n).sheet = .ok x →
      ∃ type, ((after n).value i).type (after n).sheet = .ok type ∧ type.isNumeric = true) ∧
    ∀ n i type x, (((after n).value i).setNumber type x (after n).sheet).result = .ok () →
      let written := (after n).act (.operate i (.setNumber type x))
      (type.isNumeric = true → ∀ later, (∀ turn ∈ later, turn.KeepsNumber id) → ∀ j type' x',
        (((written.perform later).value j).setNumber type' x' (written.perform later).sheet).result =
          .ok ()) ∧
      (type.isNumeric = false → ∀ j type' x',
        ((written.value j).setNumber type' x' written.sheet).result = .error (.notNumeric type)) := by
  intro family after
  have hfamily : ∀ n, (after n).Family id := fun n =>
    Holders.family_perform ⟨hid, fun _ => rfl⟩ fun turn hmem => hturns turn (List.mem_of_mem_take hmem)
  have hread : (sheet.get id).value.Numeric := Value.numeric_of_parse hparse
  refine ⟨Holders.numeric_perform_iff ⟨hid, fun _ => rfl⟩
    ⟨hread, fun i => Computation.numeric_ofValue hread (config i)⟩ hturns, ?_, ?_⟩
  · intro n hnumeric i x hnumber
    obtain ⟨hkind, type, hstate⟩ := ComputedValue.number_eq_ok.mp hnumber
    exact ⟨type, ComputedValue.type_of_absolute hkind hstate (after n).sheet,
      hnumeric.states i x type hstate⟩
  · intro n i type x hresult written
    have hsaid := Holders.said_of_setNumber (hfamily n) hresult
    have hwritten : written.Family id := Holders.family_act (hfamily n) trivial
    constructor
    · intro htype later hlater j type' x'
      have hlast : (written.perform later).Family id :=
        Holders.family_perform hwritten fun turn hmem => (hlater turn hmem).1
      refine ComputedValue.setNumber_eq_ok_iff.mpr ?_
      rw [hlast.refers j]
      exact Holders.isNumber_perform hwritten hlater ⟨x, type, hsaid, htype⟩
    · intro htype j type' x'
      have hvalue : (written.sheet.get (written.value j).declaration).value =
          .single (.numeric x type) := by
        rw [hwritten.refers j]
        exact hsaid
      rw [ComputedValue.setNumber_of_single hvalue]
      show (if type.isNumeric = true then _ else _ : Outcome ν (Style.Entry ν) Unit).result = _
      rw [htype]
      rfl

/-- A sheet with one length. -/
def fivePixels : Sheet Rat :=
  (Sheet.empty.add ⟨"5px", .single (.numeric 5 .px)⟩).2

/-- An angle is written to one of two values over it, and the other becomes a copy. -/
def angleCopied : List (FamilyTurn Bool Rat) :=
  [.operate true (.setNumber (.dimension .deg) 90), .copy true false]

theorem numeric_of_perform_angleCopied :
    let family : Holders Bool Rat :=
      ⟨fun _ => (ComputedValue.ofDeclaration 0 none .standard fivePixels).1, fivePixels⟩
    let last := family.perform angleCopied
    (last.value false).number last.sheet = .ok 90 ∧
      ∃ type, (last.value false).type last.sheet = .ok type ∧ type.isNumeric = true := by
  intro family last
  have hparse : Value.parse? "5px" = .ok (fivePixels.get 0).value := by with_unfolding_all rfl
  have hspares : ∀ turn ∈ angleCopied, turn.Spares 0 := by
    intro turn hmem
    simp only [angleCopied, List.mem_cons, List.not_mem_nil, or_false] at hmem
    rcases hmem with rfl | rfl <;> trivial
  obtain ⟨hnumeric, htypes, -⟩ := numeric_of_perform (by decide) hparse (fun _ => none)
    (fun _ => .standard) hspares
  refine ⟨rfl, htypes 2 (hnumeric.mpr ?_ 2) false 90 rfl⟩
  rintro n turn hturn ⟨i, type, x, rfl, htype, -⟩
  have hmem := List.mem_of_getElem? hturn
  simp only [angleCopied, List.mem_cons, List.not_mem_nil, or_false] at hmem
  rcases hmem with hsame | hsame
  · obtain ⟨-, hsame⟩ := FamilyTurn.operate.inj hsame
    obtain ⟨rfl, -⟩ := Operation.setNumber.inj hsame
    exact absurd htype (by decide)
  · exact absurd hsame (by simp)

/-- A length can be given the type of strings. It is still a number then, but it has no numeric type
and accepts no other number. -/
theorem not_numeric_fivePixels :
    let v : Style.Entry Rat := (ComputedValue.ofDeclaration 0 none .standard fivePixels).1
    let written := v.setNumber .string 7 fivePixels
    Value.parse? "5px" = .ok (fivePixels.get 0).value ∧ written.result = .ok () ∧
      written.subject.state = .absolute 7 .string ∧
      written.subject.number written.sheet = .ok 7 ∧
      written.subject.type written.sheet = .ok .string ∧ ValueType.string.isNumeric = false ∧
      (written.subject.setNumber .px 3 written.sheet).result = .error (.notNumeric .string) := by
  intro v written
  exact ⟨by with_unfolding_all rfl, rfl, rfl, rfl, rfl, rfl, rfl⟩

end ComputedCss
