import ComputedCss.Style.Derivation
import ComputedCss.Proofs.ComputedValue.Passes
import ComputedCss.Proofs.Value.Failures

/-!
# What deriving and binding do

Everything that a derivation can do to a style and to the sheet, said once, and the same for the
layout pass of a style.

* `Handover` is a way to take a value of the parent over, and `deriveBy` a derivation that does so.
* `drawn` is the value that a derivation resolves: what the text says, or a copy of the parent's.
* `derivesBy`, `derives`: a derivation fails over its text or over the parent, or sets the property.
* `bindEach_spec`: binding completes what is pending, counts it and does not fail.
* `bindEach_sheet`: it writes the declarations of what is pending, and no others.
-/

namespace ComputedCss

variable {ν : Type}

/-- The text has the keyword `inherit`. -/
def Declaration.inherits (declaration : Declaration ν) : Bool :=
  (Text.pieces (fun c => c == ',' || Text.isBlank c) declaration.text.toList).any fun word =>
    Text.caselessEq (String.ofList word) "inherit"

variable [Scalar ν]

theorem hasInherit_ofDeclaration {Context : Type} (declaration : Declaration ν)
    (context : Option Context) (config : Config ν) (sheet : Sheet ν) :
    (ComputedValue.ofDeclaration (sheet.add declaration).1 context config
      (sheet.add declaration).2).1.hasInherit (ComputedValue.ofDeclaration (sheet.add declaration).1
        context config (sheet.add declaration).2).2 = declaration.inherits := by
  show ((sheet.add declaration).2.get (sheet.add declaration).1).inherits = _
  rw [Sheet.get_add_self]

namespace Style

/-! ## Taking values over -/

/-- A way to take over a value of the parent. -/
abbrev Handover (ν : Type) := Entry ν → Sheet ν → Entry ν × Sheet ν

/-- The value to be resolved for a declaration: for `inherit` the parent's value, taken over, and
otherwise the value itself. -/
def inheritBy (take : Handover ν) (parent : Option (Style ν)) (property : Property) (v : Entry ν)
    (sheet : Sheet ν) : Noted (Entry ν × Sheet ν) :=
  if v.hasInherit sheet then
    match parentLookup? parent property with
    | some inherited => pure (take inherited sheet)
    | none => do
      Noted.tell (.warning ("'" ++ property.name ++ ": inherit' has no parent value to inherit"))
      pure (v, sheet)
  else pure (v, sheet)

/-- The value that such a derivation resolves, with the sheet on which it stands. -/
def drawnBy (take : Handover ν) (property : Property) (declaration : Declaration ν)
    (style : Style ν) (sheet : Sheet ν) : Noted (Entry ν × Sheet ν) :=
  let added := sheet.add declaration
  let v := ComputedValue.ofDeclaration added.1 style.parent style.config added.2
  inheritBy take style.parent property v.1 v.2

/-- The value that a declaration amounts to, resolved against the parent. -/
def settledBy (take : Handover ν) (property : Property) (declaration : Declaration ν)
    (style : Style ν) (sheet : Sheet ν) : Outcome ν (Entry ν) (Resolution ν) :=
  let drawing := (drawnBy take property declaration style sheet).value
  settle style.parent property drawing.1 drawing.2

/-- Computes a declaration that has been read, and sets the property. -/
def deriveReadBy (take : Handover ν) (property : Property) (declaration : Declaration ν)
    (style : Style ν) (sheet : Sheet ν) : Outcome ν (Style ν) (Resolution ν) :=
  let settled := settledBy take property declaration style sheet
  ⟨settled.result,
    match settled.result with
    | .ok _ => style.set property settled.subject
    | .error _ => style,
    settled.sheet, (drawnBy take property declaration style sheet).notices ++ settled.notices⟩

/-- Computes the declaration of a property and sets it, with the parent's values taken over in a given
way. -/
def deriveBy (take : Handover ν) (property : Property) (text : String) (style : Style ν)
    (sheet : Sheet ν) : Outcome ν (Style ν) (Resolution ν) :=
  let reading := (Declaration.read text).run
  match reading.value with
  | .error error => (Outcome.failed error style sheet).after reading.notices
  | .ok declaration =>
    (deriveReadBy take property declaration style sheet).after reading.notices

theorem deriveBy_copy : deriveBy (ν := ν) ComputedValue.copy = derive := by
  funext property text style sheet
  unfold deriveBy derive
  rfl

/-! ## The value that is resolved -/

/-- The value that the derivation of a declaration resolves, with the sheet on which it stands. -/
def drawn (property : Property) (declaration : Declaration ν) (style : Style ν) (sheet : Sheet ν) :
    Noted (Entry ν × Sheet ν) :=
  let added := sheet.add declaration
  let v := ComputedValue.ofDeclaration added.1 style.parent style.config added.2
  inherit style.parent property v.1 v.2

variable {take : Handover ν} {style : Style ν} {property : Property} {declaration : Declaration ν}
  {sheet : Sheet ν} {text : String}

theorem drawnBy_eq (take : Handover ν) (property : Property) (declaration : Declaration ν)
    (style : Style ν) (sheet : Sheet ν) :
    (drawnBy take property declaration style sheet).value =
      let read := ComputedValue.ofDeclaration (sheet.add declaration).1 style.parent style.config
        (sheet.add declaration).2
      if declaration.inherits then
        match parentLookup? style.parent property with
        | some w => take w read.2
        | none => read
      else read := by
  have hinherits := hasInherit_ofDeclaration declaration style.parent style.config sheet
  unfold drawnBy inheritBy
  dsimp only
  rw [hinherits]
  cases declaration.inherits with
  | false => rfl
  | true =>
    rw [if_pos rfl, if_pos rfl]
    cases parentLookup? style.parent property with
    | none => rfl
    | some w => rfl

theorem drawn_eq (property : Property) (declaration : Declaration ν) (style : Style ν)
    (sheet : Sheet ν) :
    (drawn property declaration style sheet).value =
      let read := ComputedValue.ofDeclaration (sheet.add declaration).1 style.parent style.config
        (sheet.add declaration).2
      if declaration.inherits then
        match parentLookup? style.parent property with
        | some w => w.copy read.2
        | none => read
      else read :=
  drawnBy_eq ComputedValue.copy property declaration style sheet

theorem drawn_declarations :
    (drawn property declaration style sheet).value.2.declarations =
      sheet.declarations ++ [declaration] := by
  rw [drawn_eq]
  dsimp only
  split
  · split
    · rfl
    · rfl
  · rfl

theorem get_drawn (property : Property) (declaration : Declaration ν) (style : Style ν)
    {sheet : Sheet ν} {id : DeclarationId} (h : id < sheet.declarations.length) :
    (drawn property declaration style sheet).value.2.get id = sheet.get id := by
  have hadd : (drawn property declaration style sheet).value.2.get id =
      (sheet.add declaration).2.get id := by
    unfold Sheet.get
    rw [drawn_declarations]
    rfl
  rw [hadd, Sheet.get_add_of_lt h]

theorem isRead_drawn :
    (drawn property declaration style sheet).value.1.IsRead
      (drawn property declaration style sheet).value.2 := by
  rw [drawn_eq]
  dsimp only
  split
  · split
    · exact ComputedValue.isRead_ofDeclaration _ _ _ _
    · exact ComputedValue.isRead_ofDeclaration _ _ _ _
  · exact ComputedValue.isRead_ofDeclaration _ _ _ _

theorem drawn_cases (property : Property) (declaration : Declaration ν) (style : Style ν)
    (sheet : Sheet ν) :
    (drawn property declaration style sheet).value.1.declaration = sheet.declarations.length ∨
    declaration.inherits = true ∧ ∃ w, parentLookup? style.parent property = some w ∧
      (drawn property declaration style sheet).value.1.declaration = w.declaration := by
  rw [drawn_eq]
  dsimp only
  split
  · rename_i hinherits
    split
    · rename_i w hw
      exact .inr ⟨hinherits, w, hw, rfl⟩
    · exact .inl rfl
  · exact .inl rfl

/-! ## Deriving -/

theorem stylePass_settle {v : Entry ν} (hv : v.IsRead sheet) (parent : Option (Style ν))
    (property : Property) :
    ComputedValue.StylePass parent property v sheet (settle parent property v sheet) := by
  unfold settle
  split
  · have hadopt := hv.adopt_eq
    have hpass := ComputedValue.stylePass_resolveAgainst parent property
      (hadopt.symm ▸ hv.resolvable : (v.adopt sheet).Resolvable)
    rw [hadopt] at hpass
    exact hpass
  · rename_i hclosed
    refine .unchanged [] ?_
    unfold ComputedValue.requiresComputation at hclosed
    cases hstate : v.state with
    | absolute x type => rfl
    | nonNumeric => rfl
    | _ =>
      rw [hstate] at hclosed
      exact absurd rfl hclosed

theorem deriveRead_eq : deriveRead property declaration style sheet =
    let drawing := drawn property declaration style sheet
    let settled := settle style.parent property drawing.value.1 drawing.value.2
    ⟨settled.result,
      match settled.result with
      | .ok _ => style.set property settled.subject
      | .error _ => style,
      settled.sheet, drawing.notices ++ settled.notices⟩ := by
  unfold deriveRead drawn
  rfl

/-- A derivation leaves the style as it is, or it sets what its declaration amounts to. -/
inductive DerivesBy (take : Handover ν) (property : Property) (text : String) (style : Style ν)
    (sheet : Sheet ν) : Outcome ν (Style ν) (Resolution ν) → Prop
  | unreadable (error notices) : Value.parse? text = .error error →
    DerivesBy take property text style sheet ⟨.error error, style, sheet, notices⟩
  | failed (declaration error notices) :
    (settledBy take property declaration style sheet).result = .error error →
    DerivesBy take property text style sheet
      ⟨.error error, style, (settledBy take property declaration style sheet).sheet, notices⟩
  | set (declaration resolution notices) :
    (settledBy take property declaration style sheet).result = .ok resolution →
    DerivesBy take property text style sheet
      ⟨.ok resolution,
        style.set property (settledBy take property declaration style sheet).subject,
        (settledBy take property declaration style sheet).sheet, notices⟩

theorem deriveBy_of_error {error : ValueError ν} (h : Value.parse? text = .error error) :
    style.deriveBy take property text sheet =
      (Outcome.failed error style sheet).after (Declaration.read text : Reading ν _).run.notices := by
  unfold deriveBy
  dsimp only
  rw [read_eq_error h]

theorem deriveBy_of_ok {value : Value ν} (h : Value.parse? text = .ok value) :
    style.deriveBy take property text sheet =
      (deriveReadBy take property ⟨Text.trimmed text, value⟩ style sheet).after
        (Declaration.read text : Reading ν _).run.notices := by
  unfold deriveBy
  dsimp only
  rw [read_eq_ok h]

theorem derivesBy (take : Handover ν) (property : Property) (text : String) (style : Style ν)
    (sheet : Sheet ν) :
    DerivesBy take property text style sheet (style.deriveBy take property text sheet) := by
  cases hparse : (Value.parse? text : Except (ValueError ν) (Value ν)) with
  | error error =>
    rw [deriveBy_of_error hparse]
    exact .unreadable error _ hparse
  | ok value =>
    rw [deriveBy_of_ok hparse]
    unfold deriveReadBy
    dsimp only [Outcome.after]
    cases hresult : (settledBy take property ⟨Text.trimmed text, value⟩ style sheet).result with
    | error error => exact .failed _ error _ hresult
    | ok resolution => exact .set _ resolution _ hresult

theorem derive_of_error {error : ValueError ν} (h : Value.parse? text = .error error) :
    style.derive property text sheet =
      (Outcome.failed error style sheet).after (Declaration.read text : Reading ν _).run.notices := by
  rw [← deriveBy_copy, deriveBy_of_error h]

theorem derive_of_ok {value : Value ν} (h : Value.parse? text = .ok value) :
    style.derive property text sheet =
      (deriveRead property ⟨Text.trimmed text, value⟩ style sheet).after
        (Declaration.read text : Reading ν _).run.notices := by
  rw [← deriveBy_copy, deriveBy_of_ok h]
  rfl

/-- The outcomes of a derivation. -/
inductive Derives (property : Property) (text : String) (style : Style ν) (sheet : Sheet ν) :
    Outcome ν (Style ν) (Resolution ν) → Prop
  | unreadable (error notices) : Value.parse? text = .error error →
    Derives property text style sheet ⟨.error error, style, sheet, notices⟩
  | failed (declaration settled error notices) :
    ComputedValue.StylePass style.parent property (drawn property declaration style sheet).value.1
      (drawn property declaration style sheet).value.2 settled → settled.result = .error error →
    Derives property text style sheet ⟨.error error, style, settled.sheet, notices⟩
  | set (declaration settled resolution notices) :
    ComputedValue.StylePass style.parent property (drawn property declaration style sheet).value.1
      (drawn property declaration style sheet).value.2 settled → settled.result = .ok resolution →
    Derives property text style sheet
      ⟨.ok resolution, style.set property settled.subject, settled.sheet, notices⟩

theorem derives (property : Property) (text : String) (style : Style ν) (sheet : Sheet ν) :
    Derives property text style sheet (style.derive property text sheet) := by
  have hpass : ∀ declaration,
      ComputedValue.StylePass style.parent property (drawn property declaration style sheet).value.1
        (drawn property declaration style sheet).value.2
        (settledBy ComputedValue.copy property declaration style sheet) := fun _ =>
    stylePass_settle isRead_drawn style.parent property
  have hderives := derivesBy ComputedValue.copy property text style sheet
  rw [deriveBy_copy] at hderives
  generalize style.derive property text sheet = outcome at hderives ⊢
  cases hderives with
  | unreadable error notices hparse => exact .unreadable error notices hparse
  | failed declaration error notices hresult =>
    exact .failed declaration _ error notices (hpass declaration) hresult
  | set declaration resolution notices hresult =>
    exact .set declaration _ resolution notices (hpass declaration) hresult

theorem subject_of_error {error : ValueError ν}
    (h : (style.derive property text sheet).result = .error error) :
    (style.derive property text sheet).subject = style := by
  have hderives := derives property text style sheet
  generalize style.derive property text sheet = outcome at hderives h ⊢
  cases hderives with
  | unreadable error notices hparse => rfl
  | failed declaration settled error notices hpass hresult => rfl
  | set declaration settled resolution notices hpass hresult => exact absurd h (by simp)

theorem links_derive (property : Property) (text : String) (style : Style ν) (sheet : Sheet ν) :
    (style.derive property text sheet).subject.parent = style.parent ∧
      (style.derive property text sheet).subject.config = style.config := by
  have hderives := derives property text style sheet
  generalize style.derive property text sheet = outcome at hderives ⊢
  cases hderives with
  | unreadable error notices hparse => exact ⟨rfl, rfl⟩
  | failed declaration settled error notices hpass hresult => exact ⟨rfl, rfl⟩
  | set declaration settled resolution notices hpass hresult => exact ⟨rfl, rfl⟩

/-! ## Binding -/

variable {v : Entry ν}

theorem bindEach_of_isPending (hv : v.isPending = true) (block : ContainingBlock ν)
    (property : Property) (rest : List (Property × Entry ν)) (sheet : Sheet ν) :
    ∃ pixels, bindEach block ((property, v) :: rest) sheet =
      ((bindEach block rest (sheet.write v.declaration (.ofPrimitive (.numeric pixels .px)))).map
        (· + 1)).around ((property, v.bound block) :: ·) := by
  obtain ⟨pixels, hbind⟩ := ComputedValue.bind_of_isPending hv block
  refine ⟨pixels, ?_⟩
  rw [bindEach, if_pos hv, hbind sheet]
  rfl

theorem bindEach_of_not_isPending (hv : v.isPending = false) (block : ContainingBlock ν)
    (property : Property) (rest : List (Property × Entry ν)) (sheet : Sheet ν) :
    bindEach block ((property, v) :: rest) sheet =
      (bindEach block rest sheet).around ((property, v.bound block) :: ·) := by
  rw [bindEach, if_neg (by rw [hv]; exact Bool.false_ne_true), ComputedValue.bound_of_not_isPending hv]

theorem bindEach_spec (block : ContainingBlock ν) (entries : List (Property × Entry ν))
    (sheet : Sheet ν) :
    (bindEach block entries sheet).result = .ok (entries.countP (·.2.isPending)) ∧
    (bindEach block entries sheet).subject = entries.map (Prod.map id (·.bound block)) := by
  induction entries generalizing sheet with
  | nil => exact ⟨rfl, rfl⟩
  | cons entry rest ih =>
    obtain ⟨property, v⟩ := entry
    cases hv : v.isPending with
    | true =>
      obtain ⟨pixels, hbind⟩ := bindEach_of_isPending hv block property rest sheet
      obtain ⟨hresult, hsubject⟩ := ih (sheet.write v.declaration (.ofPrimitive (.numeric pixels .px)))
      have hcount : ((property, v) :: rest).countP (·.2.isPending) =
          rest.countP (·.2.isPending) + 1 := List.countP_cons_of_pos hv
      rw [hbind, hcount]
      constructor
      · show (bindEach block rest _).result.map (· + 1) = _
        rw [hresult]
        rfl
      · show (property, v.bound block) :: (bindEach block rest _).subject = _
        rw [hsubject]
        rfl
    | false =>
      obtain ⟨hresult, hsubject⟩ := ih sheet
      have hcount : ((property, v) :: rest).countP (·.2.isPending) =
          rest.countP (·.2.isPending) :=
        List.countP_cons_of_neg (by rw [hv]; exact Bool.false_ne_true)
      rw [bindEach_of_not_isPending hv, hcount]
      constructor
      · exact hresult
      · show (property, v.bound block) :: (bindEach block rest _).subject = _
        rw [hsubject]
        rfl

theorem bindEach_sheet (block : ContainingBlock ν) (entries : List (Property × Entry ν))
    (sheet : Sheet ν) :
    (bindEach block entries sheet).sheet.declarations.length = sheet.declarations.length ∧
    ∀ id, (∀ entry ∈ entries, entry.2.isPending = true → entry.2.declaration ≠ id) →
      (bindEach block entries sheet).sheet.get id = sheet.get id := by
  induction entries generalizing sheet with
  | nil => exact ⟨rfl, fun id _ => rfl⟩
  | cons entry rest ih =>
    obtain ⟨property, v⟩ := entry
    cases hv : v.isPending with
    | true =>
      obtain ⟨pixels, hbind⟩ := bindEach_of_isPending hv block property rest sheet
      obtain ⟨hlength, hget⟩ := ih (sheet.write v.declaration (.ofPrimitive (.numeric pixels .px)))
      rw [hbind]
      refine ⟨hlength.trans List.length_set, fun id hid => ?_⟩
      have hrest := hget id fun entry hentry => hid entry (List.mem_cons_of_mem _ hentry)
      exact hrest.trans (Sheet.get_write_of_ne (hid _ List.mem_cons_self hv).symm _)
    | false =>
      obtain ⟨hlength, hget⟩ := ih sheet
      rw [bindEach_of_not_isPending hv]
      exact ⟨hlength, fun id hid => hget id fun entry hentry =>
        hid entry (List.mem_cons_of_mem _ hentry)⟩

end Style

end ComputedCss
