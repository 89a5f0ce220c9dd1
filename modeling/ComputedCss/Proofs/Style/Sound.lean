import ComputedCss.Proofs.Style.Lineage
import ComputedCss.Proofs.Style.Notices

/-!
# Sound styles

A root has a font size, every value of a style stands on the sheet, and none is left in a state that
a child could not use. Deriving and binding keep this, and then they fail only in few ways.

* `Style.Sound`: the invariant, of one style over the sheet.
* `keeps_derive`, `keeps_bind`: the operations on a style.
* `error_of_derive`: the errors of a derivation.
-/

namespace ComputedCss

variable {ν : Type}

/-- A state in which a value can stand under a property. -/
def Computation.Stands (property : Property) : Computation ν → Prop
  | .relative _ _ => False
  | .pendingLayout _ pending axis => pending = property ∧ property.layoutAxis? = some axis
  | .absolute _ _ | .nonNumeric => True

namespace Style

/-- What holds of every style of a tree. -/
structure Sound (sheet : Sheet ν) (style : Style ν) : Prop where
  fontSize : style.parent = none → (style.own? .fontSize).isSome = true
  declared : ∀ property v, (property, v) ∈ style.properties →
    v.declaration < sheet.declarations.length
  stands : ∀ property v, (property, v) ∈ style.properties → v.state.Stands property

variable {style : Style ν} {property : Property} {v : Entry ν} {sheet sheet' : Sheet ν}

theorem Sound.mono (h : style.Sound sheet)
    (hlength : sheet.declarations.length ≤ sheet'.declarations.length) : style.Sound sheet' :=
  ⟨h.fontSize, fun property v hmem => Nat.lt_of_lt_of_le (h.declared property v hmem) hlength,
    h.stands⟩

theorem Sound.set (h : style.Sound sheet) (hdeclared : v.declaration < sheet.declarations.length)
    (hstands : v.state.Stands property) : (style.set property v).Sound sheet := by
  refine ⟨fun hparent => ?_, fun other w hmem => ?_, fun other w hmem => ?_⟩
  · show ((put property v style.properties).lookup .fontSize).isSome = true
    by_cases hproperty : Property.fontSize = property
    · rw [hproperty, lookup_put_self]
      rfl
    · rw [lookup_put_of_ne hproperty]
      exact h.fontSize hparent
  · rcases mem_put hmem with heq | hmem
    · obtain ⟨rfl, rfl⟩ := Prod.mk.inj heq
      exact hdeclared
    · exact h.declared other w hmem
  · rcases mem_put hmem with heq | hmem
    · obtain ⟨rfl, rfl⟩ := Prod.mk.inj heq
      exact hstands
    · exact h.stands other w hmem

theorem sound_childOf (style : Style ν) (sheet : Sheet ν) : style.childOf.Sound sheet :=
  ⟨fun hparent => absurd hparent (by simp [childOf]), fun _ _ hmem => absurd hmem List.not_mem_nil,
    fun _ _ hmem => absurd hmem List.not_mem_nil⟩

variable [Scalar ν]

theorem sound_root (config : Config ν) (sheet : Sheet ν) :
    (root config sheet).1.Sound (root config sheet).2 := by
  refine ⟨fun _ => rfl, fun property v hmem => ?_, fun property v hmem => ?_⟩
  · obtain ⟨rfl, rfl⟩ := Prod.mk.inj (List.mem_singleton.mp hmem)
    show sheet.declarations.length <
      (sheet.declarations ++ [Declaration.ofPrimitive (.numeric config.defaultFontSize .px)]).length
    rw [List.length_append, List.length_singleton]
    exact Nat.lt_succ_self _
  · obtain ⟨rfl, rfl⟩ := Prod.mk.inj (List.mem_singleton.mp hmem)
    let size : Declaration ν := .ofPrimitive (.numeric config.defaultFontSize .px)
    show (Computation.ofValue config ((sheet.add size).2.get (sheet.add size).1).value).Stands _
    rw [Sheet.get_add_self]
    trivial

/-! ## Deriving -/

/-- What an operation on a style of a tree keeps. -/
structure Keeps {α : Type} (style : Style ν) (sheet : Sheet ν) (outcome : Outcome ν (Style ν) α) :
    Prop where
  parent : outcome.subject.parent = style.parent
  length : sheet.declarations.length ≤ outcome.sheet.declarations.length
  sound : outcome.subject.Sound outcome.sheet

variable {declaration : Declaration ν} {settled : Outcome ν (Entry ν) (Resolution ν)}

omit [Scalar ν] in
theorem declared_of_lookup? (hline : ∀ ancestor, style.Lineage ancestor → ancestor.Sound sheet)
    (h : style.lookup? property = some v) : v.declaration < sheet.declarations.length := by
  obtain ⟨ancestor, hancestor, hmem⟩ := mem_of_lookup? h
  exact (hline ancestor hancestor).declared property v hmem

omit [Scalar ν] in
theorem declared_of_parentLookup?
    (hline : ∀ ancestor, style.Lineage ancestor → ancestor.Sound sheet)
    (h : parentLookup? style.parent property = some v) :
    v.declaration < sheet.declarations.length := by
  obtain ⟨ancestor, hancestor, hmem⟩ := mem_of_parentLookup? h
  exact (hline ancestor hancestor).declared property v hmem

theorem declared_drawn (hparent : ∀ w, parentLookup? style.parent property = some w →
      w.declaration < sheet.declarations.length) :
    (drawn property declaration style sheet).value.1.declaration <
      (drawn property declaration style sheet).value.2.declarations.length := by
  rw [drawn_declarations, List.length_append, List.length_singleton]
  rcases drawn_cases property declaration style sheet with hnew | ⟨-, w, hw, hshared⟩
  · rw [hnew]
    exact Nat.lt_succ_self _
  · rw [hshared]
    exact Nat.lt_succ_of_lt (hparent w hw)

theorem length_of_stylePass {parent : Option (Style ν)}
    (h : ComputedValue.StylePass parent property v sheet settled) :
    settled.sheet.declarations.length = sheet.declarations.length := by
  cases h with
  | resolved pixels notices hkind => exact List.length_set
  | _ => rfl

theorem stands_of_stylePass {parent : Option (Style ν)} {resolution : Resolution ν}
    (h : ComputedValue.StylePass parent property v sheet settled)
    (hresult : settled.result = .ok resolution) :
    settled.subject.state.Stands property ∧ settled.subject.declaration = v.declaration := by
  cases h with
  | unchanged notices hopen =>
    refine ⟨?_, rfl⟩
    show v.state.Stands property
    cases hstate : v.state with
    | absolute x type => trivial
    | nonNumeric => trivial
    | _ =>
      rw [hstate] at hopen
      exact absurd hopen (by simp [ComputedValue.openNumber?])
  | failed error notices herror => exact absurd hresult (by simp)
  | resolved pixels notices hkind => exact ⟨trivial, rfl⟩
  | deferred value axis notices haxis hkind => exact ⟨⟨rfl, haxis⟩, rfl⟩

theorem keeps_derive (hline : ∀ ancestor, style.Lineage ancestor → ancestor.Sound sheet)
    (property : Property) (text : String) :
    style.Keeps sheet (style.derive property text sheet) := by
  have hstyle := hline style .self
  have hderives := derives property text style sheet
  generalize style.derive property text sheet = outcome at hderives ⊢
  have hgrows : ∀ {declaration : Declaration ν} {settled : Outcome ν (Entry ν) (Resolution ν)},
      ComputedValue.StylePass style.parent property
        (drawn property declaration style sheet).value.1
        (drawn property declaration style sheet).value.2 settled →
      sheet.declarations.length ≤ settled.sheet.declarations.length := by
    intro declaration settled hpass
    rw [length_of_stylePass hpass, drawn_declarations, List.length_append]
    omega
  cases hderives with
  | unreadable error notices hparse => exact ⟨rfl, Nat.le_refl _, hstyle⟩
  | failed declaration settled error notices hpass hresult =>
    exact ⟨rfl, hgrows hpass, hstyle.mono (hgrows hpass)⟩
  | set declaration settled resolution notices hpass hresult =>
    obtain ⟨hstands, hdeclaration⟩ := stands_of_stylePass hpass hresult
    refine ⟨rfl, hgrows hpass, (hstyle.mono (hgrows hpass)).set ?_ hstands⟩
    rw [hdeclaration, length_of_stylePass hpass]
    exact declared_drawn fun _ => declared_of_parentLookup? hline

/-! ## Binding -/

theorem stands_bound (h : v.state.Stands property) (block : ContainingBlock ν) :
    (v.bound block).state.Stands property := by
  unfold ComputedValue.bound
  split
  · trivial
  · exact h

theorem keeps_bind (hstyle : style.Sound sheet) (block : ContainingBlock ν) :
    style.Keeps sheet (style.bind block sheet) := by
  obtain ⟨-, hsubject⟩ := bindEach_spec block style.properties sheet
  obtain ⟨hlength, -⟩ := bindEach_sheet block style.properties sheet
  have hmem : ∀ property v, (property, v) ∈ (style.bind block sheet).subject.properties →
      ∃ w, (property, w) ∈ style.properties ∧ w.bound block = v := by
    intro property v hmem
    change (property, v) ∈ (bindEach block style.properties sheet).subject at hmem
    rw [hsubject] at hmem
    obtain ⟨⟨other, w⟩, hw, heq⟩ := List.mem_map.mp hmem
    obtain ⟨rfl, rfl⟩ := Prod.mk.inj heq
    exact ⟨w, hw, rfl⟩
  refine ⟨rfl, Nat.le_of_eq hlength.symm, fun hparent => ?_, fun property v h => ?_, fun property v h => ?_⟩
  · show ((bindEach block style.properties sheet).subject.lookup .fontSize).isSome = true
    rw [hsubject, lookup_map, Option.isSome_map]
    exact hstyle.fontSize hparent
  · obtain ⟨w, hw, rfl⟩ := hmem property v h
    rw [ComputedValue.declaration_bound]
    exact Nat.lt_of_lt_of_le (hstyle.declared property w hw) (Nat.le_of_eq hlength.symm)
  · obtain ⟨w, hw, rfl⟩ := hmem property v h
    exact stands_bound (hstyle.stands property w hw) block

/-! ## Errors -/

omit [Scalar ν] in
theorem error_of_parentError {source : Property} {error : ValueError ν}
    (hline : ∀ ancestor, style.Lineage ancestor → ancestor.Sound sheet)
    (hsource : source.layoutAxis? = none)
    (hget : ∀ id, id < sheet.declarations.length → sheet'.get id = sheet.get id)
    (h : ComputedValue.ParentError style.parent source sheet' error) :
    (error = .kindMismatch .scalar ∨ ∃ type, error = .notNumeric type) ∧
      ComputedValue.ParentError style.parent source sheet error := by
  obtain ⟨v, hlookup, hnumber⟩ := h
  obtain ⟨ancestor, hancestor, hmem⟩ := mem_of_parentLookup? hlookup
  have hsound := hline ancestor hancestor
  have hstands := hsound.stands source v hmem
  rw [ComputedValue.number_congr (hget _ (hsound.declared source v hmem))] at hnumber
  refine ⟨?_, v, hlookup, hnumber⟩
  rcases ComputedValue.error_of_number hnumber with rfl | ⟨x, type, hstate, -⟩ |
    ⟨x, pending, axis, hstate, -⟩ | ⟨type, -, rfl⟩
  · exact .inl rfl
  · rw [hstate] at hstands
    exact hstands.elim
  · rw [hstate] at hstands
    have haxis : source.layoutAxis? = some axis := hstands.2
    rw [hsource] at haxis
    exact absurd haxis (by simp)
  · exact .inr ⟨type, rfl⟩

/-- A derivation fails over its text, over a line height that the parent does not have, or over a
font size or a line height of the parent that is no number. -/
theorem error_of_derive {text : String} {error : ValueError ν}
    (hline : ∀ ancestor, style.Lineage ancestor → ancestor.Sound sheet)
    (h : (style.derive property text sheet).result = .error error) :
    (Value.parse? text = .error error ∧ error.OfText) ∨
    (property = .verticalAlign ∧ error = .missingProperty .lineHeight) ∨
    (error = .kindMismatch .scalar ∨ ∃ type, error = .notNumeric type) ∧
      ∃ source, (source = .fontSize ∨ source = .lineHeight) ∧
        ComputedValue.ParentError style.parent source sheet error := by
  have hderives := derives property text style sheet
  generalize style.derive property text sheet = outcome at hderives h
  cases hderives with
  | unreadable error' notices hparse =>
    obtain rfl := Except.error.inj h
    exact .inl ⟨hparse, (raises_read text).error _ (read_eq_error hparse)⟩
  | failed declaration settled error' notices hpass hresult =>
    obtain rfl := Except.error.inj h
    have hget : ∀ id, id < sheet.declarations.length →
        (drawn property declaration style sheet).value.2.get id = sheet.get id :=
      fun id hid => get_drawn property declaration style hid
    generalize drawn property declaration style sheet = drawing at hpass hget
    cases hpass with
    | failed error'' notices' hbasis =>
      obtain rfl := Except.error.inj hresult
      rcases hbasis with hsize | ⟨rfl, ⟨-, rfl⟩ | hheight⟩
      · obtain ⟨hkind, hparent⟩ := error_of_parentError hline rfl hget hsize
        exact .inr (.inr ⟨hkind, .fontSize, .inl rfl, hparent⟩)
      · exact .inr (.inl ⟨rfl, rfl⟩)
      · obtain ⟨hkind, hparent⟩ := error_of_parentError hline rfl hget hheight
        exact .inr (.inr ⟨hkind, .lineHeight, .inr rfl, hparent⟩)
    | unchanged notices' hopen => exact absurd hresult (by simp)
    | resolved pixels notices' hkind => exact absurd hresult (by simp)
    | deferred value axis notices' haxis hkind => exact absurd hresult (by simp)
  | set declaration settled resolution notices hpass hresult => exact absurd h (by simp)

end Style

end ComputedCss
