import ComputedCss.Proofs.Style.Apart
import ComputedCss.Proofs.Style.Likeness
import ComputedCss.Proofs.Style.Sound
import ComputedCss.ComputedValue.Writers

/-!
# The style that a value comes from

A derivation builds its value with the parent of the style as the context. Only a value that is
taken over from the parent is a copy, and a copy keeps the context of what it copies. So the context
of a value is the parent of the style that it comes from, which may be an ancestor of the style that
it stands on.

* `Style.ComesFrom`: a value has the context and the settings that a style gives.
* `comesFrom_of_derive`: what a derivation sets comes from the style, or from an ancestor.
* `ComputedValue.restate`: another text is written to a value, which is then resolved.
* `restate_agrees`: this does what a derivation does on the style that the value comes from.
-/

namespace ComputedCss

variable {ν : Type}

namespace Style

/-- The value has the context and the settings that a style gives, and a declaration that the parent
of that style does not refer to. -/
structure ComesFrom (origin : Style ν) (v : Entry ν) : Prop where
  context : v.context = origin.parent
  config : v.config = origin.config
  apart : ∀ property w, parentLookup? origin.parent property = some w →
    w.declaration ≠ v.declaration

/-- Every value of the style comes from the style or from an ancestor. -/
def Originates (style : Style ν) : Prop :=
  ∀ property v, (property, v) ∈ style.properties → ∃ origin, style.Lineage origin ∧ origin.ComesFrom v

/-- The value that a declaration takes over from the parent of a style. -/
def handedDown? (property : Property) (declaration : Declaration ν) (style : Style ν) :
    Option (Entry ν) :=
  if declaration.inherits then parentLookup? style.parent property else none

variable {style style' origin : Style ν} {property : Property} {declaration : Declaration ν}
  {v w : Entry ν} {sheet : Sheet ν}

theorem ComesFrom.congr (h : origin.ComesFrom v) (hcontext : w.context = v.context)
    (hconfig : w.config = v.config) (hdeclaration : w.declaration = v.declaration) :
    origin.ComesFrom w :=
  ⟨hcontext.trans h.context, hconfig.trans h.config, fun property u hu =>
    hdeclaration ▸ h.apart property u hu⟩

theorem ComesFrom.move (h : origin.ComesFrom v) (hline : style.Lineage origin)
    (hparent : style'.parent = style.parent) (hconfig : style'.config = style.config) :
    ∃ origin', style'.Lineage origin' ∧ origin'.ComesFrom v := by
  rcases hline.self_or_parent with rfl | ⟨parent, hstyle, hline⟩
  · refine ⟨style', .self, h.context.trans hparent.symm, h.config.trans hconfig.symm, ?_⟩
    intro property w hw
    rw [hparent] at hw
    exact h.apart property w hw
  · exact ⟨origin, .of_parent (hparent.trans hstyle) hline, h⟩

theorem ComesFrom.context_eq_iff (h : origin.ComesFrom v) (hline : style.Lineage origin) :
    v.context = style.parent ↔ origin = style := by
  rw [h.context]
  exact ⟨hline.eq_of_parent, fun hsame => by rw [hsame]⟩

theorem Originates.set (h : style.Originates) (hline : style.Lineage origin)
    (hv : origin.ComesFrom v) : (style.set property v).Originates := by
  intro other w hmem
  rcases mem_put hmem with heq | hmem
  · obtain ⟨rfl, rfl⟩ := Prod.mk.inj heq
    exact hv.move hline rfl rfl
  · obtain ⟨old, hold, hw⟩ := h other w hmem
    exact hw.move hold rfl rfl

variable [Scalar ν]

theorem originates_root (config : Config ν) (sheet : Sheet ν) :
    (root config sheet).1.Originates := by
  intro property v hmem
  obtain ⟨rfl, rfl⟩ := Prod.mk.inj (List.mem_singleton.mp hmem)
  refine ⟨_, .self, rfl, rfl, fun property w hw => ?_⟩
  exact absurd hw (by simp [parentLookup?, root])

/-! ## Deriving -/

omit [Scalar ν] in
theorem handedDown?_eq_some_iff : style.handedDown? property declaration = some w ↔
    declaration.inherits = true ∧ parentLookup? style.parent property = some w := by
  simp [handedDown?]

theorem drawn_of_handedDown (h : style.handedDown? property declaration = some w) (sheet : Sheet ν) :
    (drawn property declaration style sheet).value = w.copy (built declaration style sheet).2 := by
  obtain ⟨hinherits, hparent⟩ := handedDown?_eq_some_iff.mp h
  rw [drawn_eq, hinherits, hparent]
  rfl

theorem drawn_of_not_handedDown (h : style.handedDown? property declaration = none)
    (sheet : Sheet ν) :
    (drawn property declaration style sheet).value = built declaration style sheet := by
  unfold handedDown? at h
  rw [drawn_eq]
  cases hinherits : declaration.inherits with
  | false => rfl
  | true =>
    rw [hinherits, if_pos rfl] at h
    rw [h]
    rfl

theorem comesFrom_built (hdeclared : Declares sheet style.parent) :
    style.ComesFrom (built declaration style sheet).1 :=
  ⟨rfl, rfl, fun property w hw => Nat.ne_of_lt (hdeclared property w hw)⟩

omit [Scalar ν] in
theorem exists_comesFrom_of_parent
    (horigins : ∀ ancestor, style.Lineage ancestor → ancestor.Originates)
    (h : parentLookup? style.parent property = some w) :
    ∃ parent origin, style.parent = some parent ∧ parent.Lineage origin ∧ origin.ComesFrom w := by
  obtain ⟨parent, hparent, hlookup⟩ := Option.bind_eq_some_iff.mp h
  obtain ⟨ancestor, hancestor, hmem⟩ := mem_of_lookup? hlookup
  obtain ⟨origin, horigin, hw⟩ :=
    horigins ancestor (.of_parent hparent hancestor) property w hmem
  exact ⟨parent, origin, hparent, hancestor.trans horigin, hw⟩

/-- What a derivation sets comes from the style, unless it is taken over from the parent: then it
comes from an ancestor. -/
theorem comesFrom_of_derive (hdeclared : Declares sheet style.parent)
    (horigins : ∀ ancestor, style.Lineage ancestor → ancestor.Originates) {text : String}
    {resolution : Resolution ν} (h : (style.derive property text sheet).result = .ok resolution) :
    ∃ value v origin, Value.parse? text = .ok value ∧
      (style.derive property text sheet).subject = style.set property v ∧
      style.Lineage origin ∧ origin.ComesFrom v ∧
      (origin = style ↔ style.handedDown? property ⟨Text.trimmed text, value⟩ = none) := by
  cases hparse : (Value.parse? text : Except (ValueError ν) (Value ν)) with
  | error error =>
    rw [derive_of_error hparse] at h
    exact absurd h (by simp [Outcome.after, Outcome.failed])
  | ok value =>
    let declaration : Declaration ν := ⟨Text.trimmed text, value⟩
    have hread : (drawn property declaration style sheet).value.1.IsRead _ := isRead_drawn
    obtain ⟨hcontext, hconfig, hdeclaration⟩ :=
      links_of_stylePass (stylePass_settle hread style.parent property)
    rw [derive_of_ok hparse, deriveRead_eq] at h ⊢
    dsimp only [Outcome.after] at h ⊢
    rw [h]
    cases hhanded : style.handedDown? property declaration with
    | none =>
      rw [drawn_of_not_handedDown hhanded] at hcontext hconfig hdeclaration ⊢
      exact ⟨value, _, style, rfl, rfl, .self,
        (comesFrom_built hdeclared).congr hcontext hconfig hdeclaration, iff_of_true rfl hhanded⟩
    | some w =>
      obtain ⟨-, hparent⟩ := handedDown?_eq_some_iff.mp hhanded
      obtain ⟨parent, origin, hstyle, hline, hw⟩ := exists_comesFrom_of_parent horigins hparent
      rw [drawn_of_handedDown hhanded] at hcontext hconfig hdeclaration ⊢
      refine ⟨value, _, origin, rfl, rfl, .of_parent hstyle hline,
        hw.congr hcontext hconfig hdeclaration, iff_of_false (hline.ne_of_parent hstyle) ?_⟩
      show style.handedDown? property declaration ≠ none
      rw [hhanded]
      exact Option.some_ne_none w

theorem originates_derive (hdeclared : Declares sheet style.parent)
    (horigins : ∀ ancestor, style.Lineage ancestor → ancestor.Originates) (property : Property)
    (text : String) : (style.derive property text sheet).subject.Originates := by
  have hstyle := horigins style .self
  cases hresult : (style.derive property text sheet).result with
  | error error =>
    rw [subject_of_error hresult]
    exact hstyle
  | ok resolution =>
    obtain ⟨value, v, origin, -, hset, hline, hv, -⟩ :=
      comesFrom_of_derive hdeclared horigins hresult
    rw [hset]
    exact hstyle.set hline hv

theorem originates_bind (h : style.Originates) (block : ContainingBlock ν) (sheet : Sheet ν) :
    (style.bind block sheet).subject.Originates := by
  intro property v hmem
  change (property, v) ∈ (bindEach block style.properties sheet).subject at hmem
  rw [(bindEach_spec block style.properties sheet).2] at hmem
  obtain ⟨⟨other, w⟩, hw, heq⟩ := List.mem_map.mp hmem
  obtain ⟨rfl, rfl⟩ := Prod.mk.inj heq
  obtain ⟨origin, hline, hfrom⟩ := h other w hw
  have hbound : origin.ComesFrom (w.bound block) := by
    unfold ComputedValue.bound
    split
    · exact hfrom.congr rfl rfl rfl
    · exact hfrom
  exact hbound.move hline rfl rfl

end Style

/-! ## Writing and resolving -/

variable [Scalar ν]

namespace ComputedValue

/-- Writes a text to a value, and resolves the value if the text could be read. -/
def restate (property : Property) (text : String) (v : Style.Entry ν) (sheet : Sheet ν) :
    Outcome ν (Style.Entry ν) (Resolution ν) :=
  let written := v.setText text sheet
  match written.result with
  | .error error => (Outcome.failed error written.subject written.sheet).after written.notices
  | .ok _ => (written.subject.resolve property written.sheet).after written.notices

variable {v : Style.Entry ν} {origin : Style ν} {sheet : Sheet ν} {text : String}
  {property : Property}

theorem restate_of_error {error : ValueError ν} (h : Value.parse? text = .error error) :
    (v.restate property text sheet).result = .error error := by
  unfold restate setText Sheet.writeText
  dsimp only
  rw [read_eq_error h]
  rfl

theorem restate_of_ok {value : Value ν} (h : Value.parse? text = .ok value) :
    v.restate property text sheet =
      let written := sheet.write v.declaration ⟨Text.trimmed text, value⟩
      ((v.refresh written).resolveAgainst v.context property written).after
        (Declaration.read text : Reading ν _).run.notices := by
  unfold restate setText Sheet.writeText
  dsimp only
  rw [read_eq_ok h]
  rfl

end ComputedValue

namespace Style

variable {origin : Style ν} {v : Entry ν} {sheet : Sheet ν} {text : String} {property : Property}

theorem ComesFrom.handsAlike (h : origin.ComesFrom v) (hdeclared : Declares sheet origin.parent)
    (declaration : Declaration ν) :
    HandsAlike (built declaration origin sheet).2 (sheet.write v.declaration declaration)
      origin.parent origin.parent := by
  intro property
  cases hw : parentLookup? origin.parent property with
  | none => exact .none
  | some w =>
    have hold : w.declaration < sheet.declarations.length := hdeclared property w hw
    refine .some ⟨?_, ?_, rfl, rfl, rfl, ?_⟩
    · exact Nat.lt_of_lt_of_le hold (sheet.extends_add declaration).length
    · exact Nat.lt_of_lt_of_eq hold List.length_set.symm
    · exact (Sheet.get_write_of_ne (h.apart property w hw) declaration).trans
        (Sheet.get_add_of_lt hold declaration).symm

/-- **Writing a text to a value and resolving it does what a derivation does on the style that the
value comes from.** -/
theorem restate_agrees (h : origin.ComesFrom v) (hv : v.declaration < sheet.declarations.length)
    (hdeclared : Declares sheet origin.parent)
    (hinherits : ∀ value : Value ν, Value.parse? text = .ok value →
      (⟨Text.trimmed text, value⟩ : Declaration ν).inherits = false) (property : Property) :
    (v.restate property text sheet).result = (origin.derive property text sheet).result ∧
    ∀ resolution, (origin.derive property text sheet).result = .ok resolution →
      ∃ w, (origin.derive property text sheet).subject = origin.set property w ∧
        ComputedValue.Alike (origin.derive property text sheet).sheet
          (v.restate property text sheet).sheet w (v.restate property text sheet).subject := by
  cases hparse : (Value.parse? text : Except (ValueError ν) (Value ν)) with
  | error error =>
    rw [ComputedValue.restate_of_error hparse, derive_of_error hparse]
    exact ⟨rfl, fun _ hresult => absurd hresult (by simp [Outcome.after, Outcome.failed])⟩
  | ok value =>
    let declaration : Declaration ν := ⟨Text.trimmed text, value⟩
    let written := sheet.write v.declaration declaration
    let fresh := built declaration origin sheet
    have hfresh : fresh.1.IsRead fresh.2 := isRead_built
    have hrefreshed : (v.refresh written).IsRead written := ⟨rfl, rfl⟩
    have hget : written.get v.declaration = fresh.2.get fresh.1.declaration :=
      (Sheet.get_write_self hv declaration).trans (sheet.get_add_self declaration).symm
    have halike : ComputedValue.Alike fresh.2 written fresh.1 (v.refresh written) :=
      hfresh.alike hrefreshed (sheet.declared_add declaration)
        (Nat.lt_of_lt_of_eq hv List.length_set.symm) h.config hget
    obtain ⟨hresult, hsettled⟩ :=
      settle_alike hfresh hrefreshed halike (h.handsAlike hdeclared declaration) property
    obtain ⟨hrestated, hsubject, hsheet⟩ := settle_agrees hrefreshed origin.parent property
    rw [derive_of_ok hparse, deriveRead_eq,
      drawn_of_not_inherits (hinherits value hparse) property origin sheet,
      ComputedValue.restate_of_ok hparse, h.context]
    dsimp only [Outcome.after]
    rw [← hsubject, ← hsheet] at hsettled
    refine ⟨hrestated.trans hresult, fun resolution hok => ⟨_, ?_, hsettled⟩⟩
    rw [hok]

end Style

end ComputedCss
