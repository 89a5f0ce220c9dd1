import ComputedCss.Number.Exact
import ComputedCss.Proofs.Style.Dependence
import ComputedCss.Proofs.Style.Lineage

/-!
# Deriving and resolving apart

A declaration can be computed without a style: its text is read, a value is built over it with the
parent and the settings of the style, and the value is resolved. A derivation asks first whether the
value needs to be resolved; a value that is resolved apart is resolved in any case.

* `resolveAgainst_of_isRead`: on a value that has just been read the question makes no difference,
  apart from a remark.
* `derive_agrees_apart`: so a derivation and the resolution apart agree.
-/

namespace ComputedCss

variable {ν : Type} [Scalar ν]

/-- The remark about a value that has nothing to resolve. -/
def Notice.nothingToResolve (property : Property) (text : String) : Notice :=
  .info ("'" ++ property.name ++ ": " ++ text ++ "' is already computed, nothing to resolve")

namespace Style

/-- A text computed without the style: read, built with the parent of the style and with its
settings, and resolved. There is no value if the text is none. -/
def resolveApart (property : Property) (text : String) (style : Style ν) (sheet : Sheet ν) :
    Outcome ν (Option (Entry ν)) (Resolution ν) :=
  let reading := (Declaration.read text).run
  match reading.value with
  | .error error => (Outcome.failed error none sheet).after reading.notices
  | .ok declaration =>
    let (id, sheet) := sheet.add declaration
    let (v, sheet) := ComputedValue.ofDeclaration id style.parent style.config sheet
    ((v.resolve property sheet).around some).after reading.notices

variable {style : Style ν} {property : Property} {declaration : Declaration ν} {v : Entry ν}
  {sheet : Sheet ν}

/-- The two resolve a value that has just been read to one outcome, but for the remark on a value
that has nothing to resolve. -/
theorem resolveAgainst_of_isRead (hv : v.IsRead sheet) (parent : Option (Style ν))
    (property : Property) :
    v.resolveAgainst parent property sheet =
      if v.requiresComputation then settle parent property v sheet
      else { settle parent property v sheet with
        notices := [.nothingToResolve property (v.text sheet)] } := by
  cases hopen : v.requiresComputation with
  | true =>
    have hsettle : settle parent property v sheet = v.resolveAgainst parent property sheet :=
      if_pos hopen
    rw [if_pos rfl, hsettle]
  | false =>
    have hclosed : ComputedValue.openNumber? v.state = none := by
      unfold ComputedValue.requiresComputation at hopen
      cases hstate : v.state with
      | absolute x type => rfl
      | nonNumeric => rfl
      | _ =>
        rw [hstate] at hopen
        exact absurd hopen.symm Bool.false_ne_true
    rw [settle_of_closed hopen]
    unfold ComputedValue.resolveAgainst
    dsimp only
    rw [hv.adopt_eq, hclosed]
    rfl

theorem settle_agrees (hv : v.IsRead sheet) (parent : Option (Style ν)) (property : Property) :
    (v.resolveAgainst parent property sheet).result = (settle parent property v sheet).result ∧
    (v.resolveAgainst parent property sheet).subject = (settle parent property v sheet).subject ∧
    (v.resolveAgainst parent property sheet).sheet = (settle parent property v sheet).sheet := by
  rw [resolveAgainst_of_isRead hv]
  split <;> exact ⟨rfl, rfl, rfl⟩

/-! ## The value that is built -/

/-- The value that is built apart, with the sheet on which it stands. -/
def built (declaration : Declaration ν) (style : Style ν) (sheet : Sheet ν) : Entry ν × Sheet ν :=
  ComputedValue.ofDeclaration (sheet.add declaration).1 style.parent style.config
    (sheet.add declaration).2

theorem isRead_built : (built declaration style sheet).1.IsRead (built declaration style sheet).2 :=
  ComputedValue.isRead_ofDeclaration _ _ _ _

theorem text_built (declaration : Declaration ν) (style : Style ν) (sheet : Sheet ν) :
    (built declaration style sheet).1.text (built declaration style sheet).2 = declaration.text :=
  congrArg Declaration.text (sheet.get_add_self declaration)

theorem drawn_of_not_inherits (hinherits : declaration.inherits = false) (property : Property)
    (style : Style ν) (sheet : Sheet ν) :
    drawn property declaration style sheet = ⟨built declaration style sheet, []⟩ := by
  have hfresh := hasInherit_ofDeclaration declaration style.parent style.config sheet
  unfold drawn inherit
  dsimp only
  rw [hfresh, hinherits]
  rfl

theorem links_of_stylePass {parent : Option (Style ν)}
    {settled : Outcome ν (Entry ν) (Resolution ν)}
    (h : ComputedValue.StylePass parent property v sheet settled) :
    settled.subject.context = v.context ∧ settled.subject.config = v.config ∧
      settled.subject.declaration = v.declaration := by
  cases h with
  | unchanged notices hopen => exact ⟨rfl, rfl, rfl⟩
  | failed error notices herror => exact ⟨rfl, rfl, rfl⟩
  | resolved pixels notices hkind => exact ⟨rfl, rfl, rfl⟩
  | deferred value axis notices haxis hkind => exact ⟨rfl, rfl, rfl⟩

theorem resolveApart_of_error {text : String} {error : ValueError ν}
    (h : Value.parse? text = .error error) : resolveApart property text style sheet =
      (Outcome.failed error none sheet).after
        (Declaration.read text : Reading ν _).run.notices := by
  unfold resolveApart
  dsimp only
  rw [read_eq_error h]

theorem resolveApart_of_ok {text : String} {value : Value ν} (h : Value.parse? text = .ok value) :
    resolveApart property text style sheet =
      let v := built ⟨Text.trimmed text, value⟩ style sheet
      ((v.1.resolveAgainst style.parent property v.2).around some).after
        (Declaration.read text : Reading ν _).run.notices := by
  unfold resolveApart
  dsimp only
  rw [read_eq_ok h]
  rfl

end Style

/-- **A derivation agrees with resolving apart.** Without the keyword `inherit` the two end with one
result, also when it is an error, and on one sheet. What the derivation sets on success is the value
that was built apart, with the parent and the settings of the style, and so with the same state,
text and type; on an error it sets nothing. Resolving apart reports the same notices, except that it
may remark that there was nothing to resolve. -/
theorem Style.derive_agrees_apart (property : Property) (text : String) (style : Style ν)
    (sheet : Sheet ν)
    (hinherits : ∀ value : Value ν, Value.parse? text = .ok value →
      (⟨Text.trimmed text, value⟩ : Declaration ν).inherits = false) :
    let derived := style.derive property text sheet
    let apart := resolveApart property text style sheet
    derived.result = apart.result ∧ derived.sheet = apart.sheet ∧
    (∀ resolution, derived.result = .ok resolution →
      ∃ v, apart.subject = some v ∧ v.context = style.parent ∧ v.config = style.config ∧
        derived.subject = style.set property v ∧ derived.subject.own? property = some v) ∧
    (∀ error, derived.result = .error error → derived.subject = style) ∧
    (apart.notices = derived.notices ∨ derived.result = .ok .unchanged ∧
      apart.notices = derived.notices ++ [.nothingToResolve property (Text.trimmed text)]) := by
  cases hparse : (Value.parse? text : Except (ValueError ν) (Value ν)) with
  | error error =>
    rw [derive_of_error hparse, resolveApart_of_error hparse]
    exact ⟨rfl, rfl, fun _ hresult => absurd hresult (by simp [Outcome.after, Outcome.failed]),
      fun _ _ => rfl, .inl rfl⟩
  | ok value =>
    have hdrawn := drawn_of_not_inherits (hinherits value hparse) property style sheet
    let v := built ⟨Text.trimmed text, value⟩ style sheet
    have hread : v.1.IsRead v.2 := isRead_built
    obtain ⟨hcontext, hconfig, -⟩ :=
      links_of_stylePass (stylePass_settle hread style.parent property)
    have hresolved := resolveAgainst_of_isRead hread style.parent property
    rw [derive_of_ok hparse, deriveRead_eq, hdrawn, resolveApart_of_ok hparse]
    dsimp only [Outcome.after, Outcome.around, List.nil_append]
    change v.1.resolveAgainst style.parent property v.2 = _ at hresolved
    rw [hresolved]
    cases hopen : v.1.requiresComputation with
    | true =>
      rw [if_pos rfl]
      refine ⟨rfl, rfl, fun resolution hresult => ?_, fun error hresult => ?_, .inl rfl⟩
      · rw [hresult]
        exact ⟨_, rfl, hcontext, hconfig, rfl, own?_set_self _ _ _⟩
      · rw [hresult]
    | false =>
      rw [settle_of_closed hopen] at hcontext hconfig ⊢
      rw [if_neg Bool.false_ne_true]
      refine ⟨rfl, rfl, fun resolution hresult => ?_, fun error hresult => absurd hresult (by simp),
        .inr ⟨rfl, ?_⟩⟩
      · exact ⟨_, rfl, hcontext, hconfig, rfl, own?_set_self _ _ _⟩
      · rw [List.append_nil, show v.1.text v.2 = _ from text_built _ style sheet]

/-- A box in a page. -/
def boxOfPage : Style Rat × Sheet Rat :=
  let (page, sheet) := Style.root .standard .empty
  (page.childOf, sheet)

theorem derive_agrees_apart_em :
    ∃ pixels v, (boxOfPage.1.derive .textIndent "1.5em" boxOfPage.2).result =
        .ok (.resolved pixels) ∧
      (Style.resolveApart .textIndent "1.5em" boxOfPage.1 boxOfPage.2).subject = some v ∧
      (boxOfPage.1.derive .textIndent "1.5em" boxOfPage.2).subject.own? .textIndent = some v := by
  have hresult : ∃ pixels, (boxOfPage.1.derive .textIndent "1.5em" boxOfPage.2).result =
      .ok (.resolved pixels) := ⟨24, by with_unfolding_all rfl⟩
  obtain ⟨pixels, hresult⟩ := hresult
  obtain ⟨-, -, hset, -⟩ := Style.derive_agrees_apart .textIndent "1.5em" boxOfPage.1 boxOfPage.2
    fun value _ => by
      show (Text.pieces _ (Text.trimmed "1.5em").toList).any _ = false
      decide +kernel
  obtain ⟨v, hv, -, -, -, hown⟩ := hset _ hresult
  exact ⟨pixels, v, hresult, hv, hown⟩

end ComputedCss
