import ComputedCss.CommandLine.Run
import ComputedCss.Proofs.Reading
import ComputedCss.Proofs.Style.Answers

/-!
# What a command reports

A command derives one value on a child of a parent style, which it makes up from its options. Its
report puts together the answer of that derivation, or of the layout pass after it, and what the
value and its declaration say then.

* `Report.Consistent`: the parts of a report agree.
* `Report.DeriveFails`: one of the derivations of a command fails.
* `run_cases`: a command whose words are accepted has settings that cannot be read, or fails with one
  of its derivations, or prints a consistent report.
-/

namespace ComputedCss

namespace CommandLine

open Reading

/-! ## The styles of a command -/

/-- The settings of the styles. -/
def settings (options : Options) (config : Config Float) : Config Float :=
  if options.keepsFractions then { config with snapsToPixels := false } else config

/-- A style with a length derived on it, if there is one. -/
def withLength (property : Property) (length : Option Float) (base : Style Float × Sheet Float) :
    Style Float × Sheet Float :=
  match length with
  | none => base
  | some pixels =>
    let outcome := base.1.derive property (Scalar.text pixels ++ "px") base.2
    (outcome.subject, outcome.sheet)

/-- The parent before the options have given it any length. -/
def rootStyle (options : Options) (config : Config Float) : Style Float × Sheet Float :=
  Style.root (settings options config) .empty

/-- The parent with its font size. -/
def sizedStyle (options : Options) (config : Config Float) : Style Float × Sheet Float :=
  withLength .fontSize options.parentFontSize (rootStyle options config)

/-- The parent with its font size and its line height. -/
def parentStyle (options : Options) (config : Config Float) : Style Float × Sheet Float :=
  withLength .lineHeight options.parentLineHeight (sizedStyle options config)

/-- The derivation of the value on the child. -/
def childOutcome (options : Options) (config : Config Float) :
    Outcome Float (Style Float) (Resolution Float) :=
  (parentStyle options config).1.childOf.derive (.ofName options.property) options.value
    (parentStyle options config).2

/-- One of the derivations of a command fails: that of a length that the options give the parent, or
that of the value. -/
inductive Report.DeriveFails (options : Options) (config : Config Float) : ValueError Float → Prop
  | fontSize (pixels : Float) (error : ValueError Float) : options.parentFontSize = some pixels →
    ((rootStyle options config).1.derive .fontSize (Scalar.text pixels ++ "px")
      (rootStyle options config).2).result = .error error → DeriveFails options config error
  | lineHeight (pixels : Float) (error : ValueError Float) : options.parentLineHeight = some pixels →
    ((sizedStyle options config).1.derive .lineHeight (Scalar.text pixels ++ "px")
      (sizedStyle options config).2).result = .error error → DeriveFails options config error
  | value (error : ValueError Float) : (childOutcome options config).result = .error error →
    DeriveFails options config error

/-- The style has no parent and is sound. -/
structure IsSoundRoot (base : Style Float × Sheet Float) : Prop where
  parent : base.1.parent = none
  sound : base.1.Sound base.2

variable {base : Style Float × Sheet Float} {options : Options} {config : Config Float}

theorem IsSoundRoot.line (h : IsSoundRoot base) :
    ∀ ancestor, base.1.Lineage ancestor → ancestor.Sound base.2 := by
  intro ancestor hancestor
  rcases hancestor.self_or_parent with rfl | ⟨parent, hparent, -⟩
  · exact h.sound
  · rw [h.parent] at hparent
    exact absurd hparent (by simp)

theorem IsSoundRoot.withLength (h : IsSoundRoot base) (property : Property)
    (length : Option Float) : IsSoundRoot (withLength property length base) := by
  cases length with
  | none => exact h
  | some pixels =>
    have hkeeps := Style.keeps_derive h.line property (Scalar.text pixels ++ "px")
    exact ⟨hkeeps.parent.trans h.parent, hkeeps.sound⟩

theorem isSoundRoot_parentStyle (options : Options) (config : Config Float) :
    IsSoundRoot (parentStyle options config) := by
  have hroot : IsSoundRoot (rootStyle options config) :=
    ⟨rfl, Style.sound_root (settings options config) .empty⟩
  exact (hroot.withLength _ _).withLength _ _

theorem line_childOf (h : IsSoundRoot base) :
    ∀ ancestor, base.1.childOf.Lineage ancestor → ancestor.Sound base.2 := by
  intro ancestor hancestor
  rcases Style.lineage_childOf hancestor with rfl | hline
  · exact Style.sound_childOf base.1 base.2
  · exact h.line ancestor hline

/-! ## The steps of the computation -/

theorem result_ofOutcome {σ α : Type} (outcome : Outcome Float σ α) :
    result (Report.ofOutcome outcome) =
      outcome.result.map fun a => (a, outcome.subject, outcome.sheet) := rfl

theorem setLength_cases (property : Property) (length : Option Float)
    (base : Style Float × Sheet Float) :
    (∃ pixels error, length = some pixels ∧
      (base.1.derive property (Scalar.text pixels ++ "px") base.2).result = .error error ∧
      result (Report.setLength property length base.1 base.2) = .error error) ∨
    result (Report.setLength property length base.1 base.2) =
      .ok (withLength property length base) := by
  cases length with
  | none => exact .inr rfl
  | some pixels =>
    have houtcome := result_ofOutcome (base.1.derive property (Scalar.text pixels ++ "px") base.2)
    cases hresult : (base.1.derive property (Scalar.text pixels ++ "px") base.2).result with
    | error error =>
      rw [hresult] at houtcome
      exact .inl ⟨pixels, error, rfl, hresult, result_bind_of_error houtcome _⟩
    | ok resolution =>
      rw [hresult] at houtcome
      exact .inr (result_bind_of_ok houtcome _)

theorem layOut_agrees {v : Style.Entry Float} {sheet : Sheet Float} {resolution : Resolution Float}
    (h : Agrees sheet v resolution) (block : Option (ContainingBlock Float)) :
    ∃ resolution' v' sheet',
      result (Report.layOut block v resolution sheet) = .ok (resolution', v', sheet') ∧
      Agrees sheet' v' resolution' ∧ (block.isSome = true → v'.isPending = false) := by
  cases block with
  | none => exact ⟨resolution, v, sheet, rfl, h, fun hsome => absurd hsome (by simp)⟩
  | some block =>
    unfold Report.layOut
    dsimp only
    cases hpending : v.isPending with
    | false => exact ⟨resolution, v, sheet, rfl, h, fun _ => hpending⟩
    | true =>
      have hready : v.kind = .scalar ∧ v.declaration < sheet.declarations.length := by
        cases h with
        | resolved pixels hkind hstate hwritten =>
          rw [ComputedValue.isPending, hstate] at hpending
          exact absurd hpending Bool.false_ne_true
        | pendingLayout property percentage axis hkind hstate hdeclared => exact ⟨hkind, hdeclared⟩
        | unchanged hopen =>
          rw [ComputedValue.not_isPending_of_openNumber? hopen] at hpending
          exact absurd hpending Bool.false_ne_true
      obtain ⟨pixels, hresult, hagrees, hbound⟩ := agrees_bind hready.1 hpending hready.2 block
      refine ⟨_, _, _, ?_, hagrees, fun _ => hbound⟩
      have houtcome := result_ofOutcome (v.bind block sheet)
      rw [hresult] at houtcome
      rw [if_pos rfl]
      exact result_bind_of_ok houtcome _

/-! ## Reports -/

/-- The parts of a report agree. What has been resolved is a length in pixels, which the declaration
says and which is the number of the report. What waits for layout had no containing block, and has no
number. What was left unchanged needs neither a parent nor a containing block. -/
structure Report.Consistent (options : Options) (report : Report) : Prop where
  resolved : ∀ pixels, report.resolution = .resolved pixels →
    report.state = .absolute pixels .px ∧ report.computed = Scalar.text pixels ++ "px" ∧
      report.number = some pixels
  pendingLayout : ∀ property percentage axis,
    report.resolution = .pendingLayout property percentage axis →
    options.blockWidth = none ∧ options.blockHeight = none ∧
      report.state = .pendingLayout percentage property axis ∧ report.number = none
  unchanged : report.resolution = .unchanged →
    (∃ x type, report.state = .absolute x type) ∨ report.state = .nonNumeric

theorem consistent_of_agrees {v : Style.Entry Float} {sheet : Sheet Float}
    {resolution : Resolution Float} (h : Agrees sheet v resolution)
    (hblock : (Report.block? options).isSome = true → v.isPending = false) (property : Property)
    (specified : String) :
    (Report.of property specified resolution v sheet).Consistent options := by
  cases h with
  | resolved pixels hkind hstate hwritten =>
    refine ⟨fun x hx => ?_, fun _ _ _ hother => absurd hother (by simp [Report.of]),
      fun hother => absurd hother (by simp [Report.of])⟩
    obtain rfl : pixels = x := by simpa [Report.of] using hx
    have hnumber : v.number sheet = .ok pixels :=
      ComputedValue.number_eq_ok.mpr ⟨hkind, .px, hstate⟩
    refine ⟨hstate, ?_, ?_⟩
    · show (sheet.get v.declaration).text = _
      rw [hwritten]
      rfl
    · show (v.number sheet).toOption = _
      rw [hnumber]
      rfl
  | pendingLayout pending percentage axis hkind hstate hdeclared =>
    refine ⟨fun _ hother => absurd hother (by simp [Report.of]), fun property' x axis' hx => ?_,
      fun hother => absurd hother (by simp [Report.of])⟩
    obtain ⟨rfl, rfl, rfl⟩ : pending = property' ∧ percentage = x ∧ axis = axis' := by
      simpa [Report.of] using hx
    have hpending : v.isPending = true := by
      rw [ComputedValue.isPending, hstate]
      rfl
    -- With either dimension the value would have been bound.
    have hnone : ¬ (options.blockWidth.isSome || options.blockHeight.isSome) = true := by
      intro hsome
      have hnot := hblock (by rw [Report.block?, if_pos hsome]; rfl)
      rw [hpending] at hnot
      exact Bool.noConfusion hnot
    obtain ⟨hwidth, hheight⟩ : options.blockWidth = none ∧ options.blockHeight = none := by
      simpa using hnone
    obtain ⟨error, herror⟩ := ComputedValue.exists_error_of_number (v := v)
      (fun x type habsolute => by rw [hstate] at habsolute; exact absurd habsolute (by simp)) sheet
    refine ⟨hwidth, hheight, hstate, ?_⟩
    show (v.number sheet).toOption = none
    rw [herror]
    rfl
  | unchanged hopen =>
    refine ⟨fun _ hother => absurd hother (by simp [Report.of]),
      fun _ _ _ hother => absurd hother (by simp [Report.of]), fun _ => ?_⟩
    show (∃ x type, v.state = .absolute x type) ∨ v.state = .nonNumeric
    cases hstate : v.state with
    | absolute x type => exact .inl ⟨x, type, rfl⟩
    | nonNumeric => exact .inr rfl
    | _ =>
      rw [hstate] at hopen
      exact absurd hopen (by simp [ComputedValue.openNumber?])

/-- What a command computes once the value has been derived on the child. -/
def Report.finish (options : Options) (derived : Resolution Float × Style Float × Sheet Float) :
    Reading Float (Option Report) :=
  match derived.2.1.own? (.ofName options.property) with
  | none => pure none
  | some v => do
    let laid ← Report.layOut (Report.block? options) v derived.1 derived.2.2
    pure (some (Report.of (.ofName options.property) options.value laid.1 laid.2.1 laid.2.2))

theorem result_finish {style : Style Float} {sheet sheet' : Sheet Float} {v v' : Style.Entry Float}
    {resolution resolution' : Resolution Float}
    (hown : style.own? (.ofName options.property) = some v)
    (hlaid : result (Report.layOut (Report.block? options) v resolution sheet) =
      .ok (resolution', v', sheet')) :
    result (Report.finish options (resolution, style, sheet)) =
      .ok (some (Report.of (.ofName options.property) options.value resolution' v' sheet')) := by
  unfold Report.finish
  dsimp only
  rw [hown]
  exact result_bind_of_ok hlaid _

theorem finish_consistent {style : Style Float} {sheet : Sheet Float} {v : Style.Entry Float}
    {resolution : Resolution Float} (hown : style.own? (.ofName options.property) = some v)
    (hagrees : Agrees sheet v resolution) :
    ∃ report, report.Consistent options ∧
      result (Report.finish options (resolution, style, sheet)) = .ok (some report) := by
  obtain ⟨resolution', v', sheet', hlaid, hagrees', hblock⟩ :=
    layOut_agrees hagrees (Report.block? options)
  exact ⟨Report.of (.ofName options.property) options.value resolution' v' sheet',
    consistent_of_agrees hagrees' hblock _ _, result_finish hown hlaid⟩

/-- **The computation of a command fails with one of its derivations, or gives a consistent report.**
It always has a value to report. -/
theorem compute_cases (options : Options) (config : Config Float) :
    (∃ error, Report.DeriveFails options config error ∧
      result (Report.compute options config) = .error error) ∨
    ∃ report, report.Consistent options ∧
      result (Report.compute options config) = .ok (some report) := by
  rcases setLength_cases .fontSize options.parentFontSize (rootStyle options config) with
    ⟨pixels, error, hgiven, hderive, hresult⟩ | hsized
  · exact .inl ⟨error, .fontSize pixels error hgiven hderive, result_bind_of_error hresult _⟩
  rcases setLength_cases .lineHeight options.parentLineHeight (sizedStyle options config) with
    ⟨pixels, error, hgiven, hderive, hresult⟩ | hparent
  · exact .inl ⟨error, .lineHeight pixels error hgiven hderive,
      (result_bind_of_ok hsized _).trans (result_bind_of_error hresult _)⟩
  have hchild : result (Report.compute options config) =
      result (Report.ofOutcome (childOutcome options config) >>= Report.finish options) :=
    (result_bind_of_ok hsized _).trans (result_bind_of_ok hparent _)
  rw [hchild]
  have houtcome := result_ofOutcome (childOutcome options config)
  cases hresult : (childOutcome options config).result with
  | error error =>
    rw [hresult] at houtcome
    exact .inl ⟨error, .value error hresult, result_bind_of_error houtcome _⟩
  | ok resolution =>
    rw [hresult] at houtcome
    rw [result_bind_of_ok houtcome]
    have hline := line_childOf (isSoundRoot_parentStyle options config)
    obtain ⟨v, hown, -, hagrees⟩ :=
      agrees_derive (fun _ => Style.declared_of_parentLookup? hline) hresult
    exact .inr (finish_consistent hown hagrees)

/-- The lines that a command shows before its report: each notice once. -/
def shownNotices (options : Options) (config : Config Float) : List String :=
  (Log.empty.recordAll (Report.compute options config).run.notices).2.map Notice.line

theorem respond_of_ok {report : Report}
    (h : result (Report.compute options config) = .ok (some report)) :
    respond options config =
      ⟨0, report.text options.printsJson, shownNotices options config⟩ := by
  unfold respond
  dsimp only
  rw [show (Report.compute options config).run.value = _ from h]
  rfl

theorem respond_of_error {error : ValueError Float}
    (h : result (Report.compute options config) = .error error) :
    respond options config = failure (shownNotices options config) error.message := by
  unfold respond
  dsimp only
  rw [show (Report.compute options config).run.value = _ from h]
  rfl

/-- **A command whose words are accepted prints a consistent report, or fails for a reason.** It fails
when its settings cannot be read, and with the message of a derivation that fails. -/
theorem run_cases {readers : Readers} {words : List String} {options : Options}
    (h : readers.options words = .ok options) (readFile : String → Option String) :
    (∃ message, readers.loadConfig options readFile = .error message ∧
      run words readFile readers = failure [] message) ∨
    ∃ config, readers.loadConfig options readFile = .ok config ∧
      ((∃ error, Report.DeriveFails options config error ∧
          result (Report.compute options config) = .error error ∧
          run words readFile readers = failure (shownNotices options config) error.message) ∨
        ∃ report, report.Consistent options ∧
          result (Report.compute options config) = .ok (some report) ∧
          run words readFile readers =
            ⟨0, report.text options.printsJson, shownNotices options config⟩) := by
  unfold run
  rw [h]
  dsimp only
  cases hconfig : readers.loadConfig options readFile with
  | error message => exact .inl ⟨message, rfl, rfl⟩
  | ok config =>
    refine .inr ⟨config, rfl, ?_⟩
    rcases compute_cases options config with ⟨error, hfails, hresult⟩ | ⟨report, hreport, hresult⟩
    · exact .inl ⟨error, hfails, hresult, respond_of_error hresult⟩
    · exact .inr ⟨report, hreport, hresult, respond_of_ok hresult⟩

/-- Half the height of a containing block of 600 pixels. -/
theorem run_cases_halfOfBlock :
    let words := ["-p", "height", "50%", "--cb-height", "600"]
    ∃ (options : Options) (report : Report), Options.read words = .ok options ∧ report.Consistent options ∧
      report.resolution = .resolved 300 ∧ report.computed = Scalar.text (300 : Float) ++ "px" ∧
      run words (fun _ => none) =
        ⟨0, report.text options.printsJson, shownNotices options .standard⟩ := by
  intro words
  have hoptions : ∃ (options : Options) (report : Report),
      Readers.standard.options words = .ok options ∧
      Readers.standard.loadConfig options (fun _ => none) = .ok .standard ∧
      result (Report.compute options .standard) = .ok (some report) ∧
      report.resolution = .resolved 300 :=
    ⟨_, _, by with_unfolding_all rfl, rfl, by with_unfolding_all rfl, by with_unfolding_all rfl⟩
  obtain ⟨options, report, hread, hload, hcompute, hresolution⟩ := hoptions
  rcases run_cases hread (fun _ => none) with ⟨message, herror, -⟩ |
    ⟨config, hconfig, ⟨error, -, herror, -⟩ | ⟨report', hreport, hresult, hrun⟩⟩
  · rw [hload] at herror
    exact absurd herror (by simp)
  · obtain rfl : Config.standard = config := Except.ok.inj (hload.symm.trans hconfig)
    rw [hcompute] at herror
    exact absurd herror (by simp)
  · obtain rfl : Config.standard = config := Except.ok.inj (hload.symm.trans hconfig)
    obtain rfl : report = report' := Option.some.inj (Except.ok.inj (hcompute.symm.trans hresult))
    exact ⟨options, report, hread, hreport, hresolution,
      (hreport.resolved 300 hresolution).2.1, hrun⟩

end CommandLine

end ComputedCss
