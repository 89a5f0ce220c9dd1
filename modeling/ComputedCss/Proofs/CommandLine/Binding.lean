import ComputedCss.Proofs.CommandLine.Report
import ComputedCss.Proofs.Style.Origins

/-!
# The containing block of a command

A percentage that the style pass of a command leaves to layout refers to one axis of the containing
block, and the options may give the size along each axis. The layout pass is run as soon as they
give one of the two, and the other one counts as zero then.

* `Report.stylePass`: what a command derives before it looks at the containing block.
* `Report.BoundAsGiven`: what is pending is bound to the size that the options give for its axis,
  and otherwise stays pending.
* `boundAsGiven_iff`: this is so unless only the size along the other axis is given.
* `not_boundAsGiven_widthOnly`: half the height of a block of which the width is known.
-/

namespace ComputedCss

/-- The other dimension. -/
def Axis.other : Axis → Axis
  | width => height
  | height => width

namespace CommandLine

open Reading

/-- The size of the containing block along an axis, if the options give it. -/
def Options.size? (options : Options) : Axis → Option Float
  | .width => options.blockWidth
  | .height => options.blockHeight

namespace Report

/-- What a command derives before it looks at the containing block: the parent with its lengths, and
the value on the child. -/
def stylePass (options : Options) (config : Config Float) :
    Reading Float (Resolution Float × Style Float × Sheet Float) := do
  let root := rootStyle options config
  let sized ← setLength .fontSize options.parentFontSize root.1 root.2
  let parent ← setLength .lineHeight options.parentLineHeight sized.1 sized.2
  ofOutcome (parent.1.childOf.derive (.ofName options.property) options.value parent.2)

/-- The report of a length in pixels. -/
structure IsResolved (pixels : Float) (report : Report) : Prop where
  resolution : report.resolution = .resolved pixels
  state : report.state = .absolute pixels .px
  computed : report.computed = Scalar.text pixels ++ "px"
  number : report.number = some pixels

/-- The report of a percentage that waits for layout. -/
structure IsPending (property : Property) (percentage : Float) (axis : Axis) (report : Report) :
    Prop where
  resolution : report.resolution = .pendingLayout property percentage axis
  state : report.state = .pendingLayout percentage property axis
  number : report.number = none

/-- A percentage of the containing block is bound to the size that the options give along its axis,
and is pending when they give none. -/
def BoundAsGiven (options : Options) (config : Config Float) (property : Property)
    (percentage : Float) (axis : Axis) (report : Report) : Prop :=
  match options.size? axis with
  | some size => report.IsResolved (config.snap (percentage / 100.0 * size))
  | none => report.IsPending property percentage axis

end Report

variable {options : Options} {config : Config Float} {base : Style Float × Sheet Float}

/-! ## The style pass -/

theorem compute_eq_bind (options : Options) (config : Config Float) :
    Report.compute options config = Report.stylePass options config >>= Report.finish options := by
  unfold Report.stylePass
  simp only [bind_assoc]
  rfl

theorem eq_of_setLength {property : Property} {length : Option Float}
    {set : Style Float × Sheet Float}
    (h : result (Report.setLength property length base.1 base.2) = .ok set) :
    set = withLength property length base := by
  rcases setLength_cases property length base with ⟨pixels, error, -, -, herror⟩ | hok
  · exact absurd (herror.symm.trans h) (by simp)
  · exact Except.ok.inj (h.symm.trans hok)

theorem childOutcome_of_stylePass {resolution : Resolution Float} {style : Style Float}
    {sheet : Sheet Float}
    (h : result (Report.stylePass options config) = .ok (resolution, style, sheet)) :
    (childOutcome options config).result = .ok resolution ∧
      (childOutcome options config).subject = style ∧
      (childOutcome options config).sheet = sheet := by
  obtain ⟨sized, hsized, hrest⟩ := result_bind_eq_ok.mp h
  obtain ⟨parent, hparent, hchild⟩ := result_bind_eq_ok.mp hrest
  obtain rfl := eq_of_setLength hsized
  obtain rfl := eq_of_setLength hparent
  change result (Report.ofOutcome (childOutcome options config)) = _ at hchild
  rw [result_ofOutcome] at hchild
  cases hresult : (childOutcome options config).result with
  | error error =>
    rw [hresult] at hchild
    exact absurd hchild (by simp [Except.map])
  | ok resolution' =>
    rw [hresult] at hchild
    obtain ⟨rfl, rfl, rfl⟩ : resolution' = resolution ∧ _ = style ∧ _ = sheet := by
      simpa [Except.map] using hchild
    exact ⟨rfl, rfl, rfl⟩

/-! ## The settings of what is derived -/

/-- A style without a parent that has the given settings, as its values do. -/
structure IsRootWith (config : Config Float) (base : Style Float × Sheet Float) : Prop where
  parent : base.1.parent = none
  config : base.1.config = config
  originates : base.1.Originates

theorem IsRootWith.line (h : IsRootWith config base) {ancestor : Style Float}
    (hancestor : base.1.Lineage ancestor) : ancestor = base.1 := by
  rcases hancestor.self_or_parent with hsame | ⟨parent, hparent, -⟩
  · exact hsame
  · rw [h.parent] at hparent
    exact absurd hparent (by simp)

theorem isRootWith_root (options : Options) (config : Config Float) :
    IsRootWith (settings options config) (rootStyle options config) :=
  ⟨rfl, rfl, Style.originates_root (settings options config) .empty⟩

theorem IsRootWith.withLength (h : IsRootWith config base) (property : Property)
    (length : Option Float) : IsRootWith config (withLength property length base) := by
  cases length with
  | none => exact h
  | some pixels =>
    have hdeclared : Style.Declares base.2 base.1.parent := by
      intro property w hw
      rw [h.parent] at hw
      exact absurd hw (by simp [Style.parentLookup?])
    have horigins := Style.originates_derive hdeclared
      (fun ancestor hline => h.line hline ▸ h.originates) property (Scalar.text pixels ++ "px")
    obtain ⟨hparent, hconfig⟩ :=
      Style.links_derive property (Scalar.text pixels ++ "px") base.1 base.2
    exact ⟨hparent.trans h.parent, hconfig.trans h.config, horigins⟩

theorem isRootWith_parentStyle (options : Options) (config : Config Float) :
    IsRootWith (settings options config) (parentStyle options config) :=
  ((isRootWith_root options config).withLength _ _).withLength _ _

theorem config_of_child {v : Style.Entry Float} {resolution : Resolution Float}
    (hresult : (childOutcome options config).result = .ok resolution)
    (hown : (childOutcome options config).subject.own? (.ofName options.property) = some v) :
    v.config = settings options config := by
  have hparent := isRootWith_parentStyle options config
  have hdeclared : Style.Declares (parentStyle options config).2
      (parentStyle options config).1.childOf.parent := fun _ _ hw =>
    Style.declared_of_parentLookup? (line_childOf (isSoundRoot_parentStyle options config)) hw
  have horigins : ∀ ancestor, (parentStyle options config).1.childOf.Lineage ancestor →
      ancestor.Originates := by
    intro ancestor hancestor
    rcases Style.lineage_childOf hancestor with rfl | hline
    · exact fun property v hmem => absurd hmem List.not_mem_nil
    · exact hparent.line hline ▸ hparent.originates
  obtain ⟨value, w, origin, -, hset, hline, hw, -⟩ :=
    Style.comesFrom_of_derive hdeclared horigins hresult
  change (childOutcome options config).subject = _ at hset
  rw [hset, Style.own?_set_self] at hown
  obtain rfl := Option.some.inj hown
  rw [hw.config]
  rcases Style.lineage_childOf hline with rfl | hline
  · exact hparent.config
  · rw [hparent.line hline]
    exact hparent.config

/-! ## The layout pass -/

/-- What a command answers for a percentage that is left to layout. -/
def laidOut (options : Options) (config : Config Float) (property : Property) (percentage : Float)
    (axis : Axis) : Resolution Float :=
  match Report.block? options with
  | none => .pendingLayout property percentage axis
  | some block => .resolved (config.snap (percentage / 100.0 * block.dimension axis))

theorem layOut_of_pendingLayout {v : Style.Entry Float} {percentage : Float} {property : Property}
    {axis : Axis} (hstate : v.state = .pendingLayout percentage property axis) (options : Options)
    (sheet : Sheet Float) :
    ∃ v' sheet', result (Report.layOut (Report.block? options) v
        (.pendingLayout property percentage axis) sheet) =
      .ok (laidOut options v.config property percentage axis, v', sheet') := by
  unfold laidOut Report.layOut
  cases Report.block? options with
  | none => exact ⟨v, sheet, rfl⟩
  | some block =>
    have hpending : v.isPending = true := by
      rw [ComputedValue.isPending, hstate]
      rfl
    have hbind := ComputedValue.bind_of_pendingLayout hstate block sheet
    have houtcome := result_ofOutcome (v.bind block sheet)
    rw [hbind] at houtcome
    dsimp only
    rw [if_pos hpending, hbind]
    exact ⟨_, _, result_bind_of_ok houtcome _⟩

theorem exists_report {property : Property} {percentage : Float} {axis : Axis} {style : Style Float}
    {sheet : Sheet Float} (h : result (Report.stylePass options config) =
      .ok (.pendingLayout property percentage axis, style, sheet)) :
    ∃ report, result (Report.compute options config) = .ok (some report) ∧
      report.Consistent options ∧
      report.resolution = laidOut options (settings options config) property percentage axis := by
  obtain ⟨hresult, rfl, rfl⟩ := childOutcome_of_stylePass h
  have hline := line_childOf (isSoundRoot_parentStyle options config)
  have hderived : ∃ v,
      (childOutcome options config).subject.own? (.ofName options.property) = some v ∧
      v.state.Stands (.ofName options.property) ∧
      Agrees (childOutcome options config).sheet v (.pendingLayout property percentage axis) :=
    agrees_derive (fun _ => Style.declared_of_parentLookup? hline) hresult
  obtain ⟨v, hown, -, hagrees⟩ := hderived
  have hconfig : v.config = settings options config := config_of_child hresult hown
  obtain ⟨report, hconsistent, hfinish⟩ := finish_consistent hown hagrees
  refine ⟨report, ?_, hconsistent, ?_⟩
  · rw [compute_eq_bind, result_bind_of_ok h]
    exact hfinish
  · obtain ⟨v', sheet', hlaid⟩ := layOut_of_pendingLayout hagrees.state_of_pendingLayout options
      (childOutcome options config).sheet
    have hsame := hfinish.symm.trans (result_finish hown hlaid)
    obtain rfl := Option.some.inj (Except.ok.inj hsame)
    rw [← hconfig]
    rfl

theorem run_of_report {readers : Readers} {words : List String}
    {readFile : String → Option String} {report : Report}
    (hwords : readers.options words = .ok options)
    (hconfig : readers.loadConfig options readFile = .ok config)
    (hcompute : result (Report.compute options config) = .ok (some report)) :
    run words readFile readers =
      ⟨0, report.text options.printsJson, shownNotices options config⟩ := by
  unfold run
  rw [hwords]
  dsimp only
  rw [hconfig]
  exact respond_of_ok hcompute

/-! ## The sizes that are given -/

theorem laidOut_eq (options : Options) (config : Config Float) (property : Property)
    (percentage : Float) (axis : Axis) : laidOut options config property percentage axis =
      if (options.size? axis).isSome || (options.size? axis.other).isSome then
        .resolved (config.snap (percentage / 100.0 * (options.size? axis).getD 0.0))
      else .pendingLayout property percentage axis := by
  unfold laidOut Report.block?
  cases axis with
  | width =>
    rw [Axis.other, Options.size?, Options.size?]
    split_ifs <;> rfl
  | height =>
    rw [Axis.other, Options.size?, Options.size?, Bool.or_comm]
    split_ifs <;> rfl

theorem Report.Consistent.isResolved {report : Report} {pixels : Float}
    (h : report.Consistent options) (hresolution : report.resolution = .resolved pixels) :
    report.IsResolved pixels := by
  obtain ⟨hstate, hcomputed, hnumber⟩ := h.resolved pixels hresolution
  exact ⟨hresolution, hstate, hcomputed, hnumber⟩

theorem Report.Consistent.isPending {report : Report} {property : Property} {percentage : Float}
    {axis : Axis} (h : report.Consistent options)
    (hresolution : report.resolution = .pendingLayout property percentage axis) :
    report.IsPending property percentage axis := by
  obtain ⟨-, -, hstate, hnumber⟩ := h.pendingLayout property percentage axis hresolution
  exact ⟨hresolution, hstate, hnumber⟩

/-- **A command binds a percentage to the size that is given for its axis, and to no other, unless
only the size along the other axis is given.** Then it is bound as well, and to zero. -/
theorem boundAsGiven_iff {readers : Readers} {words : List String}
    {readFile : String → Option String} (hwords : readers.options words = .ok options)
    (hconfig : readers.loadConfig options readFile = .ok config)
    {property : Property} {percentage : Float} {axis : Axis} {style : Style Float}
    {sheet : Sheet Float} (hpass : result (Report.stylePass options config) =
      .ok (.pendingLayout property percentage axis, style, sheet)) :
    ∃ report, result (Report.compute options config) = .ok (some report) ∧
      run words readFile readers =
        ⟨0, report.text options.printsJson, shownNotices options config⟩ ∧
      (report.BoundAsGiven options (settings options config) property percentage axis ↔
        (options.size? axis).isSome = true ∨ options.size? axis.other = none) ∧
      (options.size? axis = none → (options.size? axis.other).isSome = true →
        report.IsResolved ((settings options config).snap (percentage / 100.0 * 0.0))) := by
  obtain ⟨report, hcompute, hconsistent, hresolution⟩ := exists_report hpass
  rw [laidOut_eq] at hresolution
  refine ⟨report, hcompute, run_of_report hwords hconfig hcompute, ?_⟩
  unfold Report.BoundAsGiven
  cases hsize : options.size? axis with
  | some size =>
    rw [hsize] at hresolution
    exact ⟨iff_of_true (hconsistent.isResolved hresolution) (.inl rfl),
      fun hnone => absurd hnone (by simp)⟩
  | none =>
    rw [hsize] at hresolution
    cases hother : options.size? axis.other with
    | none =>
      rw [hother] at hresolution
      exact ⟨iff_of_true (hconsistent.isPending hresolution) (.inr rfl),
        fun _ hsome => absurd hsome (by simp)⟩
    | some size =>
      rw [hother] at hresolution
      refine ⟨iff_of_false (fun hpending => ?_) (by simp),
        fun _ _ => hconsistent.isResolved hresolution⟩
      exact absurd (hpending.resolution.symm.trans hresolution) (by simp)

/-- Half of a height of 600 pixels. -/
theorem boundAsGiven_heightOnly :
    let words := ["-p", "top", "50%", "--cb-height", "600"]
    ∃ (options : Options) (report : Report), Options.read words = .ok options ∧
      options.size? .height = some 600 ∧
      report.BoundAsGiven options (settings options .standard) .top 50 .height ∧
      run words (fun _ => none) =
        ⟨0, report.text options.printsJson, shownNotices options .standard⟩ := by
  intro words
  have hoptions : ∃ options, Readers.standard.options words = .ok options ∧
      Readers.standard.loadConfig options (fun _ => none) = .ok .standard ∧
      options.size? .height = some 600 ∧ ∃ style sheet,
        result (Report.stylePass options .standard) =
          .ok (.pendingLayout .top 50 .height, style, sheet) :=
    ⟨_, by with_unfolding_all rfl, rfl, by with_unfolding_all rfl, _, _, by with_unfolding_all rfl⟩
  obtain ⟨options, hwords, hconfig, hsize, style, sheet, hpass⟩ := hoptions
  obtain ⟨report, -, hrun, hbound, -⟩ := boundAsGiven_iff hwords hconfig hpass
  exact ⟨options, report, hwords, hsize, hbound.mpr (.inl (by rw [hsize]; rfl)), hrun⟩

/-- Half of the height of a block of which only the width is given: the command answers zero. -/
theorem not_boundAsGiven_widthOnly :
    let words := ["-p", "top", "50%", "--cb-width", "800"]
    ∃ (options : Options) (report : Report), Options.read words = .ok options ∧
      options.size? .height = none ∧
      (∃ style sheet, result (Report.stylePass options .standard) =
        .ok (.pendingLayout .top 50 .height, style, sheet)) ∧
      run words (fun _ => none) =
        ⟨0, report.text options.printsJson, shownNotices options .standard⟩ ∧
      report.resolution = .resolved 0 ∧
      ¬ report.BoundAsGiven options (settings options .standard) .top 50 .height := by
  intro words
  have hoptions : ∃ options, Readers.standard.options words = .ok options ∧
      Readers.standard.loadConfig options (fun _ => none) = .ok .standard ∧
      settings options .standard = .standard ∧ options.size? .height = none ∧
      (options.size? .width).isSome = true ∧ ∃ style sheet,
        result (Report.stylePass options .standard) =
          .ok (.pendingLayout .top 50 .height, style, sheet) :=
    ⟨_, by with_unfolding_all rfl, rfl, rfl, by with_unfolding_all rfl, by with_unfolding_all rfl,
      _, _, by with_unfolding_all rfl⟩
  obtain ⟨options, hwords, hconfig, hsettings, hheight, hwidth, style, sheet, hpass⟩ := hoptions
  obtain ⟨report, hcompute, -, hresolution⟩ := exists_report hpass
  have hzero : (Config.standard : Config Float).snap (50 / 100.0 * 0.0) = 0 := by decide +kernel
  rw [laidOut_eq, hheight, Axis.other, hwidth, hsettings] at hresolution
  refine ⟨options, report, hwords, hheight, ⟨style, sheet, hpass⟩,
    run_of_report hwords hconfig hcompute, ?_, fun hbound => ?_⟩
  · rw [hresolution, ← hzero]
    rfl
  · rw [Report.BoundAsGiven, hheight] at hbound
    exact absurd (hbound.resolution.symm.trans hresolution) (by simp)

end CommandLine

end ComputedCss
