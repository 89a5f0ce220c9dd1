import ComputedCss.Number.Double
import ComputedCss.Proofs.ComputedValue.Agreement
import ComputedCss.Proofs.Session.Declared
import ComputedCss.Proofs.Session.Typed

/-!
# Layout among other holders

Some percentages wait for layout, and each is bound to a containing block of its own. They may all
stand over one declaration, and in between other holders do to the sheet what they like.

* `Holders.play`: bindings and the turns of the others, one after the other.
* `Holders.value_play`: what a play makes of a value depends on its first block only.
* `bound_to_own_block`: what each binding answers and writes, and that two plays agree.
-/

namespace ComputedCss

/-- A turn while some values wait for layout. -/
inductive LayoutTurn (ι ν : Type) where
  /-- One of the values is bound. -/
  | bind (i : ι) (block : ContainingBlock ν)
  /-- Anything that the other holders do to the sheet. -/
  | others (change : Sheet ν → Sheet ν)

variable {ι ν : Type} [DecidableEq ι]

/-- The block to which a turn binds a value. -/
def LayoutTurn.block? (i : ι) : LayoutTurn ι ν → Option (ContainingBlock ν)
  | bind j block => if j = i then some block else none
  | others _ => none

/-- The first block to which some turns bind a value. -/
def firstBlock? (i : ι) (turns : List (LayoutTurn ι ν)) : Option (ContainingBlock ν) :=
  turns.findSome? (LayoutTurn.block? i)

theorem firstBlock?_append {i : ι} {before : List (LayoutTurn ι ν)}
    (hbefore : ∀ block, .bind i block ∉ before) (block : ContainingBlock ν)
    (after : List (LayoutTurn ι ν)) :
    firstBlock? i before = none ∧ firstBlock? i (before ++ .bind i block :: after) = some block := by
  have hnone : firstBlock? i before = none := by
    refine List.findSome?_eq_none_iff.mpr fun turn hturn => ?_
    cases turn with
    | bind j block' =>
      refine if_neg ?_
      rintro rfl
      exact hbefore block' hturn
    | others change => rfl
  have hfirst : LayoutTurn.block? i (.bind i block) = some block := if_pos rfl
  refine ⟨hnone, ?_⟩
  unfold firstBlock? at hnone ⊢
  rw [List.findSome?_append, hnone, Option.none_or, List.findSome?_cons, hfirst]

variable [Scalar ν]

namespace ComputedValue

variable {v : Style.Entry ν} {sheet : Sheet ν}

theorem subject_bind (h : ∀ x type, v.state ≠ .relative x type) (block : ContainingBlock ν)
    (sheet : Sheet ν) : (v.bind block sheet).subject = v.bound block := by
  cases hpending : v.isPending with
  | true =>
    obtain ⟨pixels, hbind⟩ := bind_of_isPending hpending block
    rw [hbind]
  | false =>
    have hclosed : v.state.isOpen = false := by
      cases hstate : v.state with
      | relative x type => exact absurd hstate (h x type)
      | pendingLayout =>
        rw [isPending, hstate] at hpending
        exact absurd hpending.symm Bool.false_ne_true
      | _ => rfl
    rw [bound_of_not_isPending hpending]
    exact (unaffected_of_closed (pass_bind block v sheet) hclosed).1

theorem bound_bound (block other : ContainingBlock ν) (v : Style.Entry ν) :
    (v.bound block).bound other = v.bound block :=
  bound_of_not_isPending (isPending_bound block v) other

theorem bound_ne_relative (h : ∀ x type, v.state ≠ .relative x type) (block : ContainingBlock ν)
    (x : ν) (type : ValueType) : (v.bound block).state ≠ .relative x type := by
  unfold bound
  split
  · simp
  · exact h x type

theorem state_bound {percentage : ν} {property : Property} {axis : Axis}
    (hstate : v.state = .pendingLayout percentage property axis) (block : ContainingBlock ν) :
    (v.bound block).state =
      .absolute (v.config.snap (percentage / 100.0 * block.dimension axis)) .px := by
  unfold bound
  rw [hstate]

omit [Scalar ν] in
theorem number_eq_of_ne_nonNumeric (h : v.state ≠ .nonNumeric) (sheet other : Sheet ν) :
    v.number sheet = v.number other := by
  unfold number
  cases hstate : v.state with
  | nonNumeric => exact absurd hstate h
  | _ => rfl

end ComputedValue

namespace Holders

variable {holders : Holders ι ν} {turns : List (LayoutTurn ι ν)}

/-! ## Plays -/

/-- What a turn leaves behind. -/
def turn (holders : Holders ι ν) : LayoutTurn ι ν → Holders ι ν
  | .bind i block => (holders.ask i (.bind block)).1
  | .others change => { holders with sheet := change holders.sheet }

/-- What some turns leave behind. -/
def play (holders : Holders ι ν) (turns : List (LayoutTurn ι ν)) : Holders ι ν :=
  turns.foldl turn holders

theorem value_turn (h : ∀ i x type, (holders.value i).state ≠ .relative x type)
    (turn : LayoutTurn ι ν) (i : ι) :
    (holders.turn turn).value i =
      (turn.block? i).elim (holders.value i) fun block => (holders.value i).bound block := by
  cases turn with
  | bind j block =>
    show (holders.ask j (.bind block)).1.value i = _
    by_cases hj : j = i
    · subst hj
      rw [value_ask_self, show LayoutTurn.block? j (.bind j block) = some block from if_pos rfl]
      exact ComputedValue.subject_bind (h j) block holders.sheet
    · rw [value_ask_of_ne holders (Ne.symm hj),
        show LayoutTurn.block? i (.bind j block) = none from if_neg hj]
      rfl
  | others change => rfl

theorem value_play (h : ∀ i x type, (holders.value i).state ≠ .relative x type)
    (turns : List (LayoutTurn ι ν)) (i : ι) :
    (holders.play turns).value i =
      (firstBlock? i turns).elim (holders.value i) fun block => (holders.value i).bound block := by
  induction turns generalizing holders with
  | nil => rfl
  | cons turn turns ih =>
    have hturn := value_turn h turn
    have hnext : ∀ j x type, ((holders.turn turn).value j).state ≠ .relative x type := by
      intro j x type
      rw [hturn j]
      cases turn.block? j with
      | none => exact h j x type
      | some block => exact ComputedValue.bound_ne_relative (h j) block x type
    show ((holders.turn turn).play turns).value i = _
    rw [ih hnext, hturn i]
    unfold firstBlock?
    rw [List.findSome?_cons]
    cases turn.block? i with
    | none => rfl
    | some block =>
      -- The value has its number now, and a later block does not change it.
      cases turns.findSome? (LayoutTurn.block? i) with
      | none => rfl
      | some other => exact ComputedValue.bound_bound block other (holders.value i)

theorem length_play (hturns : ∀ change, .others change ∈ turns →
      ∀ sheet, sheet.declarations.length ≤ (change sheet).declarations.length)
    (holders : Holders ι ν) :
    holders.sheet.declarations.length ≤ (holders.play turns).sheet.declarations.length := by
  induction turns generalizing holders with
  | nil => exact Nat.le_refl _
  | cons turn turns ih =>
    have hrest := ih (fun change hmem => hturns change (List.mem_cons_of_mem _ hmem))
      (holders.turn turn)
    refine Nat.le_trans ?_ hrest
    cases turn with
    | bind i block =>
      rcases (Operation.bind block).sheet_on (holders.value i) holders.sheet with
        hsheet | ⟨declaration, hsheet, -⟩
      · exact Nat.le_of_eq (congrArg (·.declarations.length) hsheet.symm)
      · have hlength := congrArg (·.declarations.length) hsheet
        exact Nat.le_of_eq (hlength.trans List.length_set).symm
    | others change => exact hturns change List.mem_cons_self holders.sheet

end Holders

/-- **A pending percentage is bound to its own containing block, whatever others do.** Some values
wait for layout, over one declaration or over several. They are bound in any order, and in between
other holders do anything to the sheet that removes no declaration. The first block that a value is
bound to gives its number. The declaration says that number directly after the binding, and the
value keeps it. Two plays that bind the values to the same blocks leave the same values, whatever
the others do in either of them. -/
theorem bound_to_own_block (steps : List (Step ν)) {values : ι → Style.Entry ν}
    (hvalues : ∀ i, (Session.empty.run steps).1.Holds (values i))
    {percentage : ι → ν} {property : ι → Property} {axis : ι → Axis}
    (hpending : ∀ i, (values i).state = .pendingLayout (percentage i) (property i) (axis i))
    {turns : List (LayoutTurn ι ν)}
    (hturns : ∀ change, .others change ∈ turns →
      ∀ sheet, sheet.declarations.length ≤ (change sheet).declarations.length) :
    let holders : Holders ι ν := ⟨values, (Session.empty.run steps).1.sheet⟩
    let pixels := fun i (block : ContainingBlock ν) =>
      (values i).config.snap (percentage i / 100.0 * block.dimension (axis i))
    (∀ before i block after, turns = before ++ .bind i block :: after →
      (∀ earlier, .bind i earlier ∉ before) →
      let asked := (holders.play before).ask i (.bind block)
      asked.2 = .ok (.number (pixels i block)) ∧
      (asked.1.sheet.get (values i).declaration).text = Scalar.text (pixels i block) ++ "px" ∧
      ∀ since, since <+: after →
        let later := holders.play (before ++ .bind i block :: since)
        (later.value i).number later.sheet = .ok (pixels i block)) ∧
    ∀ turns', (∀ i, firstBlock? i turns' = firstBlock? i turns) → ∀ i,
      let later := holders.play turns
      let later' := holders.play turns'
      later'.value i = later.value i ∧
        (later'.value i).number later'.sheet = (later.value i).number later.sheet := by
  intro holders pixels
  have hrelative : ∀ i x type, (holders.value i).state ≠ .relative x type := by
    intro i x type
    rw [hpending i]
    simp
  have hbound : ∀ i block, ((values i).bound block).state = .absolute (pixels i block) .px :=
    fun i => ComputedValue.state_bound (hpending i)
  have hkind : ∀ i, (values i).kind = .scalar := by
    intro i
    refine (Session.typed_of_run steps (hvalues i)).scalar ?_
    rw [hpending i]
    rfl
  have hplay := Holders.value_play hrelative
  refine ⟨fun before i block after hsplit hbefore => ?_, fun turns' hblocks i => ?_⟩
  · -- Whatever the others did so far, this value still waits.
    have hvalue : (holders.play before).value i = values i := by
      rw [hplay before i, (firstBlock?_append hbefore block after).1]
      rfl
    have hdeclared : (values i).declaration < (holders.play before).sheet.declarations.length := by
      refine Nat.lt_of_lt_of_le (Session.declared_of_run steps (values i) (hvalues i)) ?_
      refine Holders.length_play (fun change hmem => hturns change ?_) holders
      rw [hsplit]
      exact List.mem_append_left _ hmem
    have hbind := ComputedValue.bind_of_pendingLayout (hpending i) block (holders.play before).sheet
    refine ⟨?_, ?_, fun since _ => ?_⟩
    · show (((holders.play before).value i).bind block _).result.map Effect.number = _
      rw [hvalue, hbind]
      rfl
    · show ((((holders.play before).value i).bind block _).sheet.get _).text = _
      rw [hvalue, hbind, Sheet.get_write_self hdeclared]
      rfl
    · have hlater : (holders.play (before ++ .bind i block :: since)).value i =
          (values i).bound block := by
        rw [hplay, (firstBlock?_append hbefore block since).2]
        rfl
      refine ComputedValue.number_eq_ok.mpr ?_
      rw [hlater, ComputedValue.kind_bound]
      exact ⟨hkind i, .px, hbound i block⟩
  · -- What a value becomes depends on its first block alone, which is the same in both.
    have hvalue : (holders.play turns').value i = (holders.play turns).value i := by
      rw [hplay turns', hplay turns, hblocks i]
    refine ⟨hvalue, ?_⟩
    rw [hvalue]
    refine ComputedValue.number_eq_of_ne_nonNumeric ?_ _ _
    rw [hplay turns i]
    cases firstBlock? i turns with
    | none =>
      show (values i).state ≠ _
      rw [hpending i]
      simp
    | some block =>
      show ((values i).bound block).state ≠ _
      rw [hbound i block]
      simp

/-- Two copies of a percentage, of the height and of the width. -/
def twoHalves : List (Step Float) :=
  [.new "first" "50%" .standard none, .copy "second" (.value "first"),
    .resolve (.value "first") .height, .resolve (.value "second") .left]

/-- Both are bound, and around that another holder writes a length and a keyword. -/
def boundAmongWrites : List (LayoutTurn Bool Float) :=
  [.others (·.write 0 (.ofPrimitive (.numeric 7 .px))), .bind false ⟨1000, 400⟩,
    .others (·.write 0 (.ofPrimitive (.ident "auto"))), .bind true ⟨1000, 400⟩]

/-- Nothing is written in between. -/
def boundAlone : List (LayoutTurn Bool Float) :=
  [.bind false ⟨1000, 400⟩, .bind true ⟨1000, 400⟩]

theorem bound_to_own_block_twoHalves :
    ∃ values : Bool → Style.Entry Float, (∀ i, (Session.empty.run twoHalves).1.Holds (values i)) ∧
      let holders : Holders Bool Float := ⟨values, (Session.empty.run twoHalves).1.sheet⟩
      let later := holders.play boundAmongWrites
      (later.value false).number later.sheet = .ok 200 ∧
      (later.value true).number later.sheet = .ok 500 ∧
      (later.sheet.get (values true).declaration).text = Scalar.text (500 : Float) ++ "px" ∧
      ∀ i, (holders.play boundAlone).value i = later.value i := by
  have hvalues : ∃ values : Bool → Style.Entry Float,
      (Session.empty.run twoHalves).1.values.lookup "first" = some (values false) ∧
      (Session.empty.run twoHalves).1.values.lookup "second" = some (values true) ∧
      (values false).state = .pendingLayout 50 .height .height ∧
      (values true).state = .pendingLayout 50 .left .width ∧
      ∀ i, (values i).config = .standard :=
    ⟨fun i => bif i then _ else _, by with_unfolding_all rfl, by with_unfolding_all rfl,
      by with_unfolding_all rfl, by with_unfolding_all rfl, fun i => by cases i <;> rfl⟩
  obtain ⟨values, hfirst, hsecond, hheight, hwidth, hconfig⟩ := hvalues
  have hholds : ∀ i, (Session.empty.run twoHalves).1.Holds (values i) := fun i =>
    match i with
    | false => .value (mem_of_lookup hfirst)
    | true => .value (mem_of_lookup hsecond)
  have hpending : ∀ i, (values i).state = .pendingLayout 50 (bif i then .left else .height)
      (bif i then .width else .height) := fun i =>
    match i with
    | false => hheight
    | true => hwidth
  have hturns : ∀ change, .others change ∈ boundAmongWrites →
      ∀ sheet, sheet.declarations.length ≤ (change sheet).declarations.length := by
    intro change hmem sheet
    simp only [boundAmongWrites, List.mem_cons, List.not_mem_nil, LayoutTurn.others.injEq, or_false,
      reduceCtorEq, false_or] at hmem
    rcases hmem with rfl | rfl <;> simp [Sheet.write]
  obtain ⟨hbinds, hsame⟩ := bound_to_own_block twoHalves hholds hpending hturns
  obtain ⟨-, -, hfalse⟩ := hbinds (boundAmongWrites.take 1) false ⟨1000, 400⟩
    (boundAmongWrites.drop 2) rfl (by simp [boundAmongWrites])
  obtain ⟨-, htext, htrue⟩ := hbinds (boundAmongWrites.take 3) true ⟨1000, 400⟩ [] rfl
    (by simp [boundAmongWrites])
  have h200 : Config.standard.snap (50 / 100.0 * 400 : Float) = 200 := by with_unfolding_all rfl
  have h500 : Config.standard.snap (50 / 100.0 * 1000 : Float) = 500 := by with_unfolding_all rfl
  refine ⟨values, hholds, ?_, ?_, ?_, fun i => (hsame boundAlone (fun i => ?_) i).1⟩
  · rw [← h200, ← hconfig false]
    exact hfalse _ (List.prefix_refl _)
  · rw [← h500, ← hconfig true]
    exact htrue _ (List.prefix_refl _)
  · rw [← h500, ← hconfig true]
    exact htext
  · cases i <;> rfl

end ComputedCss
