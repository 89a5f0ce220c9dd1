import ComputedCss.Proofs.ComputedValue.Advancing
import ComputedCss.Proofs.ComputedValue.Coherent

/-!
# A declaration with one holder

A value that alone writes its declaration shows what the declaration says. Only while it waits for
layout does it know more: for which property, and along which axis.

* `ComputedValue.InStep`: the invariant, of a value over the sheet.
* `inStep_on`: an operation keeps it, whether it succeeds or not.
* `inStep_of_run`: a run of all operations, and what a copy starts from.
-/

namespace ComputedCss

variable {ν : Type} [Scalar ν]

theorem Computation.eq_single_of_ofValue {config : Config ν} {value : Value ν} {x : ν}
    {type : ValueType} (h : Computation.ofValue config value = .relative x type) :
    value = .single (.numeric x type) := by
  cases value with
  | list items separator => exact absurd h (by simp [ofValue, Value.primitive?])
  | single p =>
    cases p with
    | numeric y type' =>
      simp only [ofValue, Value.primitive?] at h
      split_ifs at h with hrelative
      · obtain ⟨rfl, rfl⟩ := Computation.relative.inj h
        rfl
      · split at h <;> exact absurd h (by simp)
    | _ => exact absurd h (by simp [ofValue, Value.primitive?])

namespace ComputedValue

variable {v : Style.Entry ν} {sheet : Sheet ν}

/-- The value shows what its declaration says, or it waits for layout with the percentage that the
declaration says. -/
structure InStep (v : Style.Entry ν) (sheet : Sheet ν) : Prop where
  kind : v.kind = (sheet.get v.declaration).value.kind
  state : v.state = Computation.ofValue v.config (sheet.get v.declaration).value ∨
    ∃ x property axis, v.state = .pendingLayout x property axis ∧
      (sheet.get v.declaration).value = .single (.numeric x .percentage)

theorem IsRead.inStep (h : v.IsRead sheet) : v.InStep sheet :=
  ⟨h.kind, .inl h.state⟩

theorem isRead_refresh (v : Style.Entry ν) (sheet : Sheet ν) : (v.refresh sheet).IsRead sheet :=
  ⟨rfl, rfl⟩

theorem InStep.eq_single (h : v.InStep sheet) {x : ν} {type : ValueType}
    (hnumber : openNumber? v.state = some (x, type)) :
    (sheet.get v.declaration).value = .single (.numeric x type) := by
  rcases h.state with hread | ⟨y, property, axis, hpending, hsaid⟩
  · cases hstate : v.state with
    | relative y type' =>
      rw [hstate] at hnumber hread
      obtain ⟨rfl, rfl⟩ : y = x ∧ type' = type := by simpa [openNumber?] using hnumber
      exact Computation.eq_single_of_ofValue hread.symm
    | pendingLayout y property axis =>
      -- A value that has just been read does not wait for layout.
      rw [hstate] at hread
      rcases Computation.ofValue_cases v.config (sheet.get v.declaration).value with
        h | ⟨-, ⟨_, _, -, h⟩ | ⟨_, h⟩ | ⟨_, _, -, -, h⟩⟩ <;> simp [h] at hread
    | _ =>
      rw [hstate] at hnumber
      exact absurd hnumber (by simp [openNumber?])
  · rw [hpending] at hnumber
    obtain ⟨rfl, rfl⟩ : y = x ∧ ValueType.percentage = type := by simpa [openNumber?] using hnumber
    exact hsaid

variable (hfloor : ∀ x : ν, Scalar.floor (Scalar.floor x) = Scalar.floor x)

include hfloor in
theorem inStep_finish (h : v.InStep sheet) (hopen : v.state.isOpen = true)
    (hdeclared : v.declaration < sheet.declarations.length) (pixels : ν) :
    (v.finish pixels sheet).subject.InStep (v.finish pixels sheet).sheet := by
  rw [isOpen_eq_isSome] at hopen
  obtain ⟨⟨x, type⟩, hnumber⟩ := Option.isSome_iff_exists.mp hopen
  have hkind : v.kind = .scalar := by rw [h.kind, h.eq_single hnumber]; rfl
  have hwritten : (v.finish pixels sheet).sheet.get v.declaration =
      .ofPrimitive (.numeric (v.config.snap pixels) .px) := Sheet.get_write_self hdeclared _
  refine ⟨?_, .inl ?_⟩
  · show v.kind = ((v.finish pixels sheet).sheet.get v.declaration).value.kind
    rw [hwritten, hkind]
    rfl
  · show Computation.absolute (v.config.snap pixels) .px = Computation.ofValue v.config
      ((v.finish pixels sheet).sheet.get v.declaration).value
    rw [hwritten]
    show _ = Computation.absolute (v.config.snap (v.config.snap pixels)) .px
    rw [v.config.snap_snap hfloor]

include hfloor in
theorem inStep_of_pass {outcome : Outcome ν (Style.Entry ν) (Effect ν)} (h : v.InStep sheet)
    (hdeclared : v.declaration < sheet.declarations.length) (hpass : Pass v sheet outcome) :
    outcome.subject.InStep outcome.sheet := by
  cases hpass with
  | closed | failed => exact h
  | adopted x type y type' effect notices hstate hread =>
    -- There is no other holder to adopt a length from.
    rcases h.state with hsame | ⟨z, property, axis, hpending, -⟩
    · rw [hread, hstate] at hsame
      exact absurd hsame (by simp)
    · rw [hstate] at hpending
      exact absurd hpending (by simp)
  | finished pixels effect notices hopen => exact inStep_finish hfloor h hopen hdeclared pixels
  | deferred x property axis effect notices hnumber haxis =>
    exact ⟨h.kind, .inr ⟨x, property, axis, rfl, h.eq_single hnumber⟩⟩

include hfloor in
theorem inStep_on (h : v.InStep sheet) (hdeclared : v.declaration < sheet.declarations.length)
    (operation : Operation ν) :
    (operation.on v sheet).subject.InStep (operation.on v sheet).sheet := by
  have hacts := Operation.acts_on operation v sheet
  generalize operation.on v sheet = outcome at hacts ⊢
  cases hacts with
  | failed => exact h
  | passed outcome hoperation hpass => exact inStep_of_pass hfloor h hdeclared hpass
  | wrote => exact (isRead_refresh v _).inStep

theorem InStep.state_copy (h : v.InStep sheet) :
    (v.isPending = false → (v.copy sheet).1.state = v.state) ∧
    ∀ x property axis, v.state = .pendingLayout x property axis →
      (v.copy sheet).1.state = .relative x .percentage := by
  have hcopy : (v.copy sheet).1.state =
      Computation.ofValue v.config (sheet.get v.declaration).value := rfl
  constructor
  · intro hpending
    rcases h.state with hread | ⟨x, property, axis, hstate, -⟩
    · rw [hcopy, hread]
    · rw [isPending, hstate] at hpending
      exact absurd hpending.symm Bool.false_ne_true
  · intro x property axis hstate
    have hnumber : openNumber? v.state = some (x, .percentage) := by rw [hstate]; rfl
    rw [hcopy, h.eq_single hnumber]
    rfl

end ComputedValue

/-! ## Runs -/

/-- The other holders leave a declaration alone. They may add declarations and write any other. -/
def Turn.Spares (id : DeclarationId) : Turn ν → Prop
  | .own _ => True
  | .others change => ∀ sheet, id < sheet.declarations.length →
    id < (change sheet).declarations.length ∧ (change sheet).get id = sheet.get id

/-- The value of a holder is in step with its declaration, which is on the sheet. -/
structure Holder.InStep (id : DeclarationId) (config : Config ν) (holder : Holder ν) : Prop where
  declaration : holder.value.declaration = id
  config : holder.value.config = config
  declared : id < holder.sheet.declarations.length
  value : holder.value.InStep holder.sheet

theorem Holder.inStep_take (hfloor : ∀ x : ν, Scalar.floor (Scalar.floor x) = Scalar.floor x)
    {id : DeclarationId} {config : Config ν} {holder : Holder ν} {turn : Turn ν}
    (hturn : turn.Spares id) (h : holder.InStep id config) : (holder.take turn).InStep id config := by
  obtain ⟨rfl, rfl, hdeclared, hvalue⟩ := h
  cases turn with
  | own operation =>
    obtain ⟨hsame, hconfig, -⟩ := operation.subject_on holder.value holder.sheet
    refine ⟨hsame, hconfig, ?_, ComputedValue.inStep_on hfloor hvalue hdeclared operation⟩
    show holder.value.declaration < (operation.on holder.value holder.sheet).sheet.declarations.length
    rcases operation.sheet_on holder.value holder.sheet with hsheet | ⟨declaration, hsheet, -⟩
    · rw [hsheet]
      exact hdeclared
    · rw [hsheet]
      exact Nat.lt_of_lt_of_eq hdeclared List.length_set.symm
  | others change =>
    obtain ⟨hlength, hget⟩ := hturn holder.sheet hdeclared
    refine ⟨rfl, rfl, hlength, ⟨?_, ?_⟩⟩
    · show holder.value.kind = ((change holder.sheet).get holder.value.declaration).value.kind
      rw [hget]
      exact hvalue.kind
    · show holder.value.state = Computation.ofValue holder.value.config
        ((change holder.sheet).get holder.value.declaration).value ∨ _
      simp only [Holder.take, hget]
      exact hvalue.state

/-- **A value that alone writes its declaration is in step with it.** After any operations, failed
ones included, its kind and its state are those that the declaration would be read with, or it waits
for layout with the percentage that the declaration says. So a copy has its state, or is relative
again. Doubles round down as it is asked here (`Binary64.floor_floor`). -/
theorem inStep_of_run (hfloor : ∀ x : ν, Scalar.floor (Scalar.floor x) = Scalar.floor x)
    {sheet : Sheet ν} {id : DeclarationId} (hid : id < sheet.declarations.length)
    (context : Option (Style ν)) (config : Config ν) {turns : List (Turn ν)}
    (hturns : ∀ turn ∈ turns, turn.Spares id) :
    let fresh := ComputedValue.ofDeclaration id context config sheet
    let later := (Holder.mk fresh.1 fresh.2).run turns
    let said := (later.sheet.get id).value
    later.value.kind = said.kind ∧
    (later.value.state = .ofValue config said ∨
      ∃ x property axis, later.value.state = .pendingLayout x property axis ∧
        said = .single (.numeric x .percentage)) ∧
    (later.value.isPending = false →
      (later.value.copy later.sheet).1.state = later.value.state) ∧
    ∀ x property axis, later.value.state = .pendingLayout x property axis →
      (later.value.copy later.sheet).1.state = .relative x .percentage := by
  intro fresh later said
  have hfresh : (Holder.mk fresh.1 fresh.2).InStep id config :=
    ⟨rfl, rfl, hid, (ComputedValue.isRead_ofDeclaration id context config sheet).inStep⟩
  obtain ⟨hdeclaration, hconfig, -, hvalue⟩ : later.InStep id config :=
    Holder.of_run (fun _ _ => Holder.inStep_take hfloor) hturns hfresh
  have hkind := hvalue.kind
  have hstate := hvalue.state
  rw [hdeclaration] at hkind hstate
  rw [hconfig] at hstate
  exact ⟨hkind, hstate, hvalue.state_copy⟩

/-- Resolving twice, binding and writing, with operations that fail, while another holder adds a
declaration and writes it. -/
def soleHolderTurns : List (Turn Rat) :=
  [.own (.setString "no text"), .own (.resolve .height), .own (.resolve .verticalAlign),
    .others fun sheet => (sheet.add .absent).2, .own (.resolve .left), .own (.setText "(")]

theorem inStep_of_run_soleHolder :
    let sheet : Sheet Rat := (Sheet.empty.add (.ofPrimitive (.numeric 50 .percentage))).2
    let fresh := ComputedValue.ofDeclaration 0 none .standard sheet
    let later := (Holder.mk fresh.1 fresh.2).run soleHolderTurns
    later.value.state = .pendingLayout 50 .left .width ∧
    (later.value.copy later.sheet).1.state = .relative 50 .percentage := by
  intro sheet fresh later
  have hturns : ∀ turn ∈ soleHolderTurns, turn.Spares 0 := by
    intro turn hmem
    simp only [soleHolderTurns, List.mem_cons, List.not_mem_nil, or_false] at hmem
    rcases hmem with rfl | rfl | rfl | rfl | rfl | rfl
    case inr.inr.inr.inl =>
      intro sheet hsheet
      exact ⟨Nat.lt_of_lt_of_le hsheet (by simp [Sheet.add]), Sheet.get_add_of_lt hsheet _⟩
    all_goals trivial
  have hstate : later.value.state = .pendingLayout 50 .left .width := by with_unfolding_all rfl
  obtain ⟨-, -, -, hcopy⟩ := inStep_of_run Exact.floor_floor
    (show 0 < sheet.declarations.length by decide) none .standard hturns
  exact ⟨hstate, hcopy 50 .left .width hstate⟩

end ComputedCss
