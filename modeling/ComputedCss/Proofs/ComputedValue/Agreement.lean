import ComputedCss.Proofs.Number.Whole
import ComputedCss.Session.Basic
import ComputedCss.Proofs.ComputedValue.Coherent
import Mathlib.Logic.Function.Basic

/-!
# Agreement of holders

Several computed values over one declaration are the same multiple of a font size. They are resolved
and bound in any order, each time against another parent style or containing block.

* `Holders.run`, `Holders.answers`: what a list of requests leaves behind, and what it answers.
* `Holders.Settled`: the declaration says a number, and who is asked takes it over.
* `first_resolution_wins`: one request at most resolves, and all holders agree on its length.
-/

namespace ComputedCss

/-- What is asked of a holder of a declaration. -/
inductive Request (ν : Type) where
  | resolve (parent : Option (Style ν)) (property : Property)
  | bind (block : ContainingBlock ν)

/-- Whether an answer is that of a request which has resolved a value to a length. -/
def resolves {ν : Type} : Except (ValueError ν) (Effect ν) → Bool
  | .ok (.resolution (.resolved _)) => true
  | _ => false

theorem countP_resolves {ν : Type} {answers : List (Except (ValueError ν) (Effect ν))}
    (h : ∀ answer ∈ answers, resolves answer = false) : answers.countP resolves = 0 :=
  List.countP_eq_zero.mpr fun answer hanswer => by
    rw [h answer hanswer]
    exact Bool.false_ne_true

variable {ι ν : Type} [Scalar ν]

/-- A request to a computed value. -/
def Request.on (request : Request ν) (v : Style.Entry ν) (sheet : Sheet ν) :
    Outcome ν (Style.Entry ν) (Effect ν) :=
  match request with
  | .resolve parent property => (v.resolveAgainst parent property sheet).map .resolution
  | .bind block => (v.bind block sheet).map .number

/-! ## One request -/

section

variable {v : Style.Entry ν} {sheet : Sheet ν} {x y : ν} {type type' : ValueType}

namespace ComputedValue

theorem resolveAgainst_of_multiple (htype : type = .dimension .em ∨ type = .dimension .ex)
    (hadopt : v.adopt sheet = v) (hstate : v.state = .relative x type) (parent : Option (Style ν))
    (property : Property) :
    (∃ error notices, v.resolveAgainst parent property sheet = ⟨.error error, v, sheet, notices⟩) ∨
    ∃ pixels notices, v.resolveAgainst parent property sheet =
      ⟨.ok (.resolved (v.config.snap pixels)), (v.finish pixels sheet).subject,
        (v.finish pixels sheet).sheet, notices⟩ := by
  have hopen : openNumber? v.state = some (x, type) := by rw [hstate]; rfl
  have hrelative : type.isRelative = true := ValueType.isRelative_iff.mpr (.inr htype)
  unfold resolveAgainst
  dsimp only
  rw [hadopt, hopen]
  dsimp only
  rcases basis_cases v.config parent property sheet x hrelative with
    ⟨error, herror, -⟩ | ⟨pixels, hpixels⟩ | ⟨axis, -, hpercentage, -⟩
  · rw [show (basis _ parent property sheet x type).run.value = _ from herror]
    exact .inl ⟨error, _, rfl⟩
  · rw [show (basis _ parent property sheet x type).run.value = _ from hpixels]
    exact .inr ⟨pixels, _, rfl⟩
  · rcases htype with rfl | rfl <;> exact absurd hpercentage (by simp)

end ComputedValue

namespace Request

theorem on_multiple (htype : type = .dimension .em ∨ type = .dimension .ex)
    (hadopt : v.adopt sheet = v) (hstate : v.state = .relative x type) (request : Request ν) :
    ((request.on v sheet).subject = v ∧ (request.on v sheet).sheet = sheet ∧
      resolves (request.on v sheet).result = false) ∨
    ∃ pixels, (request.on v sheet).subject = (v.finish pixels sheet).subject ∧
      (request.on v sheet).sheet = (v.finish pixels sheet).sheet ∧
      (request.on v sheet).result = .ok (.resolution (.resolved (v.config.snap pixels))) := by
  cases request with
  | resolve parent property =>
    unfold on
    dsimp only
    rcases ComputedValue.resolveAgainst_of_multiple htype hadopt hstate parent property with
      ⟨error, notices, h⟩ | ⟨pixels, notices, h⟩
    · rw [h]
      exact .inl ⟨rfl, rfl, rfl⟩
    · rw [h]
      exact .inr ⟨pixels, rfl, rfl, rfl⟩
  | bind block =>
    have hbind : v.bind block sheet = ⟨v.number sheet, v, sheet, []⟩ := by
      unfold ComputedValue.bind
      dsimp only
      rw [hadopt, hstate]
    unfold on
    dsimp only
    rw [hbind]
    refine .inl ⟨rfl, rfl, ?_⟩
    show resolves ((v.number sheet).map Effect.number) = false
    cases v.number sheet with
    | error error => rfl
    | ok number => rfl

theorem on_absolute (hstate : (v.adopt sheet).state = .absolute x type) (request : Request ν) :
    (request.on v sheet).subject = v.adopt sheet ∧ (request.on v sheet).sheet = sheet ∧
      resolves (request.on v sheet).result = false ∧
      ∀ parent property, request = .resolve parent property →
        (request.on v sheet).result = .ok (.resolution .unchanged) := by
  cases request with
  | resolve parent property =>
    have hopen : ComputedValue.openNumber? (v.adopt sheet).state = none := by rw [hstate]; rfl
    unfold on ComputedValue.resolveAgainst
    dsimp only
    rw [hopen]
    exact ⟨rfl, rfl, rfl, fun _ _ _ => rfl⟩
  | bind block =>
    unfold on ComputedValue.bind
    dsimp only
    rw [hstate]
    exact ⟨rfl, rfl, rfl, fun _ _ h => absurd h (by simp)⟩

end Request

end

/-! ## Runs -/

/-- Computed values, and the sheet on which they stand. -/
structure Holders (ι ν : Type) where
  value : ι → Style.Entry ν
  sheet : Sheet ν

namespace Holders

variable [DecidableEq ι]

/-- One of the holders is asked. -/
def ask (holders : Holders ι ν) (i : ι) (request : Request ν) :
    Holders ι ν × Except (ValueError ν) (Effect ν) :=
  let outcome := request.on (holders.value i) holders.sheet
  (⟨Function.update holders.value i outcome.subject, outcome.sheet⟩, outcome.result)

theorem value_ask_self (holders : Holders ι ν) (i : ι) (request : Request ν) :
    (holders.ask i request).1.value i = (request.on (holders.value i) holders.sheet).subject :=
  Function.update_self i _ holders.value

theorem value_ask_of_ne (holders : Holders ι ν) {i j : ι} (h : j ≠ i)
    (request : Request ν) : (holders.ask i request).1.value j = holders.value j :=
  Function.update_of_ne h _ holders.value

theorem forall_value_ask (holders : Holders ι ν) {P : Style.Entry ν → Prop} {i : ι}
    {request : Request ν} (hself : P ((holders.ask i request).1.value i))
    (hothers : ∀ j, P (holders.value j)) (j : ι) : P ((holders.ask i request).1.value j) := by
  by_cases hj : j = i
  · subst hj
    exact hself
  · rw [holders.value_ask_of_ne hj]
    exact hothers j

/-- What some requests leave behind. -/
def run (holders : Holders ι ν) : List (ι × Request ν) → Holders ι ν
  | [] => holders
  | (i, request) :: requests => (holders.ask i request).1.run requests

/-- The answers to some requests. -/
def answers (holders : Holders ι ν) :
    List (ι × Request ν) → List (Except (ValueError ν) (Effect ν))
  | [] => []
  | (i, request) :: requests =>
    (holders.ask i request).2 :: (holders.ask i request).1.answers requests

theorem run_append (holders : Holders ι ν) (before after : List (ι × Request ν)) :
    holders.run (before ++ after) = (holders.run before).run after := by
  induction before generalizing holders with
  | nil => rfl
  | cons entry before ih => exact ih _

/-- The holders refer to one declaration under the same settings. -/
def Share (holders : Holders ι ν) (id : DeclarationId) (config : Config ν) : Prop :=
  ∀ i, (holders.value i).declaration = id ∧ (holders.value i).config = config

variable {holders : Holders ι ν} {id : DeclarationId} {config : Config ν} {x value : ν}
  {type type' : ValueType}

/-! ### After the declaration says a number -/

/-- The declaration says a number, and each holder has it or can still take it over. -/
structure Settled (holders : Holders ι ν) (id : DeclarationId) (config : Config ν) (value : ν)
    (type : ValueType) : Prop where
  share : holders.Share id config
  reads : Computation.ofValue config (holders.sheet.get id).value = .absolute value type
  state : ∀ i, (holders.value i).state = .absolute value type ∨
    ∃ x type', (holders.value i).state = .relative x type'

omit [DecidableEq ι] in
theorem Settled.adopts (h : holders.Settled id config value type) (i : ι) :
    (holders.value i).adopt holders.sheet =
      { holders.value i with state := .absolute value type } := by
  obtain ⟨hdeclaration, hconfig⟩ := h.share i
  rcases h.state i with hstate | ⟨x, type', hstate⟩
  · rw [ComputedValue.adopt_of_absolute hstate, ← hstate]
  · refine ComputedValue.adopt_of_read hstate ?_
    rw [hdeclaration, hconfig]
    exact h.reads

theorem Settled.ask (h : holders.Settled id config value type) (i : ι) (request : Request ν) :
    (holders.ask i request).1.Settled id config value type ∧
    (holders.ask i request).1.sheet = holders.sheet ∧
    (∀ j, j = i ∨ (holders.value j).state = .absolute value type →
      ((holders.ask i request).1.value j).state = .absolute value type) ∧
    resolves (holders.ask i request).2 = false ∧
    ∀ parent property, request = .resolve parent property →
      (holders.ask i request).2 = .ok (.resolution .unchanged) := by
  have hadopt := h.adopts i
  have hstate : ((holders.value i).adopt holders.sheet).state = .absolute value type := by rw [hadopt]
  obtain ⟨hsubject, hsheet, hresolves, hresult⟩ := request.on_absolute hstate
  rw [hadopt] at hsubject
  have hself : (holders.ask i request).1.value i =
      { holders.value i with state := .absolute value type } :=
    (holders.value_ask_self i request).trans hsubject
  refine ⟨⟨?_, ?_, ?_⟩, hsheet, fun j hj => ?_, hresolves, hresult⟩
  · refine holders.forall_value_ask
      (P := fun w => w.declaration = id ∧ w.config = config) ?_ h.share
    rw [hself]
    exact h.share i
  · rw [show (holders.ask i request).1.sheet = holders.sheet from hsheet]
    exact h.reads
  · refine holders.forall_value_ask
      (P := fun w => w.state = .absolute value type ∨ ∃ x type', w.state = .relative x type') ?_
      h.state
    rw [hself]
    exact .inl rfl
  · by_cases heq : j = i
    · subst heq
      rw [hself]
    · rw [holders.value_ask_of_ne heq]
      exact hj.resolve_left heq

theorem Settled.run (h : holders.Settled id config value type) (requests : List (ι × Request ν)) :
    (holders.run requests).Settled id config value type ∧
    (holders.run requests).sheet = holders.sheet ∧
    (∀ j, j ∈ requests.map Prod.fst ∨ (holders.value j).state = .absolute value type →
      ((holders.run requests).value j).state = .absolute value type) ∧
    ∀ answer ∈ holders.answers requests, resolves answer = false := by
  induction requests generalizing holders with
  | nil =>
    exact ⟨h, rfl, fun j hj => hj.resolve_left List.not_mem_nil,
      fun answer hanswer => absurd hanswer List.not_mem_nil⟩
  | cons entry requests ih =>
    obtain ⟨i, request⟩ := entry
    obtain ⟨hnext, hsheet, hstate, hresolves, -⟩ := h.ask i request
    obtain ⟨hrun, hsheet', hstate', hresolves'⟩ := ih hnext
    refine ⟨hrun, hsheet'.trans hsheet, fun j hj => hstate' j ?_, fun answer hanswer => ?_⟩
    · rw [List.map_cons, List.mem_cons] at hj
      rcases hj with (rfl | hj) | hj
      · exact .inr (hstate j (.inl rfl))
      · exact .inl hj
      · exact .inr (hstate j (.inr hj))
    · rcases List.mem_cons.mp hanswer with rfl | hanswer
      · exact hresolves
      · exact hresolves' answer hanswer

/-! ### Before that -/

/-- All holders are the same multiple of a font size. -/
structure Relative (holders : Holders ι ν) (id : DeclarationId) (config : Config ν) (x : ν)
    (type : ValueType) : Prop where
  share : holders.Share id config
  state : ∀ i, (holders.value i).state = .relative x type

variable (hfloor : ∀ x : ν, Scalar.floor (Scalar.floor x) = Scalar.floor x)
  (htype : type = .dimension .em ∨ type = .dimension .ex)
  (hid : id < holders.sheet.declarations.length) (h : holders.Relative id config x type)
  (hread : ∀ y type', Computation.ofValue config (holders.sheet.get id).value ≠ .absolute y type')

include hfloor htype hid h hread

/-- As long as the declaration says no number, a request changes nothing, or it writes the length
that it answers. -/
theorem Relative.ask (i : ι) (request : Request ν) :
    ((holders.ask i request).1 = holders ∧ resolves (holders.ask i request).2 = false) ∨
    ∃ pixels, (holders.ask i request).2 = .ok (.resolution (.resolved pixels)) ∧
      (holders.ask i request).1.sheet.get id = .ofPrimitive (.numeric pixels .px) ∧
      ((holders.ask i request).1.value i).state = .absolute pixels .px ∧
      (holders.ask i request).1.Settled id config pixels .px := by
  obtain ⟨hdeclaration, hconfig⟩ := h.share i
  have hadopt : (holders.value i).adopt holders.sheet = holders.value i :=
    ComputedValue.adopt_of_not_read (by rw [hdeclaration, hconfig]; exact hread)
  rcases request.on_multiple htype hadopt (h.state i) with
    ⟨hsubject, hsheet, hresult⟩ | ⟨pixels, hsubject, hsheet, hresult⟩
  · refine .inl ⟨?_, hresult⟩
    show Holders.mk (Function.update holders.value i _) _ = holders
    rw [hsubject, hsheet, Function.update_eq_self]
  · have hself : (holders.ask i request).1.value i =
        { holders.value i with state := .absolute (config.snap pixels) .px } := by
      rw [holders.value_ask_self, hsubject, ← hconfig]
      rfl
    have hget : (holders.ask i request).1.sheet.get id =
        .ofPrimitive (.numeric (config.snap pixels) .px) := by
      rw [show (holders.ask i request).1.sheet = _ from hsheet, ← hconfig]
      show (holders.sheet.write (holders.value i).declaration _).get id = _
      rw [hdeclaration, Sheet.get_write_self hid]
    rw [hconfig] at hresult
    refine .inr ⟨config.snap pixels, hresult, hget, by rw [hself], ?_, ?_, ?_⟩
    · refine holders.forall_value_ask
        (P := fun w => w.declaration = id ∧ w.config = config) ?_ h.share
      rw [hself]
      exact h.share i
    · -- A length that is read again loses nothing more.
      rw [hget]
      show Computation.absolute (config.snap (config.snap pixels)) ValueType.px = _
      rw [config.snap_snap hfloor]
    · refine holders.forall_value_ask
        (P := fun w => w.state = .absolute (config.snap pixels) .px ∨
          ∃ x type', w.state = .relative x type') ?_ fun j => .inr ⟨x, type, h.state j⟩
      rw [hself]
      exact .inl rfl

/-- Some requests change nothing, or one of them settles the matter and no other one resolves. -/
theorem Relative.run (requests : List (ι × Request ν)) :
    (holders.run requests = holders ∧
      ∀ answer ∈ holders.answers requests, resolves answer = false) ∨
    (∃ pixels, (holders.run requests).Settled id config pixels .px) ∧
      (holders.answers requests).countP resolves = 1 := by
  induction requests with
  | nil => exact .inl ⟨rfl, fun answer hanswer => absurd hanswer List.not_mem_nil⟩
  | cons entry requests ih =>
    obtain ⟨i, request⟩ := entry
    rcases h.ask hfloor htype hid hread i request with
      ⟨hsame, hanswer⟩ | ⟨pixels, hanswer, -, -, hsettled⟩
    · have hrun : holders.run ((i, request) :: requests) = holders.run requests := by
        show (holders.ask i request).1.run requests = _
        rw [hsame]
      have hanswers : holders.answers ((i, request) :: requests) =
          (holders.ask i request).2 :: holders.answers requests := by
        show (holders.ask i request).2 :: (holders.ask i request).1.answers requests = _
        rw [hsame]
      rw [hrun, hanswers, List.countP_cons_of_neg (by rw [hanswer]; exact Bool.false_ne_true)]
      refine ih.imp_left fun ⟨hsame, hnone⟩ => ⟨hsame, fun answer hmem => ?_⟩
      rcases List.mem_cons.mp hmem with rfl | hmem
      · exact hanswer
      · exact hnone answer hmem
    · obtain ⟨hrun, -, -, hnone⟩ := hsettled.run requests
      refine .inr ⟨⟨pixels, hrun⟩, ?_⟩
      rw [answers, List.countP_cons_of_pos (by rw [hanswer]; rfl), countP_resolves hnone]

theorem Relative.before {before earlier : List (ι × Request ν)} (hearlier : earlier <+: before)
    {i : ι} {request : Request ν} (hresolves : resolves ((holders.run before).ask i request).2 = true) :
    holders.run earlier = holders := by
  rcases h.run hfloor htype hid hread earlier with ⟨hsame, -⟩ | ⟨⟨pixels, hsettled⟩, -⟩
  · exact hsame
  · -- What is settled stays so, and then the request would not have resolved.
    obtain ⟨rest, rfl⟩ := hearlier
    obtain ⟨hrun, -⟩ := hsettled.run rest
    rw [← run_append] at hrun
    obtain ⟨-, -, -, hnone, -⟩ := hrun.ask i request
    rw [hnone] at hresolves
    exact absurd hresolves Bool.false_ne_true

theorem Relative.after {i : ι} {request : Request ν} {px : ν}
    (hresolved : (holders.ask i request).2 = .ok (.resolution (.resolved px)))
    (since : List (ι × Request ν)) :
    let now := (holders.ask i request).1.run since
    now.sheet.get id = .ofPrimitive (.numeric px .px) ∧
    (∀ j parent property,
      (now.ask j (.resolve parent property)).2 = .ok (.resolution .unchanged)) ∧
    ∀ j, j = i ∨ j ∈ since.map Prod.fst → (now.value j).state = .absolute px .px := by
  rcases h.ask hfloor htype hid hread i request with
    ⟨-, hanswer⟩ | ⟨pixels, hanswer, hget, hstate, hsettled⟩
  · rw [hresolved] at hanswer
    exact absurd hanswer.symm Bool.false_ne_true
  · obtain rfl : pixels = px := by
      rw [hresolved] at hanswer
      simpa using hanswer.symm
    obtain ⟨hnow, hsheet, hstates, -⟩ := hsettled.run since
    dsimp only
    rw [hsheet]
    refine ⟨hget, fun j parent property => ?_, fun j hj => hstates j ?_⟩
    · exact (hnow.ask j (.resolve parent property)).2.2.2.2 parent property rfl
    · rcases hj with rfl | hj
      · exact .inr hstate
      · exact .inl hj

end Holders

/-- **The first resolution wins, and all holders agree on it.** The holders of a declaration are the
same multiple of a font size, and no one else writes the declaration. One request at most resolves.
Until then nothing has changed; from then on the declaration says the length, and who is asked has
it. Doubles round down as it is asked here (`Binary64.floor_floor`). -/
theorem first_resolution_wins [DecidableEq ι]
    (hfloor : ∀ x : ν, Scalar.floor (Scalar.floor x) = Scalar.floor x)
    {holders : Holders ι ν} {id : DeclarationId} {config : Config ν} {x : ν} {type : ValueType}
    (htype : type = .dimension .em ∨ type = .dimension .ex)
    (hid : id < holders.sheet.declarations.length)
    (hholders : ∀ i, (holders.value i).declaration = id ∧ (holders.value i).config = config ∧
      (holders.value i).state = .relative x type)
    (requests : List (ι × Request ν)) :
    (holders.answers requests).countP resolves ≤ 1 ∧
    ((∀ answer ∈ holders.answers requests, resolves answer = false) →
      (holders.run requests).sheet = holders.sheet ∧
      ((∀ y type', Computation.ofValue config (holders.sheet.get id).value ≠ .absolute y type') →
        holders.run requests = holders)) ∧
    ∀ before i request after px, requests = before ++ (i, request) :: after →
      ((holders.run before).ask i request).2 = .ok (.resolution (.resolved px)) →
      (∀ earlier, earlier <+: before → holders.run earlier = holders) ∧
      ∀ since, since <+: after →
        let now := holders.run (before ++ (i, request) :: since)
        (now.sheet.get id).text = Scalar.text px ++ "px" ∧
        (∀ j parent property,
          (now.ask j (.resolve parent property)).2 = .ok (.resolution .unchanged)) ∧
        ∀ j, j = i ∨ j ∈ since.map Prod.fst → (now.value j).state = .absolute px .px := by
  have hrelative : holders.Relative id config x type :=
    ⟨fun i => ⟨(hholders i).1, (hholders i).2.1⟩, fun i => (hholders i).2.2⟩
  by_cases hnumber : ∃ y type',
      Computation.ofValue config (holders.sheet.get id).value = .absolute y type'
  · -- Someone has written a number before the run, so the matter is settled from the start.
    obtain ⟨y, type', hread⟩ := hnumber
    have hsettled : holders.Settled id config y type' :=
      ⟨hrelative.share, hread, fun i => .inr ⟨x, type, hrelative.state i⟩⟩
    obtain ⟨-, hsheet, -, hnone⟩ := hsettled.run requests
    refine ⟨Nat.le_trans (Nat.le_of_eq (countP_resolves hnone)) (Nat.zero_le 1),
      fun _ => ⟨hsheet, fun hnot => absurd hread (hnot y type')⟩, ?_⟩
    intro before i request after px _ hresolved
    obtain ⟨-, -, -, hanswer, -⟩ := (hsettled.run before).1.ask i request
    rw [hresolved] at hanswer
    exact absurd hanswer.symm Bool.false_ne_true
  · have hread : ∀ y type',
        Computation.ofValue config (holders.sheet.get id).value ≠ .absolute y type' :=
      fun y type' h => hnumber ⟨y, type', h⟩
    have hruns := hrelative.run hfloor htype hid hread requests
    refine ⟨?_, fun hnone => ?_, fun before i request after px _ hresolved => ?_⟩
    · rcases hruns with ⟨-, hnone⟩ | ⟨-, hcount⟩
      · exact Nat.le_trans (Nat.le_of_eq (countP_resolves hnone)) (Nat.zero_le 1)
      · exact Nat.le_of_eq hcount
    · rcases hruns with ⟨hsame, -⟩ | ⟨-, hcount⟩
      · exact ⟨congrArg Holders.sheet hsame, fun _ => hsame⟩
      · rw [countP_resolves hnone] at hcount
        exact absurd hcount (by decide)
    · have hresolves : resolves ((holders.run before).ask i request).2 = true := by
        rw [hresolved]
        rfl
      have hbefore : ∀ earlier, earlier <+: before → holders.run earlier = holders :=
        fun earlier hearlier => hrelative.before hfloor htype hid hread hearlier hresolves
      have hsame : holders.run before = holders := hbefore before (List.prefix_refl before)
      refine ⟨hbefore, fun since _ => ?_⟩
      rw [hsame] at hresolved
      have hrun : holders.run (before ++ (i, request) :: since) =
          (holders.ask i request).1.run since := by
        rw [Holders.run_append, hsame]
        rfl
      obtain ⟨hget, hanswers, hstates⟩ := hrelative.after hfloor htype hid hread hresolved since
      dsimp only
      rw [hrun]
      exact ⟨congrArg Declaration.text hget, hanswers, hstates⟩

/-- Two copies of a value of two font sizes. -/
def twoCopies : Holders Bool Float :=
  let (id, sheet) := Sheet.empty.add (.ofPrimitive (.numeric 2 (.dimension .em)))
  ⟨fun _ => (ComputedValue.ofDeclaration id none .standard sheet).1, sheet⟩

/-- One copy is bound too early, the other is resolved, and the first one after it. -/
def resolvedOnce : List (Bool × Request Float) :=
  [(false, .bind ⟨1000, 400⟩), (true, .resolve none .lineHeight),
    (false, .resolve (some (Style.root .standard .empty).1) .fontSize)]

theorem first_resolution_wins_twoCopies :
    (twoCopies.answers resolvedOnce).countP resolves ≤ 1 ∧
    ((twoCopies.run resolvedOnce).sheet.get 0).text = Scalar.text (32 : Float) ++ "px" ∧
    ((twoCopies.run resolvedOnce).value false).state = .absolute 32 .px := by
  obtain ⟨hcount, -, hwins⟩ := first_resolution_wins Binary64.floor_floor (.inl rfl)
    (show 0 < twoCopies.sheet.declarations.length by decide) (fun _ => ⟨rfl, rfl, rfl⟩) resolvedOnce
  obtain ⟨-, hsince⟩ := hwins [(false, .bind ⟨1000, 400⟩)] true (.resolve none .lineHeight)
    [(false, .resolve (some (Style.root .standard .empty).1) .fontSize)] 32 rfl
      (by with_unfolding_all rfl)
  obtain ⟨htext, -, hstates⟩ := hsince _ (List.prefix_refl _)
  exact ⟨hcount, htext, hstates false (.inr List.mem_cons_self)⟩

end ComputedCss
