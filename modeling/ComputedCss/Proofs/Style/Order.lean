import ComputedCss.Proofs.Style.Deriving
import ComputedCss.Proofs.Style.Lineage

/-!
# The order of binding

Binding a style takes its values one after the other and writes their declarations. Where different
properties stand over different declarations, the order makes no difference.

* `bindIn`: binding takes the values in a given order.
* `bindIn_perm`: one order is as good as another.
* `bindIn_eq_bind`: so is the order in which the values are stored.
-/

namespace ComputedCss

variable {ν : Type}

theorem Sheet.write_comm {id other : DeclarationId} (h : id ≠ other) (sheet : Sheet ν)
    (declaration declaration' : Declaration ν) :
    (sheet.write id declaration).write other declaration' =
      (sheet.write other declaration').write id declaration := by
  unfold Sheet.write
  dsimp only
  rw [List.set_comm _ _ h]

namespace Outcome

variable {σ : Type}

theorem map_add_zero (outcome : Outcome ν σ Nat) : outcome.map (· + 0) = outcome := by
  obtain ⟨result, subject, sheet, notices⟩ := outcome
  cases result with
  | error error => rfl
  | ok n => rfl

theorem map_add_comm (outcome : Outcome ν σ Nat) (m n : Nat) :
    (outcome.map (· + m)).map (· + n) = (outcome.map (· + n)).map (· + m) := by
  obtain ⟨result, subject, sheet, notices⟩ := outcome
  cases result with
  | error error => rfl
  | ok count =>
    unfold map
    dsimp only [Except.map]
    rw [Nat.add_right_comm]

end Outcome

variable [Scalar ν]

/-- The sheet after a value has been completed if it is pending. -/
def ComputedValue.written (block : ContainingBlock ν) (v : Style.Entry ν) (sheet : Sheet ν) : Sheet ν :=
  if v.isPending then (v.bind block sheet).sheet else sheet

namespace Style

/-- Completes the value of a property if it is pending, and counts it. -/
def bindOwn (block : ContainingBlock ν) (property : Property) (style : Style ν) (sheet : Sheet ν) :
    Outcome ν (Style ν) Nat :=
  match style.own? property with
  | some v =>
    if v.isPending then ((v.bind block sheet).map fun _ => 1).around (style.set property)
    else ⟨.ok 0, style, sheet, []⟩
  | none => ⟨.ok 0, style, sheet, []⟩

/-- Completes the pending percentages among the values of some properties, one after the other, and
counts them. -/
def bindIn (block : ContainingBlock ν) :
    List Property → Style ν → Sheet ν → Outcome ν (Style ν) Nat
  | [], style, sheet => ⟨.ok 0, style, sheet, []⟩
  | property :: rest, style, sheet =>
    let first := bindOwn block property style sheet
    match first.result with
    | .error _ => first
    | .ok n => ((bindIn block rest first.subject first.sheet).map (· + n)).after first.notices

/-- Different properties of a style stand over different declarations. -/
def Apart (style : Style ν) : Prop :=
  ∀ property other v w, style.own? property = some v → style.own? other = some w →
    v.declaration = w.declaration → property = other

variable {style : Style ν} {property other : Property} {v w : Entry ν} {sheet : Sheet ν}

/-! ## One value -/

theorem bindOwn_of_none (h : style.own? property = none) (block : ContainingBlock ν) :
    bindOwn block property style sheet = ⟨.ok 0, style, sheet, []⟩ := by
  unfold bindOwn
  rw [h]

theorem bindOwn_of_some (h : style.own? property = some v) (block : ContainingBlock ν) :
    bindOwn block property style sheet = ⟨.ok (if v.isPending then 1 else 0),
      style.set property (v.bound block), v.written block sheet, []⟩ := by
  unfold bindOwn ComputedValue.written
  rw [h]
  cases hv : v.isPending with
  | true =>
    obtain ⟨pixels, hbind⟩ := ComputedValue.bind_of_isPending hv block
    dsimp only
    rw [hv, hbind sheet]
    rfl
  | false =>
    have hset : style.set property v = style := by
      obtain ⟨parent, properties, config⟩ := style
      unfold set
      rw [put_of_lookup h]
    dsimp only
    rw [ComputedValue.bound_of_not_isPending hv, hset, hv]
    rfl

theorem written_comm (h : v.declaration ≠ w.declaration) (block : ContainingBlock ν)
    (sheet : Sheet ν) :
    w.written block (v.written block sheet) = v.written block (w.written block sheet) := by
  unfold ComputedValue.written
  cases hv : v.isPending with
  | true =>
    cases hw : w.isPending with
    | true =>
      obtain ⟨pixels, hbind⟩ := ComputedValue.bind_of_isPending hv block
      obtain ⟨pixels', hbind'⟩ := ComputedValue.bind_of_isPending hw block
      simp only [if_true, hbind, hbind']
      exact Sheet.write_comm h sheet _ _
    | false => rfl
  | false => rfl

theorem Apart.set_bound (h : style.Apart) (hv : style.own? property = some v)
    (block : ContainingBlock ν) : (style.set property (v.bound block)).Apart := by
  -- What is found after it was found before it, over the same declaration.
  have hfound : ∀ other w, (style.set property (v.bound block)).own? other = some w →
      ∃ w', style.own? other = some w' ∧ w'.declaration = w.declaration := by
    intro other w hw
    by_cases hsame : other = property
    · subst hsame
      rw [own?_set_self] at hw
      obtain rfl := Option.some.inj hw
      exact ⟨v, hv, (ComputedValue.declaration_bound v block).symm⟩
    · rw [own?_set_of_ne hsame] at hw
      exact ⟨w, hw, rfl⟩
  intro first second u w hu hw heq
  obtain ⟨u', hu', hdeclared⟩ := hfound first u hu
  obtain ⟨w', hw', hdeclared'⟩ := hfound second w hw
  exact h first second u' w' hu' hw' (hdeclared.trans (heq.trans hdeclared'.symm))

/-! ## Values in order -/

theorem bindIn_of_none (h : style.own? property = none) (block : ContainingBlock ν)
    (rest : List Property) : bindIn block (property :: rest) style sheet =
      bindIn block rest style sheet := by
  rw [bindIn, bindOwn_of_none h]
  exact Outcome.map_add_zero (bindIn block rest style sheet)

theorem bindIn_of_some (h : style.own? property = some v) (block : ContainingBlock ν)
    (rest : List Property) : bindIn block (property :: rest) style sheet =
      (bindIn block rest (style.set property (v.bound block)) (v.written block sheet)).map
        (· + if v.isPending then 1 else 0) := by
  rw [bindIn, bindOwn_of_some h]
  rfl

theorem bindIn_swap (h : style.Apart) (block : ContainingBlock ν) (property other : Property)
    (rest : List Property) :
    bindIn block (property :: other :: rest) style sheet =
      bindIn block (other :: property :: rest) style sheet := by
  by_cases hsame : property = other
  · rw [hsame]
  · cases hv : style.own? property with
    | none =>
      rw [bindIn_of_none hv]
      cases hw : style.own? other with
      | none => rw [bindIn_of_none hw, bindIn_of_none hw, bindIn_of_none hv]
      | some w =>
        have hv' := (own?_set_of_ne hsame style (w.bound block)).trans hv
        rw [bindIn_of_some hw, bindIn_of_some hw, bindIn_of_none hv']
    | some v =>
      cases hw : style.own? other with
      | none =>
        have hw' := (own?_set_of_ne (Ne.symm hsame) style (v.bound block)).trans hw
        rw [bindIn_of_none hw, bindIn_of_some hv, bindIn_of_some hv, bindIn_of_none hw']
      | some w =>
        have hv' := (own?_set_of_ne hsame style (w.bound block)).trans hv
        have hw' := (own?_set_of_ne (Ne.symm hsame) style (v.bound block)).trans hw
        have hne : v.declaration ≠ w.declaration := fun heq => hsame (h _ _ v w hv hw heq)
        have hset : (style.set property (v.bound block)).set other (w.bound block) =
            (style.set other (w.bound block)).set property (v.bound block) :=
          congrArg (fun properties => { style with properties }) (put_comm hsame hv hw _ _)
        rw [bindIn_of_some hv, bindIn_of_some hw', bindIn_of_some hw, bindIn_of_some hv', hset,
          written_comm hne]
        exact Outcome.map_add_comm _ _ _

/-- **Values over different declarations are bound in any order.** -/
theorem bindIn_perm {order order' : List Property} (horder : order.Perm order') (h : style.Apart)
    (block : ContainingBlock ν) :
    bindIn block order style sheet = bindIn block order' style sheet := by
  induction horder generalizing style sheet with
  | nil => rfl
  | cons property _ ih =>
    cases hv : style.own? property with
    | none => rw [bindIn_of_none hv, bindIn_of_none hv, ih h]
    | some v => rw [bindIn_of_some hv, bindIn_of_some hv, ih (h.set_bound hv block)]
  | swap property other rest => exact bindIn_swap h block other property rest
  | trans _ _ ih ih' => exact (ih h).trans (ih' h)

/-! ## The order of the style -/

theorem bindIn_append (block : ContainingBlock ν) (parent : Option (Style ν)) (config : Config ν)
    (front rest : List (Property × Entry ν)) (hnodup : ((front ++ rest).map Prod.fst).Nodup) :
    bindIn block (rest.map Prod.fst) ⟨parent, front ++ rest, config⟩ sheet =
      (bindEach block rest sheet).around fun properties => ⟨parent, front ++ properties, config⟩ := by
  induction rest generalizing front sheet with
  | nil => rfl
  | cons entry rest ih =>
    obtain ⟨property, v⟩ := entry
    let style : Style ν := ⟨parent, front ++ (property, v) :: rest, config⟩
    have hown : style.own? property = some v :=
      lookup_of_mem hnodup (List.mem_append_right front List.mem_cons_self)
    have hlate : property ∉ front.map Prod.fst := by
      intro hmem
      rw [List.map_append] at hnodup
      exact (List.nodup_append.mp hnodup).2.2 property hmem property List.mem_cons_self rfl
    have hset : style.set property (v.bound block) =
        ⟨parent, (front ++ [(property, v.bound block)]) ++ rest, config⟩ := by
      unfold set
      dsimp only [style]
      rw [put_append hlate, List.append_assoc]
      simp [put]
    have hkeys : ((front ++ [(property, v.bound block)] ++ rest).map Prod.fst).Nodup := by
      simpa using hnodup
    have hfront : ∀ properties, front ++ [(property, v.bound block)] ++ properties =
        front ++ (property, v.bound block) :: properties := fun properties => by
      rw [List.append_assoc]
      rfl
    rw [List.map_cons, bindIn_of_some hown, hset, ih _ hkeys]
    simp only [hfront]
    unfold ComputedValue.written
    cases hv : v.isPending with
    | true =>
      obtain ⟨pixels, hbind⟩ := ComputedValue.bind_of_isPending hv block
      rw [bindEach, if_pos hv, if_pos rfl, hbind sheet]
      rfl
    | false =>
      rw [bindEach_of_not_isPending hv, if_neg Bool.false_ne_true, if_neg Bool.false_ne_true,
        Outcome.map_add_zero]
      rfl

theorem bindIn_stored (hnodup : (style.properties.map Prod.fst).Nodup) (block : ContainingBlock ν)
    (sheet : Sheet ν) :
    bindIn block (style.properties.map Prod.fst) style sheet = style.bind block sheet := by
  obtain ⟨parent, properties, config⟩ := style
  exact bindIn_append block parent config [] properties hnodup

/-- **Binding a style does not depend on the order in which its values are taken.** -/
theorem bindIn_eq_bind (hnodup : (style.properties.map Prod.fst).Nodup) (h : style.Apart)
    {order : List Property} (horder : order.Perm (style.properties.map Prod.fst))
    (block : ContainingBlock ν) : bindIn block order style sheet = style.bind block sheet := by
  rw [bindIn_perm horder h block]
  exact bindIn_stored hnodup block sheet

end Style

end ComputedCss
