import ComputedCss.Proofs.Style.Order

/-!
# What binding completes

The values of a style are bound one after the other, in an order that is not known. Their
declarations may be shared, also among themselves, so a binding writes what others have yet to be
bound over. It makes no difference to the values: a pending one looks at its block only.

* `own?_bindIn`, `own?_bindIn_of_perm`: every value of the order is completed.
* `keys_bindIn`: no entry comes or goes.
* `result_bindIn`: the pending values of the order are counted; nothing fails.
* `bindIn_of_settled`: where nothing is pending, nothing happens.
-/

namespace ComputedCss.Style

variable {ν : Type} [Scalar ν] {style : Style ν} {property : Property} {v : Entry ν}
  {sheet : Sheet ν} {order : List Property}

/-- The style has a value of the property, and it waits for layout. -/
def pendsOn (style : Style ν) (property : Property) : Bool :=
  (style.own? property).any (·.isPending)

/-! ## Values -/

theorem own?_bindIn (block : ContainingBlock ν) (order : List Property) (style : Style ν)
    (sheet : Sheet ν) (property : Property) :
    (bindIn block order style sheet).subject.own? property =
      if property ∈ order then (style.own? property).map (·.bound block)
      else style.own? property := by
  induction order generalizing style sheet with
  | nil => rfl
  | cons first rest ih =>
    cases hfirst : style.own? first with
    | none =>
      rw [bindIn_of_none hfirst, ih]
      by_cases hsame : property = first
      · subst hsame
        simp [hfirst]
      · simp [hsame]
    | some v =>
      rw [bindIn_of_some hfirst]
      show (bindIn block rest _ _).subject.own? property = _
      rw [ih]
      by_cases hsame : property = first
      · -- A value that comes again in the order has been completed, and stays so.
        subst hsame
        rw [own?_set_self, hfirst]
        simp [ComputedValue.bound_of_not_isPending (ComputedValue.isPending_bound block v)]
      · rw [own?_set_of_ne hsame]
        simp [hsame]

theorem own?_bindIn_of_perm (horder : order.Perm (style.properties.map Prod.fst))
    (block : ContainingBlock ν) (sheet : Sheet ν) (property : Property) :
    (style.bindIn block order sheet).subject.own? property =
      (style.own? property).map (·.bound block) := by
  rw [own?_bindIn]
  by_cases hmem : property ∈ order
  · rw [if_pos hmem]
  · rw [if_neg hmem]
    cases hown : style.own? property with
    | none => rfl
    | some v =>
      have hkey : property ∈ style.properties.map Prod.fst :=
        List.mem_map.mpr ⟨_, mem_of_lookup hown, rfl⟩
      exact absurd (horder.mem_iff.mpr hkey) hmem

theorem keys_bindIn (block : ContainingBlock ν) (order : List Property) (style : Style ν)
    (sheet : Sheet ν) :
    (bindIn block order style sheet).subject.properties.map Prod.fst =
      style.properties.map Prod.fst := by
  induction order generalizing style sheet with
  | nil => rfl
  | cons first rest ih =>
    cases hfirst : style.own? first with
    | none => rw [bindIn_of_none hfirst, ih]
    | some v =>
      rw [bindIn_of_some hfirst]
      show (bindIn block rest _ _).subject.properties.map Prod.fst = _
      rw [ih]
      exact keys_put_of_lookup hfirst _

/-! ## Counting -/

theorem result_bindIn (horder : order.Nodup) (block : ContainingBlock ν) (style : Style ν)
    (sheet : Sheet ν) :
    (bindIn block order style sheet).result = .ok (order.countP style.pendsOn) := by
  induction order generalizing style sheet with
  | nil => rfl
  | cons first rest ih =>
    obtain ⟨hnew, hrest⟩ := List.nodup_cons.mp horder
    rw [List.countP_cons]
    cases hfirst : style.own? first with
    | none =>
      rw [bindIn_of_none hfirst, ih hrest]
      simp [pendsOn, hfirst]
    | some v =>
      have hlater : rest.countP (style.set first (v.bound block)).pendsOn =
          rest.countP style.pendsOn := by
        refine List.countP_congr fun other hother => ?_
        have hne : other ≠ first := fun hsame => hnew (hsame ▸ hother)
        rw [pendsOn, pendsOn, own?_set_of_ne hne]
      rw [bindIn_of_some hfirst]
      show (bindIn block rest _ _).result.map _ = _
      rw [ih hrest, hlater]
      simp [pendsOn, hfirst, Except.map]

omit [Scalar ν] in
theorem countP_pendsOn (hkeys : (style.properties.map Prod.fst).Nodup) :
    (style.properties.map Prod.fst).countP style.pendsOn = style.pending.length := by
  rw [List.countP_map, pending, ← List.countP_eq_length_filter]
  refine List.countP_congr fun entry hentry => ?_
  have hown : style.own? entry.1 = some entry.2 := lookup_of_mem hkeys hentry
  simp [pendsOn, hown]

/-! ## Nothing pending -/

omit [Scalar ν] in
theorem pending_eq_nil (hkeys : (style.properties.map Prod.fst).Nodup)
    (h : ∀ property v, style.own? property = some v → v.isPending = false) :
    style.pending = [] := by
  refine List.filter_eq_nil_iff.mpr fun entry hentry => ?_
  rw [h entry.1 entry.2 (lookup_of_mem hkeys hentry)]
  exact Bool.false_ne_true

theorem bindIn_of_settled (h : ∀ property v, style.own? property = some v → v.isPending = false)
    (block : ContainingBlock ν) (order : List Property) (sheet : Sheet ν) :
    bindIn block order style sheet = ⟨.ok 0, style, sheet, []⟩ := by
  induction order with
  | nil => rfl
  | cons property rest ih =>
    have hfirst : bindOwn block property style sheet = ⟨.ok 0, style, sheet, []⟩ := by
      unfold bindOwn
      cases hv : style.own? property with
      | none => rfl
      | some v =>
        dsimp only
        rw [h property v hv]
        rfl
    rw [bindIn, hfirst]
    dsimp only
    rw [ih]
    rfl

end ComputedCss.Style
