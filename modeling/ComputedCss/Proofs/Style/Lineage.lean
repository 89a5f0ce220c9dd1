import ComputedCss.Style.Basic
import ComputedCss.Proofs.Keyed

/-!
# Lineages

The lineage of a style is the style itself with its ancestors. What a style looks up stands on its
lineage.

* `Lineage.eq_of_parent`: no two styles of a lineage have one parent.
* `mem_of_lookup?`: what is found stands under its property on a style of the lineage.
* `isSome_lookup?`: an inherited property that every root of the lineage has is found.
-/

namespace ComputedCss.Style

variable {ν : Type}

/-- The style itself and its ancestors. -/
inductive Lineage (style : Style ν) : Style ν → Prop
  | self : Lineage style style
  | parent {ancestor above} : Lineage style ancestor → ancestor.parent = some above →
    Lineage style above

variable {style parent ancestor : Style ν} {property : Property} {v : Entry ν}

theorem Lineage.trans {above : Style ν} (h : style.Lineage ancestor) (habove : ancestor.Lineage above) :
    style.Lineage above := by
  induction habove with
  | self => exact h
  | parent _ hparent ih => exact .parent ih hparent

theorem Lineage.of_parent (hparent : style.parent = some parent) (h : parent.Lineage ancestor) :
    style.Lineage ancestor :=
  .trans (.parent .self hparent) h

theorem Lineage.self_or_parent (h : style.Lineage ancestor) :
    ancestor = style ∨ ∃ parent, style.parent = some parent ∧ parent.Lineage ancestor := by
  induction h with
  | self => exact .inl rfl
  | parent _ habove ih =>
    rcases ih with rfl | ⟨parent, hparent, hline⟩
    · exact .inr ⟨_, habove, .self⟩
    · exact .inr ⟨parent, hparent, .parent hline habove⟩

theorem lineage_of_parent_eq {style' : Style ν} (hparent : style'.parent = style.parent)
    (h : style'.Lineage ancestor) : ancestor = style' ∨ style.Lineage ancestor := by
  rcases h.self_or_parent with rfl | ⟨parent, hstyle, hline⟩
  · exact .inl rfl
  · exact .inr (.of_parent (hparent.symm.trans hstyle) hline)

theorem lineage_childOf (h : style.childOf.Lineage ancestor) :
    ancestor = style.childOf ∨ style.Lineage ancestor := by
  rcases h.self_or_parent with rfl | ⟨parent, hstyle, hline⟩
  · exact .inl rfl
  · obtain rfl := Option.some.inj hstyle
    exact .inr hline

theorem sizeOf_of_parent (h : style.parent = some parent) : sizeOf parent < sizeOf style := by
  obtain ⟨above, properties, config⟩ := style
  change above = some parent at h
  subst h
  simp only [mk.sizeOf_spec, Option.some.sizeOf_spec]
  omega

theorem Lineage.sizeOf_le (h : style.Lineage ancestor) : sizeOf ancestor ≤ sizeOf style := by
  induction h with
  | self => exact Nat.le_refl _
  | parent _ hparent ih => exact Nat.le_trans (Nat.le_of_lt (sizeOf_of_parent hparent)) ih

theorem Lineage.ne_of_parent (hparent : style.parent = some parent) (h : parent.Lineage ancestor) :
    ancestor ≠ style := by
  rintro rfl
  have hle := h.sizeOf_le
  have hlt := sizeOf_of_parent hparent
  omega

theorem Lineage.eq_of_parent (h : style.Lineage ancestor) (hparent : ancestor.parent = style.parent) :
    ancestor = style := by
  rcases h.self_or_parent with rfl | ⟨parent, hstyle, hline⟩
  · rfl
  · have hle := hline.sizeOf_le
    have hlt := sizeOf_of_parent (hparent.trans hstyle)
    omega

/-! ## Looking up -/

theorem own?_set_self (style : Style ν) (property : Property) (v : Entry ν) :
    (style.set property v).own? property = some v :=
  lookup_put_self property v style.properties

theorem own?_set_of_ne {other : Property} (h : other ≠ property) (style : Style ν) (v : Entry ν) :
    (style.set property v).own? other = style.own? other :=
  lookup_put_of_ne h v style.properties

theorem mem_of_lookup? (h : style.lookup? property = some v) :
    ∃ ancestor, style.Lineage ancestor ∧ (property, v) ∈ ancestor.properties := by
  induction style using lookup?.induct property with
  | case1 properties config => exact ⟨_, .self, mem_of_lookup h⟩
  | case2 parent properties config value hown =>
    rw [lookup?, hown] at h
    obtain rfl := Option.some.inj h
    exact ⟨_, .self, mem_of_lookup hown⟩
  | case3 parent properties config hown hinherited ih =>
    rw [lookup?, hown] at h
    dsimp only at h
    rw [if_pos hinherited] at h
    obtain ⟨ancestor, hline, hmem⟩ := ih h
    exact ⟨ancestor, .of_parent rfl hline, hmem⟩
  | case4 parent properties config hown hinherited =>
    rw [lookup?, hown] at h
    dsimp only at h
    rw [if_neg hinherited] at h
    exact absurd h (by simp)

theorem mem_of_parentLookup? (h : parentLookup? style.parent property = some v) :
    ∃ ancestor, style.Lineage ancestor ∧ (property, v) ∈ ancestor.properties := by
  obtain ⟨parent, hparent, hlookup⟩ := Option.bind_eq_some_iff.mp h
  obtain ⟨ancestor, hline, hmem⟩ := mem_of_lookup? hlookup
  exact ⟨ancestor, .of_parent hparent hline, hmem⟩

theorem isSome_lookup? (hinherited : property.isInherited = true)
    (hroot : ∀ ancestor, style.Lineage ancestor → ancestor.parent = none →
      (ancestor.own? property).isSome = true) : (style.lookup? property).isSome = true := by
  induction style using lookup?.induct property with
  | case1 properties config => exact hroot _ .self rfl
  | case2 parent properties config value hown =>
    rw [lookup?, hown]
    rfl
  | case3 parent properties config hown _ ih =>
    rw [lookup?, hown]
    dsimp only
    rw [if_pos hinherited]
    exact ih fun ancestor hline => hroot ancestor (.of_parent rfl hline)
  | case4 parent properties config hown hnot => exact absurd hinherited hnot

/-- A style whose root has the font size misses it in its parent only when there is no parent. -/
theorem parent_eq_none (hinherited : property.isInherited = true)
    (hroot : ∀ ancestor, style.Lineage ancestor → ancestor.parent = none →
      (ancestor.own? property).isSome = true) (h : parentLookup? style.parent property = none) :
    style.parent = none := by
  cases hparent : style.parent with
  | none => rfl
  | some parent =>
    rw [hparent] at h
    have hsome : (parent.lookup? property).isSome = true :=
      isSome_lookup? hinherited fun ancestor hline => hroot ancestor (.of_parent hparent hline)
    rw [show parent.lookup? property = none from h] at hsome
    exact absurd hsome (by simp)

end ComputedCss.Style
