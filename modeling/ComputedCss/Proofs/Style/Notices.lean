import ComputedCss.Proofs.Style.Deriving

/-!
# What deriving reports

A derivation reports an unknown unit of its text, something about the declaration itself, or a font
size that the parent does not have.

* `notices_derive`: these three, and the last one only without a font size.
* `parentLookup?_of_mem_notices`: the report about the font size is not mistaken for another.
-/

namespace ComputedCss

variable {ν : Type} [Scalar ν]

/-- The notice about a font size that the parent does not have. -/
def Notice.missingFontSize (config : Config ν) : Notice :=
  .warning ("parent style has no font-size, using " ++ Scalar.text config.defaultFontSize ++ "px")

/-- The notice starts by quoting a declaration. -/
def Notice.Quotes (notice : Notice) : Prop :=
  ∃ rest, notice.message = "'" ++ rest

namespace ComputedValue

variable {config : Config ν} {parent : Option (Style ν)} {property : Property} {sheet : Sheet ν}

/-- What resolving a number against a parent style reports. -/
abbrev Reports (config : Config ν) (parent : Option (Style ν)) {α : Type} (r : Reading ν α) : Prop :=
  Reading.Raises (fun _ => True)
    (fun notice => Style.parentLookup? parent .fontSize = none ∧ notice = .missingFontSize config) r

omit [Scalar ν] in
theorem raises_ofExcept {α : Type} {Q : Notice → Prop} (x : Except (ValueError ν) α) :
    Reading.Raises (fun _ => True) Q (Reading.ofExcept x) := by
  cases x with
  | ok a => exact Reading.raises_pure a
  | error error => exact Reading.raises_throw trivial

theorem reports_fontSize : Reports config parent (fontSize config parent sheet) := by
  unfold fontSize
  split
  · exact raises_ofExcept _
  · rename_i hnone
    refine Reading.raises_bind (Reading.raises_lift fun notice hnotice => ?_) fun _ =>
      Reading.raises_pure _
    exact ⟨hnone, List.mem_singleton.mp hnotice⟩

theorem reports_lineHeight : Reports config parent (lineHeight parent sheet) := by
  unfold lineHeight
  split
  · exact raises_ofExcept _
  · exact Reading.raises_throw trivial

theorem reports_basis (value : ν) (type : ValueType) :
    Reports config parent (basis config parent property sheet value type) := by
  have hsize : ∀ f : ν → ν, Reports config parent (fontSize config parent sheet >>= fun size =>
      pure (Basis.length (f size))) := fun f =>
    Reading.raises_bind reports_fontSize fun size => Reading.raises_pure _
  unfold basis
  split
  · exact hsize _
  · exact hsize _
  · split
    · exact Reading.raises_bind reports_lineHeight fun height => Reading.raises_pure _
    · exact hsize _
    · split
      · exact Reading.raises_pure _
      · exact Reading.raises_pure _
  · exact Reading.raises_throw trivial

theorem notices_resolveAgainst (v : Style.Entry ν) :
    ∀ notice ∈ (v.resolveAgainst parent property sheet).notices, notice.Quotes ∨
      Style.parentLookup? parent .fontSize = none ∧ ∃ config : Config ν,
        notice = .missingFontSize config := by
  have hbasis : ∀ value type,
      ∀ notice ∈ (basis (v.adopt sheet).config parent property sheet value type).run.notices,
        Style.parentLookup? parent .fontSize = none ∧ ∃ config : Config ν,
          notice = .missingFontSize config := by
    intro value type notice hnotice
    obtain ⟨hnone, heq⟩ := (reports_basis value type).notice notice hnotice
    exact ⟨hnone, _, heq⟩
  intro notice hnotice
  unfold resolveAgainst at hnotice
  dsimp only at hnotice
  split at hnotice
  · refine .inl ⟨property.name ++ (": " ++ ((v.adopt sheet).text sheet ++
      "' is already computed, nothing to resolve")), ?_⟩
    rw [List.mem_singleton.mp hnotice]
    simp only [Notice.info, String.append_assoc]
  · split at hnotice
    · exact .inr (hbasis _ _ notice hnotice)
    · rcases List.mem_append.mp hnotice with hnotice | hnotice
      · exact .inr (hbasis _ _ notice hnotice)
      · exact absurd hnotice List.not_mem_nil
    · rename_i value type hopen basis axis hlayout
      rcases List.mem_append.mp hnotice with hnotice | hnotice
      · exact .inr (hbasis _ _ notice hnotice)
      · refine .inl ⟨property.name ++ (": " ++ (Scalar.text value ++
          ("%' needs the containing block " ++ (axis.name ++ ", deferred to layout")))), ?_⟩
        rw [List.mem_singleton.mp hnotice]
        simp only [Notice.warning, ValueError.needsContainingBlock, String.append_assoc]

end ComputedValue

namespace Style

variable {property : Property} {style : Style ν} {sheet : Sheet ν}

theorem notices_settle (parent : Option (Style ν)) (v : Entry ν) :
    ∀ notice ∈ (settle parent property v sheet).notices, notice.Quotes ∨
      parentLookup? parent .fontSize = none ∧ ∃ config : Config ν,
        notice = .missingFontSize config := by
  unfold settle
  split
  · exact ComputedValue.notices_resolveAgainst v
  · exact fun notice hnotice => absurd hnotice List.not_mem_nil

theorem notices_drawn (declaration : Declaration ν) :
    ∀ notice ∈ (drawn property declaration style sheet).notices, notice.Quotes := by
  unfold drawn inherit
  dsimp only
  split
  · split
    · exact fun notice hnotice => absurd hnotice List.not_mem_nil
    · intro notice hnotice
      refine ⟨property.name ++ ": inherit' has no parent value to inherit", ?_⟩
      rw [List.mem_singleton.mp hnotice]
      simp only [Notice.warning, String.append_assoc]
  · exact fun notice hnotice => absurd hnotice List.not_mem_nil

theorem notices_derive (text : String) :
    ∀ notice ∈ (style.derive property text sheet).notices, notice.OfUnit ∨ notice.Quotes ∨
      parentLookup? style.parent .fontSize = none ∧ ∃ config : Config ν,
        notice = .missingFontSize config := by
  intro notice hnotice
  have hread := (raises_read (ν := ν) text).notice notice
  cases hparse : (Value.parse? text : Except (ValueError ν) (Value ν)) with
  | error error =>
    rw [derive_of_error hparse] at hnotice
    rcases List.mem_append.mp hnotice with hnotice | hnotice
    · exact .inl (hread hnotice)
    · exact absurd hnotice List.not_mem_nil
  | ok value =>
    rw [derive_of_ok hparse, deriveRead_eq] at hnotice
    rcases List.mem_append.mp hnotice with hnotice | hnotice
    · exact .inl (hread hnotice)
    · rcases List.mem_append.mp hnotice with hnotice | hnotice
      · exact .inr (.inl (notices_drawn _ notice hnotice))
      · exact .inr (notices_settle _ _ notice hnotice)

theorem parentLookup?_of_mem_notices {text : String} {config : Config ν}
    (h : Notice.missingFontSize config ∈ (style.derive property text sheet).notices) :
    parentLookup? style.parent .fontSize = none := by
  rcases notices_derive text _ h with ⟨unit, hunit⟩ | ⟨rest, hrest⟩ | ⟨hnone, -⟩
  · have hmessage := congrArg (·.message.toList.head?) hunit
    simp [Notice.missingFontSize, Notice.warning] at hmessage
  · have hmessage := congrArg (·.toList.head?) hrest
    simp [Notice.missingFontSize, Notice.warning] at hmessage
  · exact hnone

end Style

end ComputedCss
