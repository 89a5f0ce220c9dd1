import ComputedCss.Sheet
import ComputedCss.Proofs.Reading

/-!
# Errors and notices of the classifier

A text that is no value is a malformed number, or it has a fault. The only notice that reading a
text raises is about a number in an unknown unit.

* `raises_readPrimitive`: one component.
* `raises_read`: a whole text.
-/

namespace ComputedCss

variable {ν : Type}

/-- An error about the text of a value. -/
def ValueError.OfText (error : ValueError ν) : Prop :=
  (∃ text, error = .malformedNumber text) ∨ ∃ text fault, error = .unreadable text fault

/-- The notice about an unknown unit. -/
def Notice.OfUnit (notice : Notice) : Prop :=
  ∃ unit, notice = .warning ("unknown unit '" ++ unit ++ "' kept as written")

namespace Reading

variable {α : Type}

/-- The reading raises what the classifier may raise. -/
abbrev Classifies (r : Reading ν α) : Prop :=
  Raises ValueError.OfText Notice.OfUnit r

theorem classifies_fail (text : List Char) (fault : Fault) :
    Classifies (fail text fault : Reading ν α) :=
  raises_throw (.inr ⟨_, fault, rfl⟩)

theorem classifies_ofText (text : List Char) (x : Except Fault α) :
    Classifies (ofText text x : Reading ν α) :=
  raises_ofText x fun fault => .inr ⟨_, fault, rfl⟩

end Reading

open Reading

theorem notices_readSuffix {suffix : List Char} {type : Noted ValueType}
    (h : readSuffix suffix = some type) : ∀ notice ∈ type.notices, notice.OfUnit := by
  unfold readSuffix at h
  split at h
  · obtain rfl := Option.some.inj h
    exact fun notice hnotice => absurd hnotice List.not_mem_nil
  · obtain rfl := Option.some.inj h
    exact fun notice hnotice => absurd hnotice List.not_mem_nil
  · split_ifs at h
    dsimp only at h
    split at h
    · obtain rfl := Option.some.inj h
      exact fun notice hnotice => absurd hnotice List.not_mem_nil
    · obtain rfl := Option.some.inj h
      intro notice hnotice
      exact ⟨String.ofList suffix, List.mem_singleton.mp hnotice⟩

variable [Scalar ν]

theorem raises_readNumeric (text : List Char) :
    Classifies (readNumeric text : Reading ν (ν × ValueType)) := by
  unfold readNumeric
  split
  · exact raises_throw (.inl ⟨_, rfl⟩)
  · split
    · exact raises_throw (.inl ⟨_, rfl⟩)
    · rename_i type htype
      exact raises_bind (raises_lift (notices_readSuffix htype)) fun type => raises_pure _

/-! ## Functions -/

omit [Scalar ν] in
theorem raises_readCounterName (text argument : List Char) :
    Classifies (readCounterName text argument : Reading ν String) := by
  unfold readCounterName
  split_ifs
  · exact raises_pure _
  · exact classifies_fail text _

omit [Scalar ν] in
theorem raises_readCounter (text arguments : List Char) :
    Classifies (readCounter text arguments : Reading ν Counter) := by
  refine raises_bind (classifies_ofText arguments _) fun pieces => ?_
  split
  · exact raises_bind (raises_readCounterName text _) fun identifier => raises_pure _
  · exact raises_bind (raises_readCounterName text _) fun identifier =>
      raises_bind (raises_readCounterName text _) fun style => raises_pure _
  · exact classifies_fail text _

omit [Scalar ν] in
theorem raises_readCountersSeparator (text argument : List Char) :
    Classifies (readCountersSeparator text argument : Reading ν String) := by
  unfold readCountersSeparator
  split
  · split_ifs
    · exact classifies_ofText _ _
    · exact classifies_fail text _
  · exact classifies_fail text _

omit [Scalar ν] in
theorem raises_readCounters (text arguments : List Char) :
    Classifies (readCounters text arguments : Reading ν Counter) := by
  refine raises_bind (classifies_ofText arguments _) fun pieces => ?_
  split
  · rename_i identifier separator others
    refine raises_bind (raises_readCountersSeparator text separator) fun separator => ?_
    have hidentifier : ∀ style, Classifies (do
        let identifier ← readCounterName text identifier
        pure ⟨identifier, style, some separator⟩ : Reading ν Counter) := fun style =>
      raises_bind (raises_readCounterName text identifier) fun identifier => raises_pure _
    dsimp only
    split
    · exact raises_bind (raises_pure none) hidentifier
    · exact raises_bind (raises_map some (raises_readCounterName text _)) hidentifier
    · exact raises_bind (classifies_fail text _) hidentifier
  · exact classifies_fail text _

theorem raises_readRectSide (text side : List Char) :
    Classifies (readRectSide text side : Reading ν (RectSide ν)) := by
  unfold readRectSide
  split_ifs
  · exact raises_pure _
  · refine raises_bind (raises_readNumeric side) fun (value, type) => ?_
    dsimp only
    split_ifs
    · exact raises_pure _
    · exact raises_pure _
    · exact classifies_fail text _
  · exact classifies_fail text _

theorem raises_readRect (text arguments : List Char) :
    Classifies (readRect text arguments : Reading ν (Rect ν)) := by
  refine raises_bind (classifies_ofText arguments _) fun pieces => ?_
  refine raises_bind (raises_mapM (raises_readRectSide text) pieces) fun sides => ?_
  split
  · exact raises_pure _
  · exact classifies_fail text _

theorem raises_readCall (text name arguments : List Char) :
    Classifies (readCall text name arguments : Reading ν (Primitive ν)) := by
  unfold readCall
  dsimp only
  split_ifs
  · exact raises_pure _
  · exact raises_pure _
  · exact raises_map _ (raises_readCounter text arguments)
  · exact raises_map _ (raises_readCounters text arguments)
  · exact raises_map _ (raises_readRect text arguments)
  · split
    · exact raises_pure _
    · exact classifies_fail text _

theorem raises_readFunction (text : List Char) :
    Classifies (readFunction text : Reading ν (Primitive ν)) := by
  unfold readFunction
  dsimp only
  split_ifs
  · split
    · exact classifies_fail text _
    · exact raises_bind (classifies_ofText _ _) fun _ => raises_readCall text _ _
  · exact classifies_fail text _

/-! ## Components and lists -/

theorem raises_readTrimmed (text : List Char) :
    Classifies (readTrimmed text : Reading ν (Primitive ν)) := by
  unfold readTrimmed
  split
  · exact classifies_fail [] _
  · split_ifs
    · exact raises_map _ (classifies_ofText _ _)
    · unfold readHexColor
      split
      · exact raises_pure _
      · exact classifies_fail _ _
    · exact raises_bind (raises_readNumeric _) fun number => raises_pure _
    · exact raises_readFunction _
    · exact raises_pure _
    · exact classifies_fail _ _

theorem raises_readPrimitive (text : List Char) :
    Classifies (readPrimitive text : Reading ν (Primitive ν)) :=
  raises_readTrimmed (Text.trim text)

theorem raises_readListItem (item : List Char) :
    Classifies (readListItem item : Reading ν (Primitive ν)) := by
  unfold readListItem
  split_ifs
  · exact classifies_fail item _
  · refine raises_bind (classifies_ofText item _) fun words => ?_
    split_ifs
    · exact raises_readPrimitive item
    · exact raises_pure _
    · exact classifies_fail item _

theorem raises_readTrimmedValue (text : List Char) :
    Classifies (readTrimmedValue text : Reading ν (Value ν)) := by
  unfold readTrimmedValue
  split_ifs
  · exact classifies_fail text _
  · refine raises_bind (classifies_ofText text _) fun items => ?_
    split_ifs
    · exact raises_bind (raises_mapM raises_readListItem items) fun items => raises_pure _
    · refine raises_bind (classifies_ofText text _) fun words => ?_
      split_ifs
      · exact raises_bind (raises_mapM raises_readPrimitive words) fun items => raises_pure _
      · exact raises_map _ (raises_readPrimitive text)

theorem raises_read (text : String) : Classifies (Declaration.read text : Reading ν (Declaration ν)) :=
  raises_bind (raises_readTrimmedValue _) fun _ => raises_pure _

theorem result_read (text : String) :
    Reading.result (Declaration.read text : Reading ν (Declaration ν)) =
      (Value.parse? text).map (Declaration.mk (Text.trimmed text)) := by
  have hread : (Declaration.read text : Reading ν (Declaration ν)) =
      Value.read text >>= fun value => pure ⟨Text.trimmed text, value⟩ := rfl
  rw [hread, Reading.result_bind]
  show (Value.parse? text).bind _ = _
  cases (Value.parse? text : Except (ValueError ν) (Value ν)) <;> rfl

theorem read_eq_error {text : String} {error : ValueError ν} (h : Value.parse? text = .error error) :
    (Declaration.read text : Reading ν (Declaration ν)).run.value = .error error :=
  (result_read text).trans (congrArg (Except.map _) h)

theorem read_eq_ok {text : String} {value : Value ν} (h : Value.parse? text = .ok value) :
    (Declaration.read text : Reading ν (Declaration ν)).run.value =
      .ok ⟨Text.trimmed text, value⟩ :=
  (result_read text).trans (congrArg (Except.map _) h)

end ComputedCss
