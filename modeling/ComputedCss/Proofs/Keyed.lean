import ComputedCss.Keyed

/-!
# Membership in lists of named entries

* `mem_of_lookup`: what is found stands in the list.
* `mem_put`: putting an entry brings in that entry only.
* `map_put`, `lookup_map`: changing the values does not change the keys.
* `nodup_put`, `lookup_of_mem`: keys are not repeated, so every entry of the list is found.
* `put_comm`: values are replaced in any order.
-/

namespace ComputedCss

variable {α β : Type} [BEq α] [LawfulBEq α]

theorem mem_of_lookup {key : α} {value : β} {entries : List (α × β)}
    (h : entries.lookup key = some value) : (key, value) ∈ entries := by
  obtain ⟨front, back, rfl, -⟩ := List.lookup_eq_some_iff.mp h
  exact List.mem_append_right front List.mem_cons_self

theorem mem_put {key : α} {value : β} {entries : List (α × β)} {entry : α × β}
    (h : entry ∈ put key value entries) : entry = (key, value) ∨ entry ∈ entries := by
  induction entries with
  | nil => exact .inl (by simpa [put] using h)
  | cons first rest ih =>
    obtain ⟨k, v⟩ := first
    rw [put] at h
    by_cases hk : key == k
    · rw [if_pos hk] at h
      obtain rfl := eq_of_beq hk
      rcases List.mem_cons.mp h with rfl | h
      · exact .inl rfl
      · exact .inr (List.mem_cons_of_mem _ h)
    · rw [if_neg hk] at h
      rcases List.mem_cons.mp h with rfl | h
      · exact .inr List.mem_cons_self
      · rcases ih h with rfl | h
        · exact .inl rfl
        · exact .inr (List.mem_cons_of_mem _ h)

omit [LawfulBEq α] in
theorem map_put {γ : Type} (f : β → γ) (key : α) (value : β) (entries : List (α × β)) :
    (put key value entries).map (Prod.map id f) = put key (f value) (entries.map (Prod.map id f)) := by
  induction entries with
  | nil => rfl
  | cons entry rest ih =>
    obtain ⟨k, v⟩ := entry
    simp only [put, List.map_cons, Prod.map, id]
    cases key == k with
    | true => rfl
    | false => exact congrArg ((k, f v) :: ·) ih

omit [LawfulBEq α] in
theorem lookup_map {γ : Type} (f : β → γ) (key : α) (entries : List (α × β)) :
    (entries.map (Prod.map id f)).lookup key = (entries.lookup key).map f := by
  induction entries with
  | nil => rfl
  | cons entry rest ih =>
    obtain ⟨k, v⟩ := entry
    simp only [List.map_cons, Prod.map, id, List.lookup_cons]
    cases key == k with
    | true => rfl
    | false => exact ih

/-! ## Keys -/

omit [BEq α] [LawfulBEq α] in
theorem keys_map {γ : Type} (f : β → γ) (entries : List (α × β)) :
    (entries.map (Prod.map id f)).map Prod.fst = entries.map Prod.fst := by
  rw [List.map_map]
  rfl

theorem nodup_put {entries : List (α × β)} (h : (entries.map Prod.fst).Nodup) (key : α) (value : β) :
    ((put key value entries).map Prod.fst).Nodup := by
  induction entries with
  | nil => exact List.nodup_cons.mpr ⟨List.not_mem_nil, List.nodup_nil⟩
  | cons entry rest ih =>
    obtain ⟨k, v⟩ := entry
    obtain ⟨hnew, hrest⟩ := List.nodup_cons.mp h
    rw [put]
    by_cases hk : key == k
    · rw [if_pos hk]
      exact h
    · rw [if_neg hk]
      refine List.nodup_cons.mpr ⟨fun hmem => ?_, ih hrest⟩
      obtain ⟨⟨other, w⟩, hput, hother⟩ := List.mem_map.mp hmem
      obtain rfl : other = k := hother
      rcases mem_put hput with heq | hput
      · obtain ⟨rfl, -⟩ := Prod.mk.inj heq
        exact hk (beq_self_eq_true other)
      · exact hnew (List.mem_map.mpr ⟨_, hput, rfl⟩)

theorem lookup_of_mem {key : α} {value : β} {entries : List (α × β)}
    (hnodup : (entries.map Prod.fst).Nodup) (h : (key, value) ∈ entries) :
    entries.lookup key = some value := by
  induction entries with
  | nil => exact absurd h List.not_mem_nil
  | cons entry rest ih =>
    obtain ⟨k, v⟩ := entry
    obtain ⟨hnew, hrest⟩ := List.nodup_cons.mp hnodup
    rw [List.lookup_cons]
    rcases List.mem_cons.mp h with heq | hmem
    · obtain ⟨rfl, rfl⟩ := Prod.mk.inj heq
      rw [beq_self_eq_true]
    · have hne : key ≠ k := by
        rintro rfl
        exact hnew (List.mem_map.mpr ⟨_, hmem, rfl⟩)
      rw [beq_false_of_ne hne]
      exact ih hrest hmem

theorem put_append {key : α} {front : List (α × β)} (h : key ∉ front.map Prod.fst) (value : β)
    (rest : List (α × β)) : put key value (front ++ rest) = front ++ put key value rest := by
  induction front with
  | nil => rfl
  | cons entry front ih =>
    obtain ⟨k, v⟩ := entry
    have hne : ¬(key == k) = true := fun hk => h (eq_of_beq hk ▸ List.mem_cons_self)
    rw [List.cons_append, put, if_neg hne, ih fun hmem => h (List.mem_cons_of_mem _ hmem)]
    rfl

omit [LawfulBEq α] in
theorem put_of_lookup {key : α} {value : β} {entries : List (α × β)}
    (h : entries.lookup key = some value) : put key value entries = entries := by
  induction entries with
  | nil => exact absurd h (by simp)
  | cons entry rest ih =>
    obtain ⟨k, v⟩ := entry
    rw [List.lookup_cons] at h
    rw [put]
    cases hk : key == k with
    | true =>
      rw [hk] at h
      obtain rfl := Option.some.inj h
      rfl
    | false =>
      rw [hk] at h
      rw [if_neg Bool.false_ne_true, ih h]

omit [LawfulBEq α] in
theorem keys_put_of_lookup {key : α} {old : β} {entries : List (α × β)}
    (h : entries.lookup key = some old) (value : β) :
    (put key value entries).map Prod.fst = entries.map Prod.fst := by
  induction entries with
  | nil => exact absurd h (by simp)
  | cons entry rest ih =>
    obtain ⟨k, v⟩ := entry
    rw [List.lookup_cons] at h
    rw [put]
    cases hk : key == k with
    | true => rfl
    | false =>
      rw [hk] at h
      rw [if_neg Bool.false_ne_true, List.map_cons, List.map_cons, ih h]

theorem put_comm {key other : α} (hne : key ≠ other) {entries : List (α × β)} {old old' : β}
    (h : entries.lookup key = some old) (h' : entries.lookup other = some old') (value value' : β) :
    put other value' (put key value entries) = put key value (put other value' entries) := by
  induction entries with
  | nil => exact absurd h (by simp)
  | cons entry rest ih =>
    obtain ⟨k, v⟩ := entry
    rw [List.lookup_cons] at h h'
    by_cases hk : key = k
    · subst hk
      have hother : ¬(other == key) = true := fun hk => hne (eq_of_beq hk).symm
      simp only [put, if_neg hother, beq_self_eq_true, if_true]
    · have hkey : ¬(key == k) = true := fun h => hk (eq_of_beq h)
      by_cases hk' : other = k
      · subst hk'
        simp only [put, if_neg hkey, beq_self_eq_true, if_true]
      · have hother : ¬(other == k) = true := fun h => hk' (eq_of_beq h)
        rw [beq_false_of_ne hk] at h
        rw [beq_false_of_ne hk'] at h'
        simp only [put, if_neg hkey, if_neg hother, ih h h']

end ComputedCss
