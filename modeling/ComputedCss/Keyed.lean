/-!
# Lists of named entries

A list of pairs in which a key is looked up from the front. Putting a value under a present key
replaces it where it stands; a new key goes to the end.
-/

namespace ComputedCss

variable {α β : Type} [BEq α]

/-- The entries with a value under a key. -/
def put (key : α) (value : β) : List (α × β) → List (α × β)
  | [] => [(key, value)]
  | (k, v) :: rest => if key == k then (k, value) :: rest else (k, v) :: put key value rest

theorem lookup_put_self [LawfulBEq α] (key : α) (value : β) (entries : List (α × β)) :
    (put key value entries).lookup key = some value := by
  induction entries with
  | nil => simp [put]
  | cons entry rest ih =>
    obtain ⟨k, v⟩ := entry
    simp only [put]
    split
    · simp_all
    · rename_i h
      simp only [List.lookup_cons, h, ih]

theorem lookup_put_of_ne [LawfulBEq α] {key other : α} (h : other ≠ key) (value : β)
    (entries : List (α × β)) : (put key value entries).lookup other = entries.lookup other := by
  have hne : (other == key) = false := by simpa using h
  induction entries with
  | nil => simp [put, List.lookup_cons, hne]
  | cons entry rest ih =>
    obtain ⟨k, v⟩ := entry
    simp only [put]
    split
    · rename_i hk
      have hk : key = k := by simpa using hk
      subst hk
      simp [List.lookup_cons, hne]
    · simp only [List.lookup_cons, ih]

end ComputedCss
