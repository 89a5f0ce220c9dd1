import Mathlib.Data.List.Forall2
import ComputedCss.Value.Classifier

/-!
# What a reading answers

`Reading.result` is the answer of a reading without the notices that it raises. It is a morphism of
monads to `Except`, so a reading that succeeds can be taken apart step by step.

* `result_bind_eq_ok`: a sequence succeeds when both of its steps do.
* `result_mapM_eq_ok`: a list of readings succeeds when each of them does.
* `Raises`: what every error and every notice of a reading is like; it is kept by sequencing.
-/

namespace ComputedCss.Reading

variable {ν α β : Type}

/-- The answer of a reading, without its notices. -/
def result (r : Reading ν α) : Except (ValueError ν) α :=
  r.run.value

@[simp] theorem result_pure (a : α) : result (pure a : Reading ν α) = .ok a := rfl

@[simp] theorem result_throw (error : ValueError ν) :
    result (throw error : Reading ν α) = .error error := rfl

@[simp] theorem result_fail (text : List Char) (fault : Fault) :
    result (fail text fault : Reading ν α) = .error (.unreadable (String.ofList text) fault) := rfl

@[simp] theorem result_lift (n : Noted α) :
    result (ExceptT.lift n : Reading ν α) = .ok n.value := rfl

@[simp] theorem result_ofExcept (x : Except (ValueError ν) α) : result (ofExcept x) = x := by
  cases x <;> rfl

theorem result_bind (r : Reading ν α) (f : α → Reading ν β) :
    result (r >>= f) = (result r).bind fun a => result (f a) := by
  have h : (r >>= f).run = r.run >>= ExceptT.bindCont f := rfl
  rw [result, h, Noted.value_bind, result]
  cases r.run.value <;> rfl

theorem result_bind_of_ok {r : Reading ν α} {a : α} (h : result r = .ok a) (f : α → Reading ν β) :
    result (r >>= f) = result (f a) := by
  rw [result_bind, h]
  rfl

theorem result_bind_of_error {r : Reading ν α} {error : ValueError ν}
    (h : result r = .error error) (f : α → Reading ν β) : result (r >>= f) = .error error := by
  rw [result_bind, h]
  rfl

theorem result_map (f : α → β) (r : Reading ν α) : result (f <$> r) = (result r).map f := by
  rw [map_eq_pure_bind, result_bind]
  cases result r <;> rfl

theorem result_bind_eq_ok {r : Reading ν α} {f : α → Reading ν β} {b : β} :
    result (r >>= f) = .ok b ↔ ∃ a, result r = .ok a ∧ result (f a) = .ok b := by
  rw [result_bind]
  cases result r with
  | error error => simp [Except.bind]
  | ok a => simp [Except.bind]

theorem result_map_eq_ok {f : α → β} {r : Reading ν α} {b : β} :
    result (f <$> r) = .ok b ↔ ∃ a, result r = .ok a ∧ f a = b := by
  rw [result_map]
  cases result r with
  | error error => simp [Except.map]
  | ok a => simp [Except.map]

theorem result_ofText_eq_ok {text : List Char} {x : Except Fault α} {a : α} :
    result (ofText text x : Reading ν α) = .ok a ↔ x = .ok a := by
  cases x with
  | error fault => simp [ofText]
  | ok b => simp [ofText]

theorem result_mapM_eq_ok {f : α → Reading ν β} {as : List α} {bs : List β} :
    result (as.mapM f) = .ok bs ↔ List.Forall₂ (fun a b => result (f a) = .ok b) as bs := by
  induction as generalizing bs with
  | nil => simp [eq_comm]
  | cons a as ih =>
    rw [List.mapM_cons, result_bind_eq_ok, List.forall₂_cons_left_iff]
    simp only [result_bind_eq_ok, ih, result_pure, Except.ok.injEq]
    constructor
    · rintro ⟨b, hb, bs', hbs, rfl⟩
      exact ⟨b, bs', hb, hbs, rfl⟩
    · rintro ⟨b, bs', hb, hbs, rfl⟩
      exact ⟨b, hb, bs', hbs, rfl⟩

theorem exists_of_forall₂ {R : α → β → Prop} {as : List α} {bs : List β}
    (h : List.Forall₂ R as bs) {b : β} (hb : b ∈ bs) : ∃ a ∈ as, R a b := by
  induction h with
  | nil => exact absurd hb (by simp)
  | cons hab _ ih =>
    rcases List.mem_cons.mp hb with rfl | hb
    · exact ⟨_, List.mem_cons_self, hab⟩
    · obtain ⟨a, ha, hab⟩ := ih hb
      exact ⟨a, List.mem_cons_of_mem _ ha, hab⟩

/-! ## Errors and notices -/

/-- Every error of the reading has one property, and every notice that it raises another. -/
structure Raises (P : ValueError ν → Prop) (Q : Notice → Prop) (r : Reading ν α) : Prop where
  error : ∀ error, result r = .error error → P error
  notice : ∀ notice ∈ r.run.notices, Q notice

variable {P : ValueError ν → Prop} {Q : Notice → Prop}

theorem raises_pure (a : α) : Raises P Q (pure a : Reading ν α) :=
  ⟨fun error h => by simp at h, fun notice h => absurd h List.not_mem_nil⟩

theorem raises_throw {error : ValueError ν} (h : P error) :
    Raises P Q (throw error : Reading ν α) := by
  refine ⟨fun error' h' => ?_, fun notice h => absurd h List.not_mem_nil⟩
  obtain rfl : error = error' := by simpa using h'
  exact h

theorem raises_lift {n : Noted α} (h : ∀ notice ∈ n.notices, Q notice) :
    Raises P Q (ExceptT.lift n : Reading ν α) := by
  refine ⟨fun error h => by simp at h, fun notice hnotice => ?_⟩
  have hnotices : (ExceptT.lift n : Reading ν α).run.notices = n.notices ++ [] := rfl
  rw [hnotices, List.append_nil] at hnotice
  exact h notice hnotice

theorem raises_ofText {text : List Char} (x : Except Fault α)
    (h : ∀ fault, P (.unreadable (String.ofList text) fault)) :
    Raises P Q (ofText text x : Reading ν α) := by
  cases x with
  | ok a => exact raises_pure a
  | error fault => exact raises_throw (h fault)

theorem raises_bind {r : Reading ν α} {f : α → Reading ν β} (hr : Raises P Q r)
    (hf : ∀ a, Raises P Q (f a)) : Raises P Q (r >>= f) := by
  have hnotices : (r >>= f).run.notices =
      r.run.notices ++ (ExceptT.bindCont f (result r)).notices := rfl
  refine ⟨fun error h => ?_, fun notice h => ?_⟩
  · rw [result_bind] at h
    cases hresult : result r with
    | error error' =>
      rw [hresult] at h
      obtain rfl : error' = error := by simpa [Except.bind] using h
      exact hr.error _ hresult
    | ok a =>
      rw [hresult] at h
      exact (hf a).error error h
  · rw [hnotices] at h
    rcases List.mem_append.mp h with h | h
    · exact hr.notice notice h
    · cases hresult : result r with
      | error error' =>
        rw [hresult] at h
        exact absurd h List.not_mem_nil
      | ok a =>
        rw [hresult] at h
        exact (hf a).notice notice h

theorem raises_map {r : Reading ν α} (f : α → β) (hr : Raises P Q r) : Raises P Q (f <$> r) := by
  rw [map_eq_pure_bind]
  exact raises_bind hr fun a => raises_pure (f a)

theorem raises_mapM {f : α → Reading ν β} (hf : ∀ a, Raises P Q (f a)) (as : List α) :
    Raises P Q (as.mapM f) := by
  induction as with
  | nil => exact raises_pure []
  | cons a as ih =>
    rw [List.mapM_cons]
    exact raises_bind (hf a) fun b => raises_bind ih fun bs => raises_pure (b :: bs)

end ComputedCss.Reading
