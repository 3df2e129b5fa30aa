import Mathlib.Data.List.Forall2

/-!
# Attempts

An attempt gives a value or an error. A series of attempts succeeds if each of them does.

Main results:

- Theorem `bind_eq_ok_iff`: one attempt after another.
- Theorems `mapM_eq_ok_iff`, `exists_mapM_eq_ok_iff` and `mapM_eq_error_iff`: an attempt for each
  element of a list.
- Theorem `forM_eq_ok_iff`: a check of each element of a list.
- Theorems `verdict_append` and `verdict_flatMap`: checks in a row fail with their first fault.
- Theorems `forall₂_filter` and `forall₂_comp`: lists side by side that lose the same places, and
  lists side by side with the same list.
-/

namespace CodeAtlas

variable {ε α β γ : Type}

/-- One attempt after another succeeds if the first gives a value with which the second does. -/
theorem bind_eq_ok_iff {a : Except ε α} {f : α → Except ε β} {b : β} :
    a >>= f = .ok b ↔ ∃ x, a = .ok x ∧ f x = .ok b := by
  cases a <;> simp [bind, Except.bind]

/-- Naming errors differently changes no value. -/
theorem mapError_eq_ok_iff {δ : Type} {a : Except ε α} {f : ε → δ} {x : α} :
    a.mapError f = .ok x ↔ a = .ok x := by
  cases a <;> simp [Except.mapError]

/-- What is made of a value is made if there is one. -/
theorem map_eq_ok_iff {a : Except ε α} {f : α → β} {y : β} :
    a.map f = .ok y ↔ ∃ x, a = .ok x ∧ f x = y := by
  cases a <;> simp [Except.map]

/-- An attempt that gives something succeeds. -/
theorem exists_eq_ok_of_isSome {a : Except ε α} (h : a.toOption.isSome = true) :
    ∃ x, a = .ok x := by
  cases a with
  | error e => cases h
  | ok x => exact ⟨x, rfl⟩

/-- The attempts for a list give the values that they give for its elements. -/
theorem mapM_eq_ok_iff {f : α → Except ε β} {l : List α} {values : List β} :
    l.mapM f = .ok values ↔ List.Forall₂ (fun x y => f x = .ok y) l values := by
  induction l generalizing values with
  | nil => cases values <;> simp [pure, Except.pure]
  | cons x l ih =>
    simp only [List.mapM_cons, bind_eq_ok_iff, List.forall₂_cons_left_iff, ih, pure, Except.pure,
      Except.ok.injEq]
    constructor
    · rintro ⟨y, hy, ys, hys, rfl⟩
      exact ⟨y, ys, hy, hys, rfl⟩
    · rintro ⟨y, ys, hy, hys, rfl⟩
      exact ⟨y, hy, ys, hys, rfl⟩

/-- The attempts for a list succeed if they do for its elements. -/
theorem exists_mapM_eq_ok_iff {f : α → Except ε β} {l : List α} :
    (∃ values, l.mapM f = .ok values) ↔ ∀ x ∈ l, ∃ y, f x = .ok y := by
  induction l with
  | nil => simp [pure, Except.pure]
  | cons x l ih =>
    simp only [mapM_eq_ok_iff] at ih
    simp only [mapM_eq_ok_iff, List.forall₂_cons_left_iff, List.forall_mem_cons, ← ih]
    constructor
    · rintro ⟨_, y, ys, hy, hys, rfl⟩
      exact ⟨⟨y, hy⟩, ys, hys⟩
    · rintro ⟨⟨y, hy⟩, ys, hys⟩
      exact ⟨_, y, ys, hy, hys, rfl⟩

/-- The attempts for a list fail with the error of the first element whose attempt fails. -/
theorem mapM_eq_error_iff {f : α → Except ε β} {fault : α → Option ε}
    (hfault : ∀ x e, f x = .error e ↔ fault x = some e) {l : List α} {e : ε} :
    l.mapM f = .error e ↔ l.findSome? fault = some e := by
  induction l with
  | nil => simp [pure, Except.pure]
  | cons x l ih =>
    rw [List.mapM_cons, List.findSome?_cons]
    cases hx : f x with
    | error d =>
      rw [(hfault x d).1 hx]
      simp [bind, Except.bind]
    | ok y =>
      have hnone : fault x = none := by
        cases hsome : fault x with
        | none => rfl
        | some d => exact nomatch hx.symm.trans ((hfault x d).2 hsome)
      rw [hnone, ← ih]
      cases l.mapM f <;> simp [bind, Except.bind, pure, Except.pure]

/-- The checks of a list succeed if they do for its elements. -/
theorem forM_eq_ok_iff {f : α → Except ε Unit} {l : List α} :
    l.forM f = .ok () ↔ ∀ x ∈ l, f x = .ok () := by
  induction l with
  | nil => simp [pure, Except.pure]
  | cons x l ih =>
    simp only [List.forM_eq_forM] at ih
    simp only [List.forM_eq_forM, List.forM_cons, bind_eq_ok_iff, ih, List.forall_mem_cons]
    exact ⟨fun ⟨_, hx, hl⟩ => ⟨hx, hl⟩, fun ⟨hx, hl⟩ => ⟨(), hx, hl⟩⟩

/-! ## Faults in a row -/

/-- The fault of one check, if the check fails. -/
def faultIf (fails : Prop) [Decidable fails] (fault : ε) : List ε := if fails then [fault] else []

/-- The verdict on the faults of some checks in a row: the first one counts. -/
def verdict : List ε → Except ε Unit
  | [] => .ok ()
  | fault :: _ => .error fault

@[simp] theorem faultIf_eq_nil_iff {fails : Prop} [Decidable fails] {fault : ε} :
    faultIf fails fault = [] ↔ ¬ fails := by
  simp [faultIf]

/-- Checks in a row pass if none of them has a fault. -/
theorem verdict_eq_ok_iff {faults : List ε} : verdict faults = .ok () ↔ faults = [] := by
  cases faults <;> simp [verdict]

/-- Later checks count if the earlier ones pass. -/
theorem verdict_append (first second : List ε) :
    verdict (first ++ second) = verdict first >>= fun _ => verdict second := by
  cases first with
  | nil => rfl
  | cons fault faults => rfl

/-- One check fails with its fault. -/
theorem verdict_faultIf {fails : Prop} [Decidable fails] {fault : ε} :
    verdict (faultIf fails fault) = if fails then .error fault else .ok () := by
  by_cases hfails : fails
  · rw [faultIf, if_pos hfails, if_pos hfails, verdict]
  · rw [faultIf, if_neg hfails, if_neg hfails, verdict]

/-- After a check that fails the others do not count. -/
theorem verdict_faultIf_append {fails : Prop} [Decidable fails] {fault : ε} {faults : List ε} :
    verdict (faultIf fails fault ++ faults) = if fails then .error fault else verdict faults := by
  rw [verdict_append, verdict_faultIf]
  by_cases hfails : fails
  · rw [if_pos hfails, if_pos hfails]
    rfl
  · rw [if_neg hfails, if_neg hfails]
    rfl

/-- Naming the faults differently changes no verdict. -/
theorem verdict_map {δ : Type} (f : ε → δ) (faults : List ε) :
    verdict (faults.map f) = (verdict faults).mapError f := by
  cases faults with
  | nil => rfl
  | cons fault faults => rfl

/-- Where each element of some kind is a fault, the first one of them counts. -/
theorem verdict_map_filter (p : α → Bool) (f : α → ε) (l : List α) :
    verdict ((l.filter p).map f) =
      match l.find? p with
      | some x => .error (f x)
      | none => .ok () := by
  rw [← List.head?_filter]
  cases l.filter p with
  | nil => rfl
  | cons x rest => rfl

/-- Checks of the elements of a list are checks in a row. -/
theorem verdict_flatMap (faults : α → List ε) (l : List α) :
    verdict (l.flatMap faults) = l.forM (fun x => verdict (faults x)) := by
  induction l with
  | nil => rfl
  | cons x l ih =>
    rw [List.flatMap_cons, verdict_append, ih]
    rfl

/-! ## Lists side by side -/

/-- Picking with a function that may give nothing is picking those for which it gives something. -/
theorem forall₂_filterMap_left_iff {g : α → Option β} {r : β → γ → Prop} {l : List α}
    {values : List γ} :
    List.Forall₂ r (l.filterMap g) values ↔
      List.Forall₂ (fun x y => ∃ z, g x = some z ∧ r z y) (l.filter (fun x => (g x).isSome))
        values := by
  induction l generalizing values with
  | nil => simp
  | cons x l ih =>
    cases hx : g x with
    | none => simp [hx, ih]
    | some z => simp [hx, ih, List.forall₂_cons_left_iff]

/-- Lists side by side stay so when both lose the elements that stand at the same places. -/
theorem forall₂_filter {r : α → β → Prop} {p : α → Bool} {q : β → Bool} {l : List α}
    {values : List β} (h : List.Forall₂ r l values) (hpq : ∀ x ∈ l, ∀ y, r x y → p x = q y) :
    List.Forall₂ r (l.filter p) (values.filter q) := by
  induction h with
  | nil => exact List.Forall₂.nil
  | @cons x y l values hxy _ ih =>
    have ih := ih (fun x hx => hpq x (List.mem_cons_of_mem _ hx))
    have hx := hpq x List.mem_cons_self y hxy
    by_cases hp : p x = true
    · rw [List.filter_cons_of_pos hp, List.filter_cons_of_pos (hx ▸ hp)]
      exact List.Forall₂.cons hxy ih
    · rw [List.filter_cons_of_neg hp, List.filter_cons_of_neg (hx ▸ hp)]
      exact ih

/-- What stands side by side with the same list stands side by side. -/
theorem forall₂_comp {r : α → β → Prop} {s : β → γ → Prop} {l : List α} {m : List β} {n : List γ}
    (h : List.Forall₂ r l m) (h' : List.Forall₂ s m n) :
    List.Forall₂ (fun x z => ∃ y, r x y ∧ s y z) l n := by
  induction h generalizing n with
  | nil =>
    cases h'
    exact List.Forall₂.nil
  | cons hxy _ ih =>
    cases h' with
    | cons hyz htail => exact List.Forall₂.cons ⟨_, hxy, hyz⟩ (ih htail)

/-- What stands on the left has something at the same place on the right. -/
theorem exists_getElem?_right {r : α → β → Prop} {l : List α} {values : List β}
    (h : List.Forall₂ r l values) {i : Nat} {x : α} (hx : l[i]? = some x) :
    ∃ y, values[i]? = some y ∧ r x y := by
  induction h generalizing i with
  | nil => simp at hx
  | @cons a b l values hab _ ih =>
    cases i with
    | zero =>
      obtain rfl : a = x := by simpa using hx
      exact ⟨b, rfl, hab⟩
    | succ i => exact ih hx

/-- What stands on the left has something on the right. -/
theorem exists_of_mem_left {r : α → β → Prop} {l : List α} {values : List β}
    (h : List.Forall₂ r l values) {x : α} (hx : x ∈ l) : ∃ y ∈ values, r x y := by
  obtain ⟨i, hi⟩ := List.mem_iff_getElem?.1 hx
  obtain ⟨y, hy, hxy⟩ := exists_getElem?_right h hi
  exact ⟨y, List.mem_of_getElem? hy, hxy⟩

/-- What stands on the right has something on the left. -/
theorem exists_of_mem_right {r : α → β → Prop} {l : List α} {values : List β}
    (h : List.Forall₂ r l values) {y : β} (hy : y ∈ values) : ∃ x ∈ l, r x y := by
  induction h with
  | nil => exact absurd hy List.not_mem_nil
  | @cons x z l values hxz _ ih =>
    rcases List.mem_cons.1 hy with rfl | hy
    · exact ⟨x, List.mem_cons_self, hxz⟩
    · obtain ⟨w, hw, hwy⟩ := ih hy
      exact ⟨w, List.mem_cons_of_mem _ hw, hwy⟩

/-- What stands side by side has the same measures. -/
theorem map_eq_map_of_forall₂ {r : α → β → Prop} {f : α → γ} {g : β → γ} {l : List α}
    {values : List β} (h : List.Forall₂ r l values) (hfg : ∀ x y, r x y → g y = f x) :
    values.map g = l.map f := by
  induction h with
  | nil => rfl
  | cons hxy _ ih => rw [List.map_cons, List.map_cons, hfg _ _ hxy, ih]

/-- What stands side by side satisfies the same conditions. -/
theorem any_eq_any_of_forall₂ {r : α → β → Prop} {p : α → Bool} {q : β → Bool} {l : List α}
    {values : List β} (h : List.Forall₂ r l values) (hpq : ∀ x y, r x y → q y = p x) :
    values.any q = l.any p := by
  induction h with
  | nil => rfl
  | cons hxy _ ih => rw [List.any_cons, List.any_cons, hpq _ _ hxy, ih]

end CodeAtlas
