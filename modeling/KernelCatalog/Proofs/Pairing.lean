import Mathlib.Data.List.Forall2

/-!
# Lists paired item by item

`List.Forall₂ R` pairs two lists in order. Symbols are paired with what is read from them, and
parameters with their tokens, so partners are looked up from either side here. A list that is read
item by item is paired with what is read.
-/

namespace KernelCatalog.Pairing

variable {α β : Type} {R : α → β → Prop} {left : List α} {right : List β}

theorem exists_right (h : List.Forall₂ R left right) {a : α} (ha : a ∈ left) :
    ∃ b ∈ right, R a b := by
  induction h with
  | nil => exact absurd ha (by simp)
  | cons hab _ ih =>
    rcases List.mem_cons.mp ha with rfl | ha
    · exact ⟨_, by simp, hab⟩
    · obtain ⟨b, hb, hab⟩ := ih ha
      exact ⟨b, List.mem_cons_of_mem _ hb, hab⟩

theorem exists_left (h : List.Forall₂ R left right) {b : β} (hb : b ∈ right) :
    ∃ a ∈ left, R a b :=
  exists_right h.flip hb

theorem map_eq_map {γ : Type} {f : α → γ} {g : β → γ} (h : List.Forall₂ R left right)
    (hfg : ∀ a b, R a b → f a = g b) : left.map f = right.map g := by
  rw [← List.forall₂_eq_eq_eq, List.forall₂_map_left_iff, List.forall₂_map_right_iff]
  exact h.imp hfg

/-- A list has partners exactly when each of its items has one. -/
theorem exists_forall₂_iff : (∃ right, List.Forall₂ R left right) ↔ ∀ a ∈ left, ∃ b, R a b := by
  induction left with
  | nil => simp
  | cons a left ih =>
    rw [List.forall_mem_cons, ← ih]
    constructor
    · rintro ⟨_, _ | ⟨hab, hrest⟩⟩
      exact ⟨⟨_, hab⟩, _, hrest⟩
    · rintro ⟨⟨b, hab⟩, right, hrest⟩
      exact ⟨b :: right, .cons hab hrest⟩

section Read

variable {ε : Type} {f : α → Except ε β}

theorem mapM_cons (a : α) (left : List α) :
    (a :: left).mapM f =
      match f a with
      | .error e => .error e
      | .ok b => (left.mapM f).map (b :: ·) := by
  rw [List.mapM_cons]
  cases f a with
  | error e => rfl
  | ok b => rfl

/-- A list is read as the partners of its items. -/
theorem mapM_eq_ok_iff :
    left.mapM f = .ok right ↔ List.Forall₂ (fun a b => f a = .ok b) left right := by
  induction left generalizing right with
  | nil => simp [pure, Except.pure, eq_comm]
  | cons a left ih =>
    rw [mapM_cons, List.forall₂_cons_left_iff]
    cases hfirst : f a with
    | error e => simp
    | ok b =>
      cases hrest : left.mapM f with
      | error e => simp [Except.map, ← ih, hrest]
      | ok more => simp [Except.map, ← ih, hrest, eq_comm]

theorem exists_mapM_eq_ok_iff :
    (∃ right, left.mapM f = .ok right) ↔ ∀ a ∈ left, ∃ b, f a = .ok b := by
  simp only [mapM_eq_ok_iff, exists_forall₂_iff]

/-- The error of a list is that of the first item that cannot be read. -/
theorem mapM_eq_error_iff {e : ε} :
    left.mapM f = .error e ↔
      ∃ before a after, left = before ++ a :: after ∧ (∀ b ∈ before, ∃ c, f b = .ok c) ∧
        f a = .error e := by
  induction left with
  | nil => simp [pure, Except.pure]
  | cons a left ih =>
    rw [mapM_cons]
    constructor
    · intro h
      cases hfirst : f a with
      | error e' =>
        rw [hfirst] at h
        obtain rfl := Except.error.inj h
        exact ⟨[], a, left, rfl, by simp, hfirst⟩
      | ok b =>
        rw [hfirst] at h
        cases hrest : left.mapM f with
        | ok more => simp [hrest, Except.map] at h
        | error e' =>
          simp only [hrest, Except.map, Except.error.injEq] at h
          obtain ⟨before, a', after, rfl, hbefore, hfault⟩ := ih.mp (h ▸ hrest)
          exact ⟨a :: before, a', after, rfl, List.forall_mem_cons.mpr ⟨⟨b, hfirst⟩, hbefore⟩, hfault⟩
    · rintro ⟨before, a', after, hleft, hbefore, hfault⟩
      cases before with
      | nil =>
        obtain ⟨rfl, rfl⟩ := List.cons.inj hleft
        rw [hfault]
      | cons first before =>
        obtain ⟨rfl, rfl⟩ := List.cons.inj hleft
        obtain ⟨⟨b, hb⟩, hbefore⟩ := List.forall_mem_cons.mp hbefore
        rw [hb, ih.mpr ⟨before, a', after, rfl, hbefore, hfault⟩]
        rfl

/-- A reading that reports its errors otherwise does so for a whole list. -/
theorem mapM_mapError {δ : Type} {g : α → Except δ β} {report : ε → δ}
    (h : ∀ a, g a = (f a).mapError report) : left.mapM g = (left.mapM f).mapError report := by
  induction left with
  | nil => rfl
  | cons a left ih =>
    rw [mapM_cons, mapM_cons, ih, h]
    cases f a with
    | error e => rfl
    | ok b =>
      cases left.mapM f with
      | error e => rfl
      | ok right => rfl

end Read

end KernelCatalog.Pairing
