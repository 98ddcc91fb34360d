import Mathlib.Data.List.Forall2

/-!
Steps that can fail, one after another. A run succeeds when every step does, and otherwise fails as the
first step does that fails.
-/

namespace Kql

theorem bind_eq_ok {ε α β : Type} {x : Except ε α} {f : α → Except ε β} {b : β} :
    x >>= f = .ok b ↔ ∃ a, x = .ok a ∧ f a = .ok b := by
  cases x with
  | error e =>
      constructor
      · intro h
        cases h
      · rintro ⟨_, h, _⟩
        cases h
  | ok a =>
      constructor
      · intro h
        exact ⟨a, rfl, h⟩
      · rintro ⟨_, ⟨⟩, h⟩
        exact h

theorem map_eq_ok {ε α β : Type} {g : α → β} {x : Except ε α} {b : β} :
    x.map g = .ok b ↔ ∃ a, x = .ok a ∧ b = g a := by
  cases x <;> simp [Except.map, eq_comm]

theorem map_eq_error {ε α β : Type} {g : α → β} {x : Except ε α} {e : ε} :
    x.map g = .error e ↔ x = .error e := by
  cases x <;> simp [Except.map]

theorem discard_eq_ok {ε α : Type} {x : Except ε α} {u : Unit} :
    discard x = .ok u ↔ ∃ a, x = .ok a := by
  cases x with
  | error e =>
      constructor
      · intro h
        cases h
      · rintro ⟨_, h⟩
        cases h
  | ok a => exact ⟨fun _ => ⟨a, rfl⟩, fun _ => rfl⟩

theorem forM_eq_ok {ε α : Type} {f : α → Except ε Unit} {l : List α} {u : Unit} :
    l.forM f = .ok u ↔ ∀ a ∈ l, f a = .ok u := by
  induction l with
  | nil => simp [pure, Except.pure]
  | cons a rest ih =>
      rw [List.forall_mem_cons, ← ih]
      exact bind_eq_ok.trans ⟨fun ⟨_, h, hr⟩ => ⟨h, hr⟩, fun ⟨h, hr⟩ => ⟨u, h, hr⟩⟩

/-! ## Steps on the entries of a list -/

section

variable {ε α β : Type} {f : α → Except ε β} {l : List α} {bs : List β}

theorem mapM_eq_ok : l.mapM f = .ok bs ↔ List.Forall₂ (fun a b => f a = .ok b) l bs := by
  induction l generalizing bs with
  | nil =>
      rw [List.mapM_nil, List.forall₂_nil_left_iff]
      exact (Except.ok.injEq _ _).to_iff.trans eq_comm
  | cons a rest ih =>
      simp only [List.mapM_cons, bind_eq_ok, ih, List.forall₂_cons_left_iff, pure, Except.pure,
        Except.ok.injEq]
      constructor
      · rintro ⟨b, hb, more, hmore, rfl⟩
        exact ⟨b, more, hb, hmore, rfl⟩
      · rintro ⟨b, more, hb, hmore, rfl⟩
        exact ⟨b, hb, more, hmore, rfl⟩

/-- The first step that fails is the one that the run fails for. -/
theorem mapM_eq_error {e : ε} :
    l.mapM f = .error e ↔ ∃ before a after, l = before ++ a :: after ∧
      (∀ b ∈ before, ∃ c, f b = .ok c) ∧ f a = .error e := by
  constructor
  · intro h
    induction l with
    | nil => cases h
    | cons a rest ih =>
        rw [List.mapM_cons] at h
        cases ha : f a with
        | error e' =>
            rw [ha] at h
            cases h
            exact ⟨[], a, rest, rfl, List.forall_mem_nil _, ha⟩
        | ok b =>
            have later : rest.mapM f = .error e := by
              rw [ha] at h
              cases hrest : rest.mapM f with
              | error e' =>
                  rw [hrest] at h
                  exact h
              | ok bs =>
                  rw [hrest] at h
                  cases h
            obtain ⟨before, first, after, rfl, fine, hfirst⟩ := ih later
            exact ⟨a :: before, first, after, rfl, List.forall_mem_cons.mpr ⟨⟨b, ha⟩, fine⟩, hfirst⟩
  · rintro ⟨before, a, after, rfl, fine, ha⟩
    induction before with
    | nil =>
        rw [List.nil_append, List.mapM_cons, ha]
        rfl
    | cons b before ih =>
        obtain ⟨⟨c, hc⟩, fine⟩ := List.forall_mem_cons.mp fine
        rw [List.cons_append, List.mapM_cons, hc]
        change ((before ++ a :: after).mapM f >>= _) = _
        rw [ih fine]
        rfl

/-- Where every step on one list is matched by a step on another, so is the run over the whole list. -/
theorem exists_mapM_eq_ok {α' β' : Type} {g : α' → Except ε β'} {R : α → α' → Prop}
    {S : β → β' → Prop} (step : ∀ a a' b, R a a' → f a = .ok b → ∃ b', g a' = .ok b' ∧ S b b')
    {l' : List α'} (h : List.Forall₂ R l l') (hl : l.mapM f = .ok bs) :
    ∃ bs', l'.mapM g = .ok bs' ∧ List.Forall₂ S bs bs' := by
  rw [mapM_eq_ok] at hl
  simp only [mapM_eq_ok]
  induction h generalizing bs with
  | nil =>
      cases hl
      exact ⟨[], .nil, .nil⟩
  | cons ha _ ih =>
      cases hl with
      | cons hb hmore =>
          obtain ⟨b', hb', same⟩ := step _ _ _ ha hb
          obtain ⟨more', hmore', rest⟩ := ih hmore
          exact ⟨b' :: more', .cons hb' hmore', .cons same rest⟩

theorem mapM_eq_ok_of_step {g : α → Except ε β} (step : ∀ a b, f a = .ok b → g a = .ok b)
    (h : l.mapM f = .ok bs) : l.mapM g = .ok bs :=
  mapM_eq_ok.mpr ((mapM_eq_ok.mp h).imp step)

theorem eq_map_of_mapM_eq_ok {g : α → β} (step : ∀ a b, f a = .ok b → b = g a)
    (h : l.mapM f = .ok bs) : bs = l.map g := by
  have same : List.Forall₂ (fun b a => b = g a) bs l := ((mapM_eq_ok.mp h).imp step).flip
  rwa [← List.forall₂_map_right_iff, List.forall₂_eq_eq_eq] at same

theorem exists_of_mem_mapM (h : l.mapM f = .ok bs) : ∀ b ∈ bs, ∃ a, f a = .ok b := by
  have each : List.Forall₂ (fun b _ => (∃ a, f a = .ok b) ∧ True) bs l :=
    ((mapM_eq_ok.mp h).imp fun a b hb => ⟨⟨a, hb⟩, trivial⟩).flip
  exact ((List.forall₂_and_left bs l).mp each).1

/-- A second run over what came out of the first gives it back if every step does. -/
theorem mapM_eq_ok_again {g : β → Except ε β} (step : ∀ a b, f a = .ok b → g b = .ok b)
    (h : l.mapM f = .ok bs) : bs.mapM g = .ok bs := by
  refine mapM_eq_ok.mpr (List.forall₂_same.mpr fun b hb => ?_)
  obtain ⟨a, ha⟩ := exists_of_mem_mapM h b hb
  exact step a b ha

end

end Kql
