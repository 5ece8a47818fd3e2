import Mathlib.Data.List.Forall2

/-!
# Computations that can fail

Reading and writing are sequences of steps each of which can fail. That such a sequence succeeded
means that each step did, and these lemmas take it apart step by step, so that no proof looks into
a `do` block.
-/

set_option autoImplicit false

namespace SceneScript
namespace Outcome

variable {ε ε' β γ δ : Type}

theorem bind_eq_ok {x : Except ε β} {f : β → Except ε γ} {c : γ} :
    (x >>= f) = .ok c ↔ ∃ b, x = .ok b ∧ f b = .ok c := by
  constructor
  · intro h
    cases x with
    | error e => cases h
    | ok b => exact ⟨b, rfl, h⟩
  · rintro ⟨b, rfl, h⟩
    exact h

theorem both_eq_ok {x : Except ε β} {y : Except ε γ} {f : β → γ → δ} {d : δ} :
    (x >>= fun b => y >>= fun c => .ok (f b c)) = .ok d ↔
      ∃ b c, x = .ok b ∧ y = .ok c ∧ d = f b c := by
  constructor
  · intro h
    obtain ⟨b, hb, h⟩ := bind_eq_ok.mp h
    obtain ⟨c, hc, h⟩ := bind_eq_ok.mp h
    exact ⟨b, c, hb, hc, (Except.ok.inj h).symm⟩
  · rintro ⟨b, c, rfl, rfl, rfl⟩
    rfl

theorem exists_both_eq_ok {x : Except ε β} {y : Except ε γ} {f : β → γ → δ} :
    (∃ d, (x >>= fun b => y >>= fun c => .ok (f b c)) = .ok d) ↔
      (∃ b, x = .ok b) ∧ ∃ c, y = .ok c := by
  simp only [both_eq_ok]
  exact ⟨fun ⟨_, b, c, hb, hc, _⟩ => ⟨⟨b, hb⟩, c, hc⟩, fun ⟨⟨b, hb⟩, c, hc⟩ => ⟨_, b, c, hb, hc, rfl⟩⟩

theorem map_eq_ok {x : Except ε β} {f : β → γ} {c : γ} :
    x.map f = .ok c ↔ ∃ b, x = .ok b ∧ f b = c := by
  constructor
  · intro h
    cases x with
    | error e => cases h
    | ok b => exact ⟨b, rfl, Except.ok.inj h⟩
  · rintro ⟨b, rfl, rfl⟩
    rfl

theorem exists_map_eq_ok {x : Except ε β} {f : β → γ} :
    (∃ c, x.map f = .ok c) ↔ ∃ b, x = .ok b := by
  simp only [map_eq_ok]
  exact ⟨fun ⟨_, b, h, _⟩ => ⟨b, h⟩, fun ⟨b, h⟩ => ⟨f b, b, h, rfl⟩⟩

theorem mapError_eq_ok {x : Except ε β} {f : ε → ε'} {b : β} :
    x.mapError f = .ok b ↔ x = .ok b := by
  constructor
  · intro h
    cases x with
    | error e => cases h
    | ok c => exact congrArg _ (Except.ok.inj h)
  · rintro rfl
    rfl

theorem exists_error_iff {x : Except ε β} : (∃ e, x = .error e) ↔ ¬ ∃ b, x = .ok b := by
  cases x with
  | error e => exact iff_of_true ⟨e, rfl⟩ fun ⟨_, h⟩ => nomatch h
  | ok b => exact iff_of_false (fun ⟨_, h⟩ => nomatch h) fun h => h ⟨b, rfl⟩

theorem bind_eq_error {x : Except ε β} {f : β → Except ε γ} {e : ε} :
    (x >>= f) = .error e ↔ x = .error e ∨ ∃ b, x = .ok b ∧ f b = .error e := by
  cases x with
  | error e' =>
    have hbind : ((.error e' : Except ε β) >>= f) = .error e' := rfl
    rw [hbind, Except.error.injEq, Except.error.injEq]
    exact (or_iff_left fun ⟨_, hb, _⟩ => nomatch hb).symm
  | ok b =>
    constructor
    · exact fun h => .inr ⟨b, rfl, h⟩
    · rintro (h | ⟨_, hb, h⟩)
      · cases h
      · cases hb
        exact h

theorem mapError_eq_error {x : Except ε β} {f : ε → ε'} {e' : ε'} :
    x.mapError f = .error e' ↔ ∃ e, x = .error e ∧ f e = e' := by
  cases x with
  | error e =>
    constructor
    · exact fun h => ⟨e, rfl, Except.error.inj h⟩
    · rintro ⟨_, he, rfl⟩
      cases he
      rfl
  | ok b => exact ⟨fun h => (nomatch h), fun ⟨_, h, _⟩ => nomatch h⟩

/-- A sequence of computations fails with the first one that does. -/
theorem mapM_eq_error {f : β → Except ε γ} {xs : List β} {e : ε} :
    xs.mapM f = .error e ↔ ∃ before x behind, xs = before ++ x :: behind ∧
      (∀ b ∈ before, ∃ c, f b = .ok c) ∧ f x = .error e := by
  induction xs with
  | nil =>
    refine iff_of_false (fun h => nomatch h) ?_
    rintro ⟨before, x, behind, h, -⟩
    exact List.append_ne_nil_of_right_ne_nil _ (List.cons_ne_nil x behind) h.symm
  | cons y xs ih =>
    rw [List.mapM_cons, bind_eq_error]
    constructor
    · rintro (h | ⟨c, hc, h⟩)
      · exact ⟨[], y, xs, rfl, List.forall_mem_nil _, h⟩
      · obtain h | ⟨cs, -, h⟩ := bind_eq_error.mp h
        · obtain ⟨before, x, behind, rfl, hb, hx⟩ := ih.mp h
          exact ⟨y :: before, x, behind, rfl, List.forall_mem_cons.mpr ⟨⟨c, hc⟩, hb⟩, hx⟩
        · cases h
    · rintro ⟨before, x, behind, h, hb, hx⟩
      cases before with
      | nil =>
        cases h
        exact .inl hx
      | cons b before =>
        cases h
        obtain ⟨⟨c, hc⟩, hb⟩ := List.forall_mem_cons.mp hb
        exact .inr ⟨c, hc, bind_eq_error.mpr (.inl (ih.mpr ⟨before, x, behind, rfl, hb, hx⟩))⟩

theorem mapM_eq_ok {f : β → Except ε γ} {xs : List β} {ys : List γ} :
    xs.mapM f = .ok ys ↔ List.Forall₂ (fun x y => f x = .ok y) xs ys := by
  induction xs generalizing ys with
  | nil =>
    rw [List.mapM_nil, List.forall₂_nil_left_iff]
    exact ⟨fun h => (Except.ok.inj h).symm, fun h => congrArg _ h.symm⟩
  | cons x xs ih =>
    rw [List.mapM_cons, bind_eq_ok, List.forall₂_cons_left_iff]
    constructor
    · rintro ⟨y, hy, h⟩
      obtain ⟨zs, hzs, h⟩ := bind_eq_ok.mp h
      exact ⟨y, zs, hy, ih.mp hzs, (Except.ok.inj h).symm⟩
    · rintro ⟨y, zs, hy, hzs, rfl⟩
      exact ⟨y, hy, bind_eq_ok.mpr ⟨zs, ih.mpr hzs, rfl⟩⟩

end Outcome
end SceneScript
