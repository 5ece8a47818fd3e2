import SceneScript.Proofs.Reconcilable

/-!
# Reconciling twice

The commands that reconciling hands back are commands again, and a host may well reconcile them once
more. **That changes nothing**: the same commands, the same states, filters in the same order
(`reconcile_again`).

Whether the commands came from a script plays no part, and neither does whether their transforms are
finite: a figure may be put up at infinity. What is needed is that the filters are under names of
their own (`Transform.Tidy`), which every step keeps. A move on top of a state has the filters of
that state in front, in their order, and so it is on top of the state already.
-/

set_option autoImplicit false

namespace SceneScript

variable {α : Type}

namespace Transform

/-- The filters are under different names, none of which is a structural one. -/
structure Tidy (t : Transform α) : Prop where
  nodup : t.filters.keys.Nodup
  free : AreFree t.filters.keys

instance (t : Transform α) : Decidable t.Tidy :=
  decidable_of_iff (t.filters.keys.Nodup ∧ AreFree t.filters.keys)
    ⟨fun ⟨hn, hf⟩ => ⟨hn, hf⟩, fun h => ⟨h.nodup, h.free⟩⟩

theorem tidy_initial [Scalar α] : (initial : Transform α).Tidy where
  nodup := List.nodup_nil
  free _ h := nomatch h

theorem Tidy.onTop {t prior : Transform α} (ht : t.Tidy) (hp : prior.Tidy) :
    (t.onTop prior).Tidy where
  nodup := Fields.nodup_keys_update hp.nodup _
  free name hm := ((Fields.mem_keys_update _ _ name).mp hm).elim (hp.free name) (ht.free name)

/-- **What is on top of a state stays as it is when it is put there again.** -/
theorem onTop_onTop (t : Transform α) {prior : Transform α} (hp : prior.Tidy) :
    (t.onTop prior).onTop prior = t.onTop prior :=
  onTop_of_prefix (Fields.keys_prefix_update _ _) (Fields.nodup_keys_update hp.nodup _)

/-- A tidy transform is resolved if its payload can be read: the checks are those of its numbers. -/
theorem Tidy.resolved [Scalar α] {t : Transform α} (ht : t.Tidy) (h : Readable t.payload) :
    t.Resolved := by
  obtain ⟨hx, hy, hsx, hsy, hr⟩ := (readable_payload_iff ht.nodup ht.free).mp h
  exact ⟨hx, hy, hsx, hsy, hr, ht.nodup, ht.free⟩

theorem Resolved.onTop [Scalar α] {t prior : Transform α} (ht : t.Resolved) (hp : prior.Tidy) :
    (t.onTop prior).Resolved := by
  obtain ⟨hn, hf⟩ := Tidy.onTop ⟨ht.nodup, ht.free⟩ hp
  exact ⟨ht.x, ht.y, ht.scaleX, ht.scaleY, ht.rotation, hn, hf⟩

end Transform

namespace Reconciliation

/-- Every running state is tidy. -/
def TidyStates (running : Stage α) : Prop :=
  ∀ target t, running.get? target = some t → t.Tidy

theorem tidyStates_nil : TidyStates ([] : Stage α) := fun _ _ h => nomatch h

variable [Scalar α]

theorem TidyStates.getD {running : Stage α} (h : TidyStates running) (target : String) :
    ((running.get? target).getD Transform.initial).Tidy := by
  cases hg : running.get? target with
  | none => exact Transform.tidy_initial
  | some t => exact h target t hg

variable [Scalar.Lawful α]

/-- **One command**: what it becomes is reconciled to itself, with the same states after it. -/
theorem step_again {running running' : Stage α} (hr : TidyStates running) {c c' : Command α}
    (hc : ∀ e ∈ c.effect?, e.2.Tidy) (h : step running c = .ok (c', running')) :
    step running c' = .ok (c', running') ∧ TidyStates running' := by
  obtain hfree | ⟨figure, rfl, hne⟩ | ⟨move, rfl, hne⟩ := followed_cases c
  · rw [step_passed running hfree] at h
    cases h
    exact ⟨step_passed running hfree, hr⟩
  · have hstep := step_changeFigure running hne
    cases hstep.symm.trans h
    exact ⟨hstep, Fields.forall_get?_set hr (hc _ rfl)⟩
  · have htidy : move.transform.Tidy := hc _ rfl
    have hresolved := htidy.resolved ((exists_step_iff running _).mp ⟨_, h⟩ move rfl hne)
    have hprior := hr.getD move.target
    cases (step_setTransform running hne hresolved).symm.trans h
    -- the second time the move is on top of a state that it already contains
    have htwice := step_setTransform running
      (c := { move with transform := move.transform.onTop _ }) hne (hresolved.onTop hprior)
    dsimp only at htwice
    rw [Transform.onTop_onTop _ hprior] at htwice
    exact ⟨htwice, Fields.forall_get?_set hr (htidy.onTop hprior)⟩

/-- **All commands**: by induction, with the step above. -/
theorem run_again {commands : List (Command α)} (hc : ∀ c ∈ commands, ∀ e ∈ c.effect?, e.2.Tidy)
    {running : Stage α} (hr : TidyStates running) {r : Reconciled α}
    (h : (run running commands).1 = .ok r) : (run running r.consolidated).1 = .ok r := by
  induction commands generalizing running r with
  | nil =>
    cases h
    rfl
  | cons c commands ih =>
    obtain ⟨hc, hcommands⟩ := List.forall_mem_cons.mp hc
    rw [run] at h
    cases hs : step running c with
    | error e =>
      rw [hs] at h
      cases h
    | ok p =>
      obtain ⟨c', running'⟩ := p
      rw [hs] at h
      obtain ⟨rest, hrest, rfl⟩ := Outcome.map_eq_ok.mp h
      obtain ⟨hagain, hr'⟩ := step_again hr hc hs
      dsimp only
      rw [run, hagain]
      dsimp only
      rw [ih hcommands hr' hrest]
      rfl

/-- **Reconciling is idempotent.** Commands whose filters are under names of their own are
    reconciled, if they can be, to commands that reconciling leaves alone, with the same states at
    the end. -/
theorem reconcile_again {commands : List (Command α)}
    (hc : ∀ c ∈ commands, ∀ e ∈ c.effect?, e.2.Tidy) {r : Reconciled α}
    (h : reconcile commands = .ok r) : reconcile r.consolidated = .ok r :=
  run_again hc tidyStates_nil h

/-- Commands of a caller: a figure is moved before it is put up, put up at infinity, and moved
    twice, the second time with a filter from before the first. Both moves bring the filters of the
    state along, in its order. -/
theorem reconcile_again_unresolved :
    let placed (x : Float) (filters : Fields (Json Float)) : Transform Float :=
      ⟨⟨x, 0⟩, ⟨1, 1⟩, 0, filters⟩
    let move (x : Float) (filters : Fields (Json Float)) : Command Float :=
      .setTransform ⟨"a", 500, .unspecified, placed x filters⟩
    let far := placed (Binary64.ofNonFinite .infinity) [("sepia", .int 3), ("blur", .int 4)]
    let commands := [move 1 [("noise", .int 1)], .changeFigure ⟨"a", "a.png", far, .left, []⟩,
      .rawText "Alice: hello", move 5 [("noise", .int 2)], move 6 [("blur", .int 7)]]
    ∃ r, reconcile commands = .ok r ∧
      (r.consolidated.filterMap Command.effect?).map (fun e => e.2.filters.keys) =
        [["noise"], ["sepia", "blur"], ["sepia", "blur", "noise"], ["sepia", "blur", "noise"]] ∧
      reconcile r.consolidated = .ok r := by
  intro placed move far commands
  have hc : ∀ c ∈ commands, ∀ e ∈ c.effect?, e.2.Tidy := by decide
  have hkeys : (reconcile commands).toOption.map (fun r =>
      (r.consolidated.filterMap Command.effect?).map fun e => e.2.filters.keys) =
      some [["noise"], ["sepia", "blur"], ["sepia", "blur", "noise"],
        ["sepia", "blur", "noise"]] := by decide
  cases hr : reconcile commands with
  | error e =>
    rw [hr] at hkeys
    cases hkeys
  | ok r =>
    rw [hr] at hkeys
    exact ⟨r, rfl, Option.some.inj hkeys, reconcile_again hc hr⟩

end Reconciliation
end SceneScript
