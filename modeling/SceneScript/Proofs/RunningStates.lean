import SceneScript.Proofs.Reconciliation

/-!
# What the running states are

Reconciling folds every move into the state that its figure is in. What that state *is* can be said
without the fold, from the commands alone (`Follows`):

* a figure is followed if some command is on it, and the background never is;
* its numbers are those of the last command on it;
* a filter has the value that the last command with this filter gave it, unless the figure was put
  on stage anew since (`FilterStands`).

**After any commands with resolved transforms the running states are these**
(`reconcile_follows`), and each move carries the state that the commands up to it leave its figure
in. The induction is over the commands from the end, as the running states are about what was last.
-/

set_option autoImplicit false

namespace SceneScript
namespace Reconciliation

variable {α : Type}

/-! ## What commands say about a target -/

/-- The last command on the target that has the filter gives it this value, and the target was not
    put on stage anew since. -/
def FilterStands (commands : List (Command α)) (target name : String) (v : Json α) : Prop :=
  ∃ before c behind t, commands = before ++ c :: behind ∧ c.effect? = some (target, t) ∧
    t.filters.get? name = some v ∧
    ∀ d ∈ behind, d.outline ≠ .changeFigure target ∧
      ∀ u, d.effect? = some (target, u) → u.filters.get? name = none

/-- The state that commands leave a target in. -/
structure StateAfter (commands : List (Command α)) (target : String) (state : Transform α) :
    Prop where
  numbers : (Command.lastTransform? commands target).map Transform.numbers = some state.numbers
  filters : ∀ name v, state.filters.get? name = some v ↔ FilterStands commands target name v

/-- The states of the targets that commands are on, each once and the background apart. -/
structure Follows (commands : List (Command α)) (running : Stage α) : Prop where
  nodup : running.keys.Nodup
  followed : ∀ target, (∃ t, running.get? target = some t) ↔
    target ≠ backgroundTarget ∧ ∃ c ∈ commands, c.target? = some target
  state : ∀ target t, running.get? target = some t → StateAfter commands target t

/-- The first command, if it moves a target that is followed, with the state of the target in place
    of its own transform. Every other command as it is. -/
inductive Carries (running : Stage α) : Command α → Command α → Prop
  | moved {m : SetTransform α} {t : Transform α} (followed : m.target ≠ backgroundTarget)
      (state : running.get? m.target = some t) :
      Carries running (.setTransform m) (.setTransform { m with transform := t })
  | passed {c : Command α}
      (free : ∀ target, c.outline = .setTransform target → target = backgroundTarget) :
      Carries running c c

/-! ## One more command -/

theorem filterStands_concat {commands : List (Command α)} {c : Command α} {target name : String}
    {v : Json α} :
    FilterStands (commands ++ [c]) target name v ↔
      (∃ t, c.effect? = some (target, t) ∧ t.filters.get? name = some v) ∨
      (FilterStands commands target name v ∧ c.outline ≠ .changeFigure target ∧
        ∀ u, c.effect? = some (target, u) → u.filters.get? name = none) := by
  constructor
  · rintro ⟨before, d, behind, t, hsplit, he, hv, hlast⟩
    cases behind using List.reverseRecOn with
    | nil =>
      obtain ⟨-, hd⟩ := List.append_inj' hsplit rfl
      cases hd
      exact .inl ⟨t, he, hv⟩
    | append_singleton behind e =>
      rw [← List.cons_append, ← List.append_assoc] at hsplit
      obtain ⟨hc, hd⟩ := List.append_inj' hsplit rfl
      cases hd
      refine .inr ⟨⟨before, d, behind, t, hc, he, hv, fun d hd => ?_⟩, ?_⟩
      · exact hlast d (List.mem_append_left _ hd)
      · exact hlast c (List.mem_append_right _ (List.mem_singleton_self c))
  · rintro (⟨t, he, hv⟩ | ⟨⟨before, d, behind, t, rfl, he, hv, hlast⟩, hc⟩)
    · exact ⟨commands, c, [], t, rfl, he, hv, fun d hd => nomatch hd⟩
    · refine ⟨before, d, behind ++ [c], t, ?_, he, hv, fun e hm => ?_⟩
      · rw [List.append_assoc, List.cons_append]
      · rcases List.mem_append.mp hm with hm | hm
        · exact hlast e hm
        · exact List.mem_singleton.mp hm ▸ hc

theorem FilterStands.exists_command {commands : List (Command α)} {target name : String}
    {v : Json α} (h : FilterStands commands target name v) :
    ∃ c ∈ commands, c.target? = some target := by
  obtain ⟨before, c, behind, t, rfl, he, -, -⟩ := h
  exact ⟨c, List.mem_append_right _ List.mem_cons_self, Command.target?_of_effect? he⟩

theorem target?_of_outline {c : Command α} {target : String}
    (h : c.outline = .setTransform target ∨ c.outline = .changeFigure target) :
    c.target? = some target := by
  cases c with
  | setTransform c =>
    cases h with
    | inl h => exact congrArg some (Outline.setTransform.inj h)
    | inr h => cases h
  | changeFigure c =>
    cases h with
    | inl h => cases h
    | inr h => exact congrArg some (Outline.changeFigure.inj h)
  | changeBackground c => cases h <;> contradiction
  | rawText text => cases h <;> contradiction

/-- **The frame**: a command on something else leaves a state as it is. -/
theorem StateAfter.concat {commands : List (Command α)} {target : String} {state : Transform α}
    (h : StateAfter commands target state) {c : Command α} (hc : c.target? ≠ some target) :
    StateAfter (commands ++ [c]) target state where
  numbers := by rw [Command.lastTransform?_concat, if_neg hc, h.numbers]
  filters name v := by
    have hno : ∀ t, c.effect? ≠ some (target, t) := fun t he =>
      hc (Command.target?_of_effect? he)
    rw [h.filters, filterStands_concat]
    constructor
    · exact fun hs => .inr ⟨hs, fun ho => hc (target?_of_outline (.inr ho)), fun u he => absurd he (hno u)⟩
    · rintro (⟨t, he, -⟩ | ⟨hs, -⟩)
      · exact absurd he (hno t)
      · exact hs

/-- A figure put on stage anew is in the state of its command. -/
theorem stateAfter_changeFigure (commands : List (Command α)) (c : ChangeFigure α) :
    StateAfter (commands ++ [.changeFigure c]) c.target c.transform where
  numbers := congrArg _ (Command.lastTransform?_concat_self commands rfl)
  filters name v := by
    rw [filterStands_concat]
    constructor
    · exact fun hv => .inl ⟨_, rfl, hv⟩
    · rintro (⟨t, he, hv⟩ | ⟨-, hne, -⟩)
      · cases he
        exact hv
      · exact absurd rfl hne

namespace Follows

theorem nil : Follows ([] : List (Command α)) [] where
  nodup := List.nodup_nil
  followed _ := iff_of_false (fun ⟨_, h⟩ => nomatch h) fun ⟨_, _, h, _⟩ => nomatch h
  state _ _ h := nomatch h

variable {commands : List (Command α)} {running : Stage α}

theorem exists_mem_concat {c : Command α} {target : String} :
    (∃ d ∈ commands ++ [c], d.target? = some target) ↔
      (∃ d ∈ commands, d.target? = some target) ∨ c.target? = some target := by
  simp only [List.mem_append, List.mem_singleton, or_and_right, exists_or, exists_eq_left]

/-- A command on no target that is followed. -/
theorem pass (h : Follows commands running) {c : Command α}
    (hc : ∀ target, c.target? = some target → target = backgroundTarget) :
    Follows (commands ++ [c]) running where
  nodup := h.nodup
  followed target := by
    rw [h.followed, exists_mem_concat]
    refine and_congr_right fun hne => (or_iff_left fun ht => hne (hc target ht)).symm
  state target t ht := by
    refine (h.state target t ht).concat fun hs => ?_
    exact ((h.followed target).mp ⟨t, ht⟩).1 (hc target hs)

/-- A command on a target, with the state that it leaves the target in. -/
theorem set (h : Follows commands running) {c : Command α} {target : String}
    (hc : c.target? = some target) (hne : target ≠ backgroundTarget) {state : Transform α}
    (hs : StateAfter (commands ++ [c]) target state) :
    Follows (commands ++ [c]) (running.set target state) where
  nodup := Fields.nodup_keys_set h.nodup _ _
  followed other := by
    rw [Fields.get?_set, exists_mem_concat, hc]
    by_cases ho : other = target
    · rw [if_pos ho, ho]
      exact iff_of_true ⟨state, rfl⟩ ⟨hne, .inr rfl⟩
    · rw [if_neg ho, h.followed]
      have : some target ≠ some other := fun he => ho (Option.some.inj he).symm
      rw [or_iff_left this]
  state other t ht := by
    rw [Fields.get?_set] at ht
    split at ht
    · next ho =>
      cases ht
      exact ho ▸ hs
    · next ho =>
      refine (h.state other t ht).concat fun he => ho ?_
      exact Option.some.inj (he.symm.trans hc)

variable [Scalar α]

/-- What stands in the place of a target has the filters that stand, and none if there is no
    state. -/
theorem get?_filters (h : Follows commands running) {target : String}
    (hne : target ≠ backgroundTarget) (name : String) (v : Json α) :
    ((running.get? target).getD Transform.initial).filters.get? name = some v ↔
      FilterStands commands target name v := by
  cases ht : running.get? target with
  | some t => exact (h.state target t ht).filters name v
  | none =>
    refine iff_of_false (fun hv => nomatch hv) fun hs => ?_
    obtain ⟨t, ht'⟩ := (h.followed target).mpr ⟨hne, hs.exists_command⟩
    cases ht.symm.trans ht'

/-- A move on top of the state of its target. -/
theorem stateAfter_setTransform (h : Follows commands running) {m : SetTransform α}
    (hne : m.target ≠ backgroundTarget) (hn : m.transform.filters.keys.Nodup) :
    StateAfter (commands ++ [.setTransform m]) m.target
      (m.transform.onTop ((running.get? m.target).getD Transform.initial)) where
  numbers := by
    have hlast := Command.lastTransform?_concat_self commands (c := .setTransform m) rfl
    exact congrArg (Option.map Transform.numbers) hlast
  filters name v := by
    unfold Transform.onTop
    dsimp only
    rw [Fields.get?_update hn, Option.or_eq_some_iff, h.get?_filters hne, filterStands_concat]
    constructor
    · rintro (hv | ⟨hnone, hs⟩)
      · exact .inl ⟨_, rfl, hv⟩
      · refine .inr ⟨hs, fun ho => (nomatch ho), fun u he => ?_⟩
        cases he
        exact hnone
    · rintro (⟨t, he, hv⟩ | ⟨hs, -, hnone⟩)
      · cases he
        exact .inl hv
      · exact .inr ⟨hnone _ rfl, hs⟩

end Follows

/-! ## Reconciling -/

variable [Scalar α]

/-- Reconciling one command more is one step more. -/
theorem run_concat {commands : List (Command α)} {running : Stage α} {r : Reconciled α}
    (h : (run running commands).1 = .ok r) {c c' : Command α} {running' : Stage α}
    (hs : step r.finalStates c = .ok (c', running')) :
    (run running (commands ++ [c])).1 = .ok ⟨r.consolidated ++ [c'], running'⟩ := by
  induction commands generalizing running r with
  | nil =>
    cases h
    rw [List.nil_append, run, hs]
    rfl
  | cons d commands ih =>
    rw [run] at h
    rw [List.cons_append, run]
    cases hd : step running d with
    | error e =>
      rw [hd] at h
      cases h
    | ok p =>
      rw [hd] at h
      obtain ⟨r₁, hr, rfl⟩ := Outcome.map_eq_ok.mp h
      dsimp only
      rw [ih hr hs]
      rfl

variable [Scalar.Lawful α]

/-- **One command**: it is carried out, and the states follow it. -/
theorem step_follows {commands : List (Command α)} {running : Stage α}
    (h : Follows commands running) {c : Command α} (hc : ∀ e ∈ c.effect?, e.2.Resolved) :
    ∃ c' running', step running c = .ok (c', running') ∧ Carries running' c c' ∧
      Follows (commands ++ [c]) running' := by
  obtain hfree | ⟨figure, rfl, hne⟩ | ⟨move, rfl, hne⟩ := followed_cases c
  · refine ⟨c, running, step_passed running hfree, .passed fun target ho => ?_, h.pass hfree⟩
    exact hfree target (target?_of_outline (.inl ho))
  · exact ⟨_, _, step_changeFigure running hne, .passed fun _ ho => (nomatch ho),
      h.set rfl hne (stateAfter_changeFigure commands figure)⟩
  · have hr : move.transform.Resolved := hc _ rfl
    exact ⟨_, _, step_setTransform running hne hr, .moved hne (Fields.get?_set_self _ _ _),
      h.set rfl hne (h.stateAfter_setTransform hne hr.nodup)⟩

/-- **Reconciling has the declared meaning.** Commands with resolved transforms are all handed back
    in their places, the moves of figures with the state that the commands up to them leave the
    figure in, and the states at the end are those that all commands leave. -/
theorem reconcile_follows {commands : List (Command α)}
    (hc : ∀ c ∈ commands, ∀ e ∈ c.effect?, e.2.Resolved) :
    ∃ r, reconcile commands = .ok r ∧ Follows commands r.finalStates ∧
      r.consolidated.length = commands.length ∧
      ∀ i c, commands[i]? = some c → ∃ c' upTo, r.consolidated[i]? = some c' ∧
        reconcile (commands.take (i + 1)) = .ok upTo ∧ Carries upTo.finalStates c c' := by
  induction commands using List.reverseRecOn with
  | nil => exact ⟨_, rfl, .nil, rfl, fun i c h => nomatch h⟩
  | append_singleton commands c ih =>
    obtain ⟨r, hr, hf, hlen, hat⟩ := ih fun d hd => hc d (List.mem_append_left _ hd)
    obtain ⟨c', running', hs, hcarries, hf'⟩ :=
      step_follows hf (hc c (List.mem_append_right _ (List.mem_singleton_self c)))
    have hrun : reconcile (commands ++ [c]) = .ok ⟨r.consolidated ++ [c'], running'⟩ :=
      run_concat hr hs
    refine ⟨_, hrun, hf', ?_, fun i d hd => ?_⟩
    · rw [List.length_append, List.length_append, hlen]
      rfl
    · by_cases hi : i < commands.length
      · -- an earlier command: neither what it became nor what was before it has changed
        rw [List.getElem?_append_left hi] at hd
        obtain ⟨d', upTo, hd', hupTo, hcar⟩ := hat i d hd
        refine ⟨d', upTo, ?_, ?_, hcar⟩
        · rw [List.getElem?_append_left (hlen ▸ hi), hd']
        · rw [List.take_append_of_le_length hi, hupTo]
      · have hi' : i < (commands ++ [c]).length := (List.getElem?_eq_some_iff.mp hd).1
        rw [List.length_append, List.length_singleton] at hi'
        obtain rfl : i = commands.length := by omega
        rw [List.getElem?_concat_length] at hd
        cases hd
        refine ⟨c', ⟨r.consolidated ++ [c'], running'⟩, ?_, ?_, hcarries⟩
        · rw [← hlen, List.getElem?_concat_length]
        · rw [List.take_of_length_le (by simp), hrun]

/-- A figure that is moved before it is put on stage, put on stage and moved twice, between a move
    of the background and a line of dialogue. The filter from before the reset is gone, and the last
    move, which names no filter, keeps both of those since. -/
theorem reconcile_follows_reset :
    let placed (x : Float) (filters : Fields (Json Float)) : Transform Float :=
      ⟨⟨x, 0⟩, ⟨1, 1⟩, 0, filters⟩
    let move (target : String) (x : Float) (filters : Fields (Json Float)) : Command Float :=
      .setTransform ⟨target, 500, .unspecified, placed x filters⟩
    let commands := [move "a" 1 [("noise", .int 1)], move backgroundTarget 2 [("blur", .int 2)],
      .rawText "Alice: hello", .changeFigure ⟨"a", "a.png", placed 3 [("sepia", .int 3)], .left, []⟩,
      move "a" 4 [("blur", .int 4)], move "a" 5 []]
    (∀ c ∈ commands, ∀ e ∈ c.effect?, e.2.Resolved) ∧
    (reconcile commands).toOption.map (fun r => r.finalStates.map fun s =>
      (s.1, s.2.position.x, s.2.filters.keys)) = some [("a", 5, ["sepia", "blur"])] ∧
    ∃ r, reconcile commands = .ok r ∧ Follows commands r.finalStates ∧
      r.consolidated.length = commands.length ∧
      ∀ i c, commands[i]? = some c → ∃ c' upTo, r.consolidated[i]? = some c' ∧
        reconcile (commands.take (i + 1)) = .ok upTo ∧ Carries upTo.finalStates c c' := by
  intro placed move commands
  have hc : ∀ c ∈ commands, ∀ e ∈ c.effect?, e.2.Resolved := by decide
  exact ⟨hc, by decide, reconcile_follows hc⟩

end Reconciliation
end SceneScript
