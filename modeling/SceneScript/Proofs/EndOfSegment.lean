import SceneScript.Proofs.Scalar.Quotient
import SceneScript.Proofs.Script.Locality
import SceneScript.Proofs.Transform
import SceneScript.Timeline

/-!
# Behind the end of a segment

A moment of a segment starts from the filters of its start and blends those of its end into them, so
a filter that only the start has would stay on screen for good. In a script there is none: a move
keeps all filters of the state that it starts from, and **what the timeline takes for the start of a
segment is that state** (`continues_tweens`), since both forget the same things at a reset.

With that, **a segment that is over shows the filters of its end** (`moment?_of_over`): the same
names in the same order, and the same values but for those that are numbers on both sides, which are
computed and may be off by a rounding. The height is exactly one there, whatever the curve is.
-/

set_option autoImplicit false

namespace SceneScript

variable {α : Type}

/-- A finite number as a filter value. -/
def Json.isNumber [Scalar α] : Json α → Bool
  | .int _ => true
  | .real x => Scalar.isFinite x
  | _ => false

/-- The filters of the end are those of the start and maybe more behind them, each once. -/
structure Segment.Continues (s : Segment α) : Prop where
  keys : s.startState.filters.keys <+: s.endState.filters.keys
  nodup : s.endState.filters.keys.Nodup

namespace Timeline

/-! ## The segments of a script -/

/-- No state on the stage has a filter twice. -/
def NodupFilters (stage : Stage α) : Prop := ∀ f ∈ stage, f.2.filters.keys.Nodup

theorem NodupFilters.getD [Scalar α] {stage : Stage α} (h : NodupFilters stage) (target : String) :
    ((stage.get? target).getD Transform.initial).filters.keys.Nodup := by
  cases hg : stage.get? target with
  | none => exact List.nodup_nil
  | some t => exact h _ (Fields.mem_of_get? hg)

theorem NodupFilters.after {stage : Stage α} (h : NodupFilters stage) {c : Command α}
    (hc : ∀ e ∈ c.effect?, e.2.filters.keys.Nodup) : NodupFilters (stage.after c) := by
  unfold Stage.after
  split
  · next target t he =>
    intro f hf
    rcases Fields.mem_of_mem_set hf with hf | rfl
    · exact h f hf
    · exact hc _ he
  · exact h

theorem nodup_command [Scalar α] {stage : Stage α} (h : NodupFilters stage) (factor : Vec2 α)
    (a : Action α) : ∀ e ∈ (a.command factor stage).effect?, e.2.filters.keys.Nodup := by
  have hinitial : (Transform.initial : Transform α).filters.keys.Nodup := List.nodup_nil
  intro e he
  cases a with
  | setTransform target duration easing u =>
    cases he
    exact Fields.nodup_keys_update (h.getD target) _
  | changeFigure target path u preset params =>
    cases he
    exact Fields.nodup_keys_update hinitial _
  | changeBackground path u params =>
    cases he
    exact Fields.nodup_keys_update hinitial _

variable [Scalar α]

theorem nodup_readLine {stage : Stage α} (h : NodupFilters stage) (factor : Vec2 α)
    (line : List Char) : NodupFilters (stage.after (Script.readLine factor stage line).1) := by
  refine h.after fun e he => ?_
  cases ha : Script.action? (α := α) line with
  | none =>
    rw [Script.readLine_of_no_action ha] at he
    cases he
  | some a =>
    rw [Script.readLine_of_action ha] at he
    exact nodup_command h factor a e he

/-- **A move adds its filters behind those of the state that it starts from.** Without a state the
    timeline starts it at its own end. -/
theorem continues_move {stage : Stage α} (h : NodupFilters stage) {factor : Vec2 α}
    {line : List Char} {m : SetTransform α}
    (hm : (Script.readLine factor stage line).1 = .setTransform m) :
    ((stage.get? m.target).getD m.transform).filters.keys <+: m.transform.filters.keys ∧
      m.transform.filters.keys.Nodup := by
  cases ha : Script.action? (α := α) line with
  | none =>
    rw [Script.readLine_of_no_action ha] at hm
    cases hm
  | some a =>
    rw [Script.readLine_of_action ha] at hm
    cases a with
    | setTransform target duration easing u =>
      cases hm
      refine ⟨?_, Fields.nodup_keys_update (h.getD target) _⟩
      dsimp only
      cases stage.get? target with
      | none => exact List.prefix_rfl
      | some t => exact Transform.keys_prefix_apply u factor t
    | changeFigure target path u preset params => cases hm
    | changeBackground path u params => cases hm

/-- **The tweens of a script**, by induction on its lines: the timeline goes through the same stages
    as reading. -/
theorem continues_tweens (factor : Vec2 α) {stage : Stage α} (h : NodupFilters stage)
    (lines : List (List Char)) :
    ∀ s ∈ tweens stage (Script.commandsFrom factor stage lines), s.Continues := by
  induction lines generalizing stage with
  | nil => exact fun s hs => nomatch hs
  | cons line lines ih =>
    intro s hs
    have hrest := ih (nodup_readLine h factor line) s
    rw [Script.commandsFrom_cons] at hs
    cases hc : (Script.readLine factor stage line).1 with
    | setTransform m =>
      rw [hc] at hs hrest
      rcases List.mem_cons.mp hs with rfl | hs
      · obtain ⟨hkeys, hnodup⟩ := continues_move h hc
        exact ⟨hkeys, hnodup⟩
      · exact hrest hs
    | changeFigure c =>
      rw [hc] at hs hrest
      exact hrest hs
    | changeBackground c =>
      rw [hc] at hs hrest
      exact hrest hs
    | rawText text =>
      rw [hc] at hs hrest
      exact hrest hs

theorem nodup_stageAfter (factor : Vec2 α) {stage : Stage α} (h : NodupFilters stage)
    (lines : List (List Char)) :
    NodupFilters ((Script.commandsFrom factor stage lines).foldl Stage.after stage) := by
  induction lines generalizing stage with
  | nil => exact h
  | cons line lines ih => exact ih (nodup_readLine h factor line)

/-- **Every segment of a script continues**: a hold ends where it starts. -/
theorem continues_parse (factor : Vec2 α) (text : List Char) :
    ∀ s ∈ ofCommands (Script.parse factor text), s.Continues := by
  have hnil : NodupFilters ([] : Stage α) := fun f hf => nomatch hf
  intro s hs
  rcases List.mem_append.mp hs with hs | hs
  · exact continues_tweens factor hnil _ s hs
  · obtain ⟨⟨target, state⟩, hmem, hs⟩ := List.mem_filterMap.mp hs
    dsimp only at hs
    split at hs
    · cases hs
    · cases hs
      exact ⟨List.prefix_rfl, nodup_stageAfter factor hnil _ _ hmem⟩

omit [Scalar α] in
/-- Segments are told apart by what moves, not by when: each of them starts at zero. -/
theorem startTime_ofCommands (commands : List (Command α)) :
    ∀ s ∈ ofCommands commands, s.startTime = 0 := by
  have htweens : ∀ stage : Stage α, ∀ s ∈ tweens stage commands, s.startTime = 0 := by
    induction commands with
    | nil => exact fun _ s hs => nomatch hs
    | cons c commands ih =>
      intro stage s hs
      cases c with
      | setTransform m =>
        rcases List.mem_cons.mp hs with rfl | hs
        · rfl
        · exact ih _ s hs
      | changeFigure c => exact ih _ s hs
      | changeBackground c => exact ih _ s hs
      | rawText text => exact ih _ s hs
  intro s hs
  rcases List.mem_append.mp hs with hs | hs
  · exact htweens [] s hs
  · obtain ⟨⟨target, state⟩, -, hs⟩ := List.mem_filterMap.mp hs
    dsimp only at hs
    split at hs
    · cases hs
    · cases hs
      rfl

/-! ## Blending at the height of one -/

/-- **At the height of one a filter has its value at the end**, unless it is a number on both
    sides. -/
theorem blend_of_not_lt {start : Option (Json α)} {stop v : Json α} {u : α}
    (hu : ¬ u < Scalar.ofNat 1)
    (hno : ¬ ((∃ a, start = some a ∧ a.isNumber = true) ∧ stop.isNumber = true))
    (h : blend start stop u = some v) : v = stop := by
  have hnumber : ∀ {a : Json α} {x : α}, number? a = some (some x) → a.isNumber = true := by
    intro a x hx
    unfold number? at hx
    split at hx
    · rfl
    · next y =>
      by_contra hy
      have hf : ¬ Scalar.isFinite y = true := hy
      rw [if_neg hf] at hx
      cases hx
    · cases hx
  unfold blend at h
  rw [if_neg hu] at h
  cases start with
  | none => exact (Option.some.inj h).symm
  | some a =>
    dsimp only at h
    obtain ⟨x, hx, h⟩ := Option.bind_eq_some_iff.mp h
    cases x with
    | none => exact (Option.some.inj h).symm
    | some x =>
      dsimp only at h
      obtain ⟨y, hy, h⟩ := Option.bind_eq_some_iff.mp h
      cases y with
      | none => exact (Option.some.inj h).symm
      | some y => exact absurd ⟨⟨a, rfl, hnumber hx⟩, hnumber hy⟩ hno

/-- The blended values of filters: the same names, and each value blended with the one that the
    start has under its name. -/
def Blended (start : Fields (Json α)) (u : α) (stop blended : Fields (Json α)) : Prop :=
  List.Forall₂ (fun f g => f.1 = g.1 ∧ blend (start.get? f.1) f.2 u = some g.2) stop blended

theorem Blended.keys_eq {start stop blended : Fields (Json α)} {u : α}
    (h : Blended start u stop blended) : blended.keys = stop.keys := by
  induction h with
  | nil => rfl
  | cons hfg _ ih => exact congrArg₂ List.cons hfg.1.symm ih

theorem Blended.get? {start stop blended : Fields (Json α)} {u : α}
    (h : Blended start u stop blended) {name : String} {v : Json α} (hv : stop.get? name = some v) :
    ∃ w, blended.get? name = some w ∧ blend (start.get? name) v u = some w := by
  induction h with
  | nil => cases hv
  | @cons f g stop blended hfg _ ih =>
    obtain ⟨k, v'⟩ := f
    obtain ⟨l, w⟩ := g
    obtain ⟨hname, hblend⟩ := hfg
    dsimp only at hname hblend
    subst hname
    rw [Fields.get?] at hv ⊢
    by_cases hk : k = name
    · rw [if_pos hk] at hv ⊢
      cases hv
      exact ⟨w, rfl, hk ▸ hblend⟩
    · rw [if_neg hk] at hv ⊢
      exact ih hv

/-- Blending goes through the filters of the end one after the other, and what it has done so far is
    an update of the start. -/
theorem exists_blended {start done stop r : Fields (Json α)} {u : α}
    (h : stop.foldlM (fun filters (name, b) =>
      (blend (start.get? name) b u).map (filters.set name)) done = some r) :
    ∃ blended, Blended start u stop blended ∧ r = done.update blended := by
  induction stop generalizing done with
  | nil => exact ⟨[], .nil, (Option.some.inj h).symm⟩
  | cons f stop ih =>
    rw [List.foldlM_cons] at h
    obtain ⟨done', hdone, h⟩ := Option.bind_eq_some_iff.mp h
    obtain ⟨v, hv, rfl⟩ := Option.map_eq_some_iff.mp hdone
    obtain ⟨blended, hb, rfl⟩ := ih h
    exact ⟨(f.1, v) :: blended, .cons ⟨rfl, hv⟩ hb, rfl⟩

/-- **The filters of a moment are the blended ones of the end**, if the segment continues: nothing
    of the start is left beside them. -/
theorem blended_of_blendFilters {start stop r : Fields (Json α)} {u : α}
    (hp : start.keys <+: stop.keys) (hn : stop.keys.Nodup)
    (h : blendFilters start stop u = some r) : Blended start u stop r := by
  obtain ⟨blended, hb, rfl⟩ := exists_blended h
  rw [Fields.update_of_prefix]
  · exact hb
  · rwa [hb.keys_eq]
  · rwa [hb.keys_eq]

/-! ## Moments behind the end -/

set_option maxRecDepth 2000 in
/-- **Every curve ends at one**, in doubles as in the rationals. -/
theorem clamp_value_one (c : Curve) :
    Scalar.clamp (c.value (Scalar.ofNat 1 : Float)) = Scalar.ofNat 1 := by
  cases c <;> decide

/-- What is at least one is cut off to one. -/
theorem clamp_of_one_le {x : Float} (h : Scalar.ofNat 1 ≤ x) :
    Scalar.clamp x = Scalar.ofNat 1 := by
  have hlt : ¬ x < Scalar.ofNat 1 := by
    rw [Binary64.lt_iff]
    intro hlt
    exact absurd ((Binary64.le_iff _ _).mp h).2.2 (not_le.mpr hlt.2.2)
  unfold Scalar.clamp Scalar.least
  rw [if_neg hlt]
  decide

/-- **A segment that is over is over exactly.** -/
theorem progress?_of_over {s : Segment Float} (hs : s.startTime = 0) (hd : 0 < s.duration)
    {d t : Float} (hdur : Scalar.ofInt? s.duration = some d) (ht : Scalar.isFinite t = true)
    (hover : Scalar.atLeast t s.endTime = true) : progress? s t = some (Scalar.ofNat 1) := by
  have hzero : (Scalar.ofInt? 0 : Option Float) = some (Scalar.ofNat 0) := by decide
  have hend : s.endTime = s.duration := by
    unfold Segment.endTime
    rw [hs, Int.zero_add]
  rw [hend] at hover
  have hle := Binary64.le_of_atLeast ht hd.le hover hdur
  unfold progress?
  rw [hs, hzero, hdur]
  show some (Scalar.clamp ((t - Scalar.ofNat 0) / d)) = _
  rw [Binary64.sub_zero,
    clamp_of_one_le (Binary64.one_le_div ht (Binary64.pos_of_ofInt?_of_pos hd hdur) hle)]

/-- **A segment that is over shows the filters of its end.** -/
theorem moment?_of_over {s : Segment Float} (hc : s.Continues) (hs : s.startTime = 0)
    (hd : 0 < s.duration) {d t : Float} (hdur : Scalar.ofInt? s.duration = some d)
    (ht : Scalar.isFinite t = true) (hover : Scalar.atLeast t s.endTime = true)
    {r : Transform Float} (hr : moment? s t = some r) :
    r.filters.keys = s.endState.filters.keys ∧
      ∀ name v, s.endState.filters.get? name = some v →
        ¬ ((∃ a, s.startState.filters.get? name = some a ∧ a.isNumber = true) ∧
          v.isNumber = true) →
        r.filters.get? name = some v := by
  unfold moment? at? at hr
  rw [if_neg (not_le.mpr hd), progress?_of_over hs hd hdur ht hover] at hr
  replace hr : between s.startState s.endState
      (Scalar.clamp ((Curve.ofEasing s.easing).value (Scalar.ofNat 1))) = some r := hr
  rw [clamp_value_one] at hr
  obtain ⟨filters, hf, rfl⟩ := Option.map_eq_some_iff.mp hr
  have hblended := blended_of_blendFilters hc.keys hc.nodup hf
  refine ⟨hblended.keys_eq, fun name v hv hno => ?_⟩
  obtain ⟨w, hw, hblend⟩ := hblended.get? hv
  have hone : ¬ (Scalar.ofNat 1 : Float) < Scalar.ofNat 1 := by decide
  show filters.get? name = some v
  rw [hw, blend_of_not_lt hone hno hblend]

/-- **The segments of a script end in the right filters.** In each of them the filters of the end
    begin with those of the start, in their order. So at any time from the end of one that has a
    length, its moment, if there is one, has the filters of the end in their order, and also their
    values, but for those that are numbers on both sides. -/
theorem moment?_parse (factor : Vec2 Float) (text : List Char) :
    ∀ s ∈ ofCommands (Script.parse factor text),
      s.startState.filters.keys <+: s.endState.filters.keys ∧
      (0 < s.duration → (Scalar.ofInt? s.duration : Option Float).isSome = true →
        ∀ t r, Scalar.isFinite t = true → Scalar.atLeast t s.endTime = true →
          moment? s t = some r →
          r.filters.keys = s.endState.filters.keys ∧
            ∀ name v, s.endState.filters.get? name = some v →
              ¬ ((∃ a, s.startState.filters.get? name = some a ∧ a.isNumber = true) ∧
                v.isNumber = true) →
              r.filters.get? name = some v) := by
  intro s hs
  have hc := continues_parse factor text s hs
  refine ⟨hc.keys, fun hd hdur t r ht hover hr => ?_⟩
  obtain ⟨d, hdur⟩ := Option.isSome_iff_exists.mp hdur
  exact moment?_of_over hc (startTime_ofCommands _ s hs) hd hdur ht hover hr

/-- A figure with two filters is moved, which adds a third one and gives the first one a text. When
    the move is over its filters stand in the order of the end, and the text has replaced the
    number. -/
theorem moment?_parse_tinted :
    let text := Line.join ([
      "changeFigure:a.png -id=a -transform=\x7b\"tint\":1,\"blur\":2\x7d;",
      "setTransform:\x7b\"glow\":true,\"tint\":\"red\",\"blur\":4\x7d -target=a -duration=300;"].map
        String.toList)
    ∃ s ∈ ofCommands (Script.parse (⟨0.5, 1⟩ : Vec2 Float) text), ∃ r v,
      moment? s 1000 = some r ∧ s.startState.filters.keys = ["tint", "blur"] ∧
      s.startState.filters.keys <+: s.endState.filters.keys ∧
      r.filters.keys = s.endState.filters.keys ∧ v.isNumber = false ∧
      s.endState.filters.get? "tint" = some v ∧ r.filters.get? "tint" = some v := by
  repeat rewrite [List.map_cons, String.toList_ofList]
  intro text
  have hsegment : (ofCommands (Script.parse (⟨0.5, 1⟩ : Vec2 Float) text))[0]?.map (fun s =>
      (s.duration, s.startTime, s.startState.filters.keys,
        (s.endState.filters.get? "tint").map Json.isNumber, (moment? s 1000).isSome)) =
      some (300, 0, ["tint", "blur"], some false, true) := by decide
  obtain ⟨s, hget, hs⟩ := Option.map_eq_some_iff.mp hsegment
  have hmem := List.mem_of_getElem? hget
  simp only [Prod.mk.injEq] at hs
  obtain ⟨hd, hstart, hkeys, htint, hmoment⟩ := hs
  obtain ⟨v, hv, hno⟩ := Option.map_eq_some_iff.mp htint
  obtain ⟨r, hr⟩ := Option.isSome_iff_exists.mp hmoment
  have hend : s.endTime = 300 := by rw [Segment.endTime, hstart, hd, Int.zero_add]
  obtain ⟨hbegins, hover⟩ := moment?_parse ⟨0.5, 1⟩ text s hmem
  obtain ⟨hnames, hvalues⟩ := hover (by rw [hd]; decide) (by rw [hd]; decide) 1000 r
    (by decide) (by rw [hend]; decide) hr
  refine ⟨s, hmem, r, v, hr, hkeys, hbegins, hnames, hno, hv, hvalues "tint" v hv fun h => ?_⟩
  rw [hno] at h
  exact Bool.false_ne_true h.2

end Timeline
end SceneScript
