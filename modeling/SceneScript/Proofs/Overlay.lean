import SceneScript.Proofs.Transform

/-!
# Payloads one on top of the other

A transform is the outcome of many payloads, one for each line on its target, and nobody keeps them
apart: a host that edits a scene may send two changes as one. What that one payload has to say is
`Payload.onTop`. The points are laid over each other axis by axis, a null leaves open what it stands
for, and a filter replaces the one under its name, where null is a value like any other.

**Two payloads merged one after the other are the one on top of the other merged at once**, and a
payload that was merged changes nothing when it comes again (`merge_onTop`). The factors play no
part in it, as every coordinate that a payload brings is converted once, in the payload that it
comes from.

The proof goes through updates. There the law is five times the one of an `Option.or`, and once that
of named values (`Fields.update_update`), which also keeps the order of the filters. What is left is
that reading takes one payload on top of another to one update on top of another
(`ofPayload_onTop`).
-/

set_option autoImplicit false

namespace SceneScript

open Outcome (map_eq_ok)

variable {α : Type}

/-! ## Updates -/

namespace Update

/-- The update that says what two of them say one after the other. -/
def onTop (upper lower : Update α) : Update α where
  x := upper.x.or lower.x
  y := upper.y.or lower.y
  scaleX := upper.scaleX.or lower.scaleX
  scaleY := upper.scaleY.or lower.scaleY
  rotation := upper.rotation.or lower.rotation
  filters := lower.filters.update upper.filters

section Apply

variable [Scalar α]

theorem coordinate_or (upper lower : Option α) (factor prior : α) :
    coordinate (upper.or lower) factor prior =
      coordinate upper factor (coordinate lower factor prior) := by
  cases upper with
  | none => rfl
  | some x => rfl

/-- **Updates are applied one after the other or at once.** -/
theorem apply_onTop {lower : Update α} (hn : lower.filters.keys.Nodup) (upper : Update α)
    (factor : Vec2 α) (t : Transform α) :
    (upper.onTop lower).apply factor t = upper.apply factor (lower.apply factor t) := by
  unfold apply onTop
  simp only [coordinate_or, Option.getD_or, Fields.update_update hn]

/-- **An update that was applied has nothing more to say.** -/
theorem apply_again {u : Update α} (hn : u.filters.keys.Nodup) (factor : Vec2 α)
    (t : Transform α) : u.apply factor (u.apply factor t) = u.apply factor t := by
  have hor : ∀ given : Option α, given.or given = given := fun given => Option.or_self
  have hself : u.onTop u = u := by
    unfold onTop
    rw [hor, hor, hor, hor, hor, Fields.update_of_prefix List.prefix_rfl hn]
  rw [← apply_onTop hn, hself]

end Apply

end Update

/-! ## Payloads -/

namespace Payload

/-- The members of an object; what is no object has none. -/
def membersOf : Json α → Fields (Json α)
  | .obj ms => ms
  | _ => []

/-- The axes of one point on top of another. The upper one counts for every axis that it gives. -/
def axes (upper lower : Fields (Json α)) : Fields (Json α) :=
  ["x", "y"].filterMap fun name =>
    ((Json.given? upper name).or (lower.get? name)).map fun v => (name, v)

/-- A member of a payload on top of what another one has under the same name. -/
def memberOnTop (name : String) (upper : Json α) (lower : Option (Json α)) : Json α :=
  if name = "position" ∨ name = "scale" then
    .obj (axes (membersOf upper) (membersOf (lower.getD .null)))
  else if name = "rotation" then
    match upper with
    | .null => lower.getD .null
    | v => v
  else upper

/-- The payload that says what two of them say one after the other: the names of the lower one in
    their order, and behind them the new names of the upper one. -/
def onTop (upper lower : Fields (Json α)) : Fields (Json α) :=
  lower.update (upper.map fun f => (f.1, memberOnTop f.1 f.2 (lower.get? f.1)))

/-! ## What is given on top -/

open Json (given?)

theorem given?_axes {name : String} (h : name ∈ ["x", "y"]) (upper lower : Fields (Json α)) :
    given? (axes upper lower) name = (given? upper name).or (given? lower name) := by
  have hget : Fields.get? (axes upper lower) name =
      (given? upper name).or (lower.get? name) := by
    unfold axes
    rw [Fields.get?_filterMap, if_pos h]
  -- what is given is no null, so it counts in the upper point and stays given
  have hgiven : ∀ fields : Fields (Json α), given? fields name ≠ some .null := by
    intro fields
    unfold given?
    split
    · simp
    · assumption
  rw [given?, hget]
  cases hu : given? upper name with
  | none =>
    rw [Option.none_or, Option.none_or]
    rfl
  | some v =>
    have hne : v ≠ .null := fun hv => hgiven upper (hv ▸ hu)
    simp [hne]

section Names

variable {lower upper : Fields (Json α)} (hu : upper.keys.Nodup)

include hu

theorem get?_onTop (name : String) :
    (onTop upper lower).get? name =
      ((upper.get? name).map fun v => memberOnTop name v (lower.get? name)).or
        (lower.get? name) := by
  have hn := Fields.keys_map (fun k v => memberOnTop k v (lower.get? k)) upper
  unfold onTop
  rw [Fields.get?_update (by rwa [hn]),
    Fields.get?_map (fun k v => memberOnTop k v (lower.get? k))]

theorem given?_rotation_onTop :
    given? (onTop upper lower) "rotation" =
      (given? upper "rotation").or (given? lower "rotation") := by
  unfold given?
  rw [get?_onTop hu]
  cases upper.get? "rotation" with
  | none => rfl
  | some v =>
    cases v with
    | null =>
      cases lower.get? "rotation" with
      | none => rfl
      | some w => rfl
    | bool b => rfl
    | int n => rfl
    | real x => rfl
    | str s => rfl
    | arr items => rfl
    | obj ms => rfl

end Names

/-- The filters of one payload on top of another are those of the one updated with those of the
    other. -/
theorem filters_onTop (upper lower : Fields (Json α)) :
    (onTop upper lower).filter (fun f => !Transform.structuralNames.contains f.1) =
      Fields.update (lower.filter fun f => !Transform.structuralNames.contains f.1)
        (upper.filter fun f => !Transform.structuralNames.contains f.1) := by
  have hfree : ∀ name, (!Transform.structuralNames.contains name) = true →
      ∀ (v : Json α) w, memberOnTop name v w = v := by
    intro name hname v w
    have hne : name ≠ "position" ∧ name ≠ "scale" ∧ name ≠ "rotation" := by
      simpa [Transform.structuralNames] using hname
    obtain ⟨hp, hs, hr⟩ := hne
    unfold memberOnTop
    rw [if_neg (not_or.mpr ⟨hp, hs⟩), if_neg hr]
  unfold onTop
  rw [Fields.filter_update fun name => !Transform.structuralNames.contains name]
  congr 1
  rw [List.filter_map]
  refine (List.map_congr_left fun f hf => ?_).trans (List.map_id _)
  have hname := (List.mem_filter.mp hf).2
  exact Prod.ext rfl (hfree f.1 hname f.2 _)

end Payload

/-! ## Reading -/

namespace Update

open Json (given?)

variable [Scalar α]

theorem number_of_given? {fields fields' : Fields (Json α)} {name field : String}
    (h : given? fields name = given? fields' name) :
    number fields name field = number fields' name field := by
  unfold number
  rw [h]

/-- Whether a number is found is a question of whether one is given. -/
theorem isSome_of_number {fields : Fields (Json α)} {name field : String} {found : Option α}
    (h : number fields name field = .ok found) : found.isSome = (given? fields name).isSome := by
  unfold number at h
  split at h
  · next hg =>
    cases h
    rw [hg]
    rfl
  · next hg =>
    rw [hg]
    split at h
    · cases h
      rfl
    · cases h
  · next hg =>
    rw [hg]
    split at h
    · cases h
      rfl
    · cases h
  · cases h

theorem number_or {fields upper lower : Fields (Json α)} {name field : String} {u l : Option α}
    (hg : given? fields name = (given? upper name).or (given? lower name))
    (hl : number lower name field = .ok l) (hu : number upper name field = .ok u) :
    number fields name field = .ok (u.or l) := by
  have hsome := isSome_of_number hu
  cases u with
  | none =>
    have hnone : given? upper name = none := Option.not_isSome_iff_eq_none.mp (by simp [← hsome])
    rw [hnone, Option.none_or] at hg
    rw [number_of_given? hg, hl, Option.none_or]
  | some x =>
    obtain ⟨v, hv⟩ := Option.isSome_iff_exists.mp hsome.symm
    rw [hv, Option.some_or, ← hv] at hg
    rw [number_of_given? hg, hu, Option.some_or]

omit [Scalar α] in
/-- A point that is read is what its payload has for it, and nothing if that is null or absent. -/
theorem membersOf_of_members {payload axes : Fields (Json α)} {name : String}
    (h : members payload name = .ok axes) :
    Payload.membersOf ((payload.get? name).getD .null) = axes := by
  unfold members given? at h
  cases hg : payload.get? name with
  | none =>
    rw [hg] at h
    cases h
    rfl
  | some v =>
    rw [hg] at h
    cases v with
    | null =>
      cases h
      rfl
    | obj ms =>
      cases h
      rfl
    | bool b => cases h
    | int n => cases h
    | real x => cases h
    | str s => cases h
    | arr items => cases h

omit [Scalar α] in
/-- **A point on top of another one** is read if both are, and gives what either of them gives. -/
theorem members_onTop {upper lower : Fields (Json α)} (hn : upper.keys.Nodup) {name : String}
    (hname : name = "position" ∨ name = "scale") {u l : Fields (Json α)}
    (hl : members lower name = .ok l) (hu : members upper name = .ok u) :
    ∃ axes, members (Payload.onTop upper lower) name = .ok axes ∧
      ∀ axis ∈ ["x", "y"], given? axes axis = (given? u axis).or (given? l axis) := by
  have hget : (Payload.onTop upper lower).get? name = _ := Payload.get?_onTop hn name
  have hlower := membersOf_of_members hl
  have hupper := membersOf_of_members hu
  cases hv : upper.get? name with
  | none =>
    -- the upper payload has no such point, and the lower one stands as it is
    rw [hv] at hget hupper
    have hsame : members (Payload.onTop upper lower) name = members lower name := by
      unfold members given?
      rw [hget]
      rfl
    have hnone : u = [] := hupper.symm
    subst hnone
    exact ⟨l, hsame.trans hl, fun axis _ => rfl⟩
  | some v =>
    rw [hv] at hget hupper
    have hmember : Payload.memberOnTop name v (lower.get? name) = .obj (Payload.axes u l) := by
      unfold Payload.memberOnTop
      rw [if_pos hname, hlower, ← hupper]
      rfl
    refine ⟨Payload.axes u l, ?_, fun axis ha => Payload.given?_axes ha u l⟩
    rw [Option.map_some, Option.some_or, hmember] at hget
    unfold members given?
    rw [hget]

/-- **Reading one payload on top of another gives one update on top of another.** -/
theorem ofPayload_onTop {upper lower : Fields (Json α)} (hn : upper.keys.Nodup) {u l : Update α}
    (hl : ofPayload lower = .ok l) (hu : ofPayload upper = .ok u) :
    ofPayload (Payload.onTop upper lower) = .ok (u.onTop l) := by
  obtain ⟨⟨lp, hlp, hlx, hly⟩, ⟨ls, hls, hlsx, hlsy⟩, hlr, hlf⟩ := ofPayload_eq_ok_iff.mp hl
  obtain ⟨⟨up, hup, hux, huy⟩, ⟨us, hus, husx, husy⟩, hur, huf⟩ := ofPayload_eq_ok_iff.mp hu
  obtain ⟨position, hp, hgp⟩ := members_onTop hn (.inl rfl) hlp hup
  obtain ⟨scale, hs, hgs⟩ := members_onTop hn (.inr rfl) hls hus
  refine ofPayload_eq_ok_iff.mpr ⟨⟨position, hp, ?_, ?_⟩, ⟨scale, hs, ?_, ?_⟩, ?_, ?_⟩
  · exact number_or (hgp "x" (by simp)) hlx hux
  · exact number_or (hgp "y" (by simp)) hly huy
  · exact number_or (hgs "x" (by simp)) hlsx husx
  · exact number_or (hgs "y" (by simp)) hlsy husy
  · exact number_or (Payload.given?_rotation_onTop hn) hlr hur
  · rw [Payload.filters_onTop, ← hlf, ← huf]
    rfl

/-- The filters that are read are under different names if the members of the payload are. -/
theorem nodup_filters_of_ofPayload {payload : Fields (Json α)} (hn : payload.keys.Nodup)
    {u : Update α} (h : ofPayload payload = .ok u) : u.filters.keys.Nodup := by
  rw [(ofPayload_eq_ok_iff.mp h).filters]
  exact hn.sublist (List.filter_sublist.map _)

end Update

/-! ## Merging -/

/-- **Partial updates compose.** Of two payloads that can be merged, and that name each member once,
    the one and then the other does the same as the one on top of the other at once, filters in the
    same order; and merging a payload a second time changes nothing. -/
theorem Transform.merge_onTop [Scalar α] (t : Transform α) (factor : Vec2 α)
    {lower upper : Fields (Json α)} (hl : lower.keys.Nodup) (hu : upper.keys.Nodup)
    (hlower : ∃ s, t.merge lower factor = .ok s) (hupper : ∃ s, t.merge upper factor = .ok s) :
    ∃ s r, t.merge lower factor = .ok s ∧ s.merge upper factor = .ok r ∧
      t.merge (Payload.onTop upper lower) factor = .ok r ∧ s.merge lower factor = .ok s := by
  obtain ⟨s, hs⟩ := hlower
  obtain ⟨s', hs'⟩ := hupper
  obtain ⟨l, hreadl, rfl⟩ := map_eq_ok.mp hs
  obtain ⟨u, hreadu, -⟩ := map_eq_ok.mp hs'
  have hn := Update.nodup_filters_of_ofPayload hl hreadl
  refine ⟨_, u.apply factor (l.apply factor t), hs, ?_, ?_, ?_⟩
  · rw [merge, hreadu]
    rfl
  · rw [merge, Update.ofPayload_onTop hu hreadl hreadu, ← Update.apply_onTop hn]
    rfl
  · rw [merge, hreadl]
    exact congrArg Except.ok (Update.apply_again hn factor t)

/-- A blurred figure is placed at half the resolution and tinted. The second payload has a null for
    the turn, which says nothing, and one for the blur, which does. -/
theorem Transform.merge_onTop_placed :
    let t : Transform Float := ⟨⟨1, 2⟩, ⟨1, 1⟩, 0, [("blur", .int 4)]⟩
    let factor : Vec2 Float := ⟨0.5, 0.5⟩
    let lower : Fields (Json Float) := [("rotation", .int 3), ("tint", .str "red"),
      ("position", .obj [("x", .int 10), ("y", .int 20)])]
    let upper : Fields (Json Float) := [("position", .obj [("y", .real 8), ("x", .null)]),
      ("blur", .null), ("rotation", .null), ("scale", .null), ("glow", .bool true)]
    lower.keys.Nodup ∧ upper.keys.Nodup ∧
    (Payload.onTop upper lower).keys =
      ["rotation", "tint", "position", "blur", "scale", "glow"] ∧
    ((t.merge (Payload.onTop upper lower) factor).toOption.map fun r =>
      (r.position.x, r.position.y, r.rotation, r.filters.keys)) =
        some (5, 4, 3, ["blur", "tint", "glow"]) ∧
    ∃ s r, t.merge lower factor = .ok s ∧ s.merge upper factor = .ok r ∧
      t.merge (Payload.onTop upper lower) factor = .ok r ∧ s.merge lower factor = .ok s := by
  intro t factor lower upper
  have hl : lower.keys.Nodup := by decide
  have hu : upper.keys.Nodup := by decide
  exact ⟨hl, hu, by decide, by decide +kernel,
    merge_onTop t factor hl hu ⟨_, rfl⟩ ⟨_, rfl⟩⟩

end SceneScript
