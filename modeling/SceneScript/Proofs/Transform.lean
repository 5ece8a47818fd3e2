import SceneScript.Proofs.Fields
import SceneScript.Proofs.Outcome
import SceneScript.Proofs.Scalar.Lawful
import SceneScript.Transform

/-!
# Resolved transforms

A transform can hold more than a script ever puts into one: a caller may name a filter `scale`, or
leave a coordinate infinite. A transform that comes from a script is **resolved**: its five numbers
are finite and its filters are under different names, none of them structural. The initial
transform is resolved, and updates keep it so (`Resolved.apply`), as long as the factors make no
finite number infinite.

What is gained is that a resolved transform **is its payload**: reading the payload gives every
number back and the filters as they stand (`ofPayload_payload`).
-/

set_option autoImplicit false

namespace SceneScript

open Outcome (bind_eq_ok)

variable {α : Type}

/-! ## Structural members and filters -/

/-- The five numbers of a transform, or five things that stand for them. -/
structure Numbers (β : Type) where
  x : β
  y : β
  scaleX : β
  scaleY : β
  rotation : β

namespace Numbers

variable {β γ δ : Type}

/-- The numbers are related one by one. -/
structure Rel (R : β → γ → Prop) (n : Numbers β) (m : Numbers γ) : Prop where
  x : R n.x m.x
  y : R n.y m.y
  scaleX : R n.scaleX m.scaleX
  scaleY : R n.scaleY m.scaleY
  rotation : R n.rotation m.rotation

/-- All five have a property. -/
structure All (p : β → Prop) (n : Numbers β) : Prop where
  x : p n.x
  y : p n.y
  scaleX : p n.scaleX
  scaleY : p n.scaleY
  rotation : p n.rotation

instance {p : β → Prop} [DecidablePred p] (n : Numbers β) : Decidable (n.All p) :=
  decidable_of_iff (p n.x ∧ p n.y ∧ p n.scaleX ∧ p n.scaleY ∧ p n.rotation)
    ⟨fun ⟨h1, h2, h3, h4, h5⟩ => ⟨h1, h2, h3, h4, h5⟩,
      fun h => ⟨h.x, h.y, h.scaleX, h.scaleY, h.rotation⟩⟩

theorem All.of_rel {R : β → γ → Prop} {p q : β → Prop} {n : Numbers β} {m : Numbers γ}
    (hp : All p n) (h : Rel R n m) (hi : ∀ b c, R b c → p b → q b) : All q n :=
  ⟨hi _ _ h.x hp.x, hi _ _ h.y hp.y, hi _ _ h.scaleX hp.scaleX, hi _ _ h.scaleY hp.scaleY,
    hi _ _ h.rotation hp.rotation⟩

theorem All.of_rel_right {R : β → γ → Prop} {p : γ → Prop} {q : β → Prop} {n : Numbers β}
    {m : Numbers γ} (hp : All p m) (h : Rel R n m) (hi : ∀ b c, R b c → p c → q b) : All q n :=
  ⟨hi _ _ h.x hp.x, hi _ _ h.y hp.y, hi _ _ h.scaleX hp.scaleX, hi _ _ h.scaleY hp.scaleY,
    hi _ _ h.rotation hp.rotation⟩

theorem All.imp {p q : β → Prop} {n : Numbers β} (h : All p n) (hi : ∀ b, p b → q b) : All q n :=
  ⟨hi _ h.x, hi _ h.y, hi _ h.scaleX, hi _ h.scaleY, hi _ h.rotation⟩

theorem All.exists_rel {R : β → γ → Prop} {n : Numbers β} (h : All (fun b => ∃ c, R b c) n) :
    ∃ m, Rel R n m := by
  obtain ⟨⟨x, hx⟩, ⟨y, hy⟩, ⟨sx, hsx⟩, ⟨sy, hsy⟩, ⟨r, hr⟩⟩ := h
  exact ⟨⟨x, y, sx, sy, r⟩, hx, hy, hsx, hsy, hr⟩

/-- The three structural members with these for their numbers. -/
def members (n : Numbers (Json α)) : Fields (Json α) :=
  [("position", .obj [("x", n.x), ("y", n.y)]), ("scale", .obj [("x", n.scaleX), ("y", n.scaleY)]),
   ("rotation", n.rotation)]

/-- The transform with these numbers. -/
def transform (n : Numbers α) (filters : Fields (Json α)) : Transform α :=
  ⟨⟨n.x, n.y⟩, ⟨n.scaleX, n.scaleY⟩, n.rotation, filters⟩

/-- The update that gives all five. -/
def update (n : Numbers α) (filters : Fields (Json α)) : Update α :=
  ⟨some n.x, some n.y, some n.scaleX, some n.scaleY, some n.rotation, filters⟩

end Numbers

/-- None of the names is a structural one. -/
def AreFree (names : List String) : Prop := ∀ name ∈ names, name ∉ Transform.structuralNames

instance (names : List String) : Decidable (AreFree names) :=
  inferInstanceAs (Decidable (∀ name ∈ names, name ∉ Transform.structuralNames))

namespace Transform

def numbers (t : Transform α) : Numbers α :=
  ⟨t.position.x, t.position.y, t.scale.x, t.scale.y, t.rotation⟩

/-- The numbers as they stand in a payload. -/
def written (t : Transform α) : Numbers (Json α) :=
  ⟨.real t.position.x, .real t.position.y, .real t.scale.x, .real t.scale.y, .real t.rotation⟩

theorem payload_eq {t : Transform α} (hn : t.filters.keys.Nodup) (hf : AreFree t.filters.keys) :
    t.payload = t.written.members ++ t.filters :=
  Fields.update_of_disjoint hf hn

end Transform

/-- The members of a payload that are no structural ones are the filters. -/
theorem filter_members_append (n : Numbers (Json α)) {filters : Fields (Json α)}
    (hf : AreFree filters.keys) :
    (n.members ++ filters).filter (fun f => !Transform.structuralNames.contains f.1) =
      filters := by
  have hfree : filters.filter (fun f => !Transform.structuralNames.contains f.1) = filters := by
    refine List.filter_eq_self.mpr fun f hm => ?_
    have := hf f.1 (Fields.mem_keys_of_mem hm)
    simpa using this
  rw [List.filter_append, hfree]
  rfl

/-! ## Sound updates -/

/-- The finite number that a value is. -/
def Json.number? [Scalar α] : Json α → Option α
  | .int n => Scalar.ofInt? n
  | .real x => if Scalar.isFinite x then some x else none
  | _ => none

namespace Update

theorem areFree_filter (payload : Fields (Json α)) :
    AreFree (Fields.keys (payload.filter fun f => !Transform.structuralNames.contains f.1)) := by
  intro name h
  obtain ⟨f, hf, rfl⟩ := List.mem_map.mp h
  have hc := (List.mem_filter.mp hf).2
  intro hm
  rw [List.contains_iff_mem.mpr hm] at hc
  cases hc

variable [Scalar α]

/-- What is left after all checks: every given number is finite, and no filter has a structural
    name. -/
structure Sound (u : Update α) : Prop where
  x : ∀ v, u.x = some v → Scalar.isFinite v = true
  y : ∀ v, u.y = some v → Scalar.isFinite v = true
  scaleX : ∀ v, u.scaleX = some v → Scalar.isFinite v = true
  scaleY : ∀ v, u.scaleY = some v → Scalar.isFinite v = true
  rotation : ∀ v, u.rotation = some v → Scalar.isFinite v = true
  free : AreFree u.filters.keys

theorem isFinite_of_number [Scalar.Lawful α] {fields : Fields (Json α)} {name field : String}
    {found : Option α} (h : number fields name field = .ok found) :
    ∀ v, found = some v → Scalar.isFinite v = true := by
  rintro v rfl
  unfold number at h
  split at h
  · cases h
  · split at h
    · next hn =>
      cases h
      exact Scalar.Lawful.isFinite_of_ofInt? hn
    · cases h
  · split at h
    · next hf =>
      cases h
      exact hf
    · cases h
  · cases h

/-- What it is that reading a payload finds in it. -/
structure Reads (payload : Fields (Json α)) (u : Update α) : Prop where
  position : ∃ axes, members payload "position" = .ok axes ∧
    number axes "x" "position.x" = .ok u.x ∧ number axes "y" "position.y" = .ok u.y
  scale : ∃ axes, members payload "scale" = .ok axes ∧
    number axes "x" "scale.x" = .ok u.scaleX ∧ number axes "y" "scale.y" = .ok u.scaleY
  rotation : number payload "rotation" "rotation" = .ok u.rotation
  filters : u.filters = payload.filter fun f => !Transform.structuralNames.contains f.1

theorem ofPayload_eq_ok_iff {payload : Fields (Json α)} {u : Update α} :
    ofPayload payload = .ok u ↔ Reads payload u := by
  unfold ofPayload
  simp only [bind_eq_ok]
  constructor
  · rintro ⟨position, hp, scale, hs, x, hx, y, hy, scaleX, hsx, scaleY, hsy, rotation, hr, h⟩
    cases h
    exact ⟨⟨position, hp, hx, hy⟩, ⟨scale, hs, hsx, hsy⟩, hr, rfl⟩
  · rintro ⟨⟨position, hp, hx, hy⟩, ⟨scale, hs, hsx, hsy⟩, hr, hf⟩
    refine ⟨position, hp, scale, hs, u.x, hx, u.y, hy, u.scaleX, hsx, u.scaleY, hsy, u.rotation,
      hr, ?_⟩
    rw [← hf]
    rfl

/-- **Reading a payload checks it.** -/
theorem sound_of_ofPayload [Scalar.Lawful α] {payload : Fields (Json α)} {u : Update α}
    (h : ofPayload payload = .ok u) : u.Sound := by
  obtain ⟨⟨position, -, hx, hy⟩, ⟨scale, -, hsx, hsy⟩, hr, hf⟩ := ofPayload_eq_ok_iff.mp h
  refine ⟨isFinite_of_number hx, isFinite_of_number hy, isFinite_of_number hsx,
    isFinite_of_number hsy, isFinite_of_number hr, ?_⟩
  rw [hf]
  exact areFree_filter payload

theorem number_eq {fields : Fields (Json α)} {name field : String} {v : Json α} {x : α}
    (hg : fields.get? name = some v) (hv : v.number? = some x) :
    number fields name field = .ok (some x) := by
  unfold number Json.given?
  rw [hg]
  unfold Json.number? at hv
  split at hv
  · next n =>
    dsimp only
    rw [hv]
  · next y =>
    split at hv
    · next hf =>
      rw [← Option.some.inj hv]
      exact if_pos hf
    · cases hv
  · cases hv

/-- **A payload that gives all five numbers is read as the update that does.** -/
theorem ofPayload_members {n : Numbers (Json α)} {m : Numbers α}
    (h : Numbers.Rel (fun v x => v.number? = some x) n m) {filters : Fields (Json α)}
    (hf : AreFree filters.keys) :
    ofPayload (n.members ++ filters) = .ok (m.update filters) := by
  have hp : members (n.members ++ filters) "position" = .ok [("x", n.x), ("y", n.y)] := rfl
  have hs : members (n.members ++ filters) "scale" = .ok [("x", n.scaleX), ("y", n.scaleY)] := rfl
  unfold ofPayload
  rw [hp, hs]
  show (do
    let x ← number [("x", n.x), ("y", n.y)] "x" "position.x"
    let y ← number [("x", n.x), ("y", n.y)] "y" "position.y"
    let scaleX ← number [("x", n.scaleX), ("y", n.scaleY)] "x" "scale.x"
    let scaleY ← number [("x", n.scaleX), ("y", n.scaleY)] "y" "scale.y"
    let rotation ← number (n.members ++ filters) "rotation" "rotation"
    return (⟨x, y, scaleX, scaleY, rotation,
      (n.members ++ filters).filter fun f => !Transform.structuralNames.contains f.1⟩ :
        Update α)) = _
  rw [number_eq (x := m.x) rfl h.x, number_eq (x := m.y) rfl h.y,
    number_eq (x := m.scaleX) rfl h.scaleX, number_eq (x := m.scaleY) rfl h.scaleY,
    number_eq (x := m.rotation) rfl h.rotation, filter_members_append n hf]
  rfl

/-- An update of all five numbers leaves nothing of the prior ones. -/
theorem apply_numbers [Scalar.Lawful α] (n : Numbers α) (filters : Fields (Json α))
    (prior : Transform α) :
    (n.update filters).apply Vec2.one prior = n.transform (prior.filters.update filters) := by
  unfold apply coordinate Vec2.one Numbers.update
  dsimp only [Option.getD_some]
  rw [Scalar.Lawful.mul_one, Scalar.Lawful.mul_one]
  rfl

theorem isFinite_coordinate {given : Option α} {factor prior : α}
    (hg : ∀ v, given = some v → Scalar.isFinite v = true) (hf : Scalar.Keeps factor)
    (hp : Scalar.isFinite prior = true) :
    Scalar.isFinite (coordinate given factor prior) = true := by
  cases given with
  | none => exact hp
  | some v => exact hf v (hg v rfl)

theorem isFinite_getD {given : Option α} {prior : α}
    (hg : ∀ v, given = some v → Scalar.isFinite v = true)
    (hp : Scalar.isFinite prior = true) : Scalar.isFinite (given.getD prior) = true := by
  cases given with
  | none => exact hp
  | some v => exact hg v rfl

end Update

/-! ## Resolved transforms -/

namespace Transform

variable [Scalar α]

/-- The numbers are finite, and the filters are under different names that are free for them. -/
structure Resolved (t : Transform α) : Prop where
  x : Scalar.isFinite t.position.x = true
  y : Scalar.isFinite t.position.y = true
  scaleX : Scalar.isFinite t.scale.x = true
  scaleY : Scalar.isFinite t.scale.y = true
  rotation : Scalar.isFinite t.rotation = true
  nodup : t.filters.keys.Nodup
  free : AreFree t.filters.keys

instance (t : Transform α) : Decidable t.Resolved :=
  decidable_of_iff (t.numbers.All (fun x => Scalar.isFinite x = true) ∧
      t.filters.keys.Nodup ∧ AreFree t.filters.keys)
    ⟨fun ⟨⟨h1, h2, h3, h4, h5⟩, hn, hf⟩ => ⟨h1, h2, h3, h4, h5, hn, hf⟩,
      fun h => ⟨⟨h.x, h.y, h.scaleX, h.scaleY, h.rotation⟩, h.nodup, h.free⟩⟩

theorem resolved_initial [Scalar.Lawful α] : (initial : Transform α).Resolved where
  x := Scalar.Lawful.isFinite_zero
  y := Scalar.Lawful.isFinite_zero
  scaleX := Scalar.Lawful.isFinite_one
  scaleY := Scalar.Lawful.isFinite_one
  rotation := Scalar.Lawful.isFinite_zero
  nodup := List.nodup_nil
  free _ h := nomatch h

/-- **An update keeps a transform resolved.** -/
theorem Resolved.apply {t : Transform α} (h : t.Resolved) {u : Update α} (hu : u.Sound)
    {factor : Vec2 α} (hx : Scalar.Keeps factor.x) (hy : Scalar.Keeps factor.y) :
    (u.apply factor t).Resolved where
  x := Update.isFinite_coordinate hu.x hx h.x
  y := Update.isFinite_coordinate hu.y hy h.y
  scaleX := Update.isFinite_getD hu.scaleX h.scaleX
  scaleY := Update.isFinite_getD hu.scaleY h.scaleY
  rotation := Update.isFinite_getD hu.rotation h.rotation
  nodup := Fields.nodup_keys_update h.nodup _
  free name hm := ((Fields.mem_keys_update _ _ name).mp hm).elim (h.free name) (hu.free name)

/-- An update adds filters behind those that are there. -/
theorem keys_prefix_apply (u : Update α) (factor : Vec2 α) (t : Transform α) :
    t.filters.keys <+: (u.apply factor t).filters.keys :=
  Fields.keys_prefix_update _ _

/-! ## The payload of a resolved transform -/

/-- **A resolved transform is its payload.** -/
theorem Resolved.ofPayload_payload {t : Transform α} (h : t.Resolved) :
    Update.ofPayload t.payload = .ok (t.numbers.update t.filters) := by
  have hrel : Numbers.Rel (fun (v : Json α) x => v.number? = some x) t.written t.numbers :=
    ⟨if_pos h.x, if_pos h.y, if_pos h.scaleX, if_pos h.scaleY, if_pos h.rotation⟩
  rw [payload_eq h.nodup h.free]
  exact Update.ofPayload_members hrel h.free

/-- The transform on top of an earlier state of its target, of which it keeps the filters that it
    does not name. -/
def onTop (t prior : Transform α) : Transform α :=
  { t with filters := prior.filters.update t.filters }

/-- **Merging a resolved transform puts it on top of the earlier state.** -/
theorem Resolved.merge_payload [Scalar.Lawful α] {t : Transform α} (h : t.Resolved)
    (prior : Transform α) : prior.merge t.payload Vec2.one = .ok (t.onTop prior) := by
  unfold merge
  rw [h.ofPayload_payload]
  show Except.ok (Update.apply _ _ _) = _
  rw [Update.apply_numbers]
  rfl

omit [Scalar α] in
/-- On top of an earlier state of itself a transform stays as it is, filters in the same order. -/
theorem onTop_of_prefix {t prior : Transform α} (hp : prior.filters.keys <+: t.filters.keys)
    (hn : t.filters.keys.Nodup) : t.onTop prior = t := by
  unfold onTop
  rw [Fields.update_of_prefix hp hn]

/-- The transform with its position converted. -/
def placed (t : Transform α) (ratio : Vec2 α) : Transform α :=
  { t with position := ⟨t.position.x * ratio.x, t.position.y * ratio.y⟩ }

theorem placed_one [Scalar.Lawful α] (t : Transform α) : t.placed Vec2.one = t := by
  unfold placed Vec2.one
  rw [Scalar.Lawful.mul_one, Scalar.Lawful.mul_one]

end Transform
end SceneScript
