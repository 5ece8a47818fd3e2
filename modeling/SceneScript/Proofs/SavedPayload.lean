import SceneScript.Proofs.Json.Agreement
import SceneScript.Proofs.Json.Renderable
import SceneScript.Proofs.Rounding

/-!
# What is saved of a transform

A transform can be saved and read again if its filters could be the members of a payload
(`Transform.Savable`): their names are different and none of them structural, and their numbers are
in range. **What is saved of it is then read as an update** (`exists_update`). Rounding touches no
string, so what holds of the strings of the filters holds of the strings of what is saved: a line
break stands in the text exactly when one stands in a filter (`unbroken_iff`).
-/

set_option autoImplicit false

namespace SceneScript

open Json (Agree Every EveryMember)

variable {α : Type}

theorem Numbers.everyMember_members {leaf : Json α → Prop} {names : List String → Prop}
    (hn : names ["x", "y"]) (n : Numbers (Json α)) :
    EveryMember leaf names n.members ↔ n.All fun v => v.Every leaf names := by
  unfold members
  simp only [Json.everyMember_cons, Json.everyMember_nil, and_true]
  constructor
  · rintro ⟨⟨-, hx, hy, -⟩, ⟨-, hsx, hsy, -⟩, hr⟩
    exact ⟨hx, hy, hsx, hsy, hr⟩
  · rintro ⟨hx, hy, hsx, hsy, hr⟩
    exact ⟨⟨hn, hx, hy, trivial⟩, ⟨hn, hsx, hsy, trivial⟩, hr⟩

theorem nodup_keys_members {filters : Fields (Json α)} (hn : filters.keys.Nodup)
    (hf : AreFree filters.keys) (n : Numbers (Json α)) :
    (Fields.keys (n.members ++ filters)).Nodup := by
  rw [Fields.keys_append]
  refine List.nodup_append.mpr ⟨?_, hn, fun a ha b hb hab => hf b hb (hab ▸ ha)⟩
  show Transform.structuralNames.Nodup
  decide

/-- The names that a payload adds to those of its filters. -/
def payloadNames : List String := ["x", "y"] ++ Transform.structuralNames

theorem everyString_append {P : String → Prop} (hp : ∀ name ∈ payloadNames, P name)
    {n : Numbers (Json α)} (hn : n.All (Json.EveryString P)) (filters : Fields (Json α)) :
    Json.EveryString P (.obj (n.members ++ filters)) ↔ Json.EveryString P (.obj filters) := by
  obtain ⟨haxes, hnames⟩ := List.forall_mem_append.mp hp
  have hmembers : EveryMember (Json.LeafString P) (fun names => ∀ name ∈ names, P name) n.members :=
    (Numbers.everyMember_members haxes n).mpr hn
  show (∀ name ∈ Fields.keys _, P name) ∧ EveryMember _ _ _ ↔ _
  rw [Json.everyMember_append, and_iff_right hmembers, Fields.keys_append, List.forall_mem_append]
  exact and_congr (and_iff_right hnames) Iff.rfl

variable [WrittenScalar α]

namespace Transform

/-- The filters could be the members of a payload. -/
structure Savable (t : Transform α) : Prop where
  nodup : t.filters.keys.Nodup
  free : AreFree t.filters.keys
  inRange : EveryMember Json.NumberInRange List.Nodup t.filters

end Transform

theorem Json.inRange_of_number? {v : Json α} {x : α} (h : v.number? = some x) :
    v.InRange ∧ ∀ P, Json.EveryString P v := by
  unfold Json.number? at h
  split at h
  · exact ⟨Option.isSome_of_mem h, fun _ => trivial⟩
  · exact ⟨trivial, fun _ => trivial⟩
  · cases h

/-- What a real is rounded to is a number, if it has a text. -/
theorem Rounding.number?_of_renderable [Scalar.Lawful α] {x : α} {v : Json α}
    (h : RoundsTo v x) (hv : v.Renderable) : ∃ y, v.number? = some y := by
  rcases roundReal_cases (h "x" (by decide)) with ⟨n, y, rfl, hy, -⟩ | ⟨y, rfl, -⟩
  · exact ⟨y, hy⟩
  · exact ⟨y, if_pos hv⟩

namespace Transform

open Rounding (savedPayload)

/-- **What is saved is read as an update**, and what strings it has is up to the filters. -/
theorem Savable.exists_update [Scalar.Readable α] {t : Transform α} (ht : t.Savable)
    {ratio : Vec2 α} {payload : Fields (Json α)} (hp : savedPayload ratio t = .ok payload)
    {json : List Char} (hj : Json.render (.obj payload) = .ok json) :
    (Json.obj payload).InRange ∧ (∃ u, Update.ofPayload payload = .ok u) ∧
      ∀ P : String → Prop, (∀ name ∈ payloadNames, P name) →
        (Json.EveryString P (.obj payload) ↔ Json.EveryString P (.obj t.filters)) := by
  rw [Rounding.savedPayload_eq ht.nodup ht.free] at hp
  obtain ⟨n, fs, hn, hfs, rfl⟩ := Rounding.roundFields_members_iff.mp hp
  have hkeys := Rounding.keys_roundFields hfs
  have hrender := ((Json.exists_render_iff _).mp ⟨json, hj⟩).2
  rw [Json.everyMember_append, Numbers.everyMember_members trivial] at hrender
  have hnumbers : n.All fun v => ∃ y, v.number? = some y :=
    hrender.1.of_rel hn fun v x h hv => Rounding.number?_of_renderable h hv
  have hsound : n.All fun v => v.InRange ∧ ∀ P, Json.EveryString P v :=
    hnumbers.imp fun v ⟨y, hy⟩ => Json.inRange_of_number? hy
  obtain ⟨m, hm⟩ := hnumbers.exists_rel
  refine ⟨⟨?_, ?_⟩, ⟨_, Update.ofPayload_members hm (hkeys ▸ ht.free)⟩, fun P hP => ?_⟩
  · exact nodup_keys_members (hkeys ▸ ht.nodup) (hkeys ▸ ht.free) n
  · rw [Json.everyMember_append, Numbers.everyMember_members (by decide)]
    exact ⟨hsound.imp fun v h => h.1,
      (Rounding.every_roundFields Rounding.keepsReals_inRange _ hfs).mpr ht.inRange⟩
  · rw [← Rounding.everyString_roundFields P hfs]
    exact everyString_append hP (hsound.imp fun v h => h.2 P) fs

/-- Whether what is saved breaks a line is up to the filters. -/
theorem Savable.unbroken_iff [Scalar.Readable α] {t : Transform α} (ht : t.Savable)
    {ratio : Vec2 α} {payload : Fields (Json α)} (hp : savedPayload ratio t = .ok payload)
    {json : List Char} (hj : Json.render (.obj payload) = .ok json) :
    Text.Unbroken json ↔ Json.MembersUnbroken t.filters :=
  (Json.unbroken_render _ hj).trans
    ((ht.exists_update hp hj).2.2 Json.StringUnbroken (by decide))

/-! ## Transforms that are saved as they are -/

/-- Every number is finite, and the whole ones are in range. -/
def NumberValid : Json α → Prop
  | .int n => (Scalar.ofInt? n : Option α).isSome = true
  | .real x => Scalar.isFinite x = true
  | _ => True

instance : DecidablePred (NumberValid (α := α))
  | .int n => inferInstanceAs (Decidable ((Scalar.ofInt? n : Option α).isSome = true))
  | .real x => inferInstanceAs (Decidable (Scalar.isFinite x = true))
  | .null | .bool _ | .str _ | .arr _ | .obj _ => isTrue trivial

/-- Rounding changes no number of the transform. -/
def isRounded (t : Transform α) : Bool :=
  match Rounding.roundFields t.payload with
  | .ok payload => Json.agreeMembers payload t.payload
  | .error _ => false

/-- The transform is saved as it is: it is made of valid numbers that are rounded, and its filters
    are under names of their own and break no line. -/
structure Exportable (t : Transform α) : Prop where
  finite : t.numbers.All fun x => Scalar.isFinite x = true
  nodup : t.filters.keys.Nodup
  free : AreFree t.filters.keys
  valid : EveryMember NumberValid List.Nodup t.filters
  unbroken : Json.MembersUnbroken t.filters
  rounded : t.isRounded = true

instance (t : Transform α) : Decidable t.Exportable :=
  decidable_of_iff ((t.numbers.All fun x => Scalar.isFinite x = true) ∧ t.filters.keys.Nodup ∧
      AreFree t.filters.keys ∧ EveryMember NumberValid List.Nodup t.filters ∧
      Json.MembersUnbroken t.filters ∧ t.isRounded = true)
    ⟨fun ⟨h1, h2, h3, h4, h5, h6⟩ => ⟨h1, h2, h3, h4, h5, h6⟩,
      fun h => ⟨h.finite, h.nodup, h.free, h.valid, h.unbroken, h.rounded⟩⟩

theorem Exportable.savable {t : Transform α} (ht : t.Exportable) : t.Savable where
  nodup := ht.nodup
  free := ht.free
  inRange := Json.EveryMember.imp (fun v h => by
    cases v with
    | int n => exact h
    | null | bool | real | str | arr | obj => trivial) (fun _ h => h) _ ht.valid

theorem Exportable.exists_rounded {t : Transform α} (ht : t.Exportable) :
    ∃ payload, Rounding.roundFields t.payload = .ok payload ∧
      Fields.Rel Agree payload t.payload := by
  have h := ht.rounded
  unfold isRounded at h
  split at h
  · next payload hp => exact ⟨payload, hp, (Json.agreeMembers_iff _ _).mp h⟩
  · cases h

variable [Scalar.Readable α]

/-- What a real is rounded to has a text exactly if the real is finite. -/
theorem keepsReals_writable :
    Rounding.KeepsReals (α := α) Json.NumberWritable fun _ => True := by
  intro name x v h
  rcases Rounding.roundReal_cases h with ⟨n, y, rfl, hy, hx⟩ | ⟨y, rfl, hy⟩
  · exact iff_of_true (Scalar.Readable.length_toDigits hy) hx
  · exact iff_of_eq (congrArg (· = true) hy)

/-- **What is saved of such a transform says the same**: five numbers that are the same, and filters
    that agree. -/
theorem Exportable.exists_saved {t : Transform α} (ht : t.Exportable) :
    ∃ (payload : Fields (Json α)) (json : List Char) (m : Numbers α) (fs : Fields (Json α)),
      savedPayload Vec2.one t = .ok payload ∧ Json.render (.obj payload) = .ok json ∧
        (Json.obj payload).InRange ∧ Text.Unbroken json ∧
        Update.ofPayload payload = .ok (m.update fs) ∧
        Numbers.Rel Scalar.Same m t.numbers ∧ Fields.Rel Agree fs t.filters := by
  obtain ⟨payload, hp, hagree⟩ := ht.exists_rounded
  have hsaved : savedPayload Vec2.one t = .ok payload := by
    rw [Rounding.savedPayload_eq ht.nodup ht.free, placed_one, ← payload_eq ht.nodup ht.free]
    exact hp
  rw [payload_eq ht.nodup ht.free] at hp hagree
  obtain ⟨n, fs, hn, hfs, rfl⟩ := Rounding.roundFields_members_iff.mp hp
  obtain ⟨hnumbers, hfilters⟩ := Numbers.agree_of_members hagree
  have hwritable : n.All Json.Renderable :=
    ht.finite.of_rel_right hn fun v x hv hx =>
      (keepsReals_writable "x" x v (hv "x" (by decide))).mpr hx
  have hrender : (Json.obj (n.members ++ fs)).Renderable := by
    refine ⟨trivial, (Json.everyMember_append _ _).mpr ⟨?_, ?_⟩⟩
    · exact (Numbers.everyMember_members trivial n).mpr hwritable
    · refine (Rounding.every_roundFields keepsReals_writable _ hfs).mpr ?_
      exact Json.EveryMember.imp (fun v h => by
        cases v with
        | int n =>
          obtain ⟨y, hy⟩ := Option.isSome_iff_exists.mp h
          exact Scalar.Readable.length_toDigits hy
        | real x => exact h
        | null | bool | str | arr | obj => trivial) (fun _ _ => trivial) _ ht.valid
  obtain ⟨json, hj⟩ := (Json.exists_render_iff _).mpr hrender
  obtain ⟨hv, -, -⟩ := ht.savable.exists_update hsaved hj
  obtain ⟨m, hm⟩ := Numbers.All.exists_rel (hwritable.of_rel hn fun v x h hv =>
    Rounding.number?_of_renderable h hv)
  refine ⟨_, json, m, fs, hsaved, hj, hv, (ht.savable.unbroken_iff hsaved hj).mpr ht.unbroken, ?_, ?_, hfilters⟩
  · exact Update.ofPayload_members hm (hfilters.keys_eq ▸ ht.free)
  · exact ⟨hnumbers.x.same hm.x, hnumbers.y.same hm.y, hnumbers.scaleX.same hm.scaleX,
      hnumbers.scaleY.same hm.scaleY, hnumbers.rotation.same hm.rotation⟩

end Transform

end SceneScript
