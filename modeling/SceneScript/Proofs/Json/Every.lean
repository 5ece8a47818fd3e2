import SceneScript.Json.Basic
import SceneScript.Proofs.Fields

/-!
# What holds everywhere inside a value

Several properties of a JSON value are properties of its parts: that every whole number in it is in
range, that no string in it breaks a line. `Every leaf names` says that `leaf` holds of every part
that holds no other, and `names` of the names of every object. The lemmas say what is needed where
such a property is used: it passes to the members of an object, and setting members keeps it.
-/

set_option autoImplicit false

namespace SceneScript
namespace Json

variable {α : Type}

mutual

/-- A property of the leaves and of the names holds everywhere inside the value. -/
def Every (leaf : Json α → Prop) (names : List String → Prop) : Json α → Prop
  | .arr items => EveryItem leaf names items
  | .obj members => names (Fields.keys members) ∧ EveryMember leaf names members
  | .null => leaf .null
  | .bool b => leaf (.bool b)
  | .int n => leaf (.int n)
  | .real x => leaf (.real x)
  | .str s => leaf (.str s)

def EveryItem (leaf : Json α → Prop) (names : List String → Prop) : List (Json α) → Prop
  | [] => True
  | v :: rest => Every leaf names v ∧ EveryItem leaf names rest

def EveryMember (leaf : Json α → Prop) (names : List String → Prop) :
    List (String × Json α) → Prop
  | [] => True
  | (_, v) :: rest => Every leaf names v ∧ EveryMember leaf names rest

end

variable {leaf : Json α → Prop} {names : List String → Prop}

@[simp] theorem everyMember_nil : EveryMember leaf names ([] : List (String × Json α)) :=
  trivial

@[simp] theorem everyMember_cons (m : String × Json α) (ms : List (String × Json α)) :
    EveryMember leaf names (m :: ms) ↔ m.2.Every leaf names ∧ EveryMember leaf names ms := by
  obtain ⟨name, v⟩ := m
  exact Iff.rfl

@[simp] theorem everyItem_cons (v : Json α) (vs : List (Json α)) :
    EveryItem leaf names (v :: vs) ↔ v.Every leaf names ∧ EveryItem leaf names vs := Iff.rfl

theorem everyMember_iff (ms : List (String × Json α)) :
    EveryMember leaf names ms ↔ ∀ m ∈ ms, m.2.Every leaf names := by
  induction ms with
  | nil => simp
  | cons m ms ih => rw [everyMember_cons, ih, List.forall_mem_cons]

theorem everyMember_append (ms ms' : List (String × Json α)) :
    EveryMember leaf names (ms ++ ms') ↔
      EveryMember leaf names ms ∧ EveryMember leaf names ms' := by
  rw [everyMember_iff, everyMember_iff, everyMember_iff, List.forall_mem_append]

/-! ## Deciding -/

section Decidable

variable [DecidablePred leaf] [DecidablePred names]

mutual

def Every.decidable (v : Json α) : Decidable (v.Every leaf names) :=
  match v with
  | .arr items => EveryItem.decidable items
  | .obj members => @instDecidableAnd _ _ _ (EveryMember.decidable members)
  | .null => inferInstanceAs (Decidable (leaf .null))
  | .bool b => inferInstanceAs (Decidable (leaf (.bool b)))
  | .int n => inferInstanceAs (Decidable (leaf (.int n)))
  | .real x => inferInstanceAs (Decidable (leaf (.real x)))
  | .str s => inferInstanceAs (Decidable (leaf (.str s)))

def EveryItem.decidable (vs : List (Json α)) : Decidable (EveryItem leaf names vs) :=
  match vs with
  | [] => isTrue trivial
  | v :: vs => @instDecidableAnd _ _ (Every.decidable v) (EveryItem.decidable vs)

def EveryMember.decidable (ms : List (String × Json α)) : Decidable (EveryMember leaf names ms) :=
  match ms with
  | [] => isTrue trivial
  | (_, v) :: ms => @instDecidableAnd _ _ (Every.decidable v) (EveryMember.decidable ms)

end

instance (v : Json α) : Decidable (v.Every leaf names) := Every.decidable v

instance (ms : List (String × Json α)) : Decidable (EveryMember leaf names ms) :=
  EveryMember.decidable ms

end Decidable

/-! ## Weaker properties -/

section Imp

variable {leaf' : Json α → Prop} {names' : List String → Prop}

mutual

theorem Every.imp (hl : ∀ v, leaf v → leaf' v) (hn : ∀ ns, names ns → names' ns) (v : Json α)
    (h : v.Every leaf names) : v.Every leaf' names' := by
  cases v with
  | arr items => exact EveryItem.imp hl hn items h
  | obj members => exact ⟨hn _ h.1, EveryMember.imp hl hn members h.2⟩
  | null => exact hl _ h
  | bool b => exact hl _ h
  | int n => exact hl _ h
  | real x => exact hl _ h
  | str s => exact hl _ h

theorem EveryItem.imp (hl : ∀ v, leaf v → leaf' v) (hn : ∀ ns, names ns → names' ns)
    (vs : List (Json α)) (h : EveryItem leaf names vs) : EveryItem leaf' names' vs := by
  cases vs with
  | nil => trivial
  | cons v vs => exact ⟨Every.imp hl hn v h.1, EveryItem.imp hl hn vs h.2⟩

theorem EveryMember.imp (hl : ∀ v, leaf v → leaf' v) (hn : ∀ ns, names ns → names' ns)
    (ms : List (String × Json α)) (h : EveryMember leaf names ms) :
    EveryMember leaf' names' ms := by
  match ms, h with
  | [], _ => trivial
  | (name, v) :: ms, h => exact ⟨Every.imp hl hn v h.1, EveryMember.imp hl hn ms h.2⟩

end

end Imp

/-! ## Strings -/

section Strings

variable {P : String → Prop}

/-- A property of strings, said of a part that may be one. -/
def LeafString (P : String → Prop) : Json α → Prop
  | .str s => P s
  | _ => True

/-- Every string in the value has the property, and every name. -/
def EveryString (P : String → Prop) (v : Json α) : Prop :=
  v.Every (LeafString P) fun names => ∀ name ∈ names, P name

instance [DecidablePred P] : DecidablePred (LeafString (α := α) P)
  | .str s => inferInstanceAs (Decidable (P s))
  | .null | .bool _ | .int _ | .real _ | .arr _ | .obj _ => isTrue trivial

instance [DecidablePred P] (v : Json α) : Decidable (EveryString P v) :=
  inferInstanceAs (Decidable (v.Every (LeafString P) fun names => ∀ name ∈ names, P name))

theorem everyString_obj_nil : EveryString P (.obj ([] : Fields (Json α))) :=
  ⟨fun _ h => (nomatch h), trivial⟩

theorem everyString_obj_cons (m : String × Json α) (ms : Fields (Json α)) :
    EveryString P (.obj (m :: ms)) ↔
      P m.1 ∧ EveryString P m.2 ∧ EveryString P (.obj ms) := by
  unfold EveryString
  simp only [Every, everyMember_cons, Fields.keys_cons, List.forall_mem_cons]
  tauto

end Strings

/-! ## Setting members -/

theorem everyMember_set {fs : Fields (Json α)} (h : EveryMember leaf names fs) (name : String)
    {v : Json α} (hv : v.Every leaf names) : EveryMember leaf names (fs.set name v) := by
  induction fs with
  | nil => exact ⟨hv, trivial⟩
  | cons f fs ih =>
    obtain ⟨k, w⟩ := f
    obtain ⟨hw, hfs⟩ := (everyMember_cons _ _).mp h
    rw [Fields.set]
    split
    · exact ⟨hv, hfs⟩
    · exact ⟨hw, ih hfs⟩

theorem everyMember_update {fs gs : Fields (Json α)} (h : EveryMember leaf names fs)
    (hg : EveryMember leaf names gs) : EveryMember leaf names (fs.update gs) := by
  induction gs generalizing fs with
  | nil => exact h
  | cons g gs ih =>
    obtain ⟨hv, hgs⟩ := (everyMember_cons _ _).mp hg
    exact ih (everyMember_set h g.1 hv) hgs

theorem everyMember_filter {fs : Fields (Json α)} (h : EveryMember leaf names fs)
    (p : String × Json α → Bool) : EveryMember leaf names (fs.filter p) := by
  rw [everyMember_iff] at h ⊢
  exact fun m hm => h m (List.mem_filter.mp hm).1

end Json
end SceneScript
