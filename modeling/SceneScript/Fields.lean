/-!
# Named values in order

Filters, parameters and the members of a JSON object are all the same thing: values
under names, **in the order in which the names first arrived**. Setting a name that
is there keeps its place and takes the new value; a new name goes to the end.

A list of pairs is that thing, and `get?`, `keys` are what one sees of it. The
lemmas say what each operation does to those two views.
-/

set_option autoImplicit false

namespace SceneScript

/-- Values under names, in the order of their first arrival. -/
abbrev Fields (β : Type) := List (String × β)

namespace Fields

variable {β : Type}

/-- The value under a name. -/
def get? : Fields β → String → Option β
  | [], _ => none
  | (k, v) :: r, name => if k = name then some v else get? r name

/-- The names, in order. -/
def keys (fs : Fields β) : List String := fs.map (·.1)

/-- Put a value under a name. -/
def set : Fields β → String → β → Fields β
  | [], name, x => [(name, x)]
  | (k, v) :: r, name, x => if k = name then (k, x) :: r else (k, v) :: set r name x

/-- Set every pair of the second list, one after the other. -/
def update (fs : Fields β) (gs : Fields β) : Fields β :=
  gs.foldl (fun acc g => acc.set g.1 g.2) fs

/-- The fields without one name. -/
def erase (fs : Fields β) (name : String) : Fields β :=
  fs.filter fun f => f.1 ≠ name

/-- Pairs in the order of their writing: a repeated name keeps its first place and
    takes its last value. -/
def ofPairs (pairs : List (String × β)) : Fields β := update [] pairs

/-! ## What the operations do to the views -/

@[simp] theorem get?_nil (name : String) : get? ([] : Fields β) name = none := rfl

theorem get?_set_self (fs : Fields β) (name : String) (x : β) :
    (fs.set name x).get? name = some x := by
  induction fs with
  | nil => simp [set, get?]
  | cons f r ih =>
    obtain ⟨k, v⟩ := f
    by_cases h : k = name <;> simp [set, get?, h, ih]

theorem get?_set_of_ne (fs : Fields β) (name other : String) (x : β) (h : other ≠ name) :
    (fs.set name x).get? other = fs.get? other := by
  induction fs with
  | nil => simp [set, get?, Ne.symm h]
  | cons f r ih =>
    obtain ⟨k, v⟩ := f
    by_cases hk : k = name
    · subst hk
      simp [set, get?, Ne.symm h]
    · by_cases ho : k = other
      · subst ho
        simp [set, get?, hk]
      · simp [set, get?, hk, ho, ih]

/-- A name that is there keeps its place, and a new one goes to the end. -/
theorem keys_set (fs : Fields β) (name : String) (x : β) :
    (fs.set name x).keys = if name ∈ fs.keys then fs.keys else fs.keys ++ [name] := by
  induction fs with
  | nil => simp [set, keys]
  | cons f r ih =>
    obtain ⟨k, v⟩ := f
    unfold keys at ih
    by_cases h : k = name
    · simp [set, keys, h]
    · have h' : ¬ name = k := fun e => h e.symm
      by_cases hm : name ∈ r.map (·.1) <;> simp_all [set, keys]

end Fields
end SceneScript
