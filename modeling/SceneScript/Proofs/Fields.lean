import Mathlib.Data.List.Forall2
import SceneScript.Fields

/-!
# Laws of named values

The order of the names is what is easy to lose sight of when named values are merged. Two laws
carry everything about it:

* setting and updating **only ever add names at the end** (`keys_prefix_update`);
* so updating with named values that already begin with all one's own names **gives just those
  values, order included** (`update_of_prefix`).
-/

set_option autoImplicit false

namespace SceneScript
namespace Fields

variable {β γ : Type}

@[simp] theorem keys_nil : keys ([] : Fields β) = [] := rfl

@[simp] theorem keys_cons (f : String × β) (fs : Fields β) : keys (f :: fs) = f.1 :: keys fs := rfl

@[simp] theorem keys_append (fs gs : Fields β) : keys (fs ++ gs) = keys fs ++ keys gs :=
  List.map_append

theorem mem_keys_of_mem {fs : Fields β} {f : String × β} (h : f ∈ fs) : f.1 ∈ fs.keys :=
  List.mem_map_of_mem h

theorem mem_of_get? {fs : Fields β} {name : String} {v : β} (h : fs.get? name = some v) :
    (name, v) ∈ fs := by
  induction fs with
  | nil => cases h
  | cons f fs ih =>
    obtain ⟨k, w⟩ := f
    rw [get?] at h
    split at h
    · next hk =>
      cases h
      rw [hk]
      exact List.mem_cons_self
    · exact List.mem_cons_of_mem _ (ih h)

theorem get?_eq_none_of_notMem {fs : Fields β} {name : String} (h : name ∉ fs.keys) :
    fs.get? name = none := by
  refine Option.eq_none_iff_forall_ne_some.mpr fun w hw => h ?_
  have hm := mem_keys_of_mem (mem_of_get? hw)
  exact hm

theorem get?_of_mem {fs : Fields β} (hn : fs.keys.Nodup) {f : String × β} (h : f ∈ fs) :
    fs.get? f.1 = some f.2 := by
  induction fs with
  | nil => exact absurd h List.not_mem_nil
  | cons g fs ih =>
    rw [keys_cons, List.nodup_cons] at hn
    obtain ⟨hg, hn⟩ := hn
    rw [get?]
    rcases List.mem_cons.mp h with rfl | h
    · exact if_pos rfl
    · have hne : g.1 ≠ f.1 := fun e => hg (e ▸ mem_keys_of_mem h)
      rw [if_neg hne, ih hn h]

/-- Changing the values under their names changes the value under each name. -/
theorem get?_map (g : String → β → γ) (fs : Fields β) (name : String) :
    get? (fs.map fun f => (f.1, g f.1 f.2)) name = (fs.get? name).map (g name) := by
  induction fs with
  | nil => rfl
  | cons f fs ih =>
    obtain ⟨k, v⟩ := f
    by_cases h : k = name
    · subst h
      simp [get?]
    · simp [get?, h, ih]

theorem keys_map (g : String → β → γ) (fs : Fields β) :
    keys (fs.map fun f => (f.1, g f.1 f.2)) = fs.keys := by
  unfold keys
  rw [List.map_map]
  rfl

/-- Fields that are made from names have a value under those of the names that it was made for. -/
theorem get?_filterMap (g : String → Option β) (names : List String) (name : String) :
    get? (names.filterMap fun n => (g n).map fun v => (n, v)) name =
      if name ∈ names then g name else none := by
  induction names with
  | nil => rfl
  | cons n names ih =>
    rw [List.filterMap_cons]
    by_cases h : name = n
    · subst h
      cases hg : g name with
      | none => simp [ih, hg]
      | some v => simp [get?]
    · have hne : ¬ n = name := fun e => h e.symm
      cases hg : g n with
      | none => simp [ih, h]
      | some v => simp [get?, ih, h, hne]

/-! ## Setting -/

theorem get?_set (fs : Fields β) (name other : String) (v : β) :
    (fs.set name v).get? other = if other = name then some v else fs.get? other := by
  split
  · next h =>
    rw [h]
    exact get?_set_self fs name v
  · next h => exact get?_set_of_ne fs name other v h

/-- What holds of all values still does when one of them is set that has it. -/
theorem forall_get?_set {P : β → Prop} {fs : Fields β}
    (h : ∀ name v, fs.get? name = some v → P v) {name : String} {v : β} (hv : P v) :
    ∀ other w, (fs.set name v).get? other = some w → P w := by
  intro other w hw
  rw [get?_set] at hw
  split at hw
  · exact Option.some.inj hw ▸ hv
  · exact h other w hw

theorem set_of_notMem (fs : Fields β) {name : String} (h : name ∉ fs.keys) (v : β) :
    fs.set name v = fs ++ [(name, v)] := by
  induction fs with
  | nil => rfl
  | cons f fs ih =>
    obtain ⟨k, w⟩ := f
    rw [keys_cons, List.mem_cons, not_or] at h
    rw [set, if_neg fun e => h.1 e.symm, ih h.2]
    rfl

/-- Setting a name replaces its value, where it is there once. -/
theorem set_append_cons {fs : Fields β} {name : String} (h : name ∉ fs.keys) (v w : β)
    (gs : Fields β) : set (fs ++ (name, w) :: gs) name v = fs ++ (name, v) :: gs := by
  induction fs with
  | nil => exact if_pos rfl
  | cons f fs ih =>
    obtain ⟨k, u⟩ := f
    rw [keys_cons, List.mem_cons, not_or] at h
    rw [List.cons_append, set, if_neg fun e => h.1 e.symm, ih h.2]
    rfl

theorem nodup_keys_set {fs : Fields β} (h : fs.keys.Nodup) (name : String) (v : β) :
    (fs.set name v).keys.Nodup := by
  rw [keys_set]
  split
  · exact h
  · next hm =>
    refine List.nodup_append.mpr ⟨h, List.pairwise_singleton _ _, ?_⟩
    intro a ha b hb
    rw [List.mem_singleton.mp hb]
    exact fun e => hm (e ▸ ha)

theorem keys_prefix_set (fs : Fields β) (name : String) (v : β) :
    fs.keys <+: (fs.set name v).keys := by
  rw [keys_set]
  split
  · exact List.prefix_rfl
  · exact List.prefix_append _ _

theorem mem_keys_set (fs : Fields β) (name : String) (v : β) (other : String) :
    other ∈ (fs.set name v).keys ↔ other ∈ fs.keys ∨ other = name := by
  rw [keys_set]
  split
  · next hm => exact ⟨.inl, fun h => h.elim id fun e => e ▸ hm⟩
  · simp

/-! ## Updating -/

@[simp] theorem update_nil (fs : Fields β) : fs.update [] = fs := rfl

@[simp] theorem update_cons (fs : Fields β) (g : String × β) (gs : Fields β) :
    fs.update (g :: gs) = (fs.set g.1 g.2).update gs := rfl

theorem nodup_keys_update {fs : Fields β} (h : fs.keys.Nodup) (gs : Fields β) :
    (fs.update gs).keys.Nodup := by
  induction gs generalizing fs with
  | nil => exact h
  | cons g gs ih => exact ih (nodup_keys_set h g.1 g.2)

theorem nodup_keys_ofPairs (pairs : List (String × β)) : (ofPairs pairs).keys.Nodup :=
  nodup_keys_update (keys_nil ▸ List.nodup_nil) pairs

/-- **Updating adds names at the end only.** -/
theorem keys_prefix_update (fs gs : Fields β) : fs.keys <+: (fs.update gs).keys := by
  induction gs generalizing fs with
  | nil => exact List.prefix_rfl
  | cons g gs ih => exact (keys_prefix_set fs g.1 g.2).trans (ih _)

/-- **Where an update has a value it counts**, and what it has none for stays. -/
theorem get?_update {gs : Fields β} (hn : gs.keys.Nodup) (fs : Fields β) (name : String) :
    (fs.update gs).get? name = (gs.get? name).or (fs.get? name) := by
  induction gs generalizing fs with
  | nil => rfl
  | cons g gs ih =>
    obtain ⟨k, v⟩ := g
    rw [keys_cons, List.nodup_cons] at hn
    rw [update_cons, ih hn.2, get?_set, get?]
    by_cases hk : k = name
    · have hg : get? gs name = none := get?_eq_none_of_notMem (hk ▸ hn.1)
      rw [if_pos hk, if_pos hk.symm, hg]
      rfl
    · rw [if_neg hk, if_neg fun e => hk e.symm]

theorem mem_keys_update (fs gs : Fields β) (name : String) :
    name ∈ (fs.update gs).keys ↔ name ∈ fs.keys ∨ name ∈ gs.keys := by
  induction gs generalizing fs with
  | nil => simp
  | cons g gs ih => rw [update_cons, ih, mem_keys_set, keys_cons, List.mem_cons, or_assoc]

theorem update_of_disjoint {fs gs : Fields β} (hd : ∀ name ∈ gs.keys, name ∉ fs.keys)
    (hn : gs.keys.Nodup) : fs.update gs = fs ++ gs := by
  induction gs generalizing fs with
  | nil => simp
  | cons g gs ih =>
    rw [keys_cons, List.nodup_cons] at hn
    have hg : g.1 ∉ fs.keys := hd g.1 List.mem_cons_self
    rw [update_cons, set_of_notMem fs hg, ih ?_ hn.2, List.append_assoc]
    · rfl
    · intro name hm
      rw [keys_append, List.mem_append, not_or]
      refine ⟨hd name (List.mem_cons_of_mem _ hm), ?_⟩
      rintro he
      rw [List.mem_singleton.mp he] at hm
      exact hn.1 hm

theorem mem_of_mem_set {fs : Fields β} {name : String} {v : β} {f : String × β}
    (h : f ∈ fs.set name v) : f ∈ fs ∨ f = (name, v) := by
  induction fs with
  | nil => exact .inr (List.mem_singleton.mp h)
  | cons g fs ih =>
    obtain ⟨k, w⟩ := g
    rw [set] at h
    split at h
    · next hk =>
      rcases List.mem_cons.mp h with rfl | h
      · exact .inr (by rw [hk])
      · exact .inl (List.mem_cons_of_mem _ h)
    · rcases List.mem_cons.mp h with rfl | h
      · exact .inl List.mem_cons_self
      · exact (ih h).imp_left (List.mem_cons_of_mem _)

theorem mem_of_mem_update {fs gs : Fields β} {f : String × β} (h : f ∈ fs.update gs) :
    f ∈ fs ∨ f ∈ gs := by
  induction gs generalizing fs with
  | nil => exact .inl h
  | cons g gs ih =>
    rcases ih h with h | h
    · refine (mem_of_mem_set h).imp_right fun he => ?_
      rw [he]
      exact List.mem_cons_self
    · exact .inr (List.mem_cons_of_mem _ h)

theorem mem_of_mem_ofPairs {pairs : List (String × β)} {f : String × β} (h : f ∈ ofPairs pairs) :
    f ∈ pairs :=
  (mem_of_mem_update h).resolve_left List.not_mem_nil

/-- The value that pairs give a name last. -/
def last? (pairs : List (String × β)) (name : String) : Option β :=
  ((pairs.filter fun p => p.1 == name).getLast?).map (·.2)

theorem last?_cons (p : String × β) (pairs : List (String × β)) (name : String) :
    last? (p :: pairs) name =
      (last? pairs name).or (if p.1 = name then some p.2 else none) := by
  unfold last?
  by_cases h : p.1 = name
  · rw [List.filter_cons_of_pos (by simp [h]), if_pos h, List.getLast?_cons]
    cases (pairs.filter fun p => p.1 == name).getLast? <;> rfl
  · rw [List.filter_cons_of_neg (by simp [h]), if_neg h, Option.or_none]

theorem get?_update_pairs (fs : Fields β) (pairs : List (String × β)) (name : String) :
    (fs.update pairs).get? name = (last? pairs name).or (fs.get? name) := by
  induction pairs generalizing fs with
  | nil => rfl
  | cons p pairs ih =>
    rw [update_cons, ih, get?_set, last?_cons]
    by_cases h : p.1 = name
    · rw [if_pos h, if_pos h.symm]
      cases last? pairs name <;> rfl
    · rw [if_neg h, if_neg fun e => h e.symm, Option.or_none]

/-- **Of the pairs with one name the last counts.** -/
theorem get?_ofPairs (pairs : List (String × β)) (name : String) :
    (ofPairs pairs).get? name = last? pairs name := by
  unfold ofPairs
  rw [get?_update_pairs, get?_nil, Option.or_none]

theorem ofPairs_of_nodup {pairs : Fields β} (h : pairs.keys.Nodup) : ofPairs pairs = pairs :=
  update_of_disjoint (fun _ _ => List.not_mem_nil) h

/-- What is left of `fs` while its first values are replaced one after the other. -/
theorem update_append_of_prefix (done fs us : Fields β) (h : fs.keys <+: us.keys)
    (hn : (done ++ us).keys.Nodup) : update (done ++ fs) us = done ++ us := by
  induction us generalizing done fs with
  | nil =>
    have : fs = [] := List.map_eq_nil_iff.mp (List.prefix_nil.mp h)
    rw [this]
    rfl
  | cons u us ih =>
    have hu : u.1 ∉ done.keys := by
      rw [keys_append, List.nodup_append] at hn
      exact fun hm => hn.2.2 u.1 hm u.1 List.mem_cons_self rfl
    have hn' : ((done ++ [u]) ++ us).keys.Nodup := by
      rwa [List.append_assoc]
    cases fs with
    | nil =>
      rw [update_cons, List.append_nil, set_of_notMem _ hu]
      have := ih (done ++ [u]) [] (List.nil_prefix) hn'
      rwa [List.append_nil, List.append_assoc] at this
    | cons f fs =>
      obtain ⟨k, v⟩ := f
      obtain ⟨rfl, hrest⟩ : k = u.1 ∧ keys fs <+: keys us := List.cons_prefix_cons.mp h
      rw [update_cons, set_append_cons hu]
      have := ih (done ++ [u]) fs hrest hn'
      rwa [List.append_assoc, List.append_assoc] at this

/-- **Updating with values that begin with all one's names gives just those values.** -/
theorem update_of_prefix {fs us : Fields β} (h : fs.keys <+: us.keys) (hn : us.keys.Nodup) :
    fs.update us = us :=
  update_append_of_prefix [] fs us h hn

/-! ## Updating twice -/

theorem set_set_self (fs : Fields β) (name : String) (v w : β) :
    (fs.set name v).set name w = fs.set name w := by
  induction fs with
  | nil => simp [set]
  | cons f fs ih =>
    obtain ⟨k, u⟩ := f
    by_cases hk : k = name
    · simp [set, hk]
    · simp [set, hk, ih]

/-- A name that is there keeps its place, so it can be set before another one or behind it. -/
theorem set_set_comm {fs : Fields β} {name other : String} (hm : name ∈ fs.keys)
    (hne : other ≠ name) (v w : β) :
    (fs.set other w).set name v = (fs.set name v).set other w := by
  induction fs with
  | nil => exact absurd hm List.not_mem_nil
  | cons f fs ih =>
    obtain ⟨k, u⟩ := f
    by_cases hk : k = name
    · subst hk
      simp [set, hne.symm]
    · have hm' : name ∈ keys fs := (List.mem_cons.mp hm).resolve_left fun e => hk e.symm
      by_cases ho : k = other
      · subst ho
        simp [set, hk]
      · simp [set, hk, ho, ih hm']

/-- A name that is there can be set before an update that leaves it alone. -/
theorem set_update_comm {fs gs : Fields β} {name : String} (hm : name ∈ fs.keys)
    (hn : name ∉ gs.keys) (v : β) : (fs.update gs).set name v = (fs.set name v).update gs := by
  induction gs generalizing fs with
  | nil => rfl
  | cons g gs ih =>
    rw [keys_cons, List.mem_cons, not_or] at hn
    obtain ⟨hne, hn⟩ := hn
    have hm' : name ∈ (fs.set g.1 g.2).keys := (mem_keys_set fs g.1 g.2 name).mpr (.inl hm)
    rw [update_cons, update_cons, ih hm' hn, set_set_comm hm (Ne.symm hne)]

theorem update_set {gs : Fields β} (hg : gs.keys.Nodup) (fs : Fields β) (name : String) (v : β) :
    fs.update (gs.set name v) = (fs.update gs).set name v := by
  induction gs generalizing fs with
  | nil => rfl
  | cons g gs ih =>
    obtain ⟨k, w⟩ := g
    rw [keys_cons, List.nodup_cons] at hg
    obtain ⟨hk, hg⟩ := hg
    rw [set]
    by_cases h : k = name
    · subst h
      have hm : k ∈ (fs.set k w).keys := (mem_keys_set fs k w k).mpr (.inr rfl)
      rw [if_pos rfl, update_cons, update_cons, set_update_comm hm hk, set_set_self]
    · rw [if_neg h, update_cons, update_cons, ih hg]

/-- **Two updates one after the other are one update**, by the first one updated with the
    second. -/
theorem update_update {gs : Fields β} (hg : gs.keys.Nodup) (fs hs : Fields β) :
    (fs.update gs).update hs = fs.update (gs.update hs) := by
  induction hs generalizing gs with
  | nil => rfl
  | cons h hs ih =>
    rw [update_cons, update_cons, ← ih (nodup_keys_set hg h.1 h.2), update_set hg]

/-! ## Fields under some of the names -/

theorem filter_set (p : String → Bool) (fs : Fields β) (name : String) (v : β) :
    (fs.set name v).filter (fun f => p f.1) =
      if p name then set (fs.filter fun f => p f.1) name v else fs.filter fun f => p f.1 := by
  induction fs with
  | nil => by_cases h : p name <;> simp [set, h]
  | cons f fs ih =>
    obtain ⟨k, w⟩ := f
    by_cases hk : k = name
    · subst hk
      by_cases h : p k
      · simp [set, h]
      · simp [set, h]
    · by_cases hpk : p k
      · by_cases h : p name
        · simp [set, hk, hpk, h, ih]
        · simp [set, hk, hpk, h, ih]
      · by_cases h : p name
        · simp [set, hk, hpk, h, ih]
        · simp [set, hk, hpk, h, ih]

/-- **An update is an update of the fields under any of the names.** -/
theorem filter_update (p : String → Bool) (fs gs : Fields β) :
    (fs.update gs).filter (fun f => p f.1) =
      update (fs.filter fun f => p f.1) (gs.filter fun f => p f.1) := by
  induction gs generalizing fs with
  | nil => rfl
  | cons g gs ih =>
    rw [update_cons, ih, filter_set]
    by_cases h : p g.1
    · simp [h]
    · simp [h]

/-! ## Erasing -/

theorem erase_cons (f : String × β) (fs : Fields β) (name : String) :
    erase (f :: fs) name = if f.1 = name then fs.erase name else f :: fs.erase name := by
  unfold erase
  by_cases h : f.1 = name
  · rw [if_pos h, List.filter_cons_of_neg (by simpa using h)]
  · rw [if_neg h, List.filter_cons_of_pos (by simpa using h)]

theorem get?_erase_of_ne {name other : String} (h : other ≠ name) (fs : Fields β) :
    (fs.erase name).get? other = fs.get? other := by
  induction fs with
  | nil => rfl
  | cons f fs ih =>
    obtain ⟨k, v⟩ := f
    rw [erase_cons, get?]
    by_cases hk : k = name
    · rw [if_pos hk, if_neg fun ho => h (ho.symm.trans hk), ih]
    · rw [if_neg hk, get?, ih]

theorem erase_erase_comm (fs : Fields β) (name other : String) :
    (fs.erase name).erase other = (fs.erase other).erase name := by
  unfold erase
  rw [List.filter_filter, List.filter_filter]
  simp only [Bool.and_comm]

theorem erase_update (fs gs : Fields β) (name : String) :
    (fs.update gs).erase name = (fs.erase name).update (gs.erase name) :=
  filter_update (fun k => decide (k ≠ name)) fs gs

/-- **Pairs under one name do not touch the fields under others.** -/
theorem erase_ofPairs (pairs : Fields β) (name : String) :
    (ofPairs pairs).erase name = ofPairs (pairs.erase name) :=
  erase_update [] pairs name

/-! ## Related fields -/

/-- The same names in the same order, with related values. -/
def Rel (R : β → γ → Prop) (fs : Fields β) (gs : Fields γ) : Prop :=
  List.Forall₂ (fun f g => f.1 = g.1 ∧ R f.2 g.2) fs gs

section Rel

variable {R : β → γ → Prop} {fs us : Fields β} {gs ws : Fields γ}

theorem Rel.keys_eq (h : Rel R fs gs) : fs.keys = gs.keys := by
  induction h with
  | nil => rfl
  | cons hfg _ ih => exact congrArg₂ List.cons hfg.1 ih

theorem Rel.set (h : Rel R fs gs) (name : String) {v : β} {w : γ} (hv : R v w) :
    Rel R (fs.set name v) (gs.set name w) := by
  induction h with
  | nil => exact .cons ⟨rfl, hv⟩ .nil
  | @cons f g fs gs hfg hrest ih =>
    obtain ⟨k, x⟩ := f
    obtain ⟨l, y⟩ := g
    obtain ⟨hname, hxy⟩ := hfg
    dsimp only at hname
    subst hname
    unfold Fields.set
    split
    · exact .cons ⟨rfl, hv⟩ hrest
    · exact .cons ⟨rfl, hxy⟩ ih

/-- **Updates by related fields keep fields related.** -/
theorem Rel.update (h : Rel R fs gs) (hu : Rel R us ws) :
    Rel R (fs.update us) (gs.update ws) := by
  induction hu generalizing fs gs with
  | nil => exact h
  | @cons u w us ws huw _ ih =>
    rw [update_cons, update_cons, ← huw.1]
    exact ih (h.set u.1 huw.2)

end Rel

end Fields
end SceneScript
