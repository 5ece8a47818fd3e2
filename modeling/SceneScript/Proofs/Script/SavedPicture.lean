import SceneScript.Proofs.Script.Saving

/-!
# Pictures that were saved

What a figure and a background show — the path, the anchor and the parameters — comes back when
they are saved and read again, **unless a parameter of a figure is an anchor by its name and has no
value** (`parse_write_picture`). The reader tells `-left=`, a parameter, from `-left`, the anchor.
The writer writes both as `-left`, so the parameter is lost, and the figure is set down in another
place if its own anchor is the centre.
-/

set_option autoImplicit false

namespace SceneScript

open Outcome (bind_eq_ok map_eq_ok mapM_eq_ok)

variable {α : Type}

/-! ## Pictures -/

/-- What is shown of a figure or a background, apart from where. A background has no anchor of its
    own and stands in the centre. -/
structure Picture where
  path : String
  preset : Anchor
  params : Fields String
deriving Repr, DecidableEq

def Command.picture? : Command α → Option Picture
  | .changeFigure c => some ⟨c.path, c.preset, c.params⟩
  | .changeBackground c => some ⟨c.path, .center, c.params⟩
  | _ => none

theorem Command.exists_effect_of_picture? {c : Command α} {shown : Picture}
    (h : c.picture? = some shown) : ∃ target t, c.effect? = some (target, t) := by
  cases c with
  | setTransform c => cases h
  | changeFigure c => exact ⟨_, _, rfl⟩
  | changeBackground c => exact ⟨_, _, rfl⟩
  | rawText text => cases h

namespace Script

/-! ## Parameters that are taken for anchors -/

/-- No parameter is an anchor by its name and without a value. -/
def AnchorFree (params : Fields String) : Prop := ∀ a : Anchor, (a.name, "") ∉ params

theorem ofName?_name (a : Anchor) : Anchor.ofName? a.name = some a := by cases a <;> decide

theorem anchorOf?_eq_some {p : String × String} {a : Anchor} :
    anchorOf? p = some a ↔ p = (a.name, "") := by
  constructor
  · intro h
    unfold anchorOf? at h
    split at h
    · next hv =>
      have hname : a.name = p.1 := by
        unfold Anchor.ofName? at h
        simpa using List.find?_some h
      exact Prod.ext hname.symm (String.isEmpty_iff.mp hv)
    · cases h
  · rintro rfl
    exact ofName?_name a

theorem anchorFree_iff {params : Fields String} :
    AnchorFree params ↔ ∀ p ∈ params, anchorOf? p = none := by
  constructor
  · intro h p hp
    refine Option.eq_none_iff_forall_ne_some.mpr fun a ha => h a ?_
    rwa [← anchorOf?_eq_some.mp ha]
  · intro h a ha
    exact absurd (h _ ha) (by rw [anchorOf?_eq_some.mpr rfl]; exact Option.some_ne_none a)

/-- **Parameters come back exactly if none of them is taken for an anchor.** -/
theorem withoutAnchors_eq_iff {params : Fields String} :
    withoutAnchors params = params ↔ AnchorFree params := by
  rw [anchorFree_iff]
  refine ⟨fun h p hp => ?_, withoutAnchors_eq⟩
  exact Option.isNone_iff_eq_none.mp (List.filter_eq_self.mp h p hp)

/-! ## Saving one picture -/

/-- The command is a picture whose parameters are not taken for anchors. A background has no anchor,
    and all its parameters are parameters. -/
def KeepsParams : Command α → Prop
  | .changeFigure c => AnchorFree c.params
  | _ => True

/-- What is shown by an action. -/
def shownBy : Action α → Option Picture
  | .setTransform .. => none
  | .changeFigure _ path _ preset params => some ⟨path, preset, params⟩
  | .changeBackground path _ params => some ⟨path, .center, params⟩

theorem picture?_command [Scalar α] (a : Action α) (factor : Vec2 α) (stage : Stage α) :
    (a.command factor stage).picture? = shownBy a := by
  cases a <;> rfl

/-- What a written picture shows. -/
theorem shownBy_rewritten {c : Command α} {shown : Picture} (hp : c.picture? = some shown)
    {duration : Nat} {u : Update α} {a : Action α} (ha : rewritten duration none u c = some a) :
    ∃ shown', shownBy a = some shown' ∧ shown'.path = shown.path ∧
      (shown' = shown ↔ KeepsParams c) := by
  cases c with
  | setTransform c => cases hp
  | rawText text => cases hp
  | changeBackground c =>
    cases hp
    cases ha
    exact ⟨_, rfl, rfl, iff_of_true rfl trivial⟩
  | changeFigure c =>
    cases hp
    cases ha
    refine ⟨_, rfl, rfl, ?_⟩
    rw [Picture.mk.injEq, and_iff_right rfl]
    refine ⟨fun h => withoutAnchors_eq_iff.mp h.2, fun h => ⟨?_, withoutAnchors_eq_iff.mpr h⟩⟩
    exact presetOf_append (anchorFree_iff.mp h) c.preset

variable [WrittenScalar α] [Scalar.Readable α]

/-- **A picture that was saved is read as one picture of the same kind and target under the same
    path. Its anchor and parameters are the same exactly if no parameter is taken for an anchor.** -/
theorem parse_write_picture {factor canvas : Vec2 α} {base : Vec2 (Extent α)} {duration : Nat}
    {text saved : List Char} {c : Command α} {shown : Picture} (hc : c ∈ parse factor text)
    (hp : c.picture? = some shown) (hu : FiltersUnbroken c)
    (h : write [c] duration canvas base none = .ok saved) (factor' : Vec2 α) :
    ∃ c' shown', parse factor' saved = [c'] ∧ c'.outline = c.outline ∧
      c'.picture? = some shown' ∧ shown'.path = shown.path ∧ (shown' = shown ↔ KeepsParams c) := by
  obtain ⟨target, t, he⟩ := c.exists_effect_of_picture? hp
  obtain ⟨ratio, -, h⟩ := bind_eq_ok.mp h
  obtain ⟨lines, hlines, h⟩ := bind_eq_ok.mp h
  obtain rfl := Except.ok.inj h
  obtain ⟨line, hline, rfl⟩ : ∃ line, writeLine ratio duration none c = .ok line ∧
      lines = [line] := by
    obtain _ | ⟨hline, hnil⟩ := mapM_eq_ok.mp hlines
    cases hnil
    exact ⟨_, hline, rfl⟩
  obtain ⟨hfound, u, haction⟩ := action?_writeLine (kept_parse factor text c hc) he hline hu
  obtain ⟨a, ha, ho⟩ := Option.map_eq_some_iff.mp (outline_rewritten he duration none u)
  obtain ⟨shown', hs, hpath, hiff⟩ := shownBy_rewritten hp ha
  have hread : parse factor' (Line.join [line]) = [a.command factor' []] := by
    rw [parse_eq_commandsFrom, Text.contentLines_join, List.flatMap_cons, List.flatMap_nil,
      List.append_nil, hfound, commandsFrom_cons, commandsFrom_nil,
      readLine_of_action (haction.trans ha)]
  exact ⟨_, shown', hread, (a.outline_command factor' []).trans ho,
    (picture?_command a factor' []).trans hs, hpath, hiff⟩

/-- A parameter `left` with an empty value: the figure stands in the centre with one parameter, and
    is read back on the left with none. -/
theorem parse_write_picture_left :
    let text := "changeFigure:a.png -left=;".toList
    let saved := "changeFigure:a.png -id=unknown -transform=\x7b\"position\":\x7b\"x\":0,".toList ++
      "\"y\":0\x7d,\"scale\":\x7b\"x\":1,\"y\":1\x7d,\"rotation\":0\x7d -left;".toList
    let one : Vec2 Float := ⟨1, 1⟩
    ∃ c c', parse one text = [c] ∧ c.picture? = some ⟨"a.png", .center, [("left", "")]⟩ ∧
      write [c] (500 : Nat) ⟨1280, 720⟩ ⟨.real 1280, .real 720⟩ none = .ok saved ∧
      parse one saved = [c'] ∧ c'.outline = c.outline ∧
      c'.picture? = some ⟨"a.png", .left, []⟩ := by
  repeat rewrite [String.toList_ofList]
  intro text saved one
  obtain ⟨c, hc⟩ : ∃ c, parse one text = [c] := List.length_eq_one_iff.mp (by decide +kernel)
  have hshown : (parse one text).map Command.picture? =
      [some ⟨"a.png", .center, [("left", "")]⟩] := by decide +kernel
  have hfilters : ((parse one text).filterMap Command.effect?).map (fun e => e.2.filters.keys) =
    [[]] := by decide +kernel
  have hwrite : write (parse one text) (500 : Nat) ⟨1280, 720⟩ ⟨.real 1280, .real 720⟩ none =
      .ok saved := by decide +kernel
  rw [hc] at hshown hwrite hfilters
  have hp := List.singleton_inj.mp hshown
  have hu : FiltersUnbroken c := by
    refine filtersUnbroken_of_no_filters fun target t he => ?_
    rw [List.filterMap_cons, he] at hfilters
    exact List.map_eq_nil_iff.mp (List.singleton_inj.mp hfilters)
  obtain ⟨c', shown', hc', ho, hp', -⟩ :=
    parse_write_picture (hc ▸ List.mem_singleton_self c) hp hu hwrite one
  have hread : (parse one saved).map Command.picture? = [some ⟨"a.png", .left, []⟩] := by
    decide +kernel
  rw [hc'] at hread
  exact ⟨c, c', hc, hp, hwrite, hc', ho, List.singleton_inj.mp hread⟩

end Script
end SceneScript
