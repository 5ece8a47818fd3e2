import SceneScript.Proofs.Script.WrittenLine

/-!
# Lines of figures and backgrounds

A picture is shown by a path with parameters behind it, the payload among them. **The line of a
background has the action of the background** (`action?_backgroundText`). **So has the line of a
figure, but for its anchors** (`action?_figureText`): a bare parameter under the name of an anchor
cannot be told from the anchor of the figure, and the last of them is taken.

Parameters come in three orders: that of the writing, that of the tokens read, and what is left of
those once payload, target and anchors are taken out (`freeParams_backgroundParams`,
`withoutAnchors_figureParams`).
-/

set_option autoImplicit false

namespace SceneScript

open Parameters (marked token Named Storable Standing)
open Text (trim Clean Unbroken)

namespace Script

/-! ## Anchors -/

/-- The anchor that a parameter is read as, if it is no parameter. -/
def anchorOf? (p : String × String) : Option Anchor :=
  if p.2.isEmpty then Anchor.ofName? p.1 else none

theorem anchorOf?_of_ne {p : String × String} (h : p.2 ≠ "") : anchorOf? p = none :=
  if_neg fun he => h (String.isEmpty_iff.mp he)

theorem anchor?_token (p : String × String) : Statement.anchor? (token p) = anchorOf? p := by
  unfold Statement.anchor? token anchorOf?
  split
  · rw [String.ofList_toList]
  · cases ha : Anchor.ofName? (String.ofList (p.1.toList ++ '=' :: p.2.toList)) with
    | none => rfl
    | some a =>
      have hname : a.name = String.ofList (p.1.toList ++ '=' :: p.2.toList) := by
        unfold Anchor.ofName? at ha
        simpa using List.find?_some ha
      have heq : '=' ∈ a.name.toList := by
        rw [hname, String.toList_ofList]
        exact List.mem_append_right _ List.mem_cons_self
      cases a <;> exact absurd heq (by decide)

/-- The parameters that are read as such. -/
def withoutAnchors (ps : Fields String) : Fields String := ps.filter fun p => (anchorOf? p).isNone

/-- The last anchor among parameters. -/
def presetOf (ps : Fields String) : Anchor := (ps.filterMap anchorOf?).getLast?.getD .center

theorem filter_tokens (ps : Fields String) :
    (ps.map token).filter (fun t => (Statement.anchor? t).isNone) =
      (withoutAnchors ps).map token := by
  unfold withoutAnchors
  rw [List.filter_map]
  simp only [Function.comp_def, anchor?_token]

theorem filterMap_tokens (ps : Fields String) :
    (ps.map token).filterMap Statement.anchor? = ps.filterMap anchorOf? := by
  rw [List.filterMap_map]
  exact congrArg (List.filterMap · ps) (funext anchor?_token)

/-! ## Parameters -/

/-- Parameters that stand beside a payload. -/
structure FreeParams (params : Fields String) : Prop where
  storable : ∀ p ∈ params, Storable p
  nodup : params.keys.Nodup
  notId : Statement.idName ∉ params.keys

theorem FreeParams.withoutAnchors {params : Fields String} (h : FreeParams params) :
    FreeParams (withoutAnchors params) where
  storable p hp := h.storable p (List.mem_filter.mp hp).1
  nodup := h.nodup.sublist (List.filter_sublist.map _)
  notId hm := h.notId ((List.filter_sublist.map _).subset hm)

theorem FreeParams.notTransform {params : Fields String} (h : FreeParams params) :
    Parameters.transformName ∉ params.keys := by
  intro hm
  obtain ⟨p, hp, hname⟩ := List.mem_map.mp hm
  exact (h.storable p hp).notTransform hname

theorem erase_of_notMem {params : Fields String} {name : String} (h : name ∉ params.keys) :
    params.erase name = params := by
  refine List.filter_eq_self.mpr fun p hp => decide_eq_true ?_
  rintro rfl
  exact h (Fields.mem_keys_of_mem hp)

/-- The parameters of a background, in the order of their writing. -/
def backgroundParams (json : List Char) (params : Fields String) : List (String × String) :=
  transformParam json :: params

/-- The bare parameter of an anchor; the centre needs none. -/
def anchorParams (preset : Anchor) : List (String × String) :=
  if preset = .center then [] else [(preset.name, "")]

/-- The parameters of a figure. -/
def figureParams (json : List Char) (target : String) (params : Fields String) (preset : Anchor) :
    List (String × String) :=
  (Statement.idName, target) :: transformParam json :: (params ++ anchorParams preset)

theorem storable_id {target : String} (ht : Clean target.toList) :
    Storable (Statement.idName, target) :=
  storable_of_letters (by decide) ht

theorem storable_anchorParams (preset : Anchor) : ∀ p ∈ anchorParams preset, Storable p := by
  cases preset
  · intro p hp
    obtain rfl := List.mem_singleton.mp hp
    exact storable_of_letters (by decide) (by decide)
  · exact fun p hp => nomatch hp
  · intro p hp
    obtain rfl := List.mem_singleton.mp hp
    exact storable_of_letters (by decide) (by decide)

/-- What stands in a line behind its keyword and is a path and parameters. -/
def pathText (path : String) (ps : List (String × String)) : List Char :=
  path.toList ++ marked (ps.map token)

/-- A parameter of a picture: the payload, or one that can stand in a line. -/
def PictureParam (json : List Char) (p : String × String) : Prop :=
  p = transformParam json ∨ Storable p

section Pictures

variable {α : Type} [WrittenScalar α]
variable {members : Fields (Json α)} {json : List Char} {u : Update α}
variable {path target : String} {params : Fields String} {preset : Anchor}

theorem pictureParam_background (hp : FreeParams params) :
    ∀ p ∈ backgroundParams json params, PictureParam json p :=
  List.forall_mem_cons.mpr ⟨.inl rfl, fun p hm => .inr (hp.storable p hm)⟩

theorem pictureParam_figure (ht : Clean target.toList) (hp : FreeParams params) :
    ∀ p ∈ figureParams json target params preset, PictureParam json p := by
  refine List.forall_mem_cons.mpr ⟨.inr (storable_id ht), List.forall_mem_cons.mpr ⟨.inl rfl, ?_⟩⟩
  intro p hm
  rcases List.mem_append.mp hm with hm | hm
  · exact .inr (hp.storable p hm)
  · exact .inr (storable_anchorParams preset p hm)

theorem PictureParam.named (hj : Json.render (.obj members) = .ok json) {p : String × String}
    (h : PictureParam json p) : Named p := by
  rcases h with rfl | h
  · exact named_transformParam hj
  · exact h.named

theorem standing_pictureParams (hj : Json.render (.obj members) = .ok json)
    (hv : (Json.obj members).InRange) {ps : List (String × String)}
    (h : ∀ p ∈ ps, PictureParam json p) : ∀ t ∈ ps.map token, Standing α t ∧ trim t = t := by
  intro t ht
  obtain ⟨p, hm, rfl⟩ := List.mem_map.mp ht
  rcases h p hm with rfl | h
  · exact standing_transformParam hj hv
  · exact h.standing

theorem endsFirmly_pathText (hj : Json.render (.obj members) = .ok json)
    (hpath : Clean path.toList) {ps : List (String × String)}
    (h : ∀ p ∈ ps, PictureParam json p) : EndsFirmly (pathText path ps) := by
  refine endsFirmly_append (endsFirmly_of_trimmed hpath.trimmed) (endsFirmly_marked ?_)
  intro t ht
  obtain ⟨p, hm, rfl⟩ := List.mem_map.mp ht
  exact ((h p hm).named hj).trimmed

/-- **A path with parameters breaks a line exactly where the payload does.** -/
theorem unbroken_pathText (hj : Json.render (.obj members) = .ok json)
    (hpath : Clean path.toList) {ps : List (String × String)}
    (h : ∀ p ∈ ps, PictureParam json p) (hm : transformParam json ∈ ps) :
    Unbroken (pathText path ps) ↔ Unbroken json := by
  unfold pathText
  rw [Text.unbroken_append, and_iff_right hpath.unbroken, unbroken_marked, List.forall_mem_map]
  refine ⟨fun hall => (unbroken_transformParam hj).mp (hall _ hm), fun hu p hp => ?_⟩
  rcases h p hp with rfl | hs
  · exact (unbroken_transformParam hj).mpr hu
  · exact hs.unbroken

/-! ## What is read from parameters -/

theorem ofPairs_backgroundParams (hp : FreeParams params) :
    Fields.ofPairs (backgroundParams json params) = backgroundParams json params :=
  Fields.ofPairs_of_nodup (List.nodup_cons.mpr ⟨hp.notTransform, hp.nodup⟩)

theorem freeParams_backgroundParams (hp : FreeParams params) :
    Statement.freeParams (backgroundParams json params) = params := by
  have h1 : Fields.erase (backgroundParams json params) Parameters.transformName = params :=
    erase_of_notMem hp.notTransform
  unfold Statement.freeParams
  rw [h1, erase_of_notMem hp.notId]

variable [Scalar.Readable α]

/-- Going through parameters, the payload is the one that was found before or is found now. -/
theorem foldlM_payload (hj : Json.render (.obj members) = .ok json)
    (hv : (Json.obj members).InRange) {ps : List (String × String)}
    (h : ∀ p ∈ ps, PictureParam json p) {payload : Fields (Json α)}
    (hm : payload = members ∨ transformParam json ∈ ps) :
    ((ps.map token).map Parameters.entry).foldlM
      (fun payload (name, value) =>
        if name = Parameters.transformName.toList then Statement.readPayload value
        else (.ok payload : Except LineError (Fields (Json α)))) payload = .ok members := by
  have hread : Statement.readPayload json = .ok members := by
    unfold Statement.readPayload
    rw [Json.readAll_render _ hj hv]
  induction ps generalizing payload with
  | nil =>
    obtain rfl := hm.resolve_right List.not_mem_nil
    rfl
  | cons p ps ih =>
    obtain ⟨hp, hps⟩ := List.forall_mem_cons.mp h
    rw [List.map_cons, List.map_cons, List.foldlM_cons, Parameters.entry_token (hp.named hj)]
    dsimp only
    rcases hp with rfl | hp
    · have hname : (transformParam json).1.toList = Parameters.transformName.toList := rfl
      have hvalue : (transformParam json).2.toList = json := String.toList_ofList
      rw [if_pos hname, hvalue, hread]
      exact ih hps (.inl rfl)
    · rw [if_neg fun he => hp.notTransform (String.toList_inj.mp he)]
      refine ih hps (hm.imp_right fun hm => (List.mem_cons.mp hm).resolve_left fun he => ?_)
      exact hp.notTransform (congrArg Prod.fst he).symm

/-- **The payload of parameters is the JSON under its name**, wherever it stands among them. -/
theorem lastPayload_tokens (hj : Json.render (.obj members) = .ok json)
    (hv : (Json.obj members).InRange) {ps : List (String × String)}
    (h : ∀ p ∈ ps, PictureParam json p) (hm : transformParam json ∈ ps) :
    Statement.lastPayload ((ps.map token).map Parameters.entry) = .ok members :=
  foldlM_payload hj hv h (.inr hm)

/-- **What a path with parameters behind it says of a background.** -/
theorem readChangeBackground_pathText (hj : Json.render (.obj members) = .ok json)
    (hv : (Json.obj members).InRange) (hpath : Clean path.toList) {ps : List (String × String)}
    (h : ∀ p ∈ ps, PictureParam json p) (hm : transformParam json ∈ ps) :
    Statement.readChangeBackground (pathText path ps) =
      .ok (.changeBackground path members (Statement.freeParams (Fields.ofPairs ps))) := by
  unfold Statement.readChangeBackground pathText
  rw [Parameters.split_marked hpath (standing_pictureParams hj hv h)]
  simp only [Except.mapError, bind, Except.bind, pure, Except.pure]
  rw [lastPayload_tokens hj hv h hm, Parameters.fields_tokens fun p hp => (h p hp).named hj,
    String.ofList_toList]

/-- The target that the parameters of a figure name. -/
def targetOf (params : Fields String) : String :=
  if ((params.get? Statement.idName).getD "").isEmpty then unknownTarget
  else (params.get? Statement.idName).getD ""

/-- **What a path with parameters behind it says of a figure**: the reader sorts them into anchors
    and others before it reads any of them. -/
theorem readChangeFigure_pathText (hj : Json.render (.obj members) = .ok json)
    (hv : (Json.obj members).InRange) (hpath : Clean path.toList) {ps : List (String × String)}
    (h : ∀ p ∈ ps, PictureParam json p) (hm : transformParam json ∈ ps) :
    Statement.readChangeFigure (pathText path ps) =
      .ok (.changeFigure (targetOf (Fields.ofPairs (withoutAnchors ps))) path members (presetOf ps)
        (Statement.freeParams (Fields.ofPairs (withoutAnchors ps)))) := by
  have h' : ∀ p ∈ withoutAnchors ps, PictureParam json p := fun p hp =>
    h p (List.mem_filter.mp hp).1
  have hanchor : anchorOf? (transformParam json) = none := anchorOf?_of_ne fun he =>
    Parameters.ne_nil_of_render_obj hj (String.ofList_eq_empty_iff.mp he)
  have hm' : transformParam json ∈ withoutAnchors ps :=
    List.mem_filter.mpr ⟨hm, Option.isNone_iff_eq_none.mpr hanchor⟩
  unfold Statement.readChangeFigure pathText presetOf targetOf
  rw [Parameters.split_marked hpath (standing_pictureParams hj hv h)]
  simp only [Except.mapError, bind, Except.bind, pure, Except.pure]
  rw [filter_tokens, filterMap_tokens, lastPayload_tokens hj hv h' hm',
    Parameters.fields_tokens fun p hp => (h' p hp).named hj, String.ofList_toList]

/-! ## Backgrounds -/

/-- **The line of a background has the action of the background.** -/
theorem action?_backgroundText (hj : Json.render (.obj members) = .ok json)
    (hv : (Json.obj members).InRange) (hu : Update.ofPayload members = .ok u)
    (hpath : Clean path.toList) (hp : FreeParams params) :
    action? (line .changeBackground (pathText path (backgroundParams json params))) =
      some (.changeBackground path u params) := by
  have hps : ∀ p ∈ backgroundParams json params, PictureParam json p := pictureParam_background hp
  have hread : Statement.readChangeBackground (pathText path (backgroundParams json params)) =
      .ok (.changeBackground path members params) := by
    rw [readChangeBackground_pathText hj hv hpath hps List.mem_cons_self,
      ofPairs_backgroundParams hp, freeParams_backgroundParams hp]
  refine action?_of_statement
    ((read?_line .changeBackground (endsFirmly_pathText hj hpath hps)).trans
      (congrArg (Except.map some) hread)) ?_
  unfold Statement.action? Statement.update
  dsimp only
  rw [hu]
  rfl

/-! ## Figures -/

theorem withoutAnchors_eq {params : Fields String} (h : ∀ p ∈ params, anchorOf? p = none) :
    withoutAnchors params = params :=
  List.filter_eq_self.mpr fun p hp => Option.isNone_iff_eq_none.mpr (h p hp)

theorem presetOf_append {params : Fields String} (h : ∀ p ∈ params, anchorOf? p = none)
    (preset : Anchor) : presetOf (params ++ anchorParams preset) = preset := by
  unfold presetOf
  rw [List.filterMap_append, List.filterMap_eq_nil_iff.mpr h, List.nil_append]
  cases preset <;> decide


omit [WrittenScalar α] [Scalar.Readable α] in
theorem anchorOf?_required (hjson : json ≠ []) (hne : target ≠ "") :
    anchorOf? (Statement.idName, target) = none ∧ anchorOf? (transformParam json) = none :=
  ⟨anchorOf?_of_ne hne, anchorOf?_of_ne fun h => hjson (String.ofList_eq_empty_iff.mp h)⟩

omit [WrittenScalar α] [Scalar.Readable α] in
theorem withoutAnchors_figureParams (hjson : json ≠ []) (hne : target ≠ "") :
    withoutAnchors (figureParams json target params preset) =
      (Statement.idName, target) :: backgroundParams json (withoutAnchors params) := by
  obtain ⟨h1, h2⟩ := anchorOf?_required hjson hne
  have h3 : (anchorParams preset).filter (fun p => (anchorOf? p).isNone) = [] := by
    cases preset <;> decide
  unfold withoutAnchors figureParams backgroundParams
  rw [List.filter_cons_of_pos (by rw [h1]; rfl), List.filter_cons_of_pos (by rw [h2]; rfl),
    List.filter_append, h3, List.append_nil]

omit [WrittenScalar α] [Scalar.Readable α] in
theorem presetOf_figureParams (hjson : json ≠ []) (hne : target ≠ "") :
    presetOf (figureParams json target params preset) =
      presetOf (params ++ anchorParams preset) := by
  obtain ⟨h1, h2⟩ := anchorOf?_required hjson hne
  unfold presetOf figureParams
  rw [List.filterMap_cons, h1, List.filterMap_cons, h2]

omit [WrittenScalar α] [Scalar.Readable α] in
theorem ofPairs_figure (hp : FreeParams params) :
    Fields.ofPairs ((Statement.idName, target) :: backgroundParams json params) =
      (Statement.idName, target) :: backgroundParams json params := by
  have hne : Statement.idName ≠ Parameters.transformName := by decide
  have hid : Statement.idName ∉ Fields.keys (backgroundParams json params) := fun hm =>
    (List.mem_cons.mp hm).elim hne hp.notId
  exact Fields.ofPairs_of_nodup (List.nodup_cons.mpr
    ⟨hid, List.nodup_cons.mpr ⟨hp.notTransform, hp.nodup⟩⟩)

omit [WrittenScalar α] [Scalar.Readable α] in
theorem freeParams_figure (hp : FreeParams params) :
    Statement.freeParams ((Statement.idName, target) :: backgroundParams json params) = params := by
  have h1 : Fields.erase ((Statement.idName, target) :: backgroundParams json params)
      Parameters.transformName = (Statement.idName, target) :: params :=
    congrArg ((Statement.idName, target) :: ·) (erase_of_notMem hp.notTransform)
  have h2 : Fields.erase ((Statement.idName, target) :: params) Statement.idName = params :=
    erase_of_notMem hp.notId
  unfold Statement.freeParams
  rw [h1, h2]

theorem readChangeFigure_figureText (hj : Json.render (.obj members) = .ok json)
    (hv : (Json.obj members).InRange) (hpath : Clean path.toList) (ht : Clean target.toList)
    (hne : target ≠ "") (hp : FreeParams params) (preset : Anchor) :
    Statement.readChangeFigure (pathText path (figureParams json target params preset)) =
      .ok (.changeFigure target path members (presetOf (params ++ anchorParams preset))
        (withoutAnchors params)) := by
  have hfree := hp.withoutAnchors
  have hjson := Parameters.ne_nil_of_render_obj hj
  have htarget : targetOf ((Statement.idName, target) ::
      backgroundParams json (withoutAnchors params)) = target :=
    if_neg fun he => hne (String.isEmpty_iff.mp he)
  rw [readChangeFigure_pathText hj hv hpath (pictureParam_figure ht hp)
    (List.mem_cons_of_mem _ List.mem_cons_self), withoutAnchors_figureParams hjson hne,
    presetOf_figureParams hjson hne, ofPairs_figure hfree, htarget, freeParams_figure hfree]

/-- **The line of a figure has the action of the figure**, but that a parameter which is an anchor
    is read as one. -/
theorem action?_figureText (hj : Json.render (.obj members) = .ok json)
    (hv : (Json.obj members).InRange) (hu : Update.ofPayload members = .ok u)
    (hpath : Clean path.toList) (ht : Clean target.toList) (hne : target ≠ "")
    (hp : FreeParams params) :
    action? (line .changeFigure (pathText path (figureParams json target params preset))) =
      some (.changeFigure target path u (presetOf (params ++ anchorParams preset))
        (withoutAnchors params)) := by
  have hfirm : EndsFirmly (pathText path (figureParams json target params preset)) :=
    endsFirmly_pathText hj hpath (pictureParam_figure ht hp)
  have hread := congrArg (Except.map some)
    (readChangeFigure_figureText hj hv hpath ht hne hp preset)
  refine action?_of_statement ((read?_line .changeFigure hfirm).trans hread) ?_
  unfold Statement.action? Statement.update
  dsimp only
  rw [hu]
  rfl

end Pictures

end Script
end SceneScript
