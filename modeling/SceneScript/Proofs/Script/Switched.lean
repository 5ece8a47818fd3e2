import SceneScript.Proofs.Script.Flags
import SceneScript.Proofs.Script.WrittenPicture

/-!
# Lines with the flag switched

The flag is switched in the text of a line, and the line is read as parameters. The two agree on a
line that was written exactly if every flag in its text is the parameter `next`: **only then does
switching the text of the line switch the parameter** (`toggleNext_line_iff`).

The reader puts parameters in order by their names, so **one name more or less leaves the others as
they were** (`erase_ofPairs_switched`). The three kinds of lines then say the same about everything
else (`sameBesides_setTransform`, `sameBesides_changeFigure`, `sameBesides_changeBackground`).
-/

set_option autoImplicit false

namespace SceneScript

/-! ## Parameters left out -/

/-- The statement without the parameter under a name. -/
def Statement.eraseParam {α : Type} (name : String) : Statement α → Statement α
  | .setTransform target payload duration ease => .setTransform target payload duration ease
  | .changeFigure target path payload preset params =>
    .changeFigure target path payload preset (params.erase name)
  | .changeBackground path payload params => .changeBackground path payload (params.erase name)

/-- The action without the parameter. -/
def Action.eraseParam {α : Type} (name : String) : Action α → Action α
  | .setTransform target duration easing u => .setTransform target duration easing u
  | .changeFigure target path u preset params =>
    .changeFigure target path u preset (params.erase name)
  | .changeBackground path u params => .changeBackground path u (params.erase name)

/-- The command without the parameter. -/
def Command.eraseParam {α : Type} (name : String) : Command α → Command α
  | .changeFigure c => .changeFigure { c with params := c.params.erase name }
  | .changeBackground c => .changeBackground { c with params := c.params.erase name }
  | c => c

section EraseParam

variable {α : Type} [Scalar α] (name : String)

theorem Action.command_eraseParam (a : Action α) (factor : Vec2 α) (stage : Stage α) :
    (a.eraseParam name).command factor stage = (a.command factor stage).eraseParam name := by
  cases a <;> rfl

theorem Statement.action?_eraseParam (s : Statement α) :
    (s.eraseParam name).action? = s.action?.map (Action.eraseParam name) := by
  cases s with
  | setTransform target payload duration ease =>
    simp only [eraseParam, action?]
    cases (Duration.ofParameter duration).mapError LineError.duration with
    | error e => rfl
    | ok n => cases update payload <;> rfl
  | changeFigure target path payload preset params =>
    simp only [eraseParam, action?]
    cases update payload <;> rfl
  | changeBackground path payload params =>
    simp only [eraseParam, action?]
    cases update payload <;> rfl

/-- The two lines say the same, apart from the parameter. -/
def SameBesides (line line' : List Char) : Prop :=
  (Statement.read? (α := α) line').map (Option.map (Statement.eraseParam name)) =
    (Statement.read? line).map (Option.map (Statement.eraseParam name))

variable {name}

/-- **Lines that say the same apart from a parameter have the same action apart from it.** -/
theorem SameBesides.exists_action {line line' : List Char}
    (h : SameBesides (α := α) name line line') {a : Action α} (ha : Script.action? line = some a) :
    ∃ a', Script.action? line' = some a' ∧ a'.eraseParam name = a.eraseParam name := by
  obtain ⟨s, hs, hact⟩ := Script.exists_statement_of_action? ha
  unfold SameBesides at h
  rw [hs] at h
  obtain ⟨o, hread, ho⟩ := Outcome.map_eq_ok.mp h
  have ho' : Option.map (Statement.eraseParam name) o = some (s.eraseParam name) := ho
  obtain ⟨s', rfl, hs'⟩ := Option.map_eq_some_iff.mp ho'
  have herase : s'.action?.map (Action.eraseParam name) = .ok (a.eraseParam name) := by
    rw [← Statement.action?_eraseParam, hs', Statement.action?_eraseParam, hact]
    rfl
  obtain ⟨a', hact', he⟩ := Outcome.map_eq_ok.mp herase
  exact ⟨a', Script.action?_of_statement hread hact', he⟩

end EraseParam

open Line (Alone Flagless flagToken switchedTokens)
open Parameters (marked token Storable)
open Text (trim Clean Unbroken)

namespace Script

/-! ## Parameters with the flag switched -/

/-- The flag as a parameter. -/
def nextParam : String × String := ("next", "")

/-- The parameters with the flag switched: taken out if it is among them, put at the end if not. -/
def switched (ps : List (String × String)) : List (String × String) :=
  if nextParam ∈ ps then ps.filter fun p => p ≠ nextParam else ps ++ [nextParam]

theorem storable_nextParam : Storable nextParam :=
  storable_of_letters (by decide) (by decide)

/-- What holds of parameters and of the flag holds when it is switched. -/
theorem forall_mem_switched {P : String × String → Prop} {ps : List (String × String)}
    (h : ∀ p ∈ ps, P p) (hnext : P nextParam) : ∀ p ∈ switched ps, P p := by
  intro p hp
  unfold switched at hp
  split at hp
  · exact h p (List.mem_filter.mp hp).1
  · rcases List.mem_append.mp hp with hp | hp
    · exact h p hp
    · rw [List.mem_singleton.mp hp]
      exact hnext

theorem mem_switched_of_ne {p : String × String} (hne : p ≠ nextParam)
    {ps : List (String × String)} (h : p ∈ ps) : p ∈ switched ps := by
  unfold switched
  split
  · exact List.mem_filter.mpr ⟨h, decide_eq_true hne⟩
  · exact List.mem_append_left _ h

theorem transformParam_ne_nextParam (json : List Char) : transformParam json ≠ nextParam := by
  intro h
  have hname : Parameters.transformName = nextParam.1 := congrArg Prod.fst h
  exact absurd hname (by decide)

/-- **Switching touches one name only.** -/
theorem erase_switched (ps : Fields String) :
    Fields.erase (switched ps) nextParam.1 = ps.erase nextParam.1 := by
  unfold switched Fields.erase
  split
  · rw [List.filter_filter]
    refine List.filter_congr fun p _ => ?_
    -- a parameter under another name is another parameter
    have hne : p.1 ≠ nextParam.1 → p ≠ nextParam := fun h he => h (congrArg Prod.fst he)
    by_cases h : p.1 = nextParam.1
    · simp [h]
    · simp [h, hne h]
  · simp

theorem erase_ofPairs_switched (ps : Fields String) :
    (Fields.ofPairs (switched ps)).erase nextParam.1 = (Fields.ofPairs ps).erase nextParam.1 := by
  rw [Fields.erase_ofPairs, Fields.erase_ofPairs, erase_switched]

theorem get?_ofPairs_switched {name : String} (h : name ≠ nextParam.1) (ps : Fields String) :
    (Fields.ofPairs (switched ps)).get? name = (Fields.ofPairs ps).get? name := by
  rw [← Fields.get?_erase_of_ne h, erase_ofPairs_switched, Fields.get?_erase_of_ne h]

/-! ### Anchors -/

/-- The flag is no anchor. -/
theorem anchorOf?_nextParam : anchorOf? nextParam = none := by decide

theorem withoutAnchors_switched (ps : Fields String) :
    withoutAnchors (switched ps) = switched (withoutAnchors ps) := by
  have hmem : nextParam ∈ withoutAnchors ps ↔ nextParam ∈ ps := by
    simp [withoutAnchors, anchorOf?_nextParam]
  unfold switched
  rw [apply_ite withoutAnchors]
  refine if_congr hmem.symm ?_ ?_
  · unfold withoutAnchors
    rw [List.filter_filter, List.filter_filter]
    simp only [Bool.and_comm]
  · simp [withoutAnchors, anchorOf?_nextParam]

theorem presetOf_switched (ps : Fields String) : presetOf (switched ps) = presetOf ps := by
  have hfilter : (switched ps).filterMap anchorOf? = ps.filterMap anchorOf? := by
    unfold switched
    split
    · rw [List.filterMap_filter]
      refine List.filterMap_congr fun p _ => ?_
      by_cases h : p = nextParam
      · simp [h, anchorOf?_nextParam]
      · simp [h]
    · simp [anchorOf?_nextParam]
  unfold presetOf
  rw [hfilter]

theorem targetOf_switched (ps : Fields String) :
    targetOf (Fields.ofPairs (switched ps)) = targetOf (Fields.ofPairs ps) := by
  unfold targetOf
  rw [get?_ofPairs_switched (by decide)]

theorem erase_freeParams (params : Fields String) (name : String) :
    (Statement.freeParams params).erase name = Statement.freeParams (params.erase name) := by
  unfold Statement.freeParams
  rw [Fields.erase_erase_comm _ Statement.idName name,
    Fields.erase_erase_comm _ Parameters.transformName name]

theorem erase_freeParams_switched (ps : Fields String) :
    (Statement.freeParams (Fields.ofPairs (switched ps))).erase nextParam.1 =
      (Statement.freeParams (Fields.ofPairs ps)).erase nextParam.1 := by
  rw [erase_freeParams, erase_ofPairs_switched, erase_freeParams]

/-! ## Switching the text -/

theorem token_eq_flagToken {p : String × String} : token p = flagToken ↔ p = nextParam := by
  constructor
  · intro h
    unfold token at h
    split at h
    · next hv =>
      exact Prod.ext (String.toList_inj.mp h) (String.isEmpty_iff.mp hv)
    · have hm : '=' ∈ flagToken := h ▸ List.mem_append_right _ List.mem_cons_self
      exact absurd hm (by decide)
  · rintro rfl
    rfl

theorem map_token_switched (ps : List (String × String)) :
    (switched ps).map token = switchedTokens (ps.map token) := by
  have hmem : flagToken ∈ ps.map token ↔ nextParam ∈ ps := by
    simp only [List.mem_map, token_eq_flagToken, exists_eq_right]
  unfold switched switchedTokens
  rw [apply_ite (List.map token)]
  refine if_congr hmem.symm ?_ ?_
  · rw [List.filter_map]
    simp only [Function.comp_def, ne_eq, token_eq_flagToken]
  · rw [List.map_append]
    rfl

variable {head : List Char} {ps : List (String × String)}

theorem endsFirmly_tokens (hhead : EndsFirmly head) (h : ∀ p ∈ ps, trim (token p) = token p) :
    EndsFirmly (head ++ marked (ps.map token)) :=
  endsFirmly_append hhead (endsFirmly_marked (List.forall_mem_map.mpr h))

/-- The flag is switched in the body; the terminator stays. -/
theorem toggleNext_terminated (keyword : Keyword) {s : List Char} (h : EndsFirmly s) :
    Line.toggleNext (line keyword s) =
      Line.switchedText (opening keyword ++ s) ++ [Line.terminator] := by
  have hterminated : Line.isTerminated (line keyword s) = true := by simp [Line.isTerminated, line]
  have hbody : Line.body (line keyword s) = opening keyword ++ s := by
    unfold line
    rw [body_terminated (endsFirmly_append (endsFirmly_opening keyword) h)]
  unfold Line.toggleNext
  rw [trim_line]
  dsimp only
  rw [hterminated, if_pos rfl, hbody]
  rfl

theorem flagless_opening_append (keyword : Keyword) (s : List Char) :
    Flagless (opening keyword ++ s) ↔ Flagless s := by
  have hvisible : ∀ c ∈ opening keyword, (!Text.isBlank c) = true :=
    List.all_eq_true.mp (by cases keyword <;> decide)
  exact Line.flagless_append_of_no_blank (fun c hc => by simpa using hvisible c hc) s

/-- **Switching the flag in the text of a line switches the parameter exactly if no other flag
    stands in the text.** -/
theorem toggleNext_line_iff (keyword : Keyword) (hfirm : EndsFirmly head)
    (htrim : ∀ p ∈ ps, trim (token p) = token p) :
    Line.toggleNext (line keyword (head ++ marked (ps.map token))) =
        line keyword (head ++ marked ((switched ps).map token)) ↔
      Flagless head ∧ ∀ p ∈ ps, Alone (token p) := by
  have hend : EndsFirmly (opening keyword ++ head ++
      marked ((ps.map token).filter fun t => t ≠ flagToken)) := by
    refine endsFirmly_append (endsFirmly_append (endsFirmly_opening keyword) hfirm)
      (endsFirmly_marked fun t ht => ?_)
    obtain ⟨p, hp, rfl⟩ := List.mem_map.mp (List.mem_filter.mp ht).1
    exact htrim p hp
  rw [toggleNext_terminated keyword (endsFirmly_tokens hfirm htrim)]
  unfold line
  rw [List.append_left_inj, map_token_switched, ← List.append_assoc, ← List.append_assoc,
    Line.switchedText_marked_iff hend, flagless_opening_append, List.forall_mem_map]

theorem unbroken_switched (h : Unbroken (head ++ marked (ps.map token))) :
    Unbroken (head ++ marked ((switched ps).map token)) := by
  rw [Text.unbroken_append, unbroken_marked, List.forall_mem_map] at h ⊢
  exact ⟨h.1, forall_mem_switched h.2 (by decide)⟩

/-! ## What a switched line says -/

section Said

variable {α : Type} [WrittenScalar α] [Scalar.Readable α]
variable {members : Fields (Json α)} {json : List Char} {path : String}

/-- **A move has no use for the flag.** -/
theorem sameBesides_setTransform (hj : Json.render (.obj members) = .ok json)
    (hv : (Json.obj members).InRange) (hps : ∀ p ∈ ps, Storable p) :
    SameBesides (α := α) nextParam.1 (line .setTransform (json ++ marked (ps.map token)))
      (line .setTransform (json ++ marked ((switched ps).map token))) := by
  have hps' : ∀ p ∈ switched ps, Storable p := forall_mem_switched hps storable_nextParam
  have hfirm : EndsFirmly json := endsFirmly_of_trimmed (trimmed_json hj)
  have hread : Statement.readSetTransform (α := α) (json ++ marked ((switched ps).map token)) =
      Statement.readSetTransform (json ++ marked (ps.map token)) := by
    rw [readSetTransform_marked hj hv hps', readSetTransform_marked hj hv hps,
      get?_ofPairs_switched (by decide), get?_ofPairs_switched (by decide),
      get?_ofPairs_switched (by decide)]
  unfold SameBesides
  rw [read?_line _ (endsFirmly_tokens hfirm fun p hp => (hps p hp).named.trimmed),
    read?_line _ (endsFirmly_tokens hfirm fun p hp => (hps' p hp).named.trimmed)]
  dsimp only
  rw [hread]

theorem sameBesides_changeFigure (hj : Json.render (.obj members) = .ok json)
    (hv : (Json.obj members).InRange) (hpath : Clean path.toList)
    (hps : ∀ p ∈ ps, PictureParam json p) (hm : transformParam json ∈ ps) :
    SameBesides (α := α) nextParam.1 (line .changeFigure (pathText path ps))
      (line .changeFigure (pathText path (switched ps))) := by
  have hps' : ∀ p ∈ switched ps, PictureParam json p :=
    forall_mem_switched hps (.inr storable_nextParam)
  have hm' : transformParam json ∈ switched ps :=
    mem_switched_of_ne (transformParam_ne_nextParam json) hm
  unfold SameBesides
  rw [read?_line _ (endsFirmly_pathText hj hpath hps),
    read?_line _ (endsFirmly_pathText hj hpath hps')]
  dsimp only
  rw [readChangeFigure_pathText hj hv hpath hps hm, readChangeFigure_pathText hj hv hpath hps' hm',
    withoutAnchors_switched, targetOf_switched, presetOf_switched]
  simp only [Except.map, Option.map, Statement.eraseParam, erase_freeParams_switched]

theorem sameBesides_changeBackground (hj : Json.render (.obj members) = .ok json)
    (hv : (Json.obj members).InRange) (hpath : Clean path.toList)
    (hps : ∀ p ∈ ps, PictureParam json p) (hm : transformParam json ∈ ps) :
    SameBesides (α := α) nextParam.1 (line .changeBackground (pathText path ps))
      (line .changeBackground (pathText path (switched ps))) := by
  have hps' : ∀ p ∈ switched ps, PictureParam json p :=
    forall_mem_switched hps (.inr storable_nextParam)
  have hm' : transformParam json ∈ switched ps :=
    mem_switched_of_ne (transformParam_ne_nextParam json) hm
  unfold SameBesides
  rw [read?_line _ (endsFirmly_pathText hj hpath hps),
    read?_line _ (endsFirmly_pathText hj hpath hps')]
  dsimp only
  rw [readChangeBackground_pathText hj hv hpath hps hm,
    readChangeBackground_pathText hj hv hpath hps' hm']
  simp only [Except.map, Option.map, Statement.eraseParam, erase_freeParams_switched]

end Said

end Script
end SceneScript
