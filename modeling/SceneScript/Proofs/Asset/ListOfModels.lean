import SceneScript.Asset.Metadata
import SceneScript.Proofs.Json.LineBreaks

/-!
# The names of a list of models

A list gives names twice over: a model brings its own, each once, and the list puts the names of its
lines together, again each once. What a list comes to does not show that there are two steps: it is
the **ordered union of all the names that are mentioned**, model by model and line by line
(`listMentions`). Leaving out repeated names in a part of a union changes nothing
(`unique_append_unique`, `unique_unique_append`).

The lines are another matter. A list has one document on a line, divided by line feeds, but **it is
cut at every line break**, and three of those can stand in a document's strings as they are. So the
whole list is lost by one such character in one string (`loadMetadata_list`), as it is by a number
that has too many digits to be read.
-/

set_option autoImplicit false

namespace SceneScript
namespace Asset

/-! ## Repeated names -/

section Names

variable {β : Type} [DecidableEq β]

/-- Whether names are chosen before or after the repeated ones go makes no difference. -/
theorem eraseDups_filter (p : β → Bool) (xs : List β) :
    (xs.filter p).eraseDups = xs.eraseDups.filter p := by
  match xs with
  | [] => rfl
  | x :: xs =>
    -- repeated names go from the tail before it is looked at, so the tail itself is no case
    have hrest := eraseDups_filter p (xs.filter fun y => !y == x)
    have hswap : (xs.filter fun y => !y == x).filter p = (xs.filter p).filter fun y => !y == x :=
      List.filter_comm _ _ _
    rw [hswap] at hrest
    rw [List.eraseDups_cons]
    cases hx : p x with
    | true =>
      rw [List.filter_cons_of_pos hx, List.filter_cons_of_pos hx, List.eraseDups_cons, hrest]
    | false =>
      -- a name that is not chosen is not among the chosen ones
      have hsame : ((xs.filter p).filter fun y => !y == x) = xs.filter p := by
        refine List.filter_eq_self.mpr fun y hy => ?_
        have hne : y ≠ x := by
          rintro rfl
          rw [(List.mem_filter.mp hy).2] at hx
          cases hx
        simp [hne]
      rw [hsame] at hrest
      rw [List.filter_cons_of_neg (by simp [hx]), List.filter_cons_of_neg (by simp [hx]), hrest]
termination_by xs.length
decreasing_by exact Nat.lt_succ_of_le (List.length_filter_le _ _)

theorem eraseDups_cons_eq (x : β) (xs : List β) :
    (x :: xs).eraseDups = x :: xs.eraseDups.filter fun y => !y == x := by
  rw [List.eraseDups_cons, eraseDups_filter]

theorem eraseDups_eraseDups (xs : List β) : xs.eraseDups.eraseDups = xs.eraseDups := by
  induction xs with
  | nil => rfl
  | cons x xs ih =>
    rw [eraseDups_cons_eq, eraseDups_cons_eq, eraseDups_filter, ih, List.filter_filter]
    simp only [Bool.and_self]

theorem eraseDups_append_left (xs ys : List β) :
    (xs.eraseDups ++ ys).eraseDups = (xs ++ ys).eraseDups := by
  rw [List.eraseDups_append, List.eraseDups_append, eraseDups_eraseDups]
  unfold List.removeAll
  simp only [List.elem_eq_mem, List.mem_eraseDups]

theorem eraseDups_append_right (xs ys : List β) :
    (xs ++ ys.eraseDups).eraseDups = (xs ++ ys).eraseDups := by
  rw [List.eraseDups_append, List.eraseDups_append]
  unfold List.removeAll
  rw [eraseDups_filter, eraseDups_filter, eraseDups_eraseDups]

end Names

namespace Metadata

/-- **Leaving out repeated names on the left first changes nothing.** -/
theorem unique_unique_append (m n : Metadata) :
    (m.unique.append n).unique = (m.append n).unique := by
  unfold unique append
  rw [eraseDups_append_left, eraseDups_append_left]

/-- **Nor does it on the right.** -/
theorem unique_append_unique (m n : Metadata) :
    (m.append n.unique).unique = (m.append n).unique := by
  unfold unique append
  rw [eraseDups_append_right, eraseDups_append_right]

/-- What a union comes to depends on what its parts come to. -/
theorem unique_append_congr {m m' n n' : Metadata} (hm : m.unique = m'.unique)
    (hn : n.unique = n'.unique) : (m.append n).unique = (m'.append n').unique := by
  rw [← unique_unique_append, hm, unique_unique_append, ← unique_append_unique, hn,
    unique_append_unique]

end Metadata

/-! ## What is mentioned -/

section Mentions

variable {α : Type} [WrittenScalar α]

/-- The names that a model mentions, as often as it does. -/
def modelMentions : Json α → Metadata
  | .obj members =>
    let references :=
      match Fields.get? members "FileReferences" with
      | some (.obj references) => references
      | _ => members
    ⟨names (either references "Motions" "motions"),
      names (either references "Expressions" "expressions")⟩
  | _ => Metadata.none

/-- A model has the names that it mentions, each once. -/
theorem ofModel_eq (model : Json α) : ofModel model = (modelMentions model).unique := by
  cases model with
  | obj members => rfl
  | null => rfl
  | bool b => rfl
  | int n => rfl
  | real x => rfl
  | str s => rfl
  | arr items => rfl

variable (α) (read : Path → Except FileError (List Char))

/-- The names that the model in a file mentions. A file that is not there, or whose text is no
    document, mentions none. -/
def fileMentions (path : Path) : Metadata :=
  match read path with
  | .error _ => Metadata.none
  | .ok text =>
    match Json.readDocument (α := α) text with
    | .error _ => Metadata.none
    | .ok model => modelMentions model

/-- The names that an entry of a list mentions: first those of the model whose file it names, then
    those of its own. What is no object mentions none. -/
def entryMentions (home : Path) : Json α → Metadata
  | .obj members =>
    let model :=
      match modelPath? members with
      | Option.none => Metadata.none
      | some sub => fileMentions α read (home.join (Path.ofText sub))
    model.append (ownNames members)
  | _ => Metadata.none

/-- The names that the entries of a list mention, in their order. -/
def listMentions (home : Path) (entries : List (Json α)) : Metadata :=
  ⟨entries.flatMap fun entry => (entryMentions α read home entry).motions,
    entries.flatMap fun entry => (entryMentions α read home entry).expressions⟩

theorem listMentions_cons (home : Path) (entry : Json α) (entries : List (Json α)) :
    listMentions α read home (entry :: entries) =
      (entryMentions α read home entry).append (listMentions α read home entries) := rfl

/-! ## What is loaded -/

theorem document_ok {text : List Char} {v : Json α} (h : Json.readDocument text = .ok v) :
    document α text = .ok v := by
  unfold document
  rw [h]
  rfl

theorem document_error {text : List Char} {e : Json.ReadError}
    (h : Json.readDocument (α := α) text = .error e) :
    document α text = .error (.document text e) := by
  unfold document
  rw [h]
  rfl

/-- A model is loaded as the names that its file mentions, or it cannot be and mentions none. -/
theorem loadModel_cases (path : Path) :
    loadModel α read path = .ok (fileMentions α read path).unique ∨
      (∃ e, loadModel α read path = .error e) ∧ fileMentions α read path = Metadata.none := by
  unfold loadModel fileMentions
  cases read path with
  | error e => exact .inr ⟨⟨_, rfl⟩, rfl⟩
  | ok text =>
    change (document α text >>= fun model => .ok (ofModel model)) = _ ∨
      (∃ e, (document α text >>= fun model => .ok (ofModel model)) = .error e) ∧ _
    dsimp only
    cases hmodel : Json.readDocument (α := α) text with
    | error e =>
      rw [document_error α hmodel]
      exact .inr ⟨⟨_, rfl⟩, rfl⟩
    | ok model =>
      rw [document_ok α hmodel]
      exact .inl (congrArg Except.ok (ofModel_eq model))

/-- **An entry brings the names that it mentions.** -/
theorem unique_loadEntry (home : Path) (entry : Json α) :
    (loadEntry α read home entry).1.unique = (entryMentions α read home entry).unique := by
  cases entry with
  | obj members =>
    unfold loadEntry entryMentions
    dsimp only
    cases modelPath? members with
    | none => rfl
    | some sub =>
      dsimp only
      obtain hok | ⟨⟨e, herror⟩, hnone⟩ := loadModel_cases α read (home.join (Path.ofText sub))
      · rw [hok]
        exact Metadata.unique_unique_append _ _
      · rw [herror, hnone]
        rfl
  | null => rfl
  | bool b => rfl
  | int n => rfl
  | real x => rfl
  | str s => rfl
  | arr items => rfl

theorem loadLines_cons (home : Path) {line : List Char} {entry : Json α}
    (h : document α line = .ok entry) (lines : List (List Char)) :
    (loadLines α read home (line :: lines)).1 =
      (loadLines α read home lines).1.map (loadEntry α read home entry).1.append := by
  rw [loadLines, h]

/-- **Lines that are documents bring the names that these mention.** -/
theorem loadLines_ok (home : Path) {lines : List (List Char)} {entries : List (Json α)}
    (h : List.Forall₂ (fun line entry => document α line = .ok entry) lines entries) :
    ∃ names, (loadLines α read home lines).1 = .ok names ∧
      names.unique = (listMentions α read home entries).unique := by
  induction h with
  | nil => exact ⟨Metadata.none, rfl, rfl⟩
  | @cons line entry lines entries hline _ ih =>
    obtain ⟨names, hnames, hunique⟩ := ih
    refine ⟨(loadEntry α read home entry).1.append names, ?_, ?_⟩
    · rw [loadLines_cons α read home hline, hnames]
      rfl
    · rw [listMentions_cons]
      exact Metadata.unique_append_congr (unique_loadEntry α read home entry) hunique

/-- **One line that is no document spoils the list.** -/
theorem loadLines_error (home : Path) {lines : List (List Char)} {line : List Char} {e : LoadError}
    (hl : line ∈ lines) (he : document α line = .error e) :
    ∃ e', (loadLines α read home lines).1 = .error e' := by
  induction lines with
  | nil => cases hl
  | cons first lines ih =>
    cases hfirst : document α first with
    | error e' => exact ⟨e', by rw [loadLines, hfirst]⟩
    | ok entry =>
      rw [loadLines_cons α read home hfirst]
      rcases List.mem_cons.mp hl with rfl | hl
      · rw [he] at hfirst
        cases hfirst
      · obtain ⟨e', hrest⟩ := ih hl
        exact ⟨e', by rw [hrest]; rfl⟩

/-! ## Documents on lines -/

variable {α}

/-- No text that a document is written as has a raw line break, and no number in a document has too
    many digits. -/
def Loadable (texts : List (List Char)) (docs : List (Json α)) : Prop :=
  (∀ text ∈ texts, Json.RawUnbroken text) ∧ ∀ doc ∈ docs, doc.Accepted .lenient

variable {t : List Char} {v : Json α}

/-- A text is not blank if it begins, behind its space, with a character that is seen. -/
theorem isBlankText_of_starts (h : ∃ c r, Json.skipSpace t = c :: r ∧ Text.Visible c) :
    Text.isBlankText t = false := by
  obtain ⟨c, r, hs, hseen⟩ := h
  have hc : c ∈ t := (List.dropWhile_suffix _).subset (hs ▸ List.mem_cons_self)
  exact (Text.hasContent_iff t).mp ⟨c, hc, hseen.isBlank⟩

/-- A text with a raw line break has a line that is no document: the one before the break. -/
theorem exists_error_of_rawBreak (h : Json.Spells t v) (hn : '\n' ∉ t) (hr : '\r' ∉ t)
    (hbreak : ¬ Json.RawUnbroken t) :
    ∃ line ∈ Text.nonBlankLines t, ∃ e, document α line = .error e := by
  rw [← Json.unbroken_iff_of_spells h hn hr] at hbreak
  -- whichever of the three comes first, what stands before it is a line of its own
  obtain ⟨a, b, r, rfl, ha, hb⟩ := Text.exists_first_break hbreak
  have hmem : b ∈ a ++ b :: r := List.mem_append_right a List.mem_cons_self
  have hraw : b ∈ Json.rawBreaks := Json.mem_rawBreaks_of_printable (h.allPrintable b hmem) hb
    (ne_of_mem_of_not_mem hmem hn) (ne_of_mem_of_not_mem hmem hr)
  have hblank : Text.isBlankText a = false := isBlankText_of_starts (Json.skipSpace_cut h hraw)
  obtain ⟨lines, hlines⟩ := Text.mem_splitLines_append_break (r := r) ha hb
  refine ⟨a, List.mem_filter.mpr ⟨hlines ▸ List.mem_cons_self, ?_⟩, ?_⟩
  · simp [hblank]
  · cases hdoc : Json.readDocument (α := α) a with
    | error e => exact ⟨_, document_error α hdoc⟩
    | ok w => exact absurd hdoc (Json.readDocument_cut h hraw w)

/-- A text whose document has a number with too many digits has a line that is no document. -/
theorem exists_error_of_refused (h : Json.Spells t v) (hn : '\n' ∉ t) (hr : '\r' ∉ t)
    (hrefused : ¬ v.Accepted .lenient) :
    ∃ line ∈ Text.nonBlankLines t, ∃ e, document α line = .error e := by
  by_cases hraw : Json.RawUnbroken t
  · have hline : Text.nonBlankLines t = [t] := Text.nonBlankLines_of_unbroken
      ((Json.unbroken_iff_of_spells h hn hr).mpr hraw)
      (isBlankText_of_starts (Json.skipSpace_spells h))
    rw [hline]
    obtain ⟨ha, -⟩ | ⟨-, fault, hx⟩ := Json.readDocument_cases h
    · exact absurd ha hrefused
    · exact ⟨t, List.mem_singleton_self t, _, document_error α hx⟩
  · -- cut in pieces, the text fails before its numbers are looked at
    exact exists_error_of_rawBreak h hn hr hraw

/-- **Texts that are read are the documents that they spell.** -/
theorem documents_of_loadable {texts : List (List Char)} {docs : List (Json α)}
    (h : List.Forall₂ Json.Spells texts docs) (hdocs : ∀ doc ∈ docs, doc.Accepted .lenient) :
    List.Forall₂ (fun line entry => document α line = .ok entry) texts
      (docs.map Json.distinct) := by
  induction h with
  | nil => exact .nil
  | cons hspells _ ih =>
    obtain ⟨hdoc, hdocs⟩ := List.forall_mem_cons.mp hdocs
    refine .cons ?_ (ih hdocs)
    obtain ⟨-, hx⟩ | ⟨ha, -⟩ := Json.readDocument_cases hspells
    · exact document_ok α hx
    · exact absurd hdoc ha

theorem unbroken_of_loadable {texts : List (List Char)} {docs : List (Json α)}
    (h : List.Forall₂ Json.Spells texts docs)
    (hends : ∀ text ∈ texts, '\n' ∉ text ∧ '\r' ∉ text)
    (hraw : ∀ text ∈ texts, Json.RawUnbroken text) :
    ∀ text ∈ texts, Text.Unbroken text := by
  induction h with
  | nil => exact List.forall_mem_nil _
  | cons hspells _ ih =>
    obtain ⟨⟨hn, hr⟩, hends⟩ := List.forall_mem_cons.mp hends
    obtain ⟨htext, hraw⟩ := List.forall_mem_cons.mp hraw
    exact List.forall_mem_cons.mpr
      ⟨(Json.unbroken_iff_of_spells hspells hn hr).mpr htext, ih hends hraw⟩

/-- **Of texts that do not load, one has a line that is no document.** -/
theorem exists_error_of_not_loadable {texts : List (List Char)} {docs : List (Json α)}
    (h : List.Forall₂ Json.Spells texts docs)
    (hends : ∀ text ∈ texts, '\n' ∉ text ∧ '\r' ∉ text) (hread : ¬ Loadable texts docs) :
    ∃ text ∈ texts, ∃ line ∈ Text.nonBlankLines text, ∃ e, document α line = .error e := by
  induction h with
  | nil => exact absurd ⟨List.forall_mem_nil _, List.forall_mem_nil _⟩ hread
  | @cons text doc texts docs hspells _ ih =>
    obtain ⟨⟨hn, hr⟩, hends⟩ := List.forall_mem_cons.mp hends
    by_cases hraw : Json.RawUnbroken text
    · by_cases hdoc : doc.Accepted .lenient
      · obtain ⟨text', hmem, hline⟩ := ih hends fun hrest => hread
          ⟨List.forall_mem_cons.mpr ⟨hraw, hrest.1⟩, List.forall_mem_cons.mpr ⟨hdoc, hrest.2⟩⟩
        exact ⟨text', List.mem_cons_of_mem text hmem, hline⟩
      · exact ⟨text, List.mem_cons_self, exists_error_of_refused hspells hn hr hdoc⟩
    · exact ⟨text, List.mem_cons_self, exists_error_of_rawBreak hspells hn hr hraw⟩

/-! ## Whole lists -/

variable {read} {gameFolder : Option String} {path : String}

/-- What a list comes to, from its lines. -/
theorem loadMetadata_of_list (hpath : category path = .live2dList) {text : List Char}
    (hread : read (Path.ofText (resolve path gameFolder .figure).1) = .ok text) :
    (loadMetadata α read gameFolder path).1 =
      match (loadLines α read (Path.ofText (resolve path gameFolder .figure).1).parent
        (Text.nonBlankLines text)).1 with
      | .ok names => names.unique
      | .error _ => Metadata.none := by
  unfold loadMetadata loadList
  rw [hpath, if_neg (by decide)]
  dsimp only
  rw [hread, if_pos rfl]
  dsimp only
  unfold Text.nonBlankLines
  cases (loadLines α read (Path.ofText (resolve path gameFolder .figure).1).parent
    ((Text.splitLines text).filter fun line => !Text.isBlankText line)).1 with
  | ok names => rfl
  | error e => rfl

/-- **The names of a list are the ordered union of all that its entries mention**, if its texts
    load; if they do not, the list has no names at all. The texts are divided by line feeds, blank
    ones may stand between them, and each spells its document in any way; of members with one name
    the last counts. -/
theorem loadMetadata_list (hpath : category path = .live2dList) {parts : List (List Char)}
    (hread : read (Path.ofText (resolve path gameFolder .figure).1) = .ok (Line.join parts))
    (hends : ∀ part ∈ parts, '\n' ∉ part ∧ '\r' ∉ part) {texts : List (List Char)}
    (htexts : (parts.filter fun part => !Text.isBlankText part) = texts) {docs : List (Json α)}
    (hdocs : List.Forall₂ Json.Spells texts docs) :
    (Loadable texts docs → (loadMetadata α read gameFolder path).1 =
      (listMentions α read (Path.ofText (resolve path gameFolder .figure).1).parent
        (docs.map Json.distinct)).unique) ∧
    (¬ Loadable texts docs → (loadMetadata α read gameFolder path).1 = Metadata.none) := by
  subst htexts
  rw [loadMetadata_of_list hpath hread]
  have hends' : ∀ text ∈ parts.filter fun part => !Text.isBlankText part,
      '\n' ∉ text ∧ '\r' ∉ text := fun text htext => hends text (List.mem_of_mem_filter htext)
  refine ⟨fun ⟨hraw, hnumbers⟩ => ?_, fun hno => ?_⟩
  · have hlines : Text.nonBlankLines (Line.join parts) =
        parts.filter fun part => !Text.isBlankText part :=
      Text.nonBlankLines_join_of_unbroken fun part hpart hb =>
        unbroken_of_loadable hdocs hends' hraw part (List.mem_filter.mpr ⟨hpart, by simp [hb]⟩)
    obtain ⟨names, hnames, hunique⟩ := loadLines_ok α read
      (Path.ofText (resolve path gameFolder .figure).1).parent
      (documents_of_loadable hdocs hnumbers)
    rw [hlines, hnames]
    exact hunique
  · obtain ⟨text, htext, line, hline, e, he⟩ := exists_error_of_not_loadable hdocs hends' hno
    have hmem : line ∈ Text.nonBlankLines (Line.join parts) := by
      rw [Text.nonBlankLines_join]
      exact List.mem_flatMap.mpr ⟨text, List.mem_of_mem_filter htext, hline⟩
    obtain ⟨e', he'⟩ := loadLines_error α read
      (Path.ofText (resolve path gameFolder .figure).1).parent hmem he
    rw [he']

/-- Two lists in the folder of a game, each of two lines with an empty one between them. A separator
    in a name on the second line is the loss of both. -/
theorem loadMetadata_list_separator :
    let entry (names : List String) : Json Float := .obj [("motions", .arr (names.map .str))]
    let first := "\x7b\"motions\":[\"idle\"]\x7d".toList
    let bow := "\x7b\"motions\":[\"idle\",\"bow\"]\x7d".toList
    let parted := "\x7b\"motions\":[\"idle\",\"b\u2028w\"]\x7d".toList
    let files (second : List Char) (path : Path) : Except FileError (List Char) :=
      if path.text = "/g/game/figure/group.jsonl" then .ok (Line.join [first, [], second])
      else .error (.missing path.text)
    let home := Path.ofText "/g/game/figure"
    (loadMetadata Float (files bow) (some "/g") "group.jsonl").1 = ⟨["idle", "bow"], []⟩ ∧
      (loadMetadata Float (files parted) (some "/g") "group.jsonl").1 = Metadata.none ∧
      (listMentions Float (files parted) home [entry ["idle"], entry ["idle", "b\u2028w"]]).unique =
        ⟨["idle", "b\u2028w"], []⟩ := by
  repeat rewrite [String.toList_ofList]
  intro entry first bow parted files home
  have hpath : category "group.jsonl" = .live2dList := by decide
  have hspells : ∀ {names : List String} {text : List Char}, Json.render (entry names) = .ok text →
      (entry names).InRange → Json.Spells text (entry names) :=
    fun h hv => (Json.spells_render _ h hv).1.spells
  have hfirst : Json.Spells first (entry ["idle"]) :=
    hspells (by decide) ⟨by decide, ⟨trivial, trivial⟩, trivial⟩
  have hbow : Json.Spells bow (entry ["idle", "bow"]) :=
    hspells (by decide) ⟨by decide, ⟨trivial, trivial, trivial⟩, trivial⟩
  have hparted : Json.Spells parted (entry ["idle", "b\u2028w"]) :=
    hspells (by decide) ⟨by decide, ⟨trivial, trivial, trivial⟩, trivial⟩
  have hloads : Loadable [first, bow] [entry ["idle"], entry ["idle", "bow"]] := by
    refine ⟨by decide, List.forall_mem_cons.mpr ⟨?_, List.forall_mem_cons.mpr ⟨?_, ?_⟩⟩⟩
    · exact ⟨trivial, ⟨trivial, trivial⟩, trivial⟩
    · exact ⟨trivial, ⟨trivial, trivial, trivial⟩, trivial⟩
    · exact List.forall_mem_nil _
  have hlost : ¬ Loadable [first, parted] [entry ["idle"], entry ["idle", "b\u2028w"]] :=
    fun h => absurd h.1 (by decide)
  have hread : ∀ second ∈ [bow, parted],
      files second (Path.ofText (resolve "group.jsonl" (some "/g") .figure).1) =
        .ok (Line.join [first, [], second]) := by decide
  have hends : ∀ second ∈ [bow, parted], ∀ part ∈ [first, [], second],
      '\n' ∉ part ∧ '\r' ∉ part := by decide
  refine ⟨?_, ?_, by decide⟩
  · have hnames := (loadMetadata_list hpath (hread bow (by simp)) (hends bow (by simp))
      (by decide) (.cons hfirst (.cons hbow .nil))).1 hloads
    rw [hnames]
    decide
  · exact (loadMetadata_list hpath (hread parted (by simp)) (hends parted (by simp))
      (by decide) (.cons hfirst (.cons hparted .nil))).2 hlost

end Mentions

end Asset
end SceneScript
