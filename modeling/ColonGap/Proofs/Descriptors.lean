import ColonGap.Proofs.Documents
import ColonGap.Report.Sarif
import ColonGap.Rule.BeforeColon
import Mathlib.Data.List.Forall2
import Mathlib.Data.List.Nodup

/-!
# Which rules a SARIF report describes

A report describes each rule once, and each result refers to a description (`sarif_describes`). The
descriptions are collected in one list, first for the rules that are given and then for those that
failures name. Seen through the ids both do the same: an id that is in the list already changes
nothing, and any other is put at its end (`enroll`). So the ids are the names in the order in which
they first occur (`foldl_enroll`), whichever of them the rules and the failures share.

A log is read here as its consumers read it, field by field and without knowing how it was built:
`describedIds?` and `results?` look the parts up by their names, and what a result and its fix
object say is spelled out down to texts and numbers (`IsResult`, `IsFix`).
-/

namespace ColonGap.Report

variable {failures : List Failure} {ids : List Bytes} {f : Failure}

/-! ### Ids in the order of their first occurrence -/

/-- Put an id at the end of a list, unless it is in the list. -/
def enroll (ids : List Bytes) (id : Bytes) : List Bytes :=
  if id ∈ ids then ids else ids ++ [id]

theorem enroll_cons_self (ids : List Bytes) (id : Bytes) : enroll (id :: ids) id = id :: ids :=
  if_pos List.mem_cons_self

/-- An id other than the first one is looked for among the others. -/
theorem enroll_cons_of_ne {first id : Bytes} (h : id ≠ first) (ids : List Bytes) :
    enroll (first :: ids) id = first :: enroll ids id := by
  simp only [enroll, List.mem_cons, h, false_or]
  split <;> rfl

/-- A list of ids that differ stays one. -/
theorem nodup_enroll (h : ids.Nodup) (id : Bytes) : (enroll ids id).Nodup := by
  rw [enroll]
  split
  case isTrue => exact h
  case isFalse hnew => rw [← List.concat_eq_append]; exact h.concat hnew

/-- Ids that differ still do when others are put in. -/
theorem nodup_foldl_enroll (h : ids.Nodup) (names : List Bytes) :
    (names.foldl enroll ids).Nodup := by
  induction names generalizing ids with
  | nil => exact h
  | cons name names ih => exact ih (nodup_enroll h name)

/-- Enrolling names adds those that are not in the list, in the order of their first occurrence. -/
theorem foldl_enroll (ids names : List Bytes) :
    names.foldl enroll ids = ids ++ (names.removeAll ids).eraseDups := by
  induction names generalizing ids with
  | nil => simp [List.removeAll]
  | cons name names ih =>
    rw [List.foldl_cons, ih, enroll]
    by_cases hmem : name ∈ ids
    · simp [List.removeAll, hmem]
    · have hnames : names.removeAll (ids ++ [name])
          = (names.removeAll ids).filter fun other ↦ !other == name := by
        simp only [List.removeAll, List.filter_filter]
        exact List.filter_congr fun other _ ↦ by simp [beq_eq_decide, Bool.and_comm]
      rw [if_neg hmem, hnames, List.append_assoc]
      simp [List.removeAll, hmem, List.eraseDups_cons]

theorem foldl_enroll_nil (names : List Bytes) : names.foldl enroll [] = names.eraseDups := by
  rw [foldl_enroll]
  simp [List.removeAll]

/-! ### The ids of the descriptions -/

/-- Describing a rule puts its name into the list. -/
theorem map_id_describe (r : Rule) (ds : List Descriptor) :
    (describe r ds).map (·.id) = enroll (ds.map (·.id)) r.name := by
  induction ds with
  | nil => rfl
  | cons d ds ih =>
    rw [describe, List.map_cons]
    split
    case isTrue hid => rw [← eq_of_beq hid, enroll_cons_self, List.map_cons]
    case isFalse hid =>
      rw [enroll_cons_of_ne fun h ↦ hid (by simp [h]), List.map_cons, ih]

/-- Mentioning an id puts it into the list. -/
theorem map_id_mention (id : Bytes) (ds : List Descriptor) :
    (mention id ds).map (·.id) = enroll (ds.map (·.id)) id := by
  have hmem : (ds.any fun d ↦ d.id == id) = true ↔ id ∈ ds.map (·.id) := by simp
  rw [mention, enroll, ← if_congr hmem rfl rfl]
  split
  case isTrue => rfl
  case isFalse => simp

/-- Additions that enroll the ids of single items enroll those of a list of items. -/
theorem map_id_foldl {α : Type} {add : α → List Descriptor → List Descriptor} {name : α → Bytes}
    (h : ∀ a ds, (add a ds).map (·.id) = enroll (ds.map (·.id)) (name a)) (items : List α)
    (ds : List Descriptor) :
    (items.foldl (fun ds a ↦ add a ds) ds).map (·.id)
      = (items.map name).foldl enroll (ds.map (·.id)) := by
  induction items generalizing ds with
  | nil => rfl
  | cons a items ih => rw [List.foldl_cons, ih, h, List.map_cons, List.foldl_cons]

/-- The rules that are described are those that are given, and then those that failures name. -/
theorem map_id_descriptors (rules : List Rule) (failures : List Failure) :
    (descriptors rules failures).map (·.id)
      = (failures.map (·.rule)).foldl enroll ((rules.map (·.name)).foldl enroll []) := by
  rw [descriptors, map_id_foldl fun f ds ↦ map_id_mention f.rule ds, map_id_foldl map_id_describe,
    List.map_nil]

theorem nodup_map_id_descriptors (rules : List Rule) (failures : List Failure) :
    ((descriptors rules failures).map (·.id)).Nodup := by
  rw [map_id_descriptors]
  exact nodup_foldl_enroll (nodup_foldl_enroll .nil _) _

theorem map_id_descriptors_eq (rules : List Rule) (failures : List Failure) :
    (descriptors rules failures).map (·.id)
      = (rules.map (·.name)).eraseDups
        ++ ((failures.map (·.rule)).removeAll (rules.map (·.name))).eraseDups := by
  rw [map_id_descriptors, ← List.foldl_append, foldl_enroll_nil, List.eraseDups_append]

/-- Each rule that a failure names is described. -/
theorem rule_mem_map_id_descriptors (h : f ∈ failures) :
    f.rule ∈ (descriptors rules failures).map (·.id) := by
  rw [map_id_descriptors_eq]
  by_cases hrule : f.rule ∈ rules.map (·.name)
  · exact List.mem_append_left _ (List.mem_eraseDups.2 hrule)
  · refine List.mem_append_right _ (List.mem_eraseDups.2 ?_)
    exact List.mem_filter.2 ⟨List.mem_map_of_mem h, by simpa using hrule⟩

/-! ### The parts of a log -/

/-- The field of a record that has a name. -/
def Document.field? (name : String) : Document → Option Document
  | record fields => fields.lookup name
  | _ => none

/-- What some names lead to, from field to field. -/
def Document.at? : (names : List String) → Document → Option Document
  | [], d => some d
  | name :: names, d => (d.field? name).bind (at? names)

/-- The items of a list. -/
def Document.items? : Document → Option (List Document)
  | list items => some items
  | _ => none

/-- The bytes of a text. -/
def Document.text? : Document → Option Bytes
  | text s => some s
  | _ => none

/-- The only run of a log. -/
def run? (log : Document) : Option Document := do
  let [run] ← (← log.field? "runs").items? | none
  some run

/-- The ids of the rules that a log describes. -/
def describedIds? (log : Document) : Option (List Bytes) := do
  let driver ← (← (← run? log).field? "tool").field? "driver"
  (← (← driver.field? "rules").items?).mapM fun d ↦ d.field? "id" >>= Document.text?

/-- The results of a log. -/
def results? (log : Document) : Option (List Document) := do
  (← (← run? log).field? "results").items?

/-- A SARIF report is its log and nothing else. -/
theorem read?_sarif (rules : List Rule) (failures : List Failure) :
    read? (sarif rules failures).length (sarif rules failures)
      = some ((sarifDocument rules failures).value, []) := by
  have hend : ∀ b ∈ ([] : Bytes).head?, isDecimalDigit b = false := by simp
  rw [sarif]
  simpa only [List.append_nil] using read?_render (sarifDocument rules failures) le_rfl hend

/-- The ids of the descriptions can be read off their documents. -/
theorem mapM_descriptorDocument (ds : List Descriptor) :
    ((ds.map descriptorDocument).mapM fun d ↦ d.field? "id" >>= Document.text?)
      = some (ds.map (·.id)) := by
  induction ds with
  | nil => rfl
  | cons d ds ih =>
    have hid : ((descriptorDocument d).field? "id" >>= Document.text?) = some d.id := by
      obtain ⟨id, description, rationale⟩ := d
      cases description <;> rfl
    rw [List.map_cons, List.mapM_cons, hid, ih]
    rfl

theorem describedIds?_sarifDocument (rules : List Rule) (failures : List Failure) :
    describedIds? (sarifDocument rules failures)
      = some ((descriptors rules failures).map (·.id)) :=
  mapM_descriptorDocument _

theorem results?_sarifDocument (rules : List Rule) (failures : List Failure) :
    results? (sarifDocument rules failures)
      = some (failures.map (resultDocument (descriptors rules failures))) :=
  rfl

/-! ### Results -/

/-- A replacement in a log: the bytes that go, by their offset and their number, and the text that
comes for them. -/
structure IsReplacement (r : Replacement) (replacement : Document) : Prop where
  offset : replacement.at? ["deletedRegion", "byteOffset"] = some (.number r.start)
  length : replacement.at? ["deletedRegion", "byteLength"]
    = some (.number ((r.stop - r.start).bmod (2 ^ 64)))
  text : replacement.at? ["insertedContent", "text"] = some (.text r.text)

/-- A change of a file by one replacement. -/
structure IsChange (file : Bytes) (r : Replacement) (change : Document) : Prop where
  file : change.at? ["artifactLocation", "uri"] = some (.text file)
  replacements : ∃ replacement, change.field? "replacements" = some (.list [replacement]) ∧
    IsReplacement r replacement

/-- The fix object of a failure that is mended by a replacement: it describes itself by the message
of the failure, and it changes the file of the failure and no other. -/
structure IsFix (f : Failure) (r : Replacement) (fix : Document) : Prop where
  description : fix.at? ["description", "text"] = some (.text f.message)
  changes : ∃ change, fix.field? "artifactChanges" = some (.list [change]) ∧
    IsChange f.file r change

/-- The only place that a result names: the file, lines and columns, and the range of bytes. -/
structure IsLocation (f : Failure) (location : Document) : Prop where
  file : location.at? ["physicalLocation", "artifactLocation", "uri"] = some (.text f.file)
  startLine : location.at? ["physicalLocation", "region", "startLine"]
    = some (.number f.position.line)
  startColumn : location.at? ["physicalLocation", "region", "startColumn"]
    = some (.number f.position.column)
  endLine : location.at? ["physicalLocation", "region", "endLine"]
    = some (.number f.endPosition.line)
  endColumn : location.at? ["physicalLocation", "region", "endColumn"]
    = some (.number f.endPosition.column)
  offset : location.at? ["physicalLocation", "region", "byteOffset"] = some (.number f.start)
  length : location.at? ["physicalLocation", "region", "byteLength"]
    = some (.number ((f.stop - f.start).bmod (2 ^ 64)))

/-- The result of a failure in a log that describes some rules. It refers to the description of the
rule by its id and by its place, and it has a fix object, one only, exactly if the failure has a
fix. -/
structure IsResult (ids : List Bytes) (f : Failure) (result : Document) : Prop where
  ruleId : result.field? "ruleId" = some (.text f.rule)
  described : f.rule ∈ ids
  ruleIndex : ∃ i : Nat, result.field? "ruleIndex" = some (.number i) ∧ ids[i]? = some f.rule
  level : result.field? "level"
    = some (.text (if f.severity = utf8 "warning" then utf8 "warning" else utf8 "error"))
  message : result.at? ["message", "text"] = some (.text f.message)
  location : ∃ location, result.field? "locations" = some (.list [location]) ∧
    IsLocation f location
  unfixed : f.fix = none → result.field? "fixes" = none
  fixed : ∀ r, f.fix = some r →
    ∃ fix, result.field? "fixes" = some (.list [fix]) ∧ IsFix f r fix

theorem isFix_fixDocument (f : Failure) (r : Replacement) : IsFix f r (fixDocument f r) where
  description := rfl
  changes := ⟨_, rfl, rfl, _, rfl, rfl, rfl, rfl⟩

/-- The place of the description of a rule is where its id is. -/
theorem getElem?_findIdx_id {ds : List Descriptor} {id : Bytes} (h : id ∈ ds.map (·.id)) :
    (ds.map (·.id))[ds.findIdx (·.id == id)]? = some id := by
  obtain ⟨d, hd, hid⟩ := List.mem_map.1 h
  have hlt : ds.findIdx (·.id == id) < ds.length :=
    List.findIdx_lt_length_of_exists ⟨d, hd, by simp [hid]⟩
  have hfound : ds[ds.findIdx (·.id == id)].id = id := eq_of_beq (List.findIdx_getElem (w := hlt))
  rw [List.getElem?_map, List.getElem?_eq_getElem hlt, Option.map_some, hfound]

/-- The result of a failure says what the failure is. -/
theorem isResult_resultDocument {ds : List Descriptor} (h : f.rule ∈ ds.map (·.id)) :
    IsResult (ds.map (·.id)) f (resultDocument ds f) where
  ruleId := rfl
  described := h
  ruleIndex := ⟨_, rfl, getElem?_findIdx_id h⟩
  level := by
    have hlevel : level f.severity
        = if f.severity = utf8 "warning" then utf8 "warning" else utf8 "error" := by
      simp [level, Severity.warning, Severity.error]
    exact congrArg (some ∘ Document.text) hlevel
  message := rfl
  location := ⟨_, rfl, rfl, rfl, rfl, rfl, rfl, rfl, rfl⟩
  unfixed := by
    intro hnone
    rw [resultDocument, hnone]
    rfl
  fixed := by
    intro r hr
    refine ⟨fixDocument f r, ?_, isFix_fixDocument f r⟩
    rw [resultDocument, hr]
    rfl

/-- **Descriptions cover the results.** A SARIF report is read back as its log, and the log
describes no rule twice. Described are the rules that are given, in the order in which their names
first occur, and then the other rules that failures name, in the same order. The log has one result
for each failure, in the order of the failures. Each result refers to a description, and has a fix
object exactly if the failure has a fix. -/
theorem sarif_describes (rules : List Rule) (failures : List Failure) :
    read? (sarif rules failures).length (sarif rules failures)
        = some ((sarifDocument rules failures).value, []) ∧
      ∃ ids results,
        describedIds? (sarifDocument rules failures) = some ids ∧
        results? (sarifDocument rules failures) = some results ∧
        ids.Nodup ∧
        ids = (rules.map (·.name)).eraseDups
          ++ ((failures.map (·.rule)).removeAll (rules.map (·.name))).eraseDups ∧
        List.Forall₂ (IsResult ids) failures results := by
  refine ⟨read?_sarif rules failures, _, _, describedIds?_sarifDocument rules failures,
    results?_sarifDocument rules failures, nodup_map_id_descriptors rules failures,
    map_id_descriptors_eq rules failures, ?_⟩
  rw [List.forall₂_map_right_iff, List.forall₂_same]
  exact fun f hf ↦ isResult_resultDocument (rule_mem_map_id_descriptors hf)

/-- A failure of a rule that nobody has registered, without a fix, and one of the rule on gaps with
a fix. -/
def strangeAndKnown : List Failure :=
  [{ rule := utf8 "strange", severity := Severity.warning, file := utf8 "a.js", start := 0, stop := 1
     position := ⟨1, 1⟩, endPosition := ⟨1, 2⟩, message := utf8 "odd", fix := none },
    { rule := Rule.BeforeColon.name, severity := Severity.error, file := utf8 "a.js", start := 6
      stop := 7, position := ⟨1, 7⟩, endPosition := ⟨1, 8⟩, message := utf8 "gap"
      fix := some ⟨6, 7, []⟩ }]

/-- The rule that is given twice comes first and the strange one behind it. Only the second result
has a fix object, which takes one byte away. -/
theorem sarif_describes_strangeAndKnown :
    let log := sarifDocument [Rule.BeforeColon.rule, Rule.BeforeColon.rule] strangeAndKnown
    ∃ strange known fix change replacement,
      describedIds? log = some [utf8 "whitespace-before-colon", utf8 "strange"] ∧
      results? log = some [strange, known] ∧
      strange.field? "ruleIndex" = some (.number 1) ∧ strange.field? "fixes" = none ∧
      known.field? "ruleIndex" = some (.number 0) ∧ known.field? "fixes" = some (.list [fix]) ∧
      fix.at? ["description", "text"] = some (.text (utf8 "gap")) ∧
      fix.field? "artifactChanges" = some (.list [change]) ∧
      change.at? ["artifactLocation", "uri"] = some (.text (utf8 "a.js")) ∧
      change.field? "replacements" = some (.list [replacement]) ∧
      replacement.at? ["deletedRegion", "byteOffset"] = some (.number 6) ∧
      replacement.at? ["deletedRegion", "byteLength"] = some (.number 1) ∧
      replacement.at? ["insertedContent", "text"] = some (.text []) := by
  intro log
  obtain ⟨-, ids, results, hids, hresults, -, hnames, hall⟩ :=
    sarif_describes [Rule.BeforeColon.rule, Rule.BeforeColon.rule] strangeAndKnown
  obtain rfl : ids = [utf8 "whitespace-before-colon", utf8 "strange"] := by
    rw [hnames]
    decide +kernel
  obtain _ | ⟨hstrange, _ | ⟨hknown, ⟨⟩⟩⟩ := hall
  -- The ids differ, so each of them stands at one place only.
  have hindex : (∀ i : Nat, [utf8 "whitespace-before-colon", utf8 "strange"][i]?
      = some (utf8 "strange") → i = 1) ∧ ∀ i : Nat,
      [utf8 "whitespace-before-colon", utf8 "strange"][i]? = some Rule.BeforeColon.name → i = 0 := by
    constructor <;> rintro (_ | _ | i) h
    · exact absurd h (by decide)
    · rfl
    · cases h
    · rfl
    · exact absurd h (by decide)
    · cases h
  obtain ⟨i, hi, hstrangeAt⟩ := hstrange.ruleIndex
  obtain ⟨j, hj, hknownAt⟩ := hknown.ruleIndex
  obtain rfl := hindex.1 i hstrangeAt
  obtain rfl := hindex.2 j hknownAt
  obtain ⟨fix, hfixes, hfix⟩ := hknown.fixed _ rfl
  obtain ⟨change, hchanges, hchange⟩ := hfix.changes
  obtain ⟨replacement, hreplacements, hreplacement⟩ := hchange.replacements
  exact ⟨_, _, fix, change, replacement, hids, hresults, hi, hstrange.unfixed rfl, hj, hfixes,
    hfix.description, hchanges, hchange.file, hreplacements, hreplacement.offset,
    hreplacement.length, hreplacement.text⟩

end ColonGap.Report
