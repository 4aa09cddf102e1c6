/-
XML interchange (`src/ingestion/xml.rs`): a record element for each row, in it an element for each field.

The reader is a state machine over the reported events. It collects the texts of the element it is in, joined by a blank,
under the element's name, and makes a row of them at the end of a record. References are skipped; an element named as
the root is never a field, and one named as a record starts a record.

- `export_wellNested`: what is written is a document.
- `ingest_export`: what is read of it, row by row.
- `xml_round_trip_iff`: the dataset comes back exactly when every cell that is not null is one that can be read.
-/
import Mathlib.Tactic
import RustDataProcessing.Lib.Display
import RustDataProcessing.Lib.Traverse
import RustDataProcessing.Lib.Xml
import RustDataProcessing.Error

open Xml (Event Codec)

namespace RustDataProcessing.Ingestion.Xml

/-! ## Cells -/

def rootTag : String := "rdp_records"

def recordTag : String := "record"

def xmlErr (message : String) : Fault := .schemaMismatch message

def valueToText : Value → String
  | .null => ""
  | .int64 i => RustStd.displayI64 i
  | .float64 x => RustStd.displayF64 x
  | .bool b => if b then "true" else "false"
  | .utf8 s => s

def parseTextToValue (raw : String) (dt : DataType) : IngestionResult Value :=
  let trimmed := RustStd.trim raw
  if trimmed = "" then .ok .null
  else match dt with
    | .int64 => match RustStd.parseI64 trimmed with
      | .ok n => .ok (.int64 n)
      | .error _ => .error (xmlErr ("invalid Int64 in XML: " ++ RustStd.debugText trimmed))
    | .float64 => match RustStd.parseF64 trimmed with
      | .ok x => .ok (.float64 x)
      | .error _ => .error (xmlErr ("invalid Float64 in XML: " ++ RustStd.debugText trimmed))
    | .bool =>
      if RustStd.toAsciiLowercase trimmed ∈ ["true", "1", "yes"] then .ok (.bool true)
      else if RustStd.toAsciiLowercase trimmed ∈ ["false", "0", "no"] then .ok (.bool false)
      else .error (xmlErr ("invalid Bool in XML: " ++ RustStd.debugText trimmed))
    | .utf8 => .ok (.utf8 trimmed)

def rowFromFieldMap (schema : Schema) (fields : List (String × String)) : IngestionResult Row :=
  schema.fields.mapM fun field => parseTextToValue ((fields.lookup field.name).getD "") field.dataType

/-! ## Writing -/

def cellEvents (field : Field) (cell : Value) : List Event :=
  .startTag field.name :: (if valueToText cell = "" then [] else [.text (valueToText cell)]) ++ [.endTag field.name]

def recordEvents (schema : Schema) (row : Row) : List Event :=
  .startTag recordTag :: (schema.fields.zip row).flatMap (fun c => cellEvents c.1 c.2) ++ [.endTag recordTag]

/-- the events of `export_dataset_to_xml` -/
def exportEvents (ds : DataSet) : List Event :=
  .decl :: .startTag rootTag :: ds.rows.flatMap (recordEvents ds.schema) ++ [.endTag rootTag, .eof]

/-! ## Reading -/

structure XmlState where
  rows : List Row
  inRecord : Bool
  fieldValues : List (String × String)
  activeField : Option String

/-- `entry(field).and_modify(…).or_insert_with(…)` -/
def addText (fields : List (String × String)) (field text : String) : List (String × String) :=
  match fields.lookup field with
  | some v => fields.map fun m => if m.1 = field then (field, v ++ " " ++ text) else m
  | none => fields ++ [(field, text)]

def xmlStep (x : Codec) (schema : Schema) (st : XmlState) : Event → IngestionResult XmlState
  | .startTag name =>
    if name = recordTag then .ok { st with inRecord := true, fieldValues := [] }
    else if st.inRecord ∧ name ≠ rootTag then .ok { st with activeField := some name }
    else .ok st
  | .text s => match st.activeField with
    | none => .ok st
    | some field => match x.content s with
      | .error e => .error (xmlErr ("xml text: " ++ e))
      | .ok text => .ok { st with fieldValues := addText st.fieldValues field text }
  | .endTag name =>
    if name = recordTag ∧ st.inRecord then
      (rowFromFieldMap schema st.fieldValues).map fun row => ⟨st.rows ++ [row], false, st.fieldValues, none⟩
    else if st.activeField = some name then .ok { st with activeField := none }
    else .ok st
  | _ => .ok st

/-- the loop over the reported events -/
def xmlLoop (x : Codec) (schema : Schema) : List (Except String Event) → XmlState → IngestionResult (List Row)
  | [], st => .ok st.rows
  | .error e :: _, _ => .error (xmlErr ("xml parse: " ++ e))
  | .ok .eof :: _, st => .ok st.rows
  | .ok e :: events, st => (xmlStep x schema st e).bind (xmlLoop x schema events)

def ingestXmlFromPath (x : Codec) (events : List (Except String Event)) (schema : Schema) : IngestionResult DataSet :=
  (xmlLoop x schema events ⟨[], false, [], none⟩).map fun rows => ⟨schema, rows⟩

/-- what is read of the file written for a dataset -/
def roundTrip (x : Codec) (ds : DataSet) : IngestionResult DataSet :=
  ingestXmlFromPath x (x.report (exportEvents ds)) ds.schema

/-! ## What is written -/

/-- a cell whose text can stand in a document and says all of it: a finite number, or a text that is not empty, has no
blanks on its ends and is made of the characters of a document -/
def Writable : Value → Prop
  | .float64 x => x.isFinite = true
  | .utf8 s => s ≠ "" ∧ RustStd.trim s = s ∧ ∀ c ∈ s.toList, Xml.isChar c = true ∧ c ≠ '\r'
  | _ => True

structure Exportable (ds : DataSet) : Prop where
  names : ds.schema.fieldNames.Nodup
  elements : ∀ name ∈ ds.schema.fieldNames, Xml.isName name = true
  rows : ∀ row ∈ ds.rows, Row.Conforms row ds.schema
  cells : ∀ row ∈ ds.rows, ∀ v ∈ row, Writable v

theorem legal_numeral {c : Char} (h : RustStd.isNumeral c = true) :
    Xml.isChar c = true ∧ c ≠ '\r' ∧ Xml.entityOf c = none := by
  simp only [RustStd.isNumeral, Bool.or_eq_true, decide_eq_true_eq, or_assoc] at h
  rcases h with h | rfl | rfl
  · have hval : '0'.val ≤ c.val ∧ c.val ≤ '9'.val := by simpa [Char.isDigit] using h
    have h1 : 48 ≤ c.toNat := hval.1
    have h2 : c.toNat ≤ 57 := hval.2
    have hne : ∀ d : Char, d.toNat < 48 ∨ 57 < d.toNat → c ≠ d := by
      rintro d hd rfl
      omega
    refine ⟨?_, hne _ (by decide), ?_⟩
    · simp only [Xml.isChar, Bool.or_eq_true, Bool.and_eq_true, decide_eq_true_eq]
      omega
    · rw [Xml.entityOf, if_neg (hne _ (by decide)), if_neg (hne _ (by decide)), if_neg (hne _ (by decide)),
        if_neg (hne _ (by decide)), if_neg (hne _ (by decide))]
  · exact ⟨by decide, by decide, by decide⟩
  · exact ⟨by decide, by decide, by decide⟩

theorem text_legal {v : Value} (h : Writable v) : ∀ c ∈ (valueToText v).toList, Xml.isChar c = true ∧ c ≠ '\r' := by
  intro c hc
  cases v with
  | null => cases hc
  | int64 n =>
    obtain ⟨h1, h2, -⟩ := legal_numeral (RustStd.numeral_displayI64 n c hc)
    exact ⟨h1, h2⟩
  | float64 x =>
    obtain ⟨h1, h2, -⟩ := legal_numeral (RustStd.numeral_displayF64 h c hc)
    exact ⟨h1, h2⟩
  | bool b =>
    revert c
    cases b <;> decide
  | utf8 s => exact h.2.2 c hc

/-- only a text can have special characters -/
theorem text_plain {v : Value} (h : Writable v) (hv : ∀ s, v = .utf8 s → Xml.Plain s.toList) :
    Xml.Plain (valueToText v).toList := by
  cases v with
  | null => intro c hc; cases hc
  | int64 n => exact fun c hc => (legal_numeral (RustStd.numeral_displayI64 n c hc)).2.2
  | float64 x => exact fun c hc => (legal_numeral (RustStd.numeral_displayF64 h c hc)).2.2
  | bool b => cases b <;> decide
  | utf8 s => exact hv s rfl

theorem text_trimmed {v : Value} (h : Writable v) : RustStd.trim (valueToText v) = valueToText v := by
  cases v with
  | null => decide
  | int64 n =>
    exact RustStd.trim_of_no_whitespace fun c hc => RustStd.isWhitespace_numeral (RustStd.numeral_displayI64 n c hc)
  | float64 x =>
    exact RustStd.trim_of_no_whitespace fun c hc => RustStd.isWhitespace_numeral (RustStd.numeral_displayF64 h c hc)
  | bool b => cases b <;> decide
  | utf8 s => exact h.2.1

/-- **A cell's text is read back as the cell** -/
theorem parse_text {v : Value} {dt : DataType} (h : Writable v) (hfits : v.fits dt) :
    parseTextToValue (valueToText v) dt = .ok v := by
  rcases hfits with rfl | htype
  · rfl
  unfold parseTextToValue
  rw [text_trimmed h]
  dsimp only
  cases v with
  | null => cases htype
  | bool b =>
    cases dt with
    | bool => cases b <;> rfl
    | _ => cases htype
  | utf8 s =>
    cases dt with
    | utf8 => exact if_neg h.1
    | _ => cases htype
  | int64 n =>
    cases dt with
    | int64 =>
      have hparse := RustStd.parseI64_displayI64 n
      have hne : RustStd.displayI64 n ≠ "" := by
        intro hempty
        rw [hempty] at hparse
        cases hparse
      rw [valueToText, if_neg hne, hparse]
    | _ => cases htype
  | float64 x =>
    cases dt with
    | float64 =>
      have hparse := RustStd.parseF64_displayF64 h
      have hne : RustStd.displayF64 x ≠ "" := by
        intro hempty
        rw [hempty] at hparse
        cases hparse
      rw [valueToText, if_neg hne, hparse]
    | _ => cases htype

theorem cellEvents_wellNested {stack : List String} {f : Field} {v : Value} {events : List Event} :
    Xml.wellNested stack (cellEvents f v ++ events) = Xml.wellNested stack events := by
  unfold cellEvents
  split_ifs <;> simp [Xml.wellNested]

theorem recordEvents_wellNested {stack : List String} {schema : Schema} {row : Row} {events : List Event} :
    Xml.wellNested stack (recordEvents schema row ++ events) = Xml.wellNested stack events := by
  have hcells : ∀ (cells : List (Field × Value)) (stack : List String) (events : List Event),
      Xml.wellNested stack (cells.flatMap (fun c => cellEvents c.1 c.2) ++ events) = Xml.wellNested stack events := by
    intro cells
    induction cells with
    | nil => intro stack events; rfl
    | cons c cells ih =>
      intro stack events
      rw [List.flatMap_cons, List.append_assoc, cellEvents_wellNested, ih]
  rw [recordEvents, List.cons_append, List.cons_append, Xml.wellNested, List.append_assoc, hcells]
  simp [Xml.wellNested]

/-- **What is written is a document** -/
theorem export_wellNested (ds : DataSet) : Xml.wellNested [] (exportEvents ds) = true := by
  have hrows : ∀ (rows : List Row) (stack : List String) (events : List Event),
      Xml.wellNested stack (rows.flatMap (recordEvents ds.schema) ++ events) = Xml.wellNested stack events := by
    intro rows
    induction rows with
    | nil => intro stack events; rfl
    | cons row rows ih =>
      intro stack events
      rw [List.flatMap_cons, List.append_assoc, recordEvents_wellNested, ih]
  simp [exportEvents, Xml.wellNested, hrows]

theorem export_legal {ds : DataSet} (h : Exportable ds) : ∀ e ∈ exportEvents ds, e.Legal := by
  have hcell : ∀ f ∈ ds.schema.fields, ∀ v, Writable v → ∀ e ∈ cellEvents f v, e.Legal := by
    intro f hf v hv e he
    have hname := h.elements _ (List.mem_map_of_mem hf)
    simp only [cellEvents, List.mem_cons, List.mem_append, List.not_mem_nil, or_false, or_assoc] at he
    rcases he with rfl | he | rfl
    · exact hname
    · split_ifs at he
      · cases he
      · rw [List.mem_singleton.1 he]
        exact text_legal hv
    · exact hname
  have hrecord : Xml.isName recordTag = true := by decide
  have hroot : Xml.isName rootTag = true := by decide
  have hrow : ∀ row ∈ ds.rows, ∀ e ∈ recordEvents ds.schema row, e.Legal := by
    intro row hrow e he
    simp only [recordEvents, List.mem_cons, List.mem_append, List.mem_flatMap, List.not_mem_nil, or_false, or_assoc] at he
    rcases he with rfl | ⟨⟨f, v⟩, hc, he⟩ | rfl
    · exact hrecord
    · exact hcell f (List.of_mem_zip hc).1 v (h.cells row hrow v (List.of_mem_zip hc).2) e he
    · exact hrecord
  intro e he
  simp only [exportEvents, List.mem_cons, List.mem_append, List.mem_flatMap, List.not_mem_nil, or_false, or_assoc] at he
  rcases he with rfl | rfl | ⟨row, hmem, he⟩ | rfl | rfl
  · trivial
  · exact hroot
  · exact hrow row hmem e he
  · exact hroot
  · trivial

/-! ## What is read of a cell -/

/-- the text of an element that has one already, or not -/
def appendText : Option String → String → Option String
  | some v, text => some (v ++ " " ++ text)
  | none, text => some text

theorem lookup_replace (fields : List (String × String)) (field v name : String) :
    (fields.map fun m => if m.1 = field then (field, v) else m).lookup name =
      if name = field then (fields.lookup field).map fun _ => v else fields.lookup name := by
  induction fields with
  | nil => simp
  | cons m fields ih =>
    obtain ⟨key, w⟩ := m
    rw [List.map_cons]
    dsimp only
    by_cases hkey : key = field
    · rw [if_pos hkey]
      by_cases hname : name = field
      · simp [hname, hkey]
      · have hne : name ≠ key := hkey ▸ hname
        simp [List.lookup_cons, beq_false_of_ne hname, beq_false_of_ne hne, ih, hname]
    · rw [if_neg hkey]
      have hne : field ≠ key := fun h => hkey h.symm
      by_cases hname : name = key
      · simp [hname, hkey]
      · rw [List.lookup_cons, List.lookup_cons, List.lookup_cons, beq_false_of_ne hname, beq_false_of_ne hne]
        exact ih

theorem lookup_addText (fields : List (String × String)) (field text name : String) :
    (addText fields field text).lookup name =
      if name = field then appendText (fields.lookup field) text else fields.lookup name := by
  unfold addText
  cases h : fields.lookup field with
  | none =>
    rw [List.lookup_append]
    by_cases hname : name = field
    · simp [hname, h, appendText]
    · simp [hname, List.lookup_cons, beq_false_of_ne hname]
  | some v =>
    dsimp only [appendText]
    rw [lookup_replace, h, Option.map_some]

theorem lookup_addTexts (texts : List String) (fields : List (String × String)) (field name : String) :
    (texts.foldl (fun fs text => addText fs field text) fields).lookup name =
      if name = field then texts.foldl appendText (fields.lookup field) else fields.lookup name := by
  induction texts generalizing fields with
  | nil =>
    by_cases hname : name = field
    · simp [hname]
    · simp [hname]
  | cons text texts ih =>
    rw [List.foldl_cons, ih, lookup_addText, lookup_addText, List.foldl_cons, if_pos rfl]
    split_ifs <;> rfl

/-- the texts reported of a cell, and the text collected of them -/
def cellTexts (v : Value) : List String := Xml.textsOf (Xml.textEvents [] (valueToText v).toList)

def cellRaw (v : Value) : String := ((cellTexts v).foldl appendText none).getD ""

def readCell (f : Field) (v : Value) : IngestionResult Value :=
  parseTextToValue (if f.name = rootTag then "" else cellRaw v) f.dataType

/-- a text without special characters is collected whole -/
theorem cellRaw_plain {v : Value} (h : Writable v) (hplain : Xml.Plain (valueToText v).toList) :
    cellRaw v = valueToText v := by
  have hspace : ∀ c, Xml.isSpace c = true → RustStd.isWhitespace c = true := by
    intro c hc
    simp only [Xml.isSpace, Bool.or_eq_true, decide_eq_true_eq, or_assoc] at hc
    rcases hc with rfl | rfl | rfl | rfl <;> decide
  have htrim : Xml.trimText (valueToText v).toList = (valueToText v).toList :=
    RustStd.trimmed_of_imp hspace (RustStd.trim_eq_self.1 (text_trimmed h))
  rw [cellRaw, cellTexts, Xml.textEvents_plain hplain, List.nil_append, Xml.pieceEvents, htrim]
  split_ifs with hempty
  · exact (String.toList_eq_nil_iff.1 hempty).symm
  · simp [Xml.textsOf, appendText]

/-- what is collected has no special character -/
theorem plain_cellRaw (v : Value) : Xml.Plain (cellRaw v).toList := by
  have hfold : ∀ (texts : List String) (acc : Option String), (∀ s ∈ texts, Xml.Plain s.toList) →
      (∀ s ∈ acc, Xml.Plain s.toList) → ∀ s ∈ texts.foldl appendText acc, Xml.Plain s.toList := by
    intro texts
    induction texts with
    | nil => exact fun acc _ hacc => hacc
    | cons text texts ih =>
      intro acc htexts hacc
      obtain ⟨htext, hrest⟩ := List.forall_mem_cons.1 htexts
      refine ih _ hrest fun s hs => ?_
      cases acc with
      | none =>
        obtain rfl : text = s := by simpa [appendText] using hs
        exact htext
      | some v =>
        obtain rfl : v ++ " " ++ text = s := by simpa [appendText] using hs
        intro c hc
        simp only [String.toList_append, List.mem_append] at hc
        rcases hc with (hc | hc) | hc
        · exact hacc v rfl c hc
        · obtain rfl : c = ' ' := by simpa using hc
          decide
        · exact htext c hc
  have hall := hfold (cellTexts v) none
    (fun s hs => (Xml.plain_of_mem_textEvents (by intro c hc; cases hc) (Xml.mem_textsOf.1 hs)).1) (by simp)
  unfold cellRaw
  cases hraw : (cellTexts v).foldl appendText none with
  | none => intro c hc; cases hc
  | some s => exact hall s hraw

/-- a cell that can be read: not under the root's name, and without special characters -/
def Readable (f : Field) (v : Value) : Prop := f.name ≠ rootTag ∧ ∀ s, v = .utf8 s → Xml.Plain s.toList

theorem readCell_eq_iff {f : Field} {v : Value} (h : Writable v) (hfits : v.fits f.dataType) :
    readCell f v = .ok v ↔ v = .null ∨ Readable f v := by
  constructor
  · intro hread
    by_cases hnull : v = .null
    · exact Or.inl hnull
    right
    constructor
    · intro hroot
      rw [readCell, if_pos hroot] at hread
      have hempty : parseTextToValue "" f.dataType = .ok .null := rfl
      rw [hempty] at hread
      exact hnull (Except.ok.inj hread).symm
    · rintro s rfl c hc
      have htype : f.dataType = .utf8 := by
        rcases hfits with hfits | hfits
        · cases hfits
        · cases hdt : f.dataType <;> rw [hdt] at hfits <;> first | rfl | cases hfits
      rw [readCell, htype, parseTextToValue] at hread
      set raw := if f.name = rootTag then "" else cellRaw (.utf8 s) with hraw
      have hplain : Xml.Plain raw.toList := by
        rw [hraw]
        split_ifs
        · intro d hd; cases hd
        · exact plain_cellRaw _
      split_ifs at hread with hempty
      · cases hread
      · have htrim : RustStd.trim raw = s := by simpa using hread
        exact hplain c (RustStd.mem_of_mem_trim (htrim ▸ hc))
  · rintro (rfl | ⟨hroot, hplain⟩)
    · have hraw : (if f.name = rootTag then "" else cellRaw .null) = "" := by split_ifs <;> rfl
      rw [readCell, hraw]
      rfl
    · rw [readCell, if_neg hroot, cellRaw_plain h (text_plain h hplain)]
      exact parse_text h hfits

/-! ## What is read of a row -/

/-- the state after some events -/
def xmlRun (x : Codec) (schema : Schema) (st : XmlState) (events : List Event) : IngestionResult XmlState :=
  events.foldlM (xmlStep x schema) st

section Machine

variable {x : Codec} {schema : Schema}

theorem xmlRun_append (st : XmlState) (l₁ l₂ : List Event) :
    xmlRun x schema st (l₁ ++ l₂) = (xmlRun x schema st l₁).bind fun st' => xmlRun x schema st' l₂ :=
  List.foldlM_append

theorem xmlRun_cons (st : XmlState) (e : Event) (events : List Event) :
    xmlRun x schema st (e :: events) = (xmlStep x schema st e).bind fun st' => xmlRun x schema st' events := rfl

theorem xmlRun_append_ok {st st' : XmlState} {l₁ : List Event} (h : xmlRun x schema st l₁ = .ok st')
    (l₂ : List Event) : xmlRun x schema st (l₁ ++ l₂) = xmlRun x schema st' l₂ := by
  rw [xmlRun_append, h]
  rfl

theorem xmlRun_cons_ok {st st' : XmlState} {e : Event} (h : xmlStep x schema st e = .ok st') (events : List Event) :
    xmlRun x schema st (e :: events) = xmlRun x schema st' events := by
  rw [xmlRun_cons, h]
  rfl

theorem xmlRun_singleton (st : XmlState) (e : Event) : xmlRun x schema st [e] = xmlStep x schema st e := by
  rw [xmlRun_cons]
  cases xmlStep x schema st e <;> rfl

theorem xmlLoop_cons {e : Event} (he : e ≠ .eof) (events : List (Except String Event)) (st : XmlState) :
    xmlLoop x schema (.ok e :: events) st = (xmlStep x schema st e).bind (xmlLoop x schema events) := by
  cases e <;> first | rfl | exact absurd rfl he

theorem xmlLoop_cons_ok {e : Event} (he : e ≠ .eof) {st st' : XmlState} (h : xmlStep x schema st e = .ok st')
    (events : List (Except String Event)) : xmlLoop x schema (.ok e :: events) st = xmlLoop x schema events st' := by
  rw [xmlLoop_cons he, h]
  rfl

theorem xmlLoop_append {events : List Event} (h : ∀ e ∈ events, e ≠ .eof) (rest : List (Except String Event))
    (st : XmlState) :
    xmlLoop x schema (events.map .ok ++ rest) st = (xmlRun x schema st events).bind (xmlLoop x schema rest) := by
  induction events generalizing st with
  | nil => rfl
  | cons e events ih =>
    obtain ⟨he, hrest⟩ := List.forall_mem_cons.1 h
    rw [List.map_cons, List.cons_append, xmlLoop_cons he, xmlRun_cons]
    cases xmlStep x schema st e with
    | error e => rfl
    | ok st' => exact ih hrest st'

/-- outside an element, texts are skipped -/
theorem xmlRun_texts_outside {cs piece : List Char} {st : XmlState} (h : st.activeField = none) :
    xmlRun x schema st (Xml.textEvents piece cs) = .ok st := by
  have hskip : ∀ events : List Event, (∀ e ∈ events, (∃ s, e = .text s) ∨ ∃ name, e = .generalRef name) →
      xmlRun x schema st events = .ok st := by
    intro events
    induction events with
    | nil => intro _; rfl
    | cons e events ih =>
      intro hall
      obtain ⟨he, hrest⟩ := List.forall_mem_cons.1 hall
      have hstep : xmlStep x schema st e = .ok st := by
        rcases he with ⟨s, rfl⟩ | ⟨name, rfl⟩
        · rw [xmlStep, h]
        · rfl
      rw [xmlRun_cons_ok hstep]
      exact ih hrest
  exact hskip _ fun e he => Xml.mem_textEvents he

/-- inside an element, its texts are collected and its references skipped -/
theorem xmlRun_texts (hx : x.Documented) {cs : List Char} (hcs : '\r' ∉ cs) {st : XmlState} {field : String}
    (h : st.activeField = some field) :
    xmlRun x schema st (Xml.textEvents [] cs) = .ok { st with
      fieldValues := (Xml.textsOf (Xml.textEvents [] cs)).foldl (fun fs text => addText fs field text) st.fieldValues } := by
  have hcollect : ∀ (events : List Event) (st : XmlState), st.activeField = some field →
      (∀ e ∈ events, (∃ s, e = .text s) ∨ ∃ name, e = .generalRef name) →
      (∀ s, .text s ∈ events → x.content s = .ok s) →
      xmlRun x schema st events = .ok { st with
        fieldValues := (Xml.textsOf events).foldl (fun fs text => addText fs field text) st.fieldValues } := by
    intro events
    induction events with
    | nil => intro st _ _ _; rfl
    | cons e events ih =>
      intro st hst hall hcontent
      obtain ⟨he, hrest⟩ := List.forall_mem_cons.1 hall
      have hcontent' := fun s hs => hcontent s (List.mem_cons_of_mem e hs)
      rcases he with ⟨s, rfl⟩ | ⟨name, rfl⟩
      · have hstep : xmlStep x schema st (.text s) =
            .ok { st with fieldValues := addText st.fieldValues field s } := by
          rw [xmlStep, hst]
          dsimp only
          rw [hcontent s List.mem_cons_self]
        rw [xmlRun_cons_ok hstep]
        exact ih _ hst hrest hcontent'
      · exact ih st hst hrest hcontent'
  refine hcollect _ st h (fun e he => Xml.mem_textEvents he) fun s hs => ?_
  obtain ⟨hplain, hmem⟩ := Xml.plain_of_mem_textEvents (by intro c hc; cases hc) hs
  refine hx.content s (fun hamp => ?_) fun hcr => hcs (by simpa using hmem _ hcr)
  have := hplain _ hamp
  cases this

/-- the events reported of a cell -/
def reportedCell (f : Field) (v : Value) : List Event :=
  .startTag f.name :: Xml.textEvents [] (valueToText v).toList ++ [.endTag f.name]

theorem reported_cellEvents (f : Field) (v : Value) : (cellEvents f v).flatMap Xml.reported = reportedCell f v := by
  unfold cellEvents reportedCell
  split_ifs with hempty
  · rw [hempty]
    rfl
  · simp [Xml.reported]

theorem no_cr {v : Value} (h : Writable v) : '\r' ∉ (valueToText v).toList := fun hc => (text_legal h _ hc).2 rfl

/-- a cell in a record fills its field, unless it has the root's name -/
theorem xmlRun_cell (hx : x.Documented) {st : XmlState} {f : Field} {v : Value} (hv : Writable v)
    (hin : st.inRecord = true) (hactive : st.activeField = none) (hname : f.name ≠ recordTag) :
    xmlRun x schema st (reportedCell f v) = .ok { st with
      fieldValues := if f.name = rootTag then st.fieldValues
        else (cellTexts v).foldl (fun fs text => addText fs f.name text) st.fieldValues } := by
  obtain ⟨rows, inRecord, fieldValues, activeField⟩ := st
  obtain rfl : inRecord = true := hin
  obtain rfl : activeField = none := hactive
  have hend : ∀ st : XmlState, xmlStep x schema st (.endTag f.name) =
      .ok (if st.activeField = some f.name then { st with activeField := none } else st) := by
    intro st
    rw [xmlStep, if_neg fun h => hname h.1]
    split_ifs <;> rfl
  by_cases hroot : f.name = rootTag
  · have hstart : xmlStep x schema ⟨rows, true, fieldValues, none⟩ (.startTag f.name) =
        .ok ⟨rows, true, fieldValues, none⟩ := by
      rw [xmlStep, if_neg hname, if_neg fun h => h.2 hroot]
    rw [reportedCell, List.cons_append, xmlRun_cons_ok hstart, xmlRun_append_ok (xmlRun_texts_outside rfl),
      xmlRun_singleton, hend, if_pos hroot]
    rfl
  · have hstart : xmlStep x schema ⟨rows, true, fieldValues, none⟩ (.startTag f.name) =
        .ok ⟨rows, true, fieldValues, some f.name⟩ := by
      rw [xmlStep, if_neg hname, if_pos ⟨rfl, hroot⟩]
    rw [reportedCell, List.cons_append, xmlRun_cons_ok hstart, xmlRun_append_ok (xmlRun_texts hx (no_cr hv) rfl),
      xmlRun_singleton, hend, if_pos rfl, if_neg hroot]
    rfl

/-- after the record has ended, cells are skipped -/
theorem xmlRun_cell_outside {st : XmlState} {f : Field} {v : Value} (hin : st.inRecord = false)
    (hactive : st.activeField = none) (hname : f.name ≠ recordTag) :
    xmlRun x schema st (reportedCell f v) = .ok st := by
  have hstart : xmlStep x schema st (.startTag f.name) = .ok st := by
    rw [xmlStep, if_neg hname, if_neg (by simp [hin])]
  have hend : xmlStep x schema st (.endTag f.name) = .ok st := by
    rw [xmlStep, if_neg (by simp [hin]), if_neg (by simp [hactive])]
  rw [reportedCell, List.cons_append, xmlRun_cons_ok hstart, xmlRun_append_ok (xmlRun_texts_outside hactive),
    xmlRun_singleton, hend]

theorem rowFromFieldMap_nil (schema : Schema) :
    rowFromFieldMap schema [] = .ok (schema.fields.map fun _ => .null) :=
  Traverse.mapM_ok (List.forall₂_map_right_iff.2 (List.forall₂_same.2 fun _ _ => rfl))

/-- a cell named as a record starts and ends one, with nothing in it -/
theorem xmlRun_cell_record {st : XmlState} {f : Field} {v : Value} (hactive : st.activeField = none)
    (hname : f.name = recordTag) :
    xmlRun x schema st (reportedCell f v) =
      .ok ⟨st.rows ++ [schema.fields.map fun _ => .null], false, [], none⟩ := by
  obtain ⟨rows, inRecord, fieldValues, activeField⟩ := st
  obtain rfl : activeField = none := hactive
  have hstart : xmlStep x schema ⟨rows, inRecord, fieldValues, none⟩ (.startTag f.name) =
      .ok ⟨rows, true, [], none⟩ := by
    rw [xmlStep, if_pos hname]
  rw [reportedCell, List.cons_append, xmlRun_cons_ok hstart, xmlRun_append_ok (xmlRun_texts_outside rfl),
    xmlRun_singleton, xmlStep, if_pos ⟨hname, rfl⟩, rowFromFieldMap_nil]
  rfl

/-- a cell changes its own field alone -/
theorem lookup_cellFields (fields : List (String × String)) (f : Field) (v : Value) (name : String) :
    (if f.name = rootTag then fields else (cellTexts v).foldl (fun fs text => addText fs f.name text) fields).lookup name =
      if name = f.name ∧ name ≠ rootTag then (cellTexts v).foldl appendText (fields.lookup name)
      else fields.lookup name := by
  by_cases hroot : f.name = rootTag
  · rw [if_pos hroot, if_neg]
    rintro ⟨hname, hne⟩
    exact hne (hname.trans hroot)
  · rw [if_neg hroot, lookup_addTexts]
    by_cases hname : name = f.name
    · rw [if_pos hname, if_pos ⟨hname, fun h => hroot (hname.symm.trans h)⟩, hname]
    · rw [if_neg hname, if_neg fun h => hname h.1]

/-- the cells of a record, none of them named as one -/
theorem xmlRun_cells (hx : x.Documented) {cells : List (Field × Value)} (hcells : ∀ c ∈ cells, Writable c.2)
    (hnames : (cells.map fun c => c.1.name).Nodup) (hrecord : ∀ c ∈ cells, c.1.name ≠ recordTag) {st : XmlState}
    (hin : st.inRecord = true) (hactive : st.activeField = none) :
    ∃ fv, xmlRun x schema st (cells.flatMap fun c => reportedCell c.1 c.2) = .ok { st with fieldValues := fv } ∧
      (∀ c ∈ cells, fv.lookup c.1.name = if c.1.name = rootTag then st.fieldValues.lookup c.1.name
        else (cellTexts c.2).foldl appendText (st.fieldValues.lookup c.1.name)) ∧
      ∀ name, name ∉ (cells.map fun c => c.1.name) → fv.lookup name = st.fieldValues.lookup name := by
  induction cells generalizing st with
  | nil => exact ⟨st.fieldValues, rfl, by simp, fun _ _ => rfl⟩
  | cons c cells ih =>
    obtain ⟨hc, hrest⟩ := List.forall_mem_cons.1 hcells
    obtain ⟨hcr, hrestr⟩ := List.forall_mem_cons.1 hrecord
    obtain ⟨hnew, hnodup⟩ := List.nodup_cons.1 hnames
    have hlookup := lookup_cellFields st.fieldValues c.1 c.2
    set fv₁ := if c.1.name = rootTag then st.fieldValues
      else (cellTexts c.2).foldl (fun fs text => addText fs c.1.name text) st.fieldValues
    obtain ⟨fv, hrun, hmem, hout⟩ := @ih hrest hnodup hrestr { st with fieldValues := fv₁ } hin hactive
    refine ⟨fv, ?_, ?_, ?_⟩
    · rw [List.flatMap_cons, xmlRun_append_ok (xmlRun_cell hx hc hin hactive hcr)]
      exact hrun
    · intro d hd
      rcases List.mem_cons.1 hd with rfl | hd
      · rw [hout _ hnew, hlookup]
        by_cases hroot : d.1.name = rootTag
        · rw [if_neg fun h => h.2 hroot, if_pos hroot]
        · rw [if_pos ⟨rfl, hroot⟩, if_neg hroot]
      · have hne : d.1.name ≠ c.1.name := by
          intro heq
          have hin : d.1.name ∈ cells.map fun c => c.1.name := List.mem_map_of_mem (f := fun c => c.1.name) hd
          rw [heq] at hin
          exact hnew hin
        rw [hmem d hd]
        simp only [hlookup, hne, false_and, if_false]
    · intro name hname
      rw [List.map_cons, List.mem_cons, not_or] at hname
      rw [hout name hname.2, hlookup, if_neg fun h => hname.1 h.1]

theorem xmlRun_cells_outside {cells : List (Field × Value)} (hrecord : ∀ c ∈ cells, c.1.name ≠ recordTag)
    {st : XmlState} (hin : st.inRecord = false) (hactive : st.activeField = none) :
    xmlRun x schema st (cells.flatMap fun c => reportedCell c.1 c.2) = .ok st := by
  induction cells with
  | nil => rfl
  | cons c cells ih =>
    obtain ⟨hc, hrest⟩ := List.forall_mem_cons.1 hrecord
    rw [List.flatMap_cons, xmlRun_append_ok (xmlRun_cell_outside hin hactive hc)]
    exact ih hrest

/-- what is read of a row: nothing at all when a field is named as a record -/
def readRow (schema : Schema) (row : Row) : IngestionResult Row :=
  if recordTag ∈ schema.fieldNames then .ok (schema.fields.map fun _ => .null)
  else (schema.fields.zip row).mapM fun c => readCell c.1 c.2

theorem reported_recordEvents (schema : Schema) (row : Row) :
    (recordEvents schema row).flatMap Xml.reported =
      .startTag recordTag :: (schema.fields.zip row).flatMap (fun c => reportedCell c.1 c.2) ++ [.endTag recordTag] := by
  rw [recordEvents, List.cons_append, List.flatMap_cons, List.flatMap_append, List.flatMap_assoc]
  simp only [reported_cellEvents]
  rfl

section Cells

variable {cells : List (Field × Value)} (hx : x.Documented) (hwritable : ∀ c ∈ cells, Writable c.2)
  (hnames : (cells.map fun c => c.1.name).Nodup) {st : XmlState} (hin : st.inRecord = true) (hactive : st.activeField = none)
include hx hwritable hnames hin hactive

/-- a cell named as a record: what stands before it is lost, what stands after it is skipped -/
theorem xmlRun_cells_lost (hrecord : recordTag ∈ cells.map fun c => c.1.name) :
    xmlRun x schema st (cells.flatMap (fun c => reportedCell c.1 c.2) ++ [.endTag recordTag]) =
      .ok ⟨st.rows ++ [schema.fields.map fun _ => .null], false, [], none⟩ := by
  obtain ⟨c, hc, hname⟩ := List.mem_map.1 hrecord
  obtain ⟨pre, post, rfl⟩ := List.append_of_mem hc
  rw [List.map_append, List.map_cons, List.nodup_append, List.nodup_cons] at hnames
  obtain ⟨hpre, ⟨hpost, -⟩, hdisj⟩ := hnames
  have hpre' : ∀ d ∈ pre, d.1.name ≠ recordTag := fun d hd heq =>
    hdisj _ (List.mem_map_of_mem (f := fun c => c.1.name) hd) _ List.mem_cons_self (heq.trans hname.symm)
  have hpost' : ∀ d ∈ post, d.1.name ≠ recordTag := fun d hd heq =>
    hpost (heq.trans hname.symm ▸ List.mem_map_of_mem (f := fun c => c.1.name) hd)
  obtain ⟨fv, hrun, -, -⟩ := @xmlRun_cells x schema hx pre
    (fun d hd => hwritable d (List.mem_append_left _ hd)) hpre hpre' st hin hactive
  have hend : xmlStep x schema ⟨st.rows ++ [schema.fields.map fun _ => .null], false, [], none⟩ (.endTag recordTag) =
      .ok ⟨st.rows ++ [schema.fields.map fun _ => .null], false, [], none⟩ := by
    rw [xmlStep, if_neg (by simp), if_neg (by simp)]
  have hcell := @xmlRun_cell_record x schema { st with fieldValues := fv } c.1 c.2 hactive hname
  rw [List.flatMap_append, List.flatMap_cons, List.append_assoc, List.append_assoc, xmlRun_append_ok hrun,
    xmlRun_append_ok hcell, xmlRun_append_ok (xmlRun_cells_outside hpost' rfl rfl), xmlRun_singleton, hend]

/-- no cell named as a record: every cell is read from its field's texts -/
theorem xmlRun_cells_read (hfst : cells.map Prod.fst = schema.fields) (hempty : st.fieldValues = [])
    (hrecord : recordTag ∉ cells.map fun c => c.1.name) :
    ∃ fv, xmlRun x schema st (cells.flatMap (fun c => reportedCell c.1 c.2) ++ [.endTag recordTag]) =
      (cells.mapM fun c => readCell c.1 c.2).map fun r => ⟨st.rows ++ [r], false, fv, none⟩ := by
  have hrecord' : ∀ c ∈ cells, c.1.name ≠ recordTag := fun c hc heq =>
    hrecord (heq ▸ List.mem_map_of_mem (f := fun c => c.1.name) hc)
  obtain ⟨fv, hrun, hmem, -⟩ := @xmlRun_cells x schema hx _ hwritable hnames hrecord' st hin hactive
  have hread : rowFromFieldMap schema fv = cells.mapM fun c => readCell c.1 c.2 := by
    rw [rowFromFieldMap, ← hfst, List.mapM_map]
    refine Traverse.mapM_congr fun c hc => ?_
    rw [Function.comp_apply, hmem c hc, readCell, hempty]
    split_ifs <;> rfl
  refine ⟨fv, ?_⟩
  rw [xmlRun_append_ok hrun, xmlRun_singleton, xmlStep, if_pos ⟨rfl, hin⟩, hread, hactive]

end Cells

/-- **One record of the file** -/
theorem xmlRun_record (hx : x.Documented) {row : Row} (hcells : ∀ v ∈ row, Writable v)
    (hnames : schema.fieldNames.Nodup) (hlen : row.length = schema.fields.length) {st : XmlState}
    (hactive : st.activeField = none) :
    ∃ fv, xmlRun x schema st ((recordEvents schema row).flatMap Xml.reported) =
      (readRow schema row).map fun r => ⟨st.rows ++ [r], false, fv, none⟩ := by
  have hfst : (schema.fields.zip row).map Prod.fst = schema.fields := by
    rw [List.map_fst_zip]
    omega
  have hzip : ((schema.fields.zip row).map fun c => c.1.name) = schema.fieldNames := by
    calc (schema.fields.zip row).map (fun c => c.1.name)
        = ((schema.fields.zip row).map Prod.fst).map Field.name := by rw [List.map_map]; rfl
      _ = schema.fieldNames := by rw [hfst]; rfl
  have hwritable : ∀ c ∈ schema.fields.zip row, Writable c.2 := fun c hc => hcells _ (List.of_mem_zip hc).2
  rw [← hzip] at hnames
  have hstart : xmlStep x schema st (.startTag recordTag) = .ok { st with inRecord := true, fieldValues := [] } := by
    rw [xmlStep, if_pos rfl]
  rw [reported_recordEvents, List.cons_append, xmlRun_cons_ok hstart, readRow, ← hzip]
  split_ifs with hrecord
  · exact ⟨[], xmlRun_cells_lost hx hwritable hnames rfl hactive hrecord⟩
  · exact xmlRun_cells_read hx hwritable hnames rfl hactive hfst rfl hrecord

/-- the records of the file, up to the first that cannot be read -/
theorem xmlLoop_records (hx : x.Documented) (hnames : schema.fieldNames.Nodup) {rows : List Row}
    (hrows : ∀ row ∈ rows, row.length = schema.fields.length ∧ ∀ v ∈ row, Writable v) {st : XmlState}
    (hin : st.inRecord = false) (hactive : st.activeField = none) :
    ∃ fv, xmlRun x schema st (rows.flatMap fun row => (recordEvents schema row).flatMap Xml.reported) =
      (rows.mapM (readRow schema)).map fun out => ⟨st.rows ++ out, false, fv, none⟩ := by
  induction rows generalizing st with
  | nil =>
    obtain ⟨rows, inRecord, fieldValues, activeField⟩ := st
    obtain rfl : inRecord = false := hin
    obtain rfl : activeField = none := hactive
    exact ⟨fieldValues, by simp [xmlRun, Except.map, pure, Except.pure]⟩
  | cons row rows ih =>
    obtain ⟨⟨hlen, hcells⟩, hrest⟩ := List.forall_mem_cons.1 hrows
    obtain ⟨fv, hrow⟩ := xmlRun_record hx hcells hnames hlen hactive
    rw [List.flatMap_cons, xmlRun_append, hrow, List.mapM_cons]
    cases hread : readRow schema row with
    | error e => exact ⟨[], rfl⟩
    | ok out =>
      obtain ⟨fv', hrun⟩ := @ih hrest ⟨st.rows ++ [out], false, fv, none⟩ rfl rfl
      refine ⟨fv', hrun.trans ?_⟩
      cases rows.mapM (readRow schema) with
      | error e => rfl
      | ok outs => simp [Except.map, bind, Except.bind, pure, Except.pure]

end Machine

/-! ## What is read of a file -/

/-- **What comes back of a dataset**, row by row -/
theorem ingest_export {x : Codec} (hx : x.Documented) {ds : DataSet} (h : Exportable ds) :
    roundTrip x ds = (ds.rows.mapM (readRow ds.schema)).map fun rows => ⟨ds.schema, rows⟩ := by
  have hreport := hx.report _ (export_legal h) (export_wellNested ds)
  have hevents : (exportEvents ds).flatMap Xml.reported =
      .decl :: .startTag rootTag :: ds.rows.flatMap (fun row => (recordEvents ds.schema row).flatMap Xml.reported) ++
        [.endTag rootTag, .eof] := by
    rw [exportEvents, List.cons_append, List.cons_append, List.flatMap_cons, List.flatMap_cons, List.flatMap_append,
      List.flatMap_assoc]
    rfl
  have hrows : ∀ row ∈ ds.rows, row.length = ds.schema.fields.length ∧ ∀ v ∈ row, Writable v :=
    fun row hrow => ⟨(h.rows row hrow).length, h.cells row hrow⟩
  obtain ⟨fv, hrun⟩ := @xmlLoop_records x ds.schema hx h.names ds.rows hrows ⟨[], false, [], none⟩ rfl rfl
  have hroot : rootTag ≠ recordTag := by decide
  have hstart : xmlStep x ds.schema ⟨[], false, [], none⟩ (.startTag rootTag) = .ok ⟨[], false, [], none⟩ := by
    rw [xmlStep, if_neg hroot]
    rfl
  have heof : ∀ e ∈ ds.rows.flatMap fun row => (recordEvents ds.schema row).flatMap Xml.reported, e ≠ .eof := by
    rintro e he rfl
    simp only [reported_recordEvents, reportedCell, List.mem_cons, List.mem_append, List.mem_flatMap,
      List.not_mem_nil, or_false, reduceCtorEq, false_or] at he
    obtain ⟨row, -, c, -, hc⟩ := he
    rcases Xml.mem_textEvents hc with ⟨s, hs⟩ | ⟨name, hname⟩
    · cases hs
    · cases hname
  have hdecl : xmlStep x ds.schema ⟨[], false, [], none⟩ .decl = .ok ⟨[], false, [], none⟩ := rfl
  rw [roundTrip, ingestXmlFromPath, hreport, hevents, List.cons_append, List.cons_append, List.map_cons, List.map_cons,
    List.map_append, xmlLoop_cons_ok (by decide) hdecl, xmlLoop_cons_ok (by decide) hstart, xmlLoop_append heof, hrun]
  cases ds.rows.mapM (readRow ds.schema) with
  | error e => rfl
  | ok rows =>
    have hend : xmlStep x ds.schema ⟨[] ++ rows, false, fv, none⟩ (.endTag rootTag) = .ok ⟨rows, false, fv, none⟩ := by
      rw [xmlStep, if_neg fun h => hroot h.1, if_neg (by simp)]
      rfl
    exact congrArg (Except.map _) (xmlLoop_cons_ok (by decide) hend [.ok .eof])

/-- a cell that comes back: null, or in a schema without a field named as a record, not under the root's name, and
without special characters -/
def ComesBack (schema : Schema) (f : Field) (v : Value) : Prop :=
  v = .null ∨ (recordTag ∉ schema.fieldNames ∧ f.name ≠ rootTag ∧ ∀ s, v = .utf8 s → Xml.Plain s.toList)

theorem nulls_eq_iff {fields : List Field} {row : Row} (hlen : row.length = fields.length) :
    (fields.map fun _ => .null) = row ↔ ∀ c ∈ fields.zip row, c.2 = .null := by
  have hsnd : (fields.zip row).map Prod.snd = row := List.map_snd_zip hlen.le
  have hfst : (fields.zip row).map Prod.fst = fields := List.map_fst_zip hlen.ge
  calc (fields.map fun _ => Value.null) = row
      ↔ ((fields.zip row).map fun _ => Value.null) = (fields.zip row).map Prod.snd := by
        rw [hsnd, ← hfst, List.map_map, hfst]
        rfl
    _ ↔ ∀ c ∈ fields.zip row, c.2 = .null := by
        rw [List.map_inj_left]
        exact forall₂_congr fun c _ => eq_comm

theorem mapM_zip_eq_iff {fields : List Field} {row : Row} (hlen : row.length = fields.length)
    {f : Field × Value → IngestionResult Value} :
    (fields.zip row).mapM f = .ok row ↔ ∀ c ∈ fields.zip row, f c = .ok c.2 := by
  have hsnd : (fields.zip row).map Prod.snd = row := List.map_snd_zip hlen.le
  rw [Traverse.mapM_eq_ok_iff]
  conv_lhs => rhs; rw [← hsnd]
  rw [List.forall₂_map_right_iff, List.forall₂_same]

theorem readRow_eq_iff {schema : Schema} {row : Row} (hconf : Row.Conforms row schema)
    (hcells : ∀ v ∈ row, Writable v) :
    readRow schema row = .ok row ↔ ∀ c ∈ schema.fields.zip row, ComesBack schema c.1 c.2 := by
  have hlen := hconf.length
  unfold readRow ComesBack
  by_cases hrecord : recordTag ∈ schema.fieldNames
  · rw [if_pos hrecord, Except.ok.injEq, nulls_eq_iff hlen]
    simp only [hrecord, not_true_eq_false, false_and, or_false]
  · rw [if_neg hrecord, mapM_zip_eq_iff hlen]
    simp only [hrecord, not_false_eq_true, true_and]
    refine forall₂_congr fun c hc => ?_
    have hfits : c.2.fits c.1.dataType := (List.forall₂_iff_zip.1 (List.Forall₂.flip hconf)).2 hc
    exact readCell_eq_iff (hcells _ (List.of_mem_zip hc).2) hfits

/-- **Round trip**: the dataset comes back exactly when every cell does -/
theorem xml_round_trip_iff {x : Codec} (hx : x.Documented) {ds : DataSet} (h : Exportable ds) :
    roundTrip x ds = .ok ds ↔ ∀ row ∈ ds.rows, ∀ c ∈ ds.schema.fields.zip row, ComesBack ds.schema c.1 c.2 := by
  have hall : roundTrip x ds = .ok ds ↔ ds.rows.mapM (readRow ds.schema) = .ok ds.rows := by
    rw [ingest_export hx h]
    cases ds.rows.mapM (readRow ds.schema) with
    | error e => simp [Except.map]
    | ok rows =>
      obtain ⟨schema, rows'⟩ := ds
      simp [Except.map]
  rw [hall, Traverse.mapM_eq_ok_iff, List.forall₂_same]
  exact forall₂_congr fun row hrow => readRow_eq_iff (h.rows row hrow) (h.cells row hrow)

/-- a writer and reader that do as documented -/
def documentedCodec : Codec := ⟨fun events => (events.flatMap Xml.reported).map .ok, .ok⟩

theorem documentedCodec_documented : documentedCodec.Documented := ⟨fun _ _ _ => rfl, fun _ _ _ => rfl⟩

/-- a station without special characters, and of unknown height -/
theorem station_comes_back :
    let ds : DataSet := ⟨⟨[⟨"stationCode", .utf8⟩, ⟨"elev_m", .float64⟩, ⟨"label", .utf8⟩]⟩,
      [[.utf8 "ACW00011604", .null, .utf8 "ST JOHNS"]]⟩
    roundTrip documentedCodec ds = .ok ds := by
  intro ds
  have hexport : Exportable ds := by
    refine ⟨by decide, by decide, by decide, ?_⟩
    intro row hrow v hv
    obtain rfl : row = [.utf8 "ACW00011604", .null, .utf8 "ST JOHNS"] := List.mem_singleton.1 hrow
    rcases List.mem_cons.1 hv with rfl | hv
    · simp only [Writable]
      decide
    rcases List.mem_pair.1 hv with rfl | rfl
    · trivial
    · simp only [Writable]
      decide
  refine (xml_round_trip_iff documentedCodec_documented hexport).2 ?_
  have hnames : recordTag ∉ ds.schema.fieldNames ∧ rootTag ∉ ds.schema.fieldNames := by decide
  intro row hrow c hc
  refine Or.inr ⟨hnames.1, fun hroot => hnames.2 (hroot ▸ List.mem_map_of_mem (List.of_mem_zip hc).1), fun s hs => ?_⟩
  obtain rfl : row = [.utf8 "ACW00011604", .null, .utf8 "ST JOHNS"] := List.mem_singleton.1 hrow
  have hmem : .utf8 s ∈ [Value.utf8 "ACW00011604", .null, .utf8 "ST JOHNS"] := hs ▸ (List.of_mem_zip hc).2
  have htext : s = "ACW00011604" ∨ s = "ST JOHNS" := by simpa using hmem
  rcases htext with rfl | rfl <;> decide

/-- the ampersand of a text becomes a blank -/
theorem ampersand_lost :
    let ds : DataSet := ⟨⟨[⟨"label", .utf8⟩]⟩, [[.utf8 "R&D"]]⟩
    Exportable ds ∧ (roundTrip documentedCodec ds).toOption = some ⟨⟨[⟨"label", .utf8⟩]⟩, [[.utf8 "R D"]]⟩ := by
  refine ⟨⟨by decide, by decide, by decide, ?_⟩, by decide⟩
  intro row hrow v hv
  obtain rfl : row = [.utf8 "R&D"] := List.mem_singleton.1 hrow
  obtain rfl : v = .utf8 "R&D" := List.mem_singleton.1 hv
  simp only [Writable]
  decide

end RustDataProcessing.Ingestion.Xml
