/-
The records of an XML document, and what its reader makes of them (`ingest_xml_from_path` in `src/ingestion/xml.rs`).

A record is what stands between a start tag of a record and the next end tag of one, and a text in it belongs to the last
element that was started, if it has not ended. Both are told from the reported events alone, by looking back from an event
(`xmlRecords`); an empty tag is no record. The state of the reader is related to what is found so, event by event (`Reads`).

- `xmlLoop_reads`: a reader that returns has made a row of every record, in order, of the record's cells.
-/
import Mathlib.Tactic
import RustDataProcessing.Ingestion.Xml

open Xml (Event Codec)

namespace RustDataProcessing.Ingestion.Xml

/-! ## Records

The past of an event is what was reported before it, the latest first. -/

def isRecordTag (e : Event) : Bool := e = .startTag recordTag ∨ e = .endTag recordTag

/-- the last tag of a record is a start tag -/
def recordOpen (past : List Event) : Bool := past.find? isRecordTag = some (.startTag recordTag)

/-- the start tag of an element that can be a field -/
def startsElement : Event → Bool
  | .startTag name => name ≠ recordTag ∧ name ≠ rootTag
  | _ => false

/-- the last element started, if it was started in a record, and neither has ended since -/
def elementOf (past : List Event) : Option String :=
  match past.dropWhile fun e => !startsElement e with
  | .startTag name :: earlier =>
    let since := past.takeWhile fun e => !startsElement e
    if recordOpen earlier ∧ .endTag name ∉ since ∧ .endTag recordTag ∉ since then some name else none
  | _ => none

/-- a text in an element, if it is the latest event -/
def textIn : List Event → Option (String × String)
  | .text s :: past => (elementOf past).map fun name => (name, s)
  | _ => none

/-- the texts since the last start tag of a record, in their order, each with its element -/
def recordTexts (past : List Event) : List (String × String) :=
  ((past.tails.takeWhile fun t => t.head? ≠ some (.startTag recordTag)).filterMap textIn).reverse

/-- the latest event is the end tag of an open record -/
def endsRecord : List Event → Bool
  | .endTag name :: past => name = recordTag ∧ recordOpen past
  | _ => false

/-- the records of a past, each as its texts -/
def pastRecords (past : List Event) : List (List (String × String)) :=
  ((past.tails.filter endsRecord).map recordTexts).reverse

/-- the records of a document, in their order -/
def xmlRecords (events : List Event) : List (List (String × String)) := pastRecords events.reverse

example : xmlRecords [.startTag "root", .startTag "record", .startTag "id", .text "7", .endTag "id", .text " ",
    .endTag "record", .endTag "root"] = [[("id", "7")]] := by decide

/-- the events before the end of the document, or before the first that cannot be parsed -/
def parsedEvents : List (Except String Event) → List Event
  | .ok e :: events => if e = .eof then [] else e :: parsedEvents events
  | _ => []

/-- the text of a field: those of its elements, with a blank between them; none when one cannot be decoded -/
def fieldText (x : Codec) (record : List (String × String)) (name : String) : Option String :=
  ((record.filter fun t => t.1 = name).mapM fun t => (x.content t.2).toOption).map (" ".intercalate)

/-- a record's cell of a field: what its text is in the field's type -/
def xmlCell (x : Codec) (record : List (String × String)) (f : Field) : Option Value :=
  (fieldText x record f.name).bind fun text => (parseTextToValue text f.dataType).toOption

/-! ## One event more -/

section Cons

variable (e : Event) (past : List Event)

theorem recordOpen_cons : recordOpen (e :: past) =
    if isRecordTag e then decide (e = .startTag recordTag) else recordOpen past := by
  unfold recordOpen
  rw [List.find?_cons]
  cases isRecordTag e <;> simp

theorem elementOf_cons_start {e : Event} {name : String} (he : e = .startTag name) (h : startsElement e = true) :
    elementOf (e :: past) = if recordOpen past then some name else none := by
  subst he
  unfold elementOf
  simp [h]

theorem elementOf_cons {e : Event} (h : startsElement e = false) :
    elementOf (e :: past) = (elementOf past).filter fun name => e ≠ .endTag name ∧ e ≠ .endTag recordTag := by
  unfold elementOf
  rw [List.dropWhile_cons_of_pos (by simp [h]), List.takeWhile_cons_of_pos (by simp [h])]
  split
  · next name earlier _ =>
    simp only [List.mem_cons, not_or]
    split_ifs with hboth hone hone
    · simp [Option.filter, Ne.symm hboth.2.1.1, Ne.symm hboth.2.2.1]
    · exact absurd ⟨hboth.1, hboth.2.1.2, hboth.2.2.2⟩ hone
    · rw [Option.filter_some, if_neg]
      simp only [decide_eq_true_eq]
      rintro ⟨hend, hrecord⟩
      exact hboth ⟨hone.1, ⟨Ne.symm hend, hone.2.1⟩, Ne.symm hrecord, hone.2.2⟩
    · rfl
  · rfl

theorem recordTexts_cons : recordTexts (e :: past) =
    if e = .startTag recordTag then [] else recordTexts past ++ (textIn (e :: past)).toList := by
  unfold recordTexts
  rw [List.tails_cons]
  split_ifs with h
  · simp [h]
  · rw [List.takeWhile_cons_of_pos (by simpa using h), List.filterMap_cons]
    cases textIn (e :: past) <;> simp

theorem pastRecords_cons : pastRecords (e :: past) =
    pastRecords past ++ if endsRecord (e :: past) then [recordTexts (e :: past)] else [] := by
  unfold pastRecords
  rw [List.tails_cons, List.filter_cons]
  split_ifs <;> simp

end Cons

/-- an element that texts belong to is in a record -/
theorem recordOpen_of_elementOf {past : List Event} {name : String} (h : elementOf past = some name) :
    recordOpen past = true ∧ name ≠ recordTag := by
  induction past with
  | nil => cases h
  | cons e past ih =>
    cases hstart : startsElement e with
    | true =>
      cases e with
      | startTag tag =>
        have htag : tag ≠ recordTag ∧ tag ≠ rootTag := by simpa [startsElement] using hstart
        rw [elementOf_cons_start past rfl hstart] at h
        split_ifs at h with hopen
        obtain rfl := Option.some.inj h
        refine ⟨?_, htag.1⟩
        rw [recordOpen_cons, if_neg (by simp [isRecordTag, htag.1])]
        exact hopen
      | _ => cases hstart
    | false =>
      rw [elementOf_cons past hstart, Option.filter_eq_some_iff] at h
      obtain ⟨h, hends⟩ := h
      simp only [decide_eq_true_eq] at hends
      obtain ⟨hopen, hname⟩ := ih h
      refine ⟨?_, hname⟩
      rw [recordOpen_cons]
      split_ifs with htag
      · simpa [isRecordTag, hends.2] using htag
      · exact hopen

/-! ## The reader -/

/-- texts with a blank between them, as they are collected -/
theorem intercalate_eq (texts : List String) : " ".intercalate texts = (texts.foldl appendText none).getD "" := by
  have hmore : ∀ (rest : List String) (text : String),
      " ".intercalate (text :: rest) = (rest.foldl appendText (some text)).getD "" := by
    intro rest
    induction rest with
    | nil => exact fun text => String.intercalate_singleton
    | cons next rest ih =>
      intro text
      rw [List.foldl_cons, appendText, ← ih, String.intercalate_cons_cons, ← String.intercalate_cons_append,
        String.append_assoc]
  cases texts with
  | nil => exact String.intercalate_nil
  | cons text rest => exact hmore rest text

/-- the texts collected so far are those of the record, decoded -/
def Collected (x : Codec) (record : List (String × String)) (fields : List (String × String)) : Prop :=
  ∃ texts, (record.mapM fun t => (x.content t.2).toOption.map fun text => (t.1, text)) = some texts ∧
    fields = texts.foldl (fun fs t => addText fs t.1 t.2) []

/-- the cells of a row are those of a record -/
def RowOf (x : Codec) (schema : Schema) (record : List (String × String)) (row : Row) : Prop :=
  List.Forall₂ (fun f v => xmlCell x record f = some v) schema.fields row

/-- the state of the reader, told from the past -/
structure Reads (x : Codec) (schema : Schema) (past : List Event) (st : XmlState) : Prop where
  inRecord : st.inRecord = recordOpen past
  activeField : st.activeField = elementOf past
  fieldValues : Collected x (recordTexts past) st.fieldValues
  rows : List.Forall₂ (RowOf x schema) (pastRecords past) st.rows

section Reader

variable {x : Codec} {schema : Schema} {past : List Event} {st st' : XmlState}

theorem Reads.start (x : Codec) (schema : Schema) : Reads x schema [] ⟨[], false, [], none⟩ where
  inRecord := rfl
  activeField := rfl
  fieldValues := ⟨[], rfl, rfl⟩
  rows := .nil

/-- the text of a field, as the map of the reader has it -/
theorem Collected.lookup {record fields : List (String × String)} (h : Collected x record fields) (name : String) :
    fieldText x record name = some ((fields.lookup name).getD "") := by
  obtain ⟨texts, htexts, rfl⟩ := h
  have hfold : ∀ fs : List (String × String), (texts.foldl (fun fs t => addText fs t.1 t.2) fs).lookup name =
      ((texts.filter fun t => t.1 = name).map Prod.snd).foldl appendText (fs.lookup name) := by
    clear htexts
    induction texts with
    | nil => exact fun _ => rfl
    | cons t texts ih =>
      intro fs
      rw [List.foldl_cons, ih, lookup_addText, List.filter_cons]
      by_cases hname : t.1 = name
      · simp [hname]
      · simp [hname, Ne.symm hname]
  have hdecoded : ((record.filter fun t => t.1 = name).mapM fun t => (x.content t.2).toOption) =
      some ((texts.filter fun t => t.1 = name).map Prod.snd) := by
    clear hfold
    rw [Traverse.mapM_eq_some_iff] at htexts ⊢
    induction htexts with
    | nil => exact .nil
    | @cons t text record texts ht _ ih =>
      obtain ⟨s, hs, rfl⟩ := Option.map_eq_some_iff.1 ht
      rw [List.filter_cons, List.filter_cons]
      by_cases hname : t.1 = name
      · simp only [hname, decide_true, if_true, List.map_cons]
        exact .cons hs ih
      · simpa only [hname, decide_false, if_false, Bool.false_eq_true] using ih
  rw [fieldText, hdecoded, Option.map_some, intercalate_eq, hfold]
  rfl

/-- the row made of the map is the row of the record -/
theorem rowFromFieldMap_ok {record fields : List (String × String)} {row : Row} (h : Collected x record fields)
    (hrow : rowFromFieldMap schema fields = .ok row) : RowOf x schema record row := by
  refine (Traverse.mapM_eq_ok_iff.1 hrow).imp fun f v hv => ?_
  rw [xmlCell, h.lookup, Option.bind_some, hv]
  rfl

/-- what an event that is no text and ends no record leaves collected -/
theorem Reads.quiet (h : Reads x schema past st) {e : Event} (hrecord : e ≠ .startTag recordTag)
    (htext : textIn (e :: past) = none) : Collected x (recordTexts (e :: past)) st.fieldValues := by
  rw [recordTexts_cons, if_neg hrecord, htext, Option.toList_none, List.append_nil]
  exact h.fieldValues

/-- only the tags of a record begin and end one -/
theorem Reads.inRecord_same (h : Reads x schema past st) {e : Event} (hother : isRecordTag e = false) :
    st.inRecord = recordOpen (e :: past) := by
  rw [recordOpen_cons, hother]
  exact h.inRecord

theorem Reads.rows_same (h : Reads x schema past st) {e : Event} (hends : endsRecord (e :: past) = false) :
    List.Forall₂ (RowOf x schema) (pastRecords (e :: past)) st.rows := by
  rw [pastRecords_cons, hends]
  simpa using h.rows

/-- an event that is neither a tag nor a text -/
theorem Reads.skip (h : Reads x schema past st) {e : Event} (hstart : startsElement e = false)
    (hend : ∀ name, e ≠ .endTag name) (hrecord : e ≠ .startTag recordTag) (htext : textIn (e :: past) = none)
    (hends : endsRecord (e :: past) = false) : Reads x schema (e :: past) st where
  inRecord := h.inRecord_same (by simp [isRecordTag, hrecord, hend])
  activeField := by
    rw [elementOf_cons past hstart, h.activeField]
    simp [hend, Option.filter]
    cases elementOf past <;> rfl
  fieldValues := h.quiet hrecord htext
  rows := h.rows_same hends

theorem Reads.startTag (h : Reads x schema past st) {name : String}
    (hstep : xmlStep x schema st (.startTag name) = .ok st') : Reads x schema (.startTag name :: past) st' := by
  have hsame : startsElement (.startTag name) = false → (st.activeField = elementOf (.startTag name :: past)) := by
    intro hstart
    rw [elementOf_cons past hstart, h.activeField]
    cases elementOf past <;> simp [Option.filter]
  simp only [xmlStep] at hstep
  split_ifs at hstep with hrecord hin
  · -- a record starts: what was collected before is forgotten, the open element is not
    subst hrecord
    obtain rfl := Except.ok.inj hstep
    refine ⟨?_, hsame (by simp [startsElement]), ?_, h.rows_same rfl⟩
    · rw [recordOpen_cons, if_pos (by simp [isRecordTag])]
      simp
    · rw [recordTexts_cons, if_pos rfl]
      exact ⟨[], rfl, rfl⟩
  · obtain rfl := Except.ok.inj hstep
    refine ⟨h.inRecord_same (by simp [isRecordTag, hrecord]), ?_, h.quiet (by simpa using hrecord) rfl, h.rows_same rfl⟩
    rw [elementOf_cons_start past rfl (by simp [startsElement, hrecord, hin.2]), ← h.inRecord, if_pos hin.1]
  · obtain rfl := Except.ok.inj hstep
    refine ⟨h.inRecord_same (by simp [isRecordTag, hrecord]), ?_, h.quiet (by simpa using hrecord) rfl, h.rows_same rfl⟩
    by_cases hroot : name = rootTag
    · exact hsame (by simp [startsElement, hroot])
    · -- outside of the records no element is open
      have hout : recordOpen past = false := by
        rw [← h.inRecord]
        simpa [hroot] using hin
      rw [elementOf_cons_start past rfl (by simp [startsElement, hrecord, hroot]), hout, h.activeField]
      cases helement : elementOf past with
      | none => rfl
      | some element => rw [(recordOpen_of_elementOf helement).1] at hout; cases hout

theorem Reads.text (h : Reads x schema past st) {s : String} (hstep : xmlStep x schema st (.text s) = .ok st') :
    Reads x schema (.text s :: past) st' := by
  have hopen : st.inRecord = recordOpen (.text s :: past) := h.inRecord_same (by simp [isRecordTag])
  have hactive : st.activeField = elementOf (.text s :: past) := by
    rw [elementOf_cons past rfl, h.activeField]
    cases elementOf past <;> simp [Option.filter]
  simp only [xmlStep] at hstep
  cases helement : st.activeField with
  | none =>
    rw [helement] at hstep
    obtain rfl := Except.ok.inj hstep
    have htext : textIn (.text s :: past) = none := by rw [textIn, ← h.activeField, helement]; rfl
    exact ⟨hopen, hactive, h.quiet (by simp) htext, h.rows_same rfl⟩
  | some field =>
    rw [helement] at hstep
    dsimp only at hstep
    cases hcontent : x.content s with
    | error e => rw [hcontent] at hstep; cases hstep
    | ok text =>
      rw [hcontent] at hstep
      obtain rfl := Except.ok.inj hstep
      refine ⟨hopen, helement.symm.trans hactive, ?_, h.rows_same rfl⟩
      obtain ⟨texts, htexts, hfields⟩ := h.fieldValues
      refine ⟨texts ++ [(field, text)], ?_, ?_⟩
      · have htext : textIn (.text s :: past) = some (field, s) := by rw [textIn, ← h.activeField, helement]; rfl
        rw [recordTexts_cons, if_neg (by simp), htext, Option.toList_some, List.mapM_append, htexts]
        simp [hcontent, Except.toOption]
      · rw [List.foldl_append, ← hfields]
        rfl

theorem Reads.endTag (h : Reads x schema past st) {name : String}
    (hstep : xmlStep x schema st (.endTag name) = .ok st') : Reads x schema (.endTag name :: past) st' := by
  have hcollected : Collected x (recordTexts (.endTag name :: past)) st.fieldValues := h.quiet (by simp) rfl
  have helement : elementOf (.endTag name :: past) =
      (elementOf past).filter fun n => Event.endTag name ≠ .endTag n ∧ Event.endTag name ≠ .endTag recordTag :=
    elementOf_cons past rfl
  simp only [xmlStep] at hstep
  split_ifs at hstep with hrecord hfield
  · obtain ⟨row, hrow, rfl⟩ := Traverse.map_eq_ok hstep
    obtain ⟨rfl, hin⟩ := hrecord
    have hends : endsRecord (.endTag recordTag :: past) = true := by simp [endsRecord, ← h.inRecord, hin]
    refine ⟨?_, ?_, hcollected, ?_⟩
    · rw [recordOpen_cons, if_pos (by simp [isRecordTag])]
      simp
    · rw [helement]
      cases elementOf past <;> simp [Option.filter]
    · rw [pastRecords_cons, hends, if_pos rfl]
      exact List.rel_append h.rows (.cons (rowFromFieldMap_ok hcollected hrow) .nil)
  · -- the end tag of the open element, which is no record
    obtain rfl := Except.ok.inj hstep
    rw [h.activeField] at hfield
    obtain ⟨hopen, hname⟩ := recordOpen_of_elementOf hfield
    refine ⟨h.inRecord_same (by simp [isRecordTag, hname]), ?_, hcollected, h.rows_same (by simp [endsRecord, hname])⟩
    rw [helement, hfield]
    simp [Option.filter]
  · obtain rfl := Except.ok.inj hstep
    rw [h.activeField] at hfield
    refine ⟨?_, ?_, hcollected, h.rows_same ?_⟩
    · by_cases hname : name = recordTag
      · have hout : st.inRecord = false := by simpa [hname] using hrecord
        rw [recordOpen_cons, if_pos (by simp [isRecordTag, hname]), hout]
        simp
      · exact h.inRecord_same (by simp [isRecordTag, hname])
    · rw [helement, h.activeField]
      cases hopen : elementOf past with
      | none => rfl
      | some element =>
        obtain ⟨hin, -⟩ := recordOpen_of_elementOf hopen
        rw [hopen, Option.some.injEq] at hfield
        rw [← h.inRecord] at hin
        have hname : name ≠ recordTag := fun hname => hrecord ⟨hname, hin⟩
        simp [Option.filter, Ne.symm hfield, hname]
    · simpa [endsRecord, ← h.inRecord] using hrecord

/-- one event -/
theorem Reads.step (h : Reads x schema past st) {e : Event} (hstep : xmlStep x schema st e = .ok st') :
    Reads x schema (e :: past) st' := by
  cases e with
  | startTag name => exact h.startTag hstep
  | text s => exact h.text hstep
  | endTag name => exact h.endTag hstep
  | _ =>
    obtain rfl := Except.ok.inj hstep
    exact h.skip rfl (by simp) (by simp) rfl rfl

/-- **What the reader returns**: a row of each record -/
theorem xmlLoop_reads {events : List (Except String Event)} {rows : List Row} (h : Reads x schema past st)
    (hloop : xmlLoop x schema events st = .ok rows) :
    List.Forall₂ (RowOf x schema) (pastRecords ((parsedEvents events).reverse ++ past)) rows := by
  induction events generalizing past st with
  | nil =>
    obtain rfl := Except.ok.inj hloop
    exact h.rows
  | cons e events ih =>
    rcases e with e | e
    · cases hloop
    · by_cases heof : e = .eof
      · subst heof
        obtain rfl := Except.ok.inj hloop
        simpa [parsedEvents] using h.rows
      · rw [xmlLoop_cons heof] at hloop
        obtain ⟨mid, hmid, hrest⟩ := Traverse.bind_eq_ok hloop
        have hrows := ih (h.step hmid) hrest
        rwa [parsedEvents, if_neg heof, List.reverse_cons, List.append_assoc]

end Reader

end RustDataProcessing.Ingestion.Xml
