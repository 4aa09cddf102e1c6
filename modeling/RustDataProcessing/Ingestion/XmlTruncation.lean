/-
A truncated XML file (`src/ingestion/xml.rs`): what `ingest_xml_from_path` makes of a stream that ends too early.

The reader leaves its loop at the end of the file wherever it stands, so the record it is in is dropped; so is the first
of two nested records, and a record written as one empty tag.

- `reportsTruncation_iff`: the call reports an unfinished stream, and returns a row for every record opened, exactly when
  something else in the stream is refused, or every record tag opens a record that is closed before the next record tag,
  and nothing is open at the end.
- `unfinished_record_dropped`: a file cut off in its first record is read as a file of no records.

Assumed of the pull reader: it reports the end of the file without a check that the elements were closed.
-/
import Mathlib.Tactic
import RustDataProcessing.Ingestion.Records

open Xml (Event Codec)

namespace RustDataProcessing.Ingestion.Xml

/-! ## The document -/

/-- the events before the end of the file, none when the pull reader fails first -/
def document : List (Except String Event) → Option (List Event)
  | [] => some []
  | .error _ :: _ => none
  | .ok e :: events => if e = .eof then some [] else (document events).map (e :: ·)

/-- the elements that are open, innermost first; beside each, whether a record was open around it -/
def openElements : List (String × Bool) → List Event → List (String × Bool)
  | stack, [] => stack
  | stack, .startTag name :: events =>
    openElements ((name, stack.any fun element => element.1 = recordTag) :: stack) events
  | stack, .endTag name :: events => openElements (stack.eraseP fun element => element.1 = name) events
  | stack, _ :: events => openElements stack events

/-- a record or an element in a record is open at the end -/
def Unfinished (doc : List Event) : Prop :=
  ∃ element ∈ openElements [] doc, element.1 = recordTag ∨ element.2 = true

instance (doc : List Event) : Decidable (Unfinished doc) :=
  inferInstanceAs (Decidable (∃ element ∈ openElements [] doc, _ ∨ _))

/-- the number of record elements -/
def recordsOpened (doc : List Event) : ℕ := doc.count (.startTag recordTag) + doc.count (.emptyTag recordTag)

structure ReportsTruncation (x : Codec) (schema : Schema) (events : List (Except String Event)) : Prop where
  unfinished : ∀ doc, document events = some doc → Unfinished doc →
    ∃ e, ingestXmlFromPath x events schema = .error (.error e)
  counted : ∀ ds, ingestXmlFromPath x events schema = .ok ds →
    ∀ doc, document events = some doc → ds.rowCount = recordsOpened doc

/-! ## Where the reader stands -/

/-- the state without the rows -/
structure Place where
  inRecord : Bool
  fieldValues : List (String × String)
  activeField : Option String

def XmlState.place (st : XmlState) : Place := ⟨st.inRecord, st.fieldValues, st.activeField⟩

def start : Place := ⟨false, [], none⟩

def advance (x : Codec) (p : Place) : Event → Place
  | .startTag name =>
    if name = recordTag then { p with inRecord := true, fieldValues := [] }
    else if p.inRecord ∧ name ≠ rootTag then { p with activeField := some name }
    else p
  | .text s => match p.activeField, x.content s with
    | some field, .ok text => { p with fieldValues := addText p.fieldValues field text }
    | _, _ => p
  | .endTag name =>
    if name = recordTag ∧ p.inRecord then ⟨false, p.fieldValues, none⟩
    else if p.activeField = some name then { p with activeField := none }
    else p
  | _ => p

/-- a text that cannot be decoded, or a record that does not parse -/
def RefusedAt (x : Codec) (schema : Schema) (p : Place) : Event → Prop
  | .text s => p.activeField.isSome ∧ ∃ e, x.content s = .error e
  | .endTag name => (name = recordTag ∧ p.inRecord) ∧ ∃ e, rowFromFieldMap schema p.fieldValues = .error e
  | _ => False

def Refused (x : Codec) (schema : Schema) : Place → List Event → Prop
  | _, [] => False
  | p, e :: doc => RefusedAt x schema p e ∨ Refused x schema (advance x p e) doc

/-- the records that are closed -/
def recordsClosed : Bool → List Event → ℕ
  | _, [] => 0
  | inRecord, .endTag name :: doc =>
    if name = recordTag then inRecord.toNat + recordsClosed false doc else recordsClosed inRecord doc
  | inRecord, .startTag name :: doc => recordsClosed (if name = recordTag then true else inRecord) doc
  | inRecord, _ :: doc => recordsClosed inRecord doc

/-- every record tag opens a record, which is closed before the next record tag -/
def Paired : Bool → List Event → Prop
  | inRecord, [] => inRecord = false
  | inRecord, .startTag name :: doc =>
    if name = recordTag then inRecord = false ∧ Paired true doc else Paired inRecord doc
  | inRecord, .endTag name :: doc => Paired (if name = recordTag then false else inRecord) doc
  | inRecord, .emptyTag name :: doc => name ≠ recordTag ∧ Paired inRecord doc
  | inRecord, _ :: doc => Paired inRecord doc

/-- a record that is not closed has been opened, and all are closed exactly when the tags are paired -/
theorem recordsClosed_eq_iff (doc : List Event) (inRecord : Bool) :
    recordsClosed inRecord doc ≤ recordsOpened doc + inRecord.toNat ∧
      (recordsClosed inRecord doc = recordsOpened doc + inRecord.toNat ↔ Paired inRecord doc) := by
  induction doc generalizing inRecord with
  | nil => cases inRecord <;> simp [recordsClosed, recordsOpened, Paired]
  | cons e doc ih =>
    cases e with
    | startTag name =>
      by_cases hname : name = recordTag
      · obtain ⟨hle, hiff⟩ := ih true
        have hopened : recordsOpened (.startTag name :: doc) = recordsOpened doc + 1 := by
          simp [recordsOpened, hname]
          omega
        simp only [recordsClosed, Paired, hname, if_true, ← hiff, hname ▸ hopened, Bool.toNat_true] at hle ⊢
        refine ⟨by omega, ?_⟩
        cases inRecord
        · simp
        · simp only [Bool.toNat_true, Bool.true_eq_false, false_and, iff_false]
          omega
      · have hopened : recordsOpened (.startTag name :: doc) = recordsOpened doc := by simp [recordsOpened, hname]
        simpa only [recordsClosed, Paired, if_neg hname, hopened] using ih inRecord
    | endTag name =>
      have hopened : recordsOpened (.endTag name :: doc) = recordsOpened doc := by simp [recordsOpened]
      by_cases hname : name = recordTag
      · obtain ⟨hle, hiff⟩ := ih false
        simp only [Bool.toNat_false, Nat.add_zero] at hle hiff
        simp only [recordsClosed, Paired, if_pos hname, hopened, ← hiff]
        exact ⟨by omega, by omega⟩
      · simpa only [recordsClosed, Paired, if_neg hname, hopened] using ih inRecord
    | emptyTag name =>
      obtain ⟨hle, hiff⟩ := ih inRecord
      by_cases hname : name = recordTag
      · have hopened : recordsOpened (.emptyTag name :: doc) = recordsOpened doc + 1 := by
          simp [recordsOpened, hname]
          omega
        simp only [recordsClosed, Paired, hname, hname ▸ hopened, ne_eq, not_true_eq_false, false_and, iff_false]
        exact ⟨by omega, by omega⟩
      · have hopened : recordsOpened (.emptyTag name :: doc) = recordsOpened doc := by simp [recordsOpened, hname]
        simpa only [recordsClosed, Paired, hopened, ne_eq, hname, not_false_eq_true, true_and] using ih inRecord
    | _ => simpa [recordsClosed, Paired, recordsOpened] using ih inRecord

/-! ## What the loop does -/

section

variable (x : Codec) (schema : Schema)

/-- a step at the end of an element -/
theorem xmlStep_endTag (st : XmlState) (name : String) :
    (RefusedAt x schema st.place (.endTag name) ∧ ∀ st', xmlStep x schema st (.endTag name) ≠ .ok st') ∨
    (¬ RefusedAt x schema st.place (.endTag name) ∧ ∃ st', xmlStep x schema st (.endTag name) = .ok st' ∧
      st'.place = advance x st.place (.endTag name) ∧
      ∀ doc, st'.rows.length + recordsClosed st'.inRecord doc =
        st.rows.length + recordsClosed st.inRecord (.endTag name :: doc)) := by
  by_cases hrecord : name = recordTag ∧ st.inRecord = true
  · have hstep : xmlStep x schema st (.endTag name) = (rowFromFieldMap schema st.fieldValues).map fun row =>
        ⟨st.rows ++ [row], false, st.fieldValues, none⟩ := if_pos hrecord
    rw [hstep]
    cases hrow : rowFromFieldMap schema st.fieldValues with
    | error e => exact Or.inl ⟨⟨hrecord, e, hrow⟩, by simp [Except.map]⟩
    | ok row =>
      refine Or.inr ⟨?_, _, rfl, (if_pos hrecord).symm, fun doc => ?_⟩
      · rintro ⟨-, e, he⟩
        rw [XmlState.place, hrow] at he
        cases he
      · simp [recordsClosed, hrecord.1, hrecord.2]
        omega
  · refine Or.inr ⟨fun h => hrecord h.1, ?_⟩
    have hclosed : ∀ doc, recordsClosed st.inRecord (.endTag name :: doc) = recordsClosed st.inRecord doc := by
      intro doc
      by_cases hname : name = recordTag
      · have hout : st.inRecord = false := by simpa [hname] using hrecord
        simp [recordsClosed, hname, hout]
      · simp [recordsClosed, hname]
    by_cases hfield : st.activeField = some name
    · exact ⟨_, (if_neg hrecord).trans (if_pos hfield), ((if_neg hrecord).trans (if_pos hfield)).symm,
        fun doc => by rw [hclosed]⟩
    · exact ⟨_, (if_neg hrecord).trans (if_neg hfield), ((if_neg hrecord).trans (if_neg hfield)).symm,
        fun doc => by rw [hclosed]⟩

/-- a step fails where the event is refused, and moves on otherwise -/
theorem xmlStep_spec (st : XmlState) (e : Event) :
    (RefusedAt x schema st.place e ∧ ∀ st', xmlStep x schema st e ≠ .ok st') ∨
    (¬ RefusedAt x schema st.place e ∧ ∃ st', xmlStep x schema st e = .ok st' ∧ st'.place = advance x st.place e ∧
      ∀ doc, st'.rows.length + recordsClosed st'.inRecord doc =
        st.rows.length + recordsClosed st.inRecord (e :: doc)) := by
  cases e with
  | startTag name =>
    refine Or.inr ⟨id, ?_⟩
    by_cases hname : name = recordTag
    · refine ⟨_, if_pos hname, (if_pos hname).symm, fun doc => ?_⟩
      simp [recordsClosed, hname]
    · have hclosed : ∀ doc, recordsClosed st.inRecord (.startTag name :: doc) = recordsClosed st.inRecord doc :=
        fun doc => by simp [recordsClosed, hname]
      by_cases hfield : st.inRecord = true ∧ name ≠ rootTag
      · exact ⟨_, (if_neg hname).trans (if_pos hfield), ((if_neg hname).trans (if_pos hfield)).symm,
          fun doc => by rw [hclosed]⟩
      · exact ⟨_, (if_neg hname).trans (if_neg hfield), ((if_neg hname).trans (if_neg hfield)).symm,
          fun doc => by rw [hclosed]⟩
  | text s =>
    simp only [xmlStep, advance, XmlState.place, RefusedAt]
    cases hactive : st.activeField with
    | none => exact Or.inr ⟨by simp, st, rfl, by rw [hactive], fun doc => rfl⟩
    | some field =>
      cases hcontent : x.content s with
      | error e => exact Or.inl ⟨⟨rfl, e, rfl⟩, by simp⟩
      | ok text => exact Or.inr ⟨by simp, _, rfl, by simp, fun doc => rfl⟩
  | endTag name => exact xmlStep_endTag x schema st name
  | _ => exact Or.inr ⟨id, _, rfl, rfl, fun doc => rfl⟩

theorem xmlLoop_unreadable {events : List (Except String Event)} (h : document events = none) (st : XmlState)
    (rows : List Row) : xmlLoop x schema events st ≠ .ok rows := by
  induction events generalizing st with
  | nil => simp [document] at h
  | cons e events ih =>
    rcases e with e | e
    · simp [xmlLoop]
    · rw [document] at h
      split_ifs at h with heof
      rw [xmlLoop_cons heof]
      intro hok
      obtain ⟨st', -, hrest⟩ := Traverse.bind_eq_ok hok
      exact ih (Option.map_eq_none_iff.1 h) st' hrest

/-- the loop fails on a refused event, and otherwise returns a row for each record that is closed -/
theorem xmlLoop_spec {events : List (Except String Event)} {doc : List Event} (h : document events = some doc)
    (st : XmlState) :
    (Refused x schema st.place doc ∧ ∀ rows, xmlLoop x schema events st ≠ .ok rows) ∨
    (¬ Refused x schema st.place doc ∧ ∃ rows, xmlLoop x schema events st = .ok rows ∧
      rows.length = st.rows.length + recordsClosed st.inRecord doc) := by
  induction events generalizing st doc with
  | nil =>
    obtain rfl := Option.some.inj h
    exact Or.inr ⟨id, st.rows, rfl, rfl⟩
  | cons e events ih =>
    rcases e with e | e
    · cases h
    rw [document] at h
    split_ifs at h with heof
    · obtain rfl := Option.some.inj h
      subst heof
      exact Or.inr ⟨id, st.rows, rfl, rfl⟩
    obtain ⟨doc, hdoc, rfl⟩ := Option.map_eq_some_iff.1 h
    rw [xmlLoop_cons heof]
    rcases xmlStep_spec x schema st e with ⟨hrefused, hfails⟩ | ⟨hpass, st', hstep, hplace, hcount⟩
    · refine Or.inl ⟨Or.inl hrefused, fun rows hok => ?_⟩
      obtain ⟨st', hstep, -⟩ := Traverse.bind_eq_ok hok
      exact hfails st' hstep
    · rw [hstep]
      rcases ih hdoc st' with ⟨hrefused, hfails⟩ | ⟨hrest, rows, hrows, hlength⟩
      · exact Or.inl ⟨Or.inr (hplace ▸ hrefused), hfails⟩
      · refine Or.inr ⟨?_, rows, hrows, hlength.trans (hcount doc)⟩
        rintro (hrefused | hrefused)
        · exact hpass hrefused
        · exact hrest (hplace ▸ hrefused)

end

/-! ## When a truncated stream is reported -/

/-- the stream is refused for another reason, or every record in it is complete -/
def Complete (x : Codec) (schema : Schema) (events : List (Except String Event)) : Prop :=
  ∀ doc, document events = some doc → Refused x schema start doc ∨ (Paired false doc ∧ ¬ Unfinished doc)

theorem ingestXmlFromPath_answers (x : Codec) (schema : Schema) (events : List (Except String Event)) :
    Answers (ingestXmlFromPath x events schema) := (xmlLoop_answers _ _ _ _).map _

section

variable {x : Codec} {schema : Schema} {events : List (Except String Event)}

/-- a call that returns no rows reports the stream -/
theorem reportsTruncation_of_fails (h : ∀ rows, xmlLoop x schema events ⟨[], false, [], none⟩ ≠ .ok rows) :
    ReportsTruncation x schema events := by
  have hnot : ∀ ds, ingestXmlFromPath x events schema ≠ .ok ds := by
    intro ds hok
    cases hloop : xmlLoop x schema events ⟨[], false, [], none⟩ with
    | error e => simp [ingestXmlFromPath, hloop, Except.map] at hok
    | ok rows => exact h rows hloop
  exact ⟨fun _ _ _ => (ingestXmlFromPath_answers x schema events).err_of_not_ok hnot, fun ds hok => absurd hok (hnot ds)⟩

/-- a call that returns rows has to be for complete records -/
theorem reportsTruncation_of_rows {doc : List Event} (hdoc : document events = some doc) {rows : List Row}
    (hrows : xmlLoop x schema events ⟨[], false, [], none⟩ = .ok rows)
    (hlength : rows.length = recordsClosed false doc) :
    ReportsTruncation x schema events ↔ Paired false doc ∧ ¬ Unfinished doc := by
  have hok : ingestXmlFromPath x events schema = .ok ⟨schema, rows⟩ := by
    rw [ingestXmlFromPath, hrows]
    rfl
  have hcount : rows.length = recordsOpened doc ↔ Paired false doc := by
    rw [← (recordsClosed_eq_iff doc false).2, hlength]
    rfl
  constructor
  · intro h
    refine ⟨hcount.1 (h.counted _ hok doc hdoc), fun hopen => ?_⟩
    obtain ⟨e, he⟩ := h.unfinished doc hdoc hopen
    rw [hok] at he
    cases he
  · rintro ⟨hpaired, hclosed⟩
    refine ⟨fun doc' hdoc' hopen => ?_, fun ds hds doc' hdoc' => ?_⟩
    · rw [hdoc] at hdoc'
      obtain rfl := Option.some.inj hdoc'
      exact absurd hopen hclosed
    · rw [hdoc] at hdoc'
      obtain rfl := Option.some.inj hdoc'
      rw [hok] at hds
      obtain rfl := Except.ok.inj hds
      exact hcount.2 hpaired

end

/-- **A truncated file is reported** and a row returned for every record exactly when the records are complete -/
theorem reportsTruncation_iff (x : Codec) (schema : Schema) (events : List (Except String Event)) :
    ReportsTruncation x schema events ↔ Complete x schema events := by
  cases hdoc : document events with
  | none =>
    refine ⟨fun _ doc h => ?_, fun _ => reportsTruncation_of_fails fun rows => xmlLoop_unreadable x schema hdoc _ rows⟩
    rw [hdoc] at h
    cases h
  | some doc =>
    have hcomplete : Complete x schema events ↔ Refused x schema start doc ∨ (Paired false doc ∧ ¬ Unfinished doc) := by
      simp [Complete, hdoc]
    rw [hcomplete]
    rcases xmlLoop_spec x schema hdoc ⟨[], false, [], none⟩ with ⟨hrefused, hnot⟩ | ⟨hpass, rows, hrows, hlength⟩
    · exact ⟨fun _ => Or.inl hrefused, fun _ => reportsTruncation_of_fails hnot⟩
    · have hrest := reportsTruncation_of_rows hdoc hrows (by simpa using hlength)
      exact ⟨fun h => Or.inr (hrest.1 h), fun h => hrest.2 (h.resolve_left hpass)⟩

/-- a file that is cut off in the field of its first record -/
def cutOffEvents : List (Except String Event) :=
  [.ok (.startTag "rdp_records"), .ok (.startTag "record"), .ok (.startTag "a"), .ok (.text "1"), .ok .eof]

/-- **The unfinished record is dropped** without an error -/
theorem unfinished_record_dropped :
    ¬ ∀ (x : Codec) (schema : Schema) (events : List (Except String Event)), ReportsTruncation x schema events := by
  intro h
  have hunfinished : Unfinished [.startTag "rdp_records", .startTag "record", .startTag "a", .text "1"] := by decide
  obtain ⟨e, he⟩ := (h documentedCodec ⟨[⟨"a", .int64⟩]⟩ cutOffEvents).unfinished _ rfl hunfinished
  have hok : ingestXmlFromPath documentedCodec cutOffEvents ⟨[⟨"a", .int64⟩]⟩ = .ok ⟨⟨[⟨"a", .int64⟩]⟩, []⟩ := by rfl
  rw [hok] at he
  cases he

end RustDataProcessing.Ingestion.Xml
