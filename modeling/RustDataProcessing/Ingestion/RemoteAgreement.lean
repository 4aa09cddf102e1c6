/-
When a file behind a URI is read like a local file of the same name and content.

The name decides the format, and whether a JSON file is an array or one object a line. For a file behind a URI it is
looked at once, in a shorter table; the copy is then named by the format alone, so the second question is asked of a
name that ends in ".json".

- `remote_agrees_iff`: the two agree exactly when the name does not end in ".ndjson" for a JSON file, nor in ".pq" where
  the format is left to the name.
- `ndjson_read_as_array`: "events.ndjson" behind a URI is read as one array.

Of a file, the readers see what is in it, and the JSON reader also its extension (`DiskReaders`).
-/
import Mathlib.Tactic
import RustDataProcessing.Lib.Display
import RustDataProcessing.Ingestion.JsonReader
import RustDataProcessing.Ingestion.Remote

namespace RustDataProcessing.Ingestion

open Polars (IoError)

/-! ## Files -/

/-- a reader of what is in a file, and its promise -/
structure ContentReader (Content : Type) where
  read : Except IoError Content → Schema → IngestionResult DataSet
  conforms : ∀ file schema ds, read file schema = .ok ds → ds.Conforms schema

structure DiskReaders (Content : Type) where
  csv : ContentReader Content
  parquet : ContentReader Content
  excel : ExcelSheetSelection → ContentReader Content
  xml : ContentReader Content
  json : JsonBackend
  text : Content → String

theorem ingestJsonFromPath_conforms {E : JsonBackend} {path : String} {file : Except IoError String} {schema : Schema}
    {ds : DataSet} (h : ingestJsonFromPath E path file schema = .ok ds) : ds.Conforms schema := by
  cases file with
  | error e => cases h
  | ok text =>
    obtain ⟨text, -, h⟩ := Traverse.bind_eq_ok h
    obtain ⟨df, -, h⟩ := Traverse.bind_eq_ok h
    obtain ⟨_, -, h⟩ := Traverse.bind_eq_ok h
    obtain ⟨projected, -, h⟩ := Traverse.bind_eq_ok h
    exact dataframeToDataset_conforms h

section Disk

variable {Content : Type} (D : DiskReaders Content) (disk : String → Except IoError Content)

def ContentReader.over (r : ContentReader Content) : Reader where
  read path schema := r.read (disk path) schema
  conforms path schema ds h := r.conforms (disk path) schema ds h

/-- the readers of path ingestion, over the files of a disk -/
def DiskReaders.over : Readers where
  csv := D.csv.over disk
  parquet := D.parquet.over disk
  excel sel := (D.excel sel).over disk
  xml := D.xml.over disk
  json :=
    { read := fun path schema => ingestJsonFromPath D.json path ((disk path).map D.text) schema
      conforms := fun _ _ _ h => ingestJsonFromPath_conforms h }

end Disk

/-! ## What a name decides -/

def lowerExtension (path : String) : String := RustStd.toAsciiLowercase ((RustStd.extension path).getD "")

def jsonFormatOf (path : String) : JsonFormat := if lowerExtension path = "ndjson" then .jsonLines else .json

/-- the format of a file, and of a JSON file the way its objects are laid out; none when there is no format -/
def localChoice (path : String) (options : IngestionOptions) : Option (IngestionFormat × Option JsonFormat) :=
  (formatFor path options).toOption.map fun fmt => (fmt, if fmt = .json then some (jsonFormatOf path) else none)

/-- the same of a file behind a URI: the format is found first, and the local copy is read with it -/
def remoteChoice (remote : Remote) (what unsupported uri : String) (options : IngestionOptions) :
    Option (IngestionFormat × Option JsonFormat) :=
  (fetchRemote remote what unsupported uri options).toOption.bind fun c =>
    localChoice c.1 { options with format := some c.2 }

/-- the JSON reader looks at the extension, and at nothing else of the name -/
theorem ingestJsonFromPath_congr {path path' : String} (h : jsonFormatOf path = jsonFormatOf path') (E : JsonBackend)
    (file : Except IoError String) (schema : Schema) :
    ingestJsonFromPath E path file schema = ingestJsonFromPath E path' file schema := by
  unfold jsonFormatOf lowerExtension at h
  unfold ingestJsonFromPath
  dsimp only
  rw [h]

/-! ## Copies -/

/-- `temp_download_path` -/
def tempDownloadPath (tempDir stem : String) (stamp : ℕ) (suffix : String) : String :=
  tempDir ++ "/" ++ (stem ++ toString stamp ++ suffix)

inductive RemoteKind where
  | objectStore
  | fileTransfer
deriving DecidableEq, Repr

namespace RemoteKind

def stem : RemoteKind → String
  | .objectStore => "rdp_os_dl_"
  | .fileTransfer => "rdp_ft_dl_"

def what : RemoteKind → String
  | .objectStore => "object path"
  | .fileTransfer => "remote path"

def unsupported : RemoteKind → String
  | .objectStore => "excel ingest from object store is not supported"
  | .fileTransfer => "excel ingest from file-transfer URIs is not supported"

def ingest (R : Readers) (remote : Remote) (uri : String) (schema : Schema) (options : IngestionOptions) :
    RemoteKind → IngestionResult DataSet
  | .objectStore => ingestFromObjectStoreUri R remote uri schema options
  | .fileTransfer => ingestFromFileTransferUri R remote uri schema options

end RemoteKind

/-- the download succeeds: the URI names the path, and a copy of its content is made under any suffix -/
structure Downloads {Content : Type} (kind : RemoteKind) (remote : Remote) (disk : String → Except IoError Content)
    (uri path : String) (content : Content) : Prop where
  scheme : kind = .fileTransfer → fileTransferScheme uri ≠ none
  resolve : remote.resolve uri = .ok path
  copy : ∀ suffix, ∃ tempDir stamp, remote.download uri suffix = .ok (tempDownloadPath tempDir kind.stem stamp suffix) ∧
    disk (tempDownloadPath tempDir kind.stem stamp suffix) = .ok content

theorem slash_not_mem_stamp (stamp : ℕ) : '/' ∉ (toString stamp).toList := by
  have hlist : (toString stamp).toList = Nat.toDigits 10 stamp := Nat.toList_repr
  rw [hlist]
  intro hmem
  have hdigit := RustStd.isDigit_of_mem_toDigits hmem
  revert hdigit
  decide

/-- a copy has the extension of its suffix -/
theorem extension_tempDownloadPath (tempDir : String) (kind : RemoteKind) (stamp : ℕ) {ext : String}
    (hdot : '.' ∉ ext.toList) (hslash : '/' ∉ ext.toList) :
    RustStd.extension (tempDownloadPath tempDir kind.stem stamp ("." ++ ext)) = some ext := by
  have hstem : '/' ∉ kind.stem.toList := by cases kind <;> decide
  have hlong : 9 ≤ kind.stem.length := by cases kind <;> decide
  have hname : RustStd.fileName (tempDownloadPath tempDir kind.stem stamp ("." ++ ext)) =
      some (kind.stem ++ toString stamp ++ ("." ++ ext)) := by
    have hlen : 9 ≤ (kind.stem ++ toString stamp ++ ("." ++ ext)).length := by
      simp only [String.length_append]
      omega
    refine RustStd.fileName_join ?_ ?_ ?_ ?_
    · have hpoint : '/' ∉ ".".toList := by decide
      simp only [String.toList_append, List.mem_append, not_or]
      exact ⟨⟨hstem, slash_not_mem_stamp stamp⟩, hpoint, hslash⟩
    all_goals
      intro heq
      rw [heq] at hlen
      revert hlen
      decide
  rw [← String.append_assoc] at hname
  refine RustStd.extension_of_fileName hname ?_ hdot
  intro heq
  have hzero := congrArg String.length heq
  simp only [String.length_append, String.length_empty] at hzero
  omega

/-- the suffix of a copy is its format; of Excel files no copy is made -/
theorem downloadSuffix_ok {unsupported : String} {fmt : IngestionFormat} (h : fmt ≠ .excel) :
    ∃ ext, downloadSuffix unsupported fmt = .ok ("." ++ ext) ∧ '.' ∉ ext.toList ∧ '/' ∉ ext.toList ∧
      RustStd.toAsciiLowercase ext ≠ "ndjson" := by
  cases fmt with
  | csv => exact ⟨"csv", rfl, by decide⟩
  | json => exact ⟨"json", rfl, by decide⟩
  | parquet => exact ⟨"parquet", rfl, by decide⟩
  | excel => exact absurd rfl h
  | xml => exact ⟨"xml", rfl, by decide⟩

/-- a download that succeeds leaves a copy that is read as an array where it is JSON -/
theorem fetchRemote_ok {Content : Type} {kind : RemoteKind} {remote : Remote} {disk : String → Except IoError Content}
    {uri path : String} {content : Content} (hd : Downloads kind remote disk uri path content)
    {options : IngestionOptions} {fmt : IngestionFormat}
    (hfmt : inferFormatFromRemotePath kind.what path options = .ok fmt) (hne : fmt ≠ .excel) :
    ∃ copy, fetchRemote remote kind.what kind.unsupported uri options = .ok (copy, fmt) ∧ disk copy = .ok content ∧
      jsonFormatOf copy = .json := by
  obtain ⟨ext, hsuffix, hdot, hslash, hext⟩ := @downloadSuffix_ok kind.unsupported _ hne
  obtain ⟨tempDir, stamp, hcopy, hcontent⟩ := hd.copy ("." ++ ext)
  refine ⟨_, ?_, hcontent, ?_⟩
  · unfold fetchRemote
    rw [hd.resolve]
    simp only [bind, Except.bind, hfmt, hsuffix, hcopy]
    rfl
  · have hlower : lowerExtension (tempDownloadPath tempDir kind.stem stamp ("." ++ ext)) =
        RustStd.toAsciiLowercase ext := by
      unfold lowerExtension
      rw [extension_tempDownloadPath tempDir kind stamp hdot hslash]
      rfl
    unfold jsonFormatOf
    rw [hlower, if_neg hext]

/-- no format, no copy -/
theorem fetchRemote_error {remote : Remote} {what unsupported uri path : String} {options : IngestionOptions}
    {e : Fault} (hresolve : remote.resolve uri = .ok path)
    (hfmt : inferFormatFromRemotePath what path options = .error e) :
    fetchRemote remote what unsupported uri options = .error e := by
  unfold fetchRemote
  rw [hresolve]
  simp only [bind, Except.bind, hfmt]

/-! ## Agreement -/

/-- the same format, the same layout of a JSON file, and the same result -/
structure Agreement {Content : Type} (D : DiskReaders Content) (disk : String → Except IoError Content)
    (kind : RemoteKind) (remote : Remote) (uri file : String) (schema : Schema) (options : IngestionOptions) : Prop where
  choice : remoteChoice remote kind.what kind.unsupported uri options = localChoice file options
  result : Traverse.Agree (kind.ingest (D.over disk) remote uri schema options)
    (ingestFromPath (D.over disk) file schema options).result

/-- the names that mean the same behind a URI: no JSON file is ".ndjson", and ".pq" has its format given -/
def NamedAlike (path : String) (options : IngestionOptions) : Prop :=
  match options.format with
  | none => lowerExtension path ≠ "ndjson" ∧ lowerExtension path ≠ "pq"
  | some fmt => fmt = .json → lowerExtension path ≠ "ndjson"

instance (path : String) (options : IngestionOptions) : Decidable (NamedAlike path options) := by
  unfold NamedAlike
  split <;> infer_instance

/-- a call through a URI reads the copy with the format found -/
theorem ingest_eq {kind : RemoteKind} {uri : String} (hscheme : kind = .fileTransfer → fileTransferScheme uri ≠ none)
    (R : Readers) (remote : Remote) (schema : Schema) (options : IngestionOptions) :
    kind.ingest R remote uri schema options = ingestRemote R remote kind.what kind.unsupported uri schema options := by
  cases kind with
  | objectStore => rfl
  | fileTransfer =>
    unfold RemoteKind.ingest ingestFromFileTransferUri
    cases h : fileTransferScheme uri with
    | none => exact absurd h (hscheme rfl)
    | some s => rfl

/-- the format is the same by both tables, but for ".pq" and the workbooks -/
theorem infer_eq {what path : String} {options : IngestionOptions} (hexcel : formatFor path options ≠ .ok .excel)
    (hpq : options.format = none → lowerExtension path ≠ "pq") :
    (inferFormatFromRemotePath what path options).toOption = (formatFor path options).toOption := by
  unfold lowerExtension at hpq
  unfold inferFormatFromRemotePath
  unfold formatFor inferFormatFromPath at hexcel ⊢
  cases hf : options.format with
  | some fmt => rfl
  | none =>
    simp only [hf, forall_const] at hexcel hpq ⊢
    cases hext : RustStd.extension path with
    | none =>
      simp only [Option.getD_none]
      rfl
    | some ext =>
      simp only [hext, Option.getD_some, IngestionFormat.fromExtension] at hexcel hpq ⊢
      split_ifs at hexcel ⊢ <;> simp_all [Except.toOption]

theorem jsonFormatOf_eq_json {path : String} : jsonFormatOf path = .json ↔ lowerExtension path ≠ "ndjson" := by
  unfold jsonFormatOf
  split_ifs with h <;> simp [h]

/-- a file of the same name has the same extension, which is there when its lower case is not empty -/
theorem extension_of_lower {file path ext : String} (hname : RustStd.fileName file = RustStd.fileName path)
    (hext : lowerExtension path = ext) (hne : ext ≠ "") :
    ∃ e, RustStd.extension file = some e ∧ RustStd.toAsciiLowercase e = ext := by
  rw [RustStd.extension_congr hname]
  cases he : RustStd.extension path with
  | none =>
    rw [lowerExtension, he] at hext
    exact absurd hext.symm hne
  | some e => exact ⟨e, rfl, by rw [← hext, lowerExtension, he]; rfl⟩

theorem NamedAlike.notPq {path : String} {options : IngestionOptions} (h : NamedAlike path options)
    (hf : options.format = none) : lowerExtension path ≠ "pq" := by
  unfold NamedAlike at h
  rw [hf] at h
  exact h.2

/-- names that mean the same have a JSON file read as an array on both sides, where there is one -/
theorem NamedAlike.layout {path : String} {options : IngestionOptions} (h : NamedAlike path options)
    (hjson : formatFor path options = .ok .json) : jsonFormatOf path = .json := by
  rw [jsonFormatOf_eq_json]
  unfold NamedAlike at h
  cases hf : options.format with
  | none =>
    rw [hf] at h
    exact h.1
  | some fmt =>
    rw [hf] at h
    simp only [formatFor, hf] at hjson
    exact h (Except.ok.inj hjson)

/-- the name is looked at twice: the format by one table, the layout of the copy by its suffix -/
theorem remoteChoice_ok {Content : Type} {kind : RemoteKind} {remote : Remote}
    {disk : String → Except IoError Content} {uri path : String} {content : Content}
    (hd : Downloads kind remote disk uri path content) {options : IngestionOptions} {fmt : IngestionFormat}
    (hfmt : inferFormatFromRemotePath kind.what path options = .ok fmt) (hne : fmt ≠ .excel) :
    remoteChoice remote kind.what kind.unsupported uri options =
      some (fmt, if fmt = .json then some .json else none) := by
  obtain ⟨copy, hfetch, -, hlayout⟩ := fetchRemote_ok hd hfmt hne
  unfold remoteChoice
  rw [hfetch]
  simp only [Except.toOption, Option.bind_some, localChoice, formatFor, Option.map_some, hlayout]

theorem localChoice_ok {path : String} {options : IngestionOptions} {fmt : IngestionFormat}
    (h : formatFor path options = .ok fmt) :
    localChoice path options = some (fmt, if fmt = .json then some (jsonFormatOf path) else none) := by
  unfold localChoice
  rw [h]
  rfl

/-- a local file of the same name: its format and its layout are those of the path -/
theorem formatFor_congr {file path : String} (h : RustStd.fileName file = RustStd.fileName path)
    (options : IngestionOptions) : (formatFor file options).toOption = (formatFor path options).toOption := by
  unfold formatFor inferFormatFromPath
  cases options.format with
  | some fmt => rfl
  | none =>
    simp only [RustStd.extension_congr h]
    cases RustStd.extension path with
    | none => rfl
    | some ext =>
      simp only
      cases IngestionFormat.fromExtension ext <;> rfl

/-- files with the same content and, where they are JSON, the same layout are read alike -/
theorem read_eq {Content : Type} (D : DiskReaders Content) {disk : String → Except IoError Content} {copy file : String}
    (hcontent : disk copy = disk file) {fmt : IngestionFormat}
    (hlayout : fmt = .json → jsonFormatOf copy = jsonFormatOf file) (sel : ExcelSheetSelection) (schema : Schema) :
    ((D.over disk).reader sel fmt).read copy schema = ((D.over disk).reader sel fmt).read file schema := by
  cases fmt with
  | json =>
    change ingestJsonFromPath D.json copy ((disk copy).map D.text) schema =
      ingestJsonFromPath D.json file ((disk file).map D.text) schema
    rw [ingestJsonFromPath_congr (hlayout rfl), hcontent]
  | csv => exact congrArg (fun content => D.csv.read content schema) hcontent
  | parquet => exact congrArg (fun content => D.parquet.read content schema) hcontent
  | excel => exact congrArg (fun content => (D.excel sel).read content schema) hcontent
  | xml => exact congrArg (fun content => D.xml.read content schema) hcontent

/-- files read alike in one format are ingested alike, the format given or found -/
theorem ingestFromPath_congr {R : Readers} {copy file : String} {schema : Schema} {options : IngestionOptions}
    {fmt : IngestionFormat} (hfmt : formatFor file options = .ok fmt)
    (hread : (R.reader options.excelSheetSelection fmt).read copy schema =
      (R.reader options.excelSheetSelection fmt).read file schema) :
    (ingestFromPath R copy schema { options with format := some fmt }).result =
      (ingestFromPath R file schema options).result := by
  have hcopy : formatFor copy { options with format := some fmt } = .ok fmt := rfl
  have hvalid : validateWatermarkConfig schema { options with format := some fmt } =
      validateWatermarkConfig schema options := rfl
  simp only [ingestFromPath, result_bind, result_quiet, hcopy, hfmt, hvalid]
  cases validateWatermarkConfig schema options with
  | error e => rfl
  | ok u =>
    simp only [Except.bind]
    rw [hread]
    rfl

section Claim

variable {Content : Type} (D : DiskReaders Content) {disk : String → Except IoError Content} {kind : RemoteKind}
  {remote : Remote} {uri path file : String} {content : Content}

/-- a format that is found by neither table: both calls fail -/
theorem agreement_of_error (hd : Downloads kind remote disk uri path content) {options : IngestionOptions} {e e' : Fault}
    (hremote : inferFormatFromRemotePath kind.what path options = .error e')
    (hfmt : formatFor file options = .error e) (schema : Schema) :
    Agreement D disk kind remote uri file schema options := by
  have hfetch := @fetchRemote_error _ _ kind.unsupported _ _ _ _ hd.resolve hremote
  refine ⟨?_, Or.inr ⟨⟨e', ?_⟩, ?_⟩⟩
  · unfold remoteChoice localChoice
    rw [hfetch, hfmt]
    rfl
  · rw [ingest_eq hd.scheme, ingestRemote, hfetch]
    rfl
  · simp only [ingestFromPath, result_bind, result_quiet, hfmt]
    cases validateWatermarkConfig schema options with
    | error e'' => exact ⟨e'', rfl⟩
    | ok u => exact ⟨e, rfl⟩

/-- a format that is found by both tables: the copy is read like the file -/
theorem agreement_of_ok (hd : Downloads kind remote disk uri path content) (hfile : disk file = .ok content)
    {options : IngestionOptions} {fmt : IngestionFormat}
    (hremote : inferFormatFromRemotePath kind.what path options = .ok fmt) (hfmt : formatFor file options = .ok fmt)
    (hne : fmt ≠ .excel) (hlayout : fmt = .json → jsonFormatOf file = .json) (schema : Schema) :
    Agreement D disk kind remote uri file schema options := by
  obtain ⟨copy, hfetch, hcontent, hcopy⟩ := fetchRemote_ok hd hremote hne
  have hread := read_eq D (hcontent.trans hfile.symm) (fun h => hcopy.trans (hlayout h).symm)
    options.excelSheetSelection schema
  refine ⟨?_, ?_⟩
  · rw [remoteChoice_ok hd hremote hne, localChoice_ok hfmt]
    split_ifs with hj
    · rw [hlayout hj]
    · rfl
  · rw [Traverse.agree_iff_toOption, ingest_eq hd.scheme, ingestRemote, hfetch, ← ingestFromPath_congr hfmt hread]
    rfl

/-- names that mean the same: the same choice and the same result -/
theorem agreement_of_namedAlike (hd : Downloads kind remote disk uri path content) (hfile : disk file = .ok content)
    (hname : RustStd.fileName file = RustStd.fileName path) {options : IngestionOptions}
    (hexcel : formatFor file options ≠ .ok .excel) (schema : Schema) (halike : NamedAlike path options) :
    Agreement D disk kind remote uri file schema options := by
  have hsame := formatFor_congr hname options
  have hexcel' : formatFor path options ≠ .ok .excel := by
    intro h
    rw [h] at hsame
    exact hexcel (Traverse.ok_of_toOption hsame)
  have hinfer := @infer_eq kind.what path options hexcel' halike.notPq
  rw [← hsame] at hinfer
  cases hfmt : formatFor file options with
  | error e =>
    rw [hfmt] at hinfer
    cases hremote : inferFormatFromRemotePath kind.what path options with
    | ok fmt => rw [hremote] at hinfer; cases hinfer
    | error e' => exact agreement_of_error D hd hremote hfmt schema
  | ok fmt =>
    rw [hfmt] at hinfer hsame
    refine agreement_of_ok D hd hfile (Traverse.ok_of_toOption hinfer) hfmt (fun h => hexcel (h ▸ hfmt)) ?_ schema
    rintro rfl
    unfold jsonFormatOf lowerExtension
    rw [RustStd.extension_congr hname]
    exact halike.layout (Traverse.ok_of_toOption hsame.symm)

/-- **Remote and local ingestion agree** exactly on the names that mean the same on both sides -/
theorem remote_agrees_iff (hd : Downloads kind remote disk uri path content) (hfile : disk file = .ok content)
    (hname : RustStd.fileName file = RustStd.fileName path) {options : IngestionOptions}
    (hexcel : formatFor file options ≠ .ok .excel) (schema : Schema) :
    Agreement D disk kind remote uri file schema options ↔ NamedAlike path options := by
  refine ⟨fun h => ?_, agreement_of_namedAlike D hd hfile hname hexcel schema⟩
  have hchoice := h.choice
  -- a JSON file that is read as an array behind the URI is read as an array here
  have hjson : inferFormatFromRemotePath kind.what path options = .ok .json → formatFor file options = .ok .json →
      lowerExtension path ≠ "ndjson" := by
    intro hremote hlocal
    rw [remoteChoice_ok hd hremote (by decide), localChoice_ok hlocal] at hchoice
    have hlayout : jsonFormatOf file = .json := by simpa using hchoice.symm
    rw [jsonFormatOf_eq_json, lowerExtension, RustStd.extension_congr hname] at hlayout
    exact hlayout
  unfold NamedAlike
  cases hf : options.format with
  | some fmt =>
    rintro rfl
    exact hjson (by simp [inferFormatFromRemotePath, hf]) (by simp [formatFor, hf])
  | none =>
    refine ⟨?_, ?_⟩
    · intro hlower
      obtain ⟨e, he, hlow⟩ := extension_of_lower hname hlower (by decide)
      refine hjson ?_ ?_ hlower
      · unfold lowerExtension at hlower
        simp [inferFormatFromRemotePath, hf, hlower]
      · simp [formatFor, hf, inferFormatFromPath, he, IngestionFormat.fromExtension, hlow]
    · intro hlower
      obtain ⟨e, he, hlow⟩ := extension_of_lower hname hlower (by decide)
      have hlocal : formatFor file options = .ok .parquet := by
        simp [formatFor, hf, inferFormatFromPath, he, IngestionFormat.fromExtension, hlow]
      have hremote : ∃ err, inferFormatFromRemotePath kind.what path options = .error err := by
        unfold lowerExtension at hlower
        simp [inferFormatFromRemotePath, hf, hlower]
      obtain ⟨err, herr⟩ := hremote
      rw [localChoice_ok hlocal, remoteChoice, fetchRemote_error hd.resolve herr] at hchoice
      cases hchoice

end Claim

/-! ## A file of lines -/

/-- a store with one object -/
def bucket (path : String) : Remote where
  resolve _ := .ok path
  download _ suffix := .ok (tempDownloadPath "/tmp" "rdp_os_dl_" 1700000000 suffix)

theorem bucket_downloads {Content : Type} (uri path : String) (content : Content) :
    Downloads .objectStore (bucket path) (fun _ => .ok content) uri path content where
  scheme h := by cases h
  resolve := rfl
  copy _ := ⟨_, _, rfl, rfl⟩

def events : String := "\x7b\"id\":1\x7d\n\x7b\"id\":2\x7d\n"

def eventLineSchema : Schema := ⟨[⟨"id", .int64⟩]⟩

/-- two objects are two lines, and no document -/
def eventBackend : JsonBackend where
  toEngine := Polars.Engine.plain
  finish format _ := match format with
    | .jsonLines => .ok ⟨2, [⟨"id", .int64, [.int64 1, .int64 2]⟩], by simp⟩
    | .json => .error (.other "trailing characters" [])
  project df _ _ := .ok df

def unread : ContentReader String := ⟨fun _ _ => .error (.schemaMismatch "not read here"), fun _ _ _ h => by cases h⟩

def eventReaders : DiskReaders String := ⟨unread, unread, fun _ => unread, unread, eventBackend, id⟩

/-- an array by name: both sides read it so -/
theorem json_read_as_array :
    Agreement eventReaders (fun _ => .ok events) .objectStore (bucket "in/events.json") "s3://landing/in/events.json"
      "events.json" eventLineSchema {} := by
  have hname : RustStd.fileName "events.json" = RustStd.fileName "in/events.json" := by decide
  have hjson : (formatFor "events.json" {}).toOption = some .json := by decide
  have hexcel : formatFor "events.json" {} ≠ .ok .excel := by
    rw [Traverse.ok_of_toOption hjson]
    simp
  have halike : NamedAlike "in/events.json" {} := by decide
  exact (remote_agrees_iff eventReaders (bucket_downloads _ _ events) rfl hname hexcel eventLineSchema).2 halike

/-- **A file of lines behind a URI** is read as one array: its rows are read here, and refused there -/
theorem ndjson_read_as_array :
    Downloads .objectStore (bucket "in/events.ndjson") (fun _ => .ok events) "s3://landing/in/events.ndjson"
        "in/events.ndjson" events ∧
      localChoice "events.ndjson" {} = some (.json, some .jsonLines) ∧
      remoteChoice (bucket "in/events.ndjson") RemoteKind.objectStore.what RemoteKind.objectStore.unsupported
        "s3://landing/in/events.ndjson" {} = some (.json, some .json) ∧
      (ingestFromPath (eventReaders.over fun _ => .ok events) "events.ndjson" eventLineSchema {}).result.toOption =
        some ⟨eventLineSchema, [[.int64 1], [.int64 2]]⟩ ∧
      (ingestFromObjectStoreUri (eventReaders.over fun _ => .ok events) (bucket "in/events.ndjson")
        "s3://landing/in/events.ndjson" eventLineSchema {}).toOption = none ∧
      ¬ Agreement eventReaders (fun _ => .ok events) .objectStore (bucket "in/events.ndjson")
        "s3://landing/in/events.ndjson" "events.ndjson" eventLineSchema {} := by
  have hlocal : localChoice "events.ndjson" {} = some (.json, some .jsonLines) := by decide
  have hremote : remoteChoice (bucket "in/events.ndjson") RemoteKind.objectStore.what
      RemoteKind.objectStore.unsupported "s3://landing/in/events.ndjson" {} = some (.json, some .json) := by
    decide +kernel
  refine ⟨bucket_downloads _ _ _, hlocal, hremote, by decide +kernel, by decide +kernel, ?_⟩
  intro h
  have hchoice := h.choice
  rw [hlocal, hremote] at hchoice
  revert hchoice
  decide

end RustDataProcessing.Ingestion
