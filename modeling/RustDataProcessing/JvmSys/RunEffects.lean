/-
What a run of a pipeline document changes in the outside world, whether it ends well or not.

A request names places: local paths, object URIs, and the tables of database URLs. Where a place lies in the world is a
parameter (`sites`), for two names can stand for one file; `Located` states that each linked call stays at the sites of
the place it is given.

The world is that of `Run`: temporary copies of downloads, which a failed ingestion may leave (`Ingestion.TempFiles`), and
those of staging are no part of it.

- `failed_run_prefix`: a run that fails before the sinks has changed nothing; one that fails in a sink has done what the
  same document does with the sinks before that one, and has touched besides only the sites of the failing sink.
- `ok_run_accounts`: a run that succeeds has one result for each sink, in order and of its kind, and has changed only the
  sites of sinks whose result is `ok` or `error`.
- `late_sinks_do_not_run`: once the deadline has passed, what the document asks for after that makes no difference.
-/
import Mathlib.Tactic
import RustDataProcessing.JvmSys.Run

namespace RustDataProcessing.JvmSys

open Ingestion
open Attempt (Confined Steps)
open Pipeline (DataFrame)

/-! ## Places -/

inductive Place where
  | path (path : String)
  | object (uri : String)
  | postgres (url table : String)
  | oracle (url table : String)
  | mssql (url table : String)
deriving DecidableEq, Repr

def handoffPlace (uri : String) : Place := if isObjectStoreUri uri then .object uri else .path (handoffPath uri)

section Run

variable {World P O M Bytes : Type} (L : Linked World P O M Bytes)

/-- where a sink writes; a database that is not built, and a place that is not given, are no place -/
def SinkSpec.writes : SinkSpec → List Place
  | .parquetFile path _ => [.path path]
  | .xmlFile path _ => [.path path]
  | .postgresql load _ => if L.postgres.isSome then [.postgres load.url load.table] else []
  | .oracle load _ => if L.oracle.isSome then [.oracle load.url load.table] else []
  | .mssql load _ => if L.mssql.isSome then [.mssql load.url load.table] else []
  | .deltaLake warehouse _ ns table _ =>
    (warehouse.map fun wh => Place.object (parquetPartUri (deltaTableUri wh ns table))).toList
  | .iceberg .. => []
  | .snowflake _ _ _ _ _ stageUri _ _ =>
    (stageUri.map fun stage =>
      Place.object (if endsWith stage "/" then s!"{stage}load.parquet" else s!"{stage}.parquet")).toList
  | .databricks _ _ warehouse ns table _ =>
    (warehouse.map fun wh => Place.object (parquetPartUri (deltaTableUri wh ns table))).toList
  | .spark _ _ handoffUri _ => [handoffPlace handoffUri]
  | .objectStore uri _ _ => [.object (if endsWith uri "/" then s!"{uri}data.parquet" else uri)]

/-- where a sink writes, if it has a connector -/
def SinkSpec.targets (sink : SinkSpec) : List Place := if (pendingSink sink).isSome then [] else sink.writes L

/-- the linked calls stay at the sites of the place they are given -/
structure Located {π κ : Type} (view : π → World → κ) (sites : Place → Set π) : Prop where
  createParent : ∀ path, Confined view (sites (.path path)) (L.createParent path)
  createFile : ∀ path, Confined view (sites (.path path)) (L.createFile path)
  writeParquet : ∀ path df, Confined view (sites (.path path)) (L.writeParquet path df)
  writeXml : ∀ path events, Confined view (sites (.path path)) (L.writeXml path events)
  putObject : ∀ uri bytes, Confined view (sites (.object uri)) (L.putObject uri bytes)
  postgres : ∀ db ∈ L.postgres, ∀ url table t w, ∀ q ∉ sites (.postgres url table),
    view q ((db.table url table).set t w) = view q w
  oracle : ∀ db ∈ L.oracle, ∀ url table t w, ∀ q ∉ sites (.oracle url table),
    view q ((db.table url table).set t w) = view q w
  mssql : ∀ db ∈ L.mssql, ∀ url table t w, ∀ q ∉ sites (.mssql url table),
    view q ((db.table url table).set t w) = view q w

variable {L} in
/-- what the calls do to one place of the world -/
theorem Located.at {π κ : Type} {view : π → World → κ} {sites : Place → Set π} (h : Located L view sites) (q : π) :
    Located L (fun _ : Unit => view q) fun p => {_u | q ∈ sites p} where
  createParent path w _ hq := h.createParent path w q hq
  createFile path w _ hq := h.createFile path w q hq
  writeParquet path df w _ hq := h.writeParquet path df w q hq
  writeXml path events w _ hq := h.writeXml path events w q hq
  putObject uri bytes w _ hq := h.putObject uri bytes w q hq
  postgres db hdb url table t w _ hq := h.postgres db hdb url table t w q hq
  oracle db hdb url table t w _ hq := h.oracle db hdb url table t w q hq
  mssql db hdb url table t w _ hq := h.mssql db hdb url table t w q hq

section Confinement

variable {L} {π κ : Type} {view : π → World → κ} {sites : Place → Set π}

/-- the sites of a list of places -/
def sitesOf (sites : Place → Set π) (places : List Place) : Set π := {q | ∃ p ∈ places, q ∈ sites p}

@[simp] theorem sitesOf_singleton (p : Place) : sitesOf sites [p] = sites p := by
  ext q
  simp [sitesOf]

theorem exportDatasetToParquet_confined (hL : Located L view sites) (path : String) (ds : DataSet) :
    Confined view (sites (.path path)) (exportDatasetToParquet L path ds) :=
  (Confined.ofExcept _).bind fun df => (hL.createFile path).mapError.bind fun _ => (hL.writeParquet path df).mapError

theorem exportDatasetToXml_confined (hL : Located L view sites) (path : String) (ds : DataSet) :
    Confined view (sites (.path path)) (exportDatasetToXml L path ds) :=
  (hL.createFile path).mapError.bind fun _ => (hL.writeXml path _).mapError

theorem exportDatasetToObjectStoreUri_confined (hL : Located L view sites) (uri : String) (ds : DataSet) :
    Confined view (sites (.object uri)) (exportDatasetToObjectStoreUri L uri ds) :=
  (Confined.ofExcept _).bind fun _ => (Confined.ofExcept _).bind fun _ => (Confined.ofExcept _).bind fun bytes =>
    (hL.putObject uri bytes).mapError

theorem fileSink_confined (hL : Located L view sites) (ioCode writeCode : String) {path : String}
    {write : Attempt World Fault Unit} (hwrite : Confined view (sites (.path path)) write) :
    Confined view (sites (.path path)) (fileSink L ioCode writeCode path write) :=
  (hL.createParent path).mapError.bind fun _ => hwrite.mapError

theorem handoff_confined (hL : Located L view sites) (uri : String) (ds : DataSet) :
    Confined view (sites (handoffPlace uri)) (exportDatasetToHandoff L uri ds) := by
  unfold handoffPlace exportDatasetToHandoff
  split_ifs
  · exact (exportDatasetToObjectStoreUri_confined hL uri ds).mapError
  · exact fileSink_confined hL _ _ (exportDatasetToParquet_confined hL _ ds)

theorem reported_confined {places : Set π} {α : Type} {result : Except IngestionError α → SinkResult}
    {x : Attempt World Fault α} (hx : Confined view places x) : Confined view places (reported result x) := by
  refine hx.caught.bind fun r => ?_
  rcases r with (e | -) | a
  · exact Confined.done _
  · exact Confined.fail _
  · exact Confined.done _

theorem requirePlace_confined {places : Set π} (place : Option String) (message : String)
    {f : String → Attempt World PipelineFault SinkResult} (hf : ∀ p ∈ place, Confined view places (f p)) :
    Confined view places (requirePlace place message >>= f) := by
  cases place with
  | none => exact Confined.of_same fun _ => rfl
  | some p => exact hf p rfl

theorem tableSink_confined {places : Set π} {Server R : Type} {kind failed notBuilt reason : String}
    {database : Option (Database World Server R)}
    {sink : Server → String → String → DataSet → Bool → Bool → Attempt (Table R) SinkError ℕ} {load : TableLoad}
    {ds : DataSet} (h : ∀ db ∈ database, ∀ t w, ∀ q ∉ places, view q ((db.table load.url load.table).set t w) = view q w) :
    Confined view places (tableSink kind failed notBuilt reason database sink load ds) := by
  cases database with
  | none => exact Confined.done _
  | some db =>
    have hon : Confined view places (Attempt.on (db.table load.url load.table)
        (sink db.server load.url load.table ds load.createTableIfMissing load.truncateBeforeLoad)) :=
      fun w q hq => h db rfl _ w q hq
    refine hon.caught.bind fun r => ?_
    rcases r with e | n
    · exact Confined.done _
    · exact Confined.done _

theorem writeSink_confined (hL : Located L view sites) (ds : DataSet) (sink : SinkSpec) :
    Confined view (sitesOf sites (sink.writes L)) (writeSink L ds sink) := by
  have object : ∀ uri, Confined view (sitesOf sites [.object uri]) (exportDatasetToObjectStoreUri L uri ds) :=
    fun uri => by rw [sitesOf_singleton]; exact exportDatasetToObjectStoreUri_confined hL uri ds
  cases sink with
  | parquetFile path =>
    rw [SinkSpec.writes, sitesOf_singleton]
    exact (fileSink_confined hL _ _ (exportDatasetToParquet_confined hL path ds)).bind fun _ => Confined.done _
  | xmlFile path =>
    rw [SinkSpec.writes, sitesOf_singleton]
    exact (fileSink_confined hL _ _ (exportDatasetToXml_confined hL path ds)).bind fun _ => Confined.done _
  | postgresql load =>
    refine tableSink_confined fun db hdb t w q hq => hL.postgres db hdb _ _ t w q fun hmem => hq ?_
    rw [SinkSpec.writes, if_pos (Option.isSome_of_mem hdb), sitesOf_singleton]
    exact hmem
  | oracle load =>
    refine tableSink_confined fun db hdb t w q hq => hL.oracle db hdb _ _ t w q fun hmem => hq ?_
    rw [SinkSpec.writes, if_pos (Option.isSome_of_mem hdb), sitesOf_singleton]
    exact hmem
  | mssql load =>
    refine tableSink_confined fun db hdb t w q hq => hL.mssql db hdb _ _ t w q fun hmem => hq ?_
    rw [SinkSpec.writes, if_pos (Option.isSome_of_mem hdb), sitesOf_singleton]
    exact hmem
  | deltaLake warehouse _ ns table =>
    refine requirePlace_confined _ _ fun wh hwh => reported_confined ((Confined.bind ?_ fun _ => Confined.done _))
    obtain rfl := hwh
    exact object _
  | iceberg => exact Confined.done _
  | snowflake _ _ _ _ _ stageUri =>
    refine requirePlace_confined _ _ fun stage hstage => reported_confined (Confined.bind ?_ fun _ => Confined.done _)
    obtain rfl := hstage
    exact object _
  | databricks _ _ warehouse ns table =>
    refine requirePlace_confined _ _ fun wh hwh => reported_confined (Confined.bind ?_ fun _ => Confined.done _)
    obtain rfl := hwh
    exact object _
  | spark _ _ uri =>
    rw [SinkSpec.writes, sitesOf_singleton]
    refine ((handoff_confined hL uri ds).bind fun _ => Confined.done _).caught.bind fun r => ?_
    rcases r with (e | -) | n
    · exact Confined.done _
    · exact Confined.fail _
    · exact Confined.done _
  | objectStore uri => exact reported_confined (object _)

theorem runSink_confined (hL : Located L view sites) (base : DataFrame) (sink : SinkSpec) :
    Confined view (sitesOf sites (sink.targets L)) (runSink L base sink) := by
  refine (Confined.ofExcept _).bind fun branch => ?_
  cases hpending : pendingSink sink with
  | some result => exact Confined.done _
  | none =>
    rw [SinkSpec.targets, hpending]
    exact (Confined.ofExcept _).bind fun ds => writeSink_confined hL ds sink

theorem timedSink_confined (hL : Located L view sites) (clock : Clock) (deadline : Option ℕ) (base : DataFrame)
    (s : SinkSpec × ℕ) : Confined view (sitesOf sites (s.1.targets L)) (timedSink L clock deadline base s) :=
  (Confined.ofExcept _).bind fun _ => runSink_confined hL base s.1

end Confinement

end Run

/-! ## Stages -/

def PipelineFault.stage : PipelineFault → Option String
  | .structured _ _ stage _ => some stage
  | .panic => none

/-- a call whose errors are of some stages -/
def FailsIn (stages : List String) {α : Type} (x : PipelineResult α) : Prop :=
  ∀ e stage, x = .error e → e.stage = some stage → stage ∈ stages

namespace FailsIn

variable {stages : List String} {α β : Type}

theorem ok (a : α) : FailsIn stages (.ok a) := fun e stage h => by cases h

theorem error {e : PipelineFault} (h : ∀ stage, e.stage = some stage → stage ∈ stages) :
    FailsIn stages (.error e : PipelineResult α) := fun e' stage he hs => by
  obtain rfl := Except.error.inj he
  exact h stage hs

theorem refuse (code message : String) {stage : String} (h : stage ∈ stages) :
    FailsIn stages (JvmSys.refuse code message stage) := error fun s hs => by
  cases hs
  exact h

theorem bind {x : PipelineResult α} {f : α → PipelineResult β} (hx : FailsIn stages x) (hf : ∀ a, FailsIn stages (f a)) :
    FailsIn stages (x >>= f) := by
  intro e stage h hs
  rcases Traverse.bind_eq_error h with h | ⟨a, -, h⟩
  · exact hx e stage h hs
  · exact hf a e stage h hs

theorem mapError {ε : Type} {g : ε → PipelineFault} (h : ∀ e stage, (g e).stage = some stage → stage ∈ stages)
    (x : Except ε α) : FailsIn stages (x.mapError g) := by
  cases x with
  | ok a => exact ok a
  | error e => exact error (h e)

theorem forM {f : α → PipelineResult Unit} (h : ∀ a, FailsIn stages (f a)) (l : List α) : FailsIn stages (l.forM f) := by
  induction l with
  | nil => exact ok ()
  | cons a l ih => exact (h a).bind fun _ => ih

theorem mono {stages' : List String} (hsub : stages ⊆ stages') {x : PipelineResult α} (h : FailsIn stages x) :
    FailsIn stages' x := fun e stage he hs => hsub (h e stage he hs)

end FailsIn

theorem ingest_stage (code message : String) (e : Fault) {stage : String}
    (h : (PipelineFault.ingest code message e).stage = some stage) : stage ∈ ["ingest"] := by
  cases e with
  | error e => cases h; simp
  | panic => cases h

theorem at_stage (code stage : String) (e : Fault) {stage' : String}
    (h : (PipelineFault.at code stage e).stage = some stage') : stage' ∈ [stage] := by
  cases e with
  | error e => cases h; simp
  | panic => cases h

theorem ingestEach_failsIn {α : Type} (code : String) (describe : α → String) (result : α → ℕ → SourceResult)
    (ingest : α → IngestionResult DataSet) (xs : List α) :
    FailsIn ["ingest"] (ingestEach code describe result ingest xs) := by
  induction xs with
  | nil => exact FailsIn.ok _
  | cons x xs ih =>
    exact (FailsIn.mapError (fun e _ => ingest_stage _ _ e) _).bind fun ds => ih.bind fun r => FailsIn.ok _

/-- whatever goes wrong with the sources, it is the stage of the ingestion -/
theorem ingestPipelineSources_failsIn (C : Connectors) (localPaths objectStoreUris fileTransferUris : List String)
    (dbReads : List DbReadSpec) (schema : Schema) (opts : IngestionOptions) : FailsIn ["ingest"]
      (ingestPipelineSources C localPaths objectStoreUris fileTransferUris dbReads schema opts) := by
  refine FailsIn.bind ?_ fun l => FailsIn.bind (ingestEach_failsIn _ _ _ _ _) fun o =>
    FailsIn.bind (ingestEach_failsIn _ _ _ _ _) fun t => FailsIn.bind ?_ fun d => ?_
  · unfold ingestLocalPaths
    split_ifs
    · exact FailsIn.ok _
    · exact (FailsIn.mapError (fun e _ => ingest_stage _ _ e) _).bind fun r => FailsIn.ok _
  · unfold ingestDbReads
    split_ifs
    · exact FailsIn.ok _
    · cases C.connectorx with
      | none => exact FailsIn.error fun s hs => by cases hs; simp
      | some cx => exact ingestEach_failsIn _ _ _ _ _
  · obtain ⟨db, dbRows⟩ := d
    unfold finishSources
    dsimp only
    split_ifs
    · exact FailsIn.error fun s hs => by cases hs; simp
    · refine (FailsIn.mapError (fun e _ => ingest_stage _ _ e) _).bind fun ds => ?_
      cases opts.watermarkColumn with
      | none => exact FailsIn.ok _
      | some col => exact (FailsIn.mapError (fun e s hs => by cases hs) _).bind fun _ => FailsIn.ok _

theorem checkDeadline_failsIn (deadline : Option ℕ) (now : ℕ) (stage : String) :
    FailsIn [stage] (checkDeadline deadline now stage) := by
  unfold checkDeadline
  cases deadline with
  | none => exact FailsIn.ok _
  | some t =>
    dsimp only
    split_ifs
    · exact FailsIn.refuse _ _ (by simp)
    · exact FailsIn.ok _

theorem checkRequest_failsIn (req : RunPipelineRequest) : FailsIn ["parse", "ingest"] (checkRequest req) := by
  have h (code message : String) : FailsIn ["parse", "ingest"] (refuse code message "parse") :=
    FailsIn.refuse _ _ (by simp)
  refine FailsIn.bind ?_ fun _ => FailsIn.bind (FailsIn.forM (fun u => ?_) _) fun _ =>
    FailsIn.bind (FailsIn.forM (fun u => ?_) _) fun _ => FailsIn.bind (FailsIn.forM (fun p => ?_) _) fun _ =>
    FailsIn.bind (FailsIn.forM (fun db => ?_) _) fun _ => ?_
  · unfold checkVersion
    split_ifs
    · exact h _ _
    · exact h _ _
    · exact FailsIn.ok _
  · split_ifs
    · exact FailsIn.ok _
    · exact h _ _
  · split_ifs
    · exact FailsIn.ok _
    · exact h _ _
  · cases objectStorePathError p with
    | none => exact FailsIn.ok _
    | some e => exact FailsIn.refuse _ _ (by simp)
  · unfold checkDbRead
    cases dbReadUrlError db.url with
    | some e => exact h _ _
    | none =>
      dsimp only
      split_ifs
      · exact h _ _
      · exact FailsIn.ok _
  · split_ifs
    · exact h _ _
    · exact h _ _
    · exact FailsIn.ok _

section Run

variable {World P O M Bytes : Type} (L : Linked World P O M Bytes)

theorem queried_failsIn (base : DataFrame) (sql : Option String) (stage : String) :
    FailsIn [stage] (queried L base sql stage) := by
  unfold queried
  cases sql with
  | none => exact FailsIn.ok _
  | some s =>
    dsimp only
    split_ifs
    · exact FailsIn.ok _
    · exact FailsIn.mapError (fun e _ => at_stage _ _ e) _

/-- before the sinks, an error is of one of the first three stages -/
theorem prepareRequest_failsIn (C : Connectors) (clock : Clock) (req : RunPipelineRequest) (declared : Option Json) :
    FailsIn ["parse", "ingest", "transform"] (prepareRequest L C clock req declared) := by
  have parse : ["parse"] ⊆ ["parse", "ingest", "transform"] := by simp
  have ingest : ["ingest"] ⊆ ["parse", "ingest", "transform"] := by simp
  have transform : ["transform"] ⊆ ["parse", "ingest", "transform"] := by simp
  refine (FailsIn.mono ?_ (checkRequest_failsIn req)).bind fun _ =>
    ((checkDeadline_failsIn _ _ _).mono parse).bind fun _ => FailsIn.bind ?_ fun opts =>
    ((ingestPipelineSources_failsIn _ _ _ _ _ _ _).mono ingest).bind fun ingested =>
    ((checkDeadline_failsIn _ _ _).mono ingest).bind fun _ => FailsIn.bind ?_ fun _ => FailsIn.bind ?_ fun frame =>
    ((checkDeadline_failsIn _ _ _).mono transform).bind fun _ =>
    ((queried_failsIn L _ _ _).mono transform).bind fun base => FailsIn.ok _
  · simp
  · exact FailsIn.mapError (fun e s hs => by cases hs; simp) _
  · unfold checkRowBudget
    split
    · split_ifs
      · exact FailsIn.refuse _ _ (by simp)
      · exact FailsIn.ok _
    · exact FailsIn.ok _
  · exact FailsIn.mapError (fun e s hs => transform (at_stage _ _ e hs)) _

theorem parsePayload_failsIn (payload : Except String RunPipelineEnvelope) : FailsIn ["parse"] (parsePayload payload) := by
  unfold parsePayload
  split
  · exact FailsIn.error fun s hs => by cases hs; simp
  · exact FailsIn.ok _
  · split
    · exact FailsIn.error fun s hs => by cases hs; simp
    · exact FailsIn.ok _

theorem prepare_failsIn (C : Connectors) (clock : Clock) (payload : Except String RunPipelineEnvelope) :
    FailsIn ["parse", "ingest", "transform"] (prepare L C clock payload) :=
  ((parsePayload_failsIn payload).mono (by simp)).bind fun r => prepareRequest_failsIn L C clock r.1 r.2

/-! ### In the sinks -/

/-- a call whose errors are those of a sink -/
def SinkFails {α : Type} (x : Attempt World PipelineFault α) : Prop :=
  ∀ w e stage, (x w).2 = .error e → e.stage = some stage → stage ∈ ["sink", "sink_sql"]

namespace SinkFails

variable {α β ε : Type}

theorem done (a : α) : SinkFails (Attempt.done a : Attempt World PipelineFault α) := fun w e stage h => by cases h

theorem ofExcept {x : PipelineResult α} {stage : String} (hstage : stage ∈ ["sink", "sink_sql"]) (h : FailsIn [stage] x) :
    SinkFails (Attempt.ofExcept x : Attempt World PipelineFault α) := fun w e s he hs => by
  have hmem := h e s he hs
  rw [List.mem_singleton] at hmem
  rwa [hmem]

theorem bind {x : Attempt World PipelineFault α} {f : α → Attempt World PipelineFault β} (hx : SinkFails x)
    (hf : ∀ a, SinkFails (f a)) : SinkFails (x >>= f) := by
  intro w e stage h hs
  have hrun : (x >>= f) w = (((x >>= f) w).1, .error e) := Prod.ext rfl h
  rcases Attempt.bind_error hrun with hxw | ⟨a, t, -, ht⟩
  · exact hx w e stage (congrArg Prod.snd hxw) hs
  · exact hf a t e stage (congrArg Prod.snd ht) hs

theorem mapError {g : ε → PipelineFault} (h : ∀ e stage, (g e).stage = some stage → stage ∈ ["sink"])
    (x : Attempt World ε α) : SinkFails (x.mapError g) := by
  intro w e stage he hs
  have hmem := FailsIn.mapError h (x w).2 e stage he hs
  rw [List.mem_singleton] at hmem
  simp [hmem]

theorem caught_bind {x : Attempt World ε α} {f : Except ε α → Attempt World PipelineFault β} (hf : ∀ r, SinkFails (f r)) :
    SinkFails (Attempt.caught x >>= f) :=
  bind (fun w e stage h => by cases h) hf

theorem panic : SinkFails (Attempt.fail .panic : Attempt World PipelineFault α) := fun w e stage he hs => by
  obtain rfl := Except.error.inj he
  cases hs

end SinkFails

theorem fileSink_fails (ioCode writeCode path : String) (write : Attempt World Fault Unit) :
    SinkFails (fileSink L ioCode writeCode path write) :=
  (SinkFails.mapError (fun e s hs => by cases hs; simp) _).bind fun _ =>
    SinkFails.mapError (fun e _ => at_stage _ _ e) _

theorem reported_fails {α : Type} (result : Except IngestionError α → SinkResult) (x : Attempt World Fault α) :
    SinkFails (reported result x) := by
  refine SinkFails.caught_bind fun r => ?_
  rcases r with (e | -) | a
  · exact SinkFails.done _
  · exact SinkFails.panic
  · exact SinkFails.done _

theorem requirePlace_fails (place : Option String) (message : String) :
    SinkFails (requirePlace place message : Attempt World PipelineFault String) := by
  cases place with
  | none =>
    intro w e s he hs
    obtain rfl := Except.error.inj he
    cases hs
    simp
  | some p => exact SinkFails.done p

theorem tableSink_fails {Server R : Type} (kind failed notBuilt reason : String)
    (database : Option (Database World Server R))
    (sink : Server → String → String → DataSet → Bool → Bool → Attempt (Table R) SinkError ℕ) (load : TableLoad)
    (ds : DataSet) : SinkFails (tableSink kind failed notBuilt reason database sink load ds) := by
  cases database with
  | none => exact SinkFails.done _
  | some db =>
    refine SinkFails.caught_bind fun r => ?_
    rcases r with e | n
    · exact SinkFails.done _
    · exact SinkFails.done _

theorem writeSink_fails (ds : DataSet) (sink : SinkSpec) : SinkFails (writeSink L ds sink) := by
  cases sink with
  | parquetFile path => exact (fileSink_fails L _ _ path _).bind fun _ => SinkFails.done _
  | xmlFile path => exact (fileSink_fails L _ _ path _).bind fun _ => SinkFails.done _
  | postgresql load => exact tableSink_fails _ _ _ _ _ _ load ds
  | oracle load => exact tableSink_fails _ _ _ _ _ _ load ds
  | mssql load => exact tableSink_fails _ _ _ _ _ _ load ds
  | deltaLake => exact (requirePlace_fails _ _).bind fun _ => reported_fails _ _
  | iceberg => exact SinkFails.done _
  | snowflake => exact (requirePlace_fails _ _).bind fun _ => reported_fails _ _
  | databricks => exact (requirePlace_fails _ _).bind fun _ => reported_fails _ _
  | spark =>
    refine SinkFails.caught_bind fun r => ?_
    rcases r with (e | -) | n
    · exact SinkFails.done _
    · exact SinkFails.panic
    · exact SinkFails.done _
  | objectStore => exact reported_fails _ _

theorem timedSink_fails (clock : Clock) (deadline : Option ℕ) (base : DataFrame) (s : SinkSpec × ℕ) :
    SinkFails (timedSink L clock deadline base s) := by
  have sink : "sink" ∈ ["sink", "sink_sql"] := by simp
  refine (SinkFails.ofExcept sink (checkDeadline_failsIn _ _ _)).bind fun _ =>
    (SinkFails.ofExcept (by simp) (queried_failsIn L _ _ _)).bind fun branch => ?_
  cases pendingSink s.1 with
  | some result => exact SinkFails.done _
  | none =>
    refine (SinkFails.ofExcept sink (FailsIn.mapError (fun e _ => at_stage _ _ e) _)).bind fun ds => ?_
    exact writeSink_fails L ds s.1

end Run

/-! ## A world in memory -/

/-- what is at each place: a table, or the number of rows of a file -/
abbrev Memory := Place → Table (List Char)

/-- a server that refuses nothing -/
def memoryPostgres : Database Memory (PgServer (List Char)) (List Char) where
  server := ⟨fun _ => none, fun _ => none, fun _ => none, fun _ => none, fun _ => none, none, "no such table",
    fun body => [body]⟩
  table url table := ⟨fun w => w (.postgres url table), fun t w => Function.update w (.postgres url table) t⟩

theorem memoryPostgres_get_set (url table : String) (t : Table (List Char)) (w : Memory) :
    (memoryPostgres.table url table).get ((memoryPostgres.table url table).set t w) = t := by
  simp only [memoryPostgres, Function.update_self]

/-- files are counted, one of them cannot be created, and PostgreSQL is built -/
def memoryLinked (disk : List (String × List Row)) (full : String) : Linked Memory (List Char) Unit Unit ℕ where
  connectors _ := memorySources disk
  engine := .plain
  displayType _ := ""
  query lf _ := .ok lf
  createParent _ := .done ()
  createFile path := fun w => if path = full then (w, .error ⟨"StorageFull", "no space left on device"⟩)
    else (Function.update w (.path path) (some []), .ok ())
  writeParquet path df := fun w => (Function.update w (.path path) (some (List.replicate df.height [])), .ok ())
  writeXml path events := fun w => (Function.update w (.path path) (some (List.replicate events.length [])), .ok ())
  resolveUri _ := .ok ()
  stageParquet df := .ok df.height
  putObject uri bytes := fun w => (Function.update w (.object uri) (some (List.replicate bytes [])), .ok ())
  snowflakeLogin := false
  postgres := some memoryPostgres
  oracle := none
  mssql := none

theorem memoryLinked_located (disk : List (String × List Row)) (full : String) :
    Located (memoryLinked disk full) (fun q w => w q) fun p => {p} where
  createParent _ := Confined.done _
  createFile path := by
    intro w q hq
    simp only [memoryLinked]
    split_ifs
    · rfl
    · exact Function.update_of_ne hq _ w
  writeParquet path df := fun w q hq => Function.update_of_ne hq _ w
  writeXml path events := fun w q hq => Function.update_of_ne hq _ w
  putObject uri bytes := fun w q hq => Function.update_of_ne hq _ w
  postgres db hdb url table t w q hq := by
    obtain rfl := Option.some.inj hdb
    exact Function.update_of_ne hq _ w
  oracle db hdb := by cases hdb
  mssql db hdb := by cases hdb

/-- one local file -/
def eventsTo (sinks : List SinkSpec) : RunPipelineRequest where
  sources := { paths := ["a.csv"], schema := eventSchema }
  sinks := sinks

section Run

variable {World P O M Bytes : Type} (L : Linked World P O M Bytes)

/-! ## Runs -/

/-- a run that is not prepared ends there -/
theorem runPipelineImpl_unprepared {clock : Clock} {payload : Except String RunPipelineEnvelope} {w : World}
    {e : PipelineFault} (h : prepare L (L.connectors w) clock payload = .error e) :
    runPipelineImpl L clock payload w = (w, .error e) := by
  unfold runPipelineImpl
  exact Attempt.bind_of_error (by rw [Attempt.reads, h])

/-- a prepared run goes through its sinks -/
theorem runPipelineImpl_prepared {clock : Clock} {payload : Except String RunPipelineEnvelope} {w : World} {p : Prepared}
    (h : prepare L (L.connectors w) clock payload = .ok p) :
    runPipelineImpl L clock payload w = (Attempt.collect (timedSink L clock p.deadline p.base) p.request.sinks.zipIdx >>=
      fun results => Attempt.done (report clock p results)) w := by
  unfold runPipelineImpl
  exact Attempt.bind_ok (by rw [Attempt.reads, h])

/-- a run that succeeds has taken a step for each sink -/
theorem runPipelineImpl_ok {clock : Clock} {payload : Except String RunPipelineEnvelope} {w w' : World}
    {r : PipelineReport} :
    runPipelineImpl L clock payload w = (w', .ok r) ↔ ∃ p ps, prepare L (L.connectors w) clock payload = .ok p ∧
      ps.map Prod.fst = p.request.sinks.zipIdx ∧ Steps (timedSink L clock p.deadline p.base) w ps w' ∧
      r = report clock p (ps.map Prod.snd) := by
  constructor
  · intro h
    obtain ⟨p, t, hprep, hrest⟩ := Attempt.bind_done h
    obtain ⟨hp, rfl⟩ := Attempt.reads_ok hprep
    obtain ⟨results, u, hcollect, hend⟩ := Attempt.bind_done hrest
    obtain ⟨ps, hps, rfl, hsteps⟩ := Attempt.collect_ok_iff.1 hcollect
    obtain ⟨rfl, hr⟩ := Prod.mk.inj hend
    exact ⟨p, ps, hp, hps, hsteps, (Except.ok.inj hr).symm⟩
  · rintro ⟨p, ps, hp, hps, hsteps, rfl⟩
    exact (runPipelineImpl_prepared L hp).trans (Attempt.bind_ok (Attempt.collect_ok_iff.2 ⟨ps, hps, rfl, hsteps⟩))

/-- a run that fails has failed before its sinks, or in one of them -/
theorem runPipelineImpl_error {clock : Clock} {payload : Except String RunPipelineEnvelope} {w w' : World}
    {e : PipelineFault} (h : runPipelineImpl L clock payload w = (w', .error e)) :
    (prepare L (L.connectors w) clock payload = .error e ∧ w' = w) ∨
      ∃ p ps s post t, prepare L (L.connectors w) clock payload = .ok p ∧
      p.request.sinks.zipIdx = ps.map Prod.fst ++ s :: post ∧ Steps (timedSink L clock p.deadline p.base) w ps t ∧
      timedSink L clock p.deadline p.base s t = (w', .error e) := by
  rcases Attempt.bind_error h with hprep | ⟨p, t, hprep, hrest⟩
  · obtain ⟨hp, rfl⟩ := Attempt.reads_error hprep
    exact Or.inl ⟨hp, rfl⟩
  · obtain ⟨hp, rfl⟩ := Attempt.reads_ok hprep
    rcases Attempt.bind_error hrest with hcollect | ⟨results, u, -, hend⟩
    · obtain ⟨ps, s, post, t, hsinks, hsteps, hs⟩ := Attempt.collect_error_iff.1 hcollect
      exact Or.inr ⟨p, ps, s, post, t, hp, hsinks, hsteps, hs⟩
    · cases hend

theorem checkRequest_withSinks {req : RunPipelineRequest} {sinks : List SinkSpec} (h : sinks = [] ↔ req.sinks = []) :
    checkRequest { req with sinks := sinks } = checkRequest req := by
  unfold checkRequest
  simp only [h]

/-- what comes before the sinks depends only on whether there are any -/
theorem prepareRequest_withSinks {C : Connectors} {clock : Clock} {req : RunPipelineRequest} {declared : Option Json}
    {sinks : List SinkSpec} (h : sinks = [] ↔ req.sinks = []) :
    prepareRequest L C clock { req with sinks := sinks } declared =
      (prepareRequest L C clock req declared).map fun p => { p with request := { req with sinks := sinks } } := by
  unfold prepareRequest
  rw [checkRequest_withSinks h]
  simp only [Traverse.map_bind]
  rfl

def RunPipelineRequest.ingestionOptions (req : RunPipelineRequest) : Except String IngestionOptions :=
  parseIngestionOptions (if req.sources.options.isNull then .object [] else req.sources.options) none

/-- what a prepared run holds -/
theorem prepareRequest_ok {C : Connectors} {clock : Clock} {req : RunPipelineRequest} {declared : Option Json}
    {p : Prepared} (h : prepareRequest L C clock req declared = .ok p) : ∃ opts lf, req.ingestionOptions = .ok opts ∧
      ingestPipelineSources C req.sources.paths req.sources.objectStoreUris req.sources.fileTransferUris
        req.sources.dbReads req.sources.schema opts = .ok p.ingested ∧
      DataFrame.fromDataset L.engine p.ingested.dataset = .ok lf ∧ queried L lf req.transform.join "transform" = .ok p.base ∧
      p = ⟨req, declared, pipelineDeadline req.orchestration clock.timeoutStart, p.ingested, p.base⟩ := by
  obtain ⟨-, -, h⟩ := Traverse.bind_eq_ok h
  obtain ⟨-, -, h⟩ := Traverse.bind_eq_ok h
  obtain ⟨opts, hopts, h⟩ := Traverse.bind_eq_ok h
  obtain ⟨ingested, hingested, h⟩ := Traverse.bind_eq_ok h
  obtain ⟨-, -, h⟩ := Traverse.bind_eq_ok h
  obtain ⟨-, -, h⟩ := Traverse.bind_eq_ok h
  obtain ⟨lf, hlf, h⟩ := Traverse.bind_eq_ok h
  obtain ⟨-, -, h⟩ := Traverse.bind_eq_ok h
  obtain ⟨base, hbase, h⟩ := Traverse.bind_eq_ok h
  obtain rfl := Except.ok.inj h
  exact ⟨opts, lf, Traverse.ok_of_mapError hopts, hingested, Traverse.ok_of_mapError hlf, hbase, rfl⟩

theorem prepareRequest_request {C : Connectors} {clock : Clock} {req : RunPipelineRequest} {declared : Option Json}
    {p : Prepared} (h : prepareRequest L C clock req declared = .ok p) : p.request = req := by
  obtain ⟨-, -, -, -, -, -, hp⟩ := prepareRequest_ok L h
  rw [hp]

theorem prepare_v1 {C : Connectors} {clock : Clock} {req : RunPipelineRequest} :
    prepare L C clock (.ok (.v1 req)) = prepareRequest L C clock req none := rfl

/-- the first sinks of a run, as the run of a document that has only these -/
theorem run_of_prefix {clock : Clock} {req : RunPipelineRequest} {p : Prepared} {w t : World}
    (hp : prepareRequest L (L.connectors w) clock req none = .ok p) {ps : List ((SinkSpec × ℕ) × SinkResult)}
    {post : List (SinkSpec × ℕ)} (hsinks : req.sinks.zipIdx = ps.map Prod.fst ++ post) (hne : ps ≠ [])
    (hsteps : Steps (timedSink L clock p.deadline p.base) w ps t) :
    ∃ r, runPipelineImpl L clock (.ok (.v1 { req with sinks := req.sinks.take ps.length })) w = (t, .ok r) ∧
      r.sinkResults = ps.map Prod.snd := by
  have hfirst : ps.map Prod.fst = (req.sinks.take ps.length).zipIdx := by
    obtain ⟨before, after, happend, hbefore, -⟩ := List.zipIdx_eq_append_iff.1 hsinks
    have hlen : before.length = ps.length := by
      have hl := congrArg List.length hbefore
      simpa using hl.symm
    rw [hbefore, happend, List.take_left' hlen]
  have hlen : 0 < ps.length := List.length_pos_iff.2 hne
  have hsome : req.sinks ≠ [] := by
    rintro hnil
    rw [hnil] at hsinks
    have hl := congrArg List.length hsinks
    simp at hl
    omega
  have hiff : req.sinks.take ps.length = [] ↔ req.sinks = [] := by
    simp [List.take_eq_nil_iff, hsome, hne]
  have hprep := @prepareRequest_withSinks _ _ _ _ _ L (L.connectors w) clock req none (req.sinks.take ps.length) hiff
  rw [hp] at hprep
  exact ⟨_, (runPipelineImpl_ok L).2 ⟨_, ps, hprep, hfirst, hsteps, rfl⟩, rfl⟩

/-- what a failed run leaves: the world as it was, when an earlier stage has failed; or what the document does with the sinks
before one of them, and something at the sites of that one -/
def LeftByFailure {π κ : Type} (view : π → World → κ) (sites : Place → Set π) (clock : Clock) (req : RunPipelineRequest)
    (w w' : World) (e : PipelineFault) : Prop :=
  (w' = w ∧ ∀ stage, e.stage = some stage → stage ∈ ["parse", "ingest", "transform"]) ∨
    ∃ k sink t, req.sinks[k]? = some sink ∧
      ((k = 0 ∧ t = w) ∨
        ∃ r, runPipelineImpl L clock (.ok (.v1 { req with sinks := req.sinks.take k })) w = (t, .ok r)) ∧
      (∀ q ∉ sitesOf sites (sink.targets L), view q w' = view q t) ∧
      ∀ stage, e.stage = some stage → stage ∈ ["sink", "sink_sql"]

/-- **A failed run** has changed nothing but temporary copies, or has done what the sinks before the failing one do -/
theorem failed_run_prefix {π κ : Type} {view : π → World → κ} {sites : Place → Set π} (hL : Located L view sites)
    {clock : Clock} {req : RunPipelineRequest} {w : World} {e : PipelineFault}
    (h : (runPipelineImpl L clock (.ok (.v1 req)) w).2 = .error e) :
    LeftByFailure L view sites clock req w (runPipelineImpl L clock (.ok (.v1 req)) w).1 e := by
  have hrun : runPipelineImpl L clock (.ok (.v1 req)) w = ((runPipelineImpl L clock (.ok (.v1 req)) w).1, .error e) :=
    Prod.ext rfl h
  rcases runPipelineImpl_error L hrun with ⟨hp, hw⟩ | ⟨p, ps, s, post, t, hp, hsinks, hsteps, hs⟩
  · exact Or.inl ⟨hw, fun stage hstage => prepare_failsIn L _ clock _ e stage hp hstage⟩
  · rw [prepare_v1] at hp
    rw [prepareRequest_request L hp] at hsinks
    obtain ⟨sink, k⟩ := s
    have hk : req.sinks.zipIdx[ps.length]? = some (sink, k) := by
      rw [hsinks, List.getElem?_append_right (by simp)]
      simp
    have hget : req.sinks[ps.length]? = some sink := by
      rw [List.getElem?_zipIdx, Option.map_eq_some_iff] at hk
      obtain ⟨x, hx, heq⟩ := hk
      cases heq
      exact hx
    refine Or.inr ⟨ps.length, sink, t, hget, ?_, fun q hq => ?_, fun stage hstage => ?_⟩
    · rcases ps with - | ⟨first, rest⟩
      · cases hsteps
        exact Or.inl ⟨rfl, rfl⟩
      · obtain ⟨r, hr, -⟩ := run_of_prefix L hp hsinks (by simp) hsteps
        exact Or.inr ⟨r, hr⟩
    · have hkeep := timedSink_confined hL clock p.deadline p.base (sink, k) t q hq
      rwa [hs] at hkeep
    · exact timedSink_fails L clock p.deadline p.base (sink, k) t e stage (by rw [hs]) hstage

end Run

def noTime : Clock := ⟨0, 0, 0, 0, 0, fun _ => 0, 0⟩

/-- no space for the second of two files -/
theorem full_disk_stops_run :
    ∃ e, LeftByFailure (memoryLinked [("a.csv", [event 1, event 11])] "full/b.parquet") (fun q w => w q) (fun p => {p})
      noTime (eventsTo [.parquetFile "out/a.parquet" none, .parquetFile "full/b.parquet" none]) (fun _ => none)
      (runPipelineImpl (memoryLinked [("a.csv", [event 1, event 11])] "full/b.parquet") noTime
        (.ok (.v1 (eventsTo [.parquetFile "out/a.parquet" none, .parquetFile "full/b.parquet" none])))
        fun _ => none).1 e := by
  obtain ⟨e, he⟩ := Traverse.exists_error (x := (runPipelineImpl (memoryLinked [("a.csv", [event 1, event 11])]
    "full/b.parquet") noTime (.ok (.v1 (eventsTo [.parquetFile "out/a.parquet" none,
      .parquetFile "full/b.parquet" none]))) fun _ => none).2) (by decide +kernel)
  exact ⟨e, failed_run_prefix _ (memoryLinked_located _ _) he⟩

/-! ## Results -/

def SinkSpec.kind : SinkSpec → String
  | .parquetFile .. => "parquet_file"
  | .xmlFile .. => "xml_file"
  | .postgresql .. => "postgresql"
  | .oracle .. => "oracle"
  | .mssql .. => "mssql"
  | .deltaLake .. => "delta_lake"
  | .iceberg .. => "iceberg"
  | .snowflake .. => "snowflake"
  | .databricks .. => "databricks"
  | .spark .. => "spark"
  | .objectStore .. => "object_store"

section Results

variable {World P O M Bytes : Type} (L : Linked World P O M Bytes)

/-- a result of the kind: the sink was run, or nothing happened -/
def Accounts (kind : String) (w w' : World) (r : SinkResult) : Prop :=
  r.kind = kind ∧ (r.status ∈ ["ok", "error"] ∨ r.status ∈ ["skipped", "connector_pending"] ∧ w' = w)

theorem reported_accounts {α : Type} {kind : String} {result : Except IngestionError α → SinkResult}
    (hok : ∀ a, (result (.ok a)).kind = kind ∧ (result (.ok a)).status = "ok")
    (herror : ∀ e, (result (.error e)).kind = kind ∧ (result (.error e)).status = "error") {x : Attempt World Fault α}
    {w w' : World} {r : SinkResult} (h : reported result x w = (w', .ok r)) : Accounts kind w w' r := by
  obtain ⟨c, t, -, hend⟩ := Attempt.bind_done h
  rcases c with (e | -) | a
  · obtain ⟨-, hr⟩ := Prod.mk.inj hend
    obtain rfl := Except.ok.inj hr
    exact ⟨(herror e).1, Or.inl (by simp [(herror e).2])⟩
  · cases hend
  · obtain ⟨-, hr⟩ := Prod.mk.inj hend
    obtain rfl := Except.ok.inj hr
    exact ⟨(hok a).1, Or.inl (by simp [(hok a).2])⟩

theorem tableSink_accounts {Server R : Type} {kind failed notBuilt reason : String}
    {database : Option (Database World Server R)}
    {sink : Server → String → String → DataSet → Bool → Bool → Attempt (Table R) SinkError ℕ} {load : TableLoad}
    {ds : DataSet} {w w' : World} {r : SinkResult}
    (h : tableSink kind failed notBuilt reason database sink load ds w = (w', .ok r)) : Accounts kind w w' r := by
  cases database with
  | none =>
    obtain ⟨rfl, hr⟩ := Prod.mk.inj h
    obtain rfl := Except.ok.inj hr
    exact ⟨rfl, Or.inr ⟨by simp, rfl⟩⟩
  | some db =>
    obtain ⟨c, t, -, hend⟩ := Attempt.bind_done h
    rcases c with e | n
    · obtain ⟨-, hr⟩ := Prod.mk.inj hend
      obtain rfl := Except.ok.inj hr
      exact ⟨rfl, Or.inl (by simp)⟩
    · obtain ⟨-, hr⟩ := Prod.mk.inj hend
      obtain rfl := Except.ok.inj hr
      exact ⟨rfl, Or.inl (by simp)⟩

theorem localFileSink_accounts {kind ioCode writeCode path : String} {write : Attempt World Fault Unit} {ds : DataSet}
    {w w' : World} {r : SinkResult} (h : localFileSink L kind ioCode writeCode path write ds w = (w', .ok r)) :
    Accounts kind w w' r := by
  obtain ⟨_, t, -, hend⟩ := Attempt.bind_done h
  obtain ⟨-, hr⟩ := Prod.mk.inj hend
  obtain rfl := Except.ok.inj hr
  exact ⟨rfl, Or.inl (by simp)⟩

theorem writeSink_accounts {ds : DataSet} {sink : SinkSpec} {w w' : World} {r : SinkResult}
    (h : writeSink L ds sink w = (w', .ok r)) : Accounts sink.kind w w' r := by
  cases sink with
  | parquetFile => exact localFileSink_accounts L h
  | xmlFile => exact localFileSink_accounts L h
  | postgresql => exact tableSink_accounts h
  | oracle => exact tableSink_accounts h
  | mssql => exact tableSink_accounts h
  | deltaLake warehouse =>
    obtain ⟨wh, t, hwh, hrest⟩ := Attempt.bind_done h
    exact (reported_accounts (fun _ => ⟨rfl, rfl⟩) (fun _ => ⟨rfl, rfl⟩) hrest).imp_right (Or.imp_right fun hw => by
      cases warehouse <;> cases hwh
      exact hw)
  | iceberg =>
    obtain ⟨rfl, hr⟩ := Prod.mk.inj h
    obtain rfl := Except.ok.inj hr
    exact ⟨rfl, Or.inr ⟨by simp [icebergPending], rfl⟩⟩
  | snowflake _ _ _ _ _ stageUri =>
    obtain ⟨stage, t, hstage, hrest⟩ := Attempt.bind_done h
    exact (reported_accounts (fun _ => ⟨rfl, rfl⟩) (fun _ => ⟨rfl, rfl⟩) hrest).imp_right (Or.imp_right fun hw => by
      cases stageUri <;> cases hstage
      exact hw)
  | databricks _ _ warehouse =>
    obtain ⟨wh, t, hwh, hrest⟩ := Attempt.bind_done h
    exact (reported_accounts (fun _ => ⟨rfl, rfl⟩) (fun _ => ⟨rfl, rfl⟩) hrest).imp_right (Or.imp_right fun hw => by
      cases warehouse <;> cases hwh
      exact hw)
  | spark =>
    obtain ⟨c, t, -, hend⟩ := Attempt.bind_done h
    rcases c with (e | -) | n
    · obtain ⟨-, hr⟩ := Prod.mk.inj hend
      obtain rfl := Except.ok.inj hr
      exact ⟨rfl, Or.inl (by simp)⟩
    · cases hend
    · obtain ⟨-, hr⟩ := Prod.mk.inj hend
      obtain rfl := Except.ok.inj hr
      exact ⟨rfl, Or.inl (by simp)⟩
  | objectStore =>
    rw [writeSink] at h
    exact reported_accounts (fun _ => ⟨rfl, rfl⟩) (fun _ => ⟨rfl, rfl⟩) h

theorem pendingSink_accounts {sink : SinkSpec} {r : SinkResult} (h : pendingSink sink = some r) (w : World) :
    Accounts sink.kind w w r := by
  cases sink with
  | deltaLake =>
    dsimp only [pendingSink] at h
    split_ifs at h
    obtain rfl := Option.some.inj h
    exact ⟨rfl, Or.inr ⟨by simp, rfl⟩⟩
  | iceberg =>
    obtain rfl := Option.some.inj h
    exact ⟨rfl, Or.inr ⟨by simp [icebergPending], rfl⟩⟩
  | _ => cases h

theorem timedSink_accounts {clock : Clock} {deadline : Option ℕ} {base : DataFrame} {s : SinkSpec × ℕ} {w w' : World}
    {r : SinkResult} (h : timedSink L clock deadline base s w = (w', .ok r)) : Accounts s.1.kind w w' r := by
  obtain ⟨u, t, hcheck, hrest⟩ := Attempt.bind_done h
  obtain ⟨-, rfl⟩ := Attempt.ofExcept_ok hcheck
  obtain ⟨branch, v, hbranch, hsink⟩ := Attempt.bind_done hrest
  obtain ⟨-, rfl⟩ := Attempt.ofExcept_ok hbranch
  cases hpending : pendingSink s.1 with
  | some result =>
    rw [hpending] at hsink
    obtain ⟨rfl, hr⟩ := Prod.mk.inj hsink
    obtain rfl := Except.ok.inj hr
    exact pendingSink_accounts hpending _
  | none =>
    rw [hpending] at hsink
    obtain ⟨ds, x, hds, hwrite⟩ := Attempt.bind_done hsink
    obtain ⟨-, rfl⟩ := Attempt.ofExcept_ok hds
    exact writeSink_accounts L hwrite

/-- one result for each sink, in order and of its kind, and no site changed but those of sinks that ran -/
def AccountsFor {π κ : Type} (view : π → World → κ) (sites : Place → Set π) (clock : Clock)
    (payload : Except String RunPipelineEnvelope) (w w' : World) (r : PipelineReport) : Prop :=
  ∃ p, prepare L (L.connectors w) clock payload = .ok p ∧
    r.sinkResults.map SinkResult.kind = p.request.sinks.map SinkSpec.kind ∧
    ∀ q, view q w' ≠ view q w →
      ∃ s ∈ p.request.sinks.zip r.sinkResults, s.2.status ∈ ["ok", "error"] ∧ q ∈ sitesOf sites (s.1.targets L)

/-- **A run that succeeds** accounts for every sink, and has changed only the sites of sinks that ran; temporary copies of
ingestion and staging are not part of the world -/
theorem ok_run_accounts {π κ : Type} {view : π → World → κ} {sites : Place → Set π} (hL : Located L view sites)
    {clock : Clock} {payload : Except String RunPipelineEnvelope} {w : World} {r : PipelineReport}
    (h : (runPipelineImpl L clock payload w).2 = .ok r) :
    AccountsFor L view sites clock payload w (runPipelineImpl L clock payload w).1 r := by
  have hrun : runPipelineImpl L clock payload w = ((runPipelineImpl L clock payload w).1, .ok r) := Attempt.eq_of_ok h
  obtain ⟨p, ps, hp, hps, hsteps, rfl⟩ := (runPipelineImpl_ok L).1 hrun
  have hsinks : ps.map (fun x => x.1.1) = p.request.sinks := by
    rw [← List.zipIdx_map_fst 0 p.request.sinks, ← hps, List.map_map]
    rfl
  have hzip : p.request.sinks.zip (ps.map Prod.snd) = ps.map fun x => (x.1.1, x.2) := by
    rw [← hsinks, List.zip_map']
  refine ⟨p, hp, ?_, fun q hq => ?_⟩
  · rw [← hsinks, report, List.map_map, List.map_map]
    refine List.map_congr_left fun x hx => ?_
    obtain ⟨-, -, t, u, -, -, hstep, -⟩ := hsteps.at hx
    exact (timedSink_accounts L hstep).1
  · by_contra hnone
    refine hq (hsteps.inv (I := fun u => view q u = view q w) (fun x hx t u ht hstep => ?_) rfl)
    rcases (timedSink_accounts L hstep).2 with hran | ⟨-, rfl⟩
    · have hout : q ∉ sitesOf sites (x.1.1.targets L) := fun hmem =>
        hnone ⟨(x.1.1, x.2), by rw [report, hzip]; exact List.mem_map_of_mem hx, hran, hmem⟩
      have hkeep := timedSink_confined hL clock p.deadline p.base x.1 t q hout
      rw [hstep] at hkeep
      exact hkeep.trans ht
    · exact ht

end Results

/-- a file, a table, and two sinks that write nothing -/
def fourSinks : RunPipelineRequest := eventsTo [.parquetFile "out/a.parquet" none,
  .postgresql { url := "postgresql://db", table := "events" } none, .mssql { url := "mssql://db", table := "events" } none,
  .iceberg "rest://catalog" none none "events" none]

theorem four_sinks_accounted :
    ∃ r, AccountsFor (memoryLinked [("a.csv", [event 1, event 11])] "") (fun q w => w q) (fun p => {p}) noTime
      (.ok (.v1 fourSinks)) (fun _ => none)
      (runPipelineImpl (memoryLinked [("a.csv", [event 1, event 11])] "") noTime (.ok (.v1 fourSinks)) fun _ => none).1
      r := by
  obtain ⟨r, hr⟩ := Traverse.exists_ok (x := (runPipelineImpl (memoryLinked [("a.csv", [event 1, event 11])] "") noTime
    (.ok (.v1 fourSinks)) fun _ => none).2) (by decide +kernel)
  exact ⟨r, ok_run_accounts _ (memoryLinked_located _ _) hr⟩

/-! ## After the deadline -/

section Deadline

variable {World P O M Bytes : Type} (L : Linked World P O M Bytes)

theorem timedSink_late {clock : Clock} {d : ℕ} {base : DataFrame} {s : SinkSpec × ℕ} (h : d ≤ clock.sink s.2) (w : World) :
    timedSink L clock (some d) base s w = (w, .error (fault "ORCHESTRATION_TIMEOUT"
      "wall-clock deadline exceeded (stage=sink)" "sink")) := by
  refine Attempt.bind_of_error ?_
  rw [checkDeadline]
  simp only [if_pos h]
  rfl

/-- **Once the deadline has passed**, no sink runs: what the document asks for after that makes no difference -/
theorem late_sinks_do_not_run {clock : Clock} {req : RunPipelineRequest} {d : ℕ}
    (hd : pipelineDeadline req.orchestration clock.timeoutStart = some d) (before : List SinkSpec)
    (hlate : d ≤ clock.sink before.length) {after after' : List SinkSpec} (hne : after ≠ []) (hne' : after' ≠ []) :
    runPipelineImpl L clock (.ok (.v1 { req with sinks := before ++ after })) =
      runPipelineImpl L clock (.ok (.v1 { req with sinks := before ++ after' })) := by
  have hiff : before ++ after' = [] ↔ before ++ after = [] := by simp [hne, hne']
  funext w
  have hprep : prepare L (L.connectors w) clock (.ok (.v1 { req with sinks := before ++ after' })) =
      (prepare L (L.connectors w) clock (.ok (.v1 { req with sinks := before ++ after }))).map fun p =>
        { p with request := { req with sinks := before ++ after' } } :=
    @prepareRequest_withSinks _ _ _ _ _ L _ clock { req with sinks := before ++ after } none (before ++ after') hiff
  cases hp : prepare L (L.connectors w) clock (.ok (.v1 { req with sinks := before ++ after })) with
  | error e =>
    rw [hp] at hprep
    exact (runPipelineImpl_unprepared L hp).trans (runPipelineImpl_unprepared L hprep).symm
  | ok p =>
    obtain ⟨opts, lf, -, -, -, -, hparts⟩ := prepareRequest_ok L hp
    have hstop : ∀ sinks : List SinkSpec, sinks ≠ [] →
        Attempt.collect (timedSink L clock (some d) p.base) (sinks.zipIdx before.length) =
          .fail (fault "ORCHESTRATION_TIMEOUT" "wall-clock deadline exceeded (stage=sink)" "sink") := by
      intro sinks hsinks
      cases sinks with
      | nil => exact absurd rfl hsinks
      | cons sink rest =>
        exact Attempt.collect_head_fails (timedSink_late L hlate) _
    have hloop : Attempt.collect (timedSink L clock (some d) p.base) (before ++ after).zipIdx =
        Attempt.collect (timedSink L clock (some d) p.base) (before ++ after').zipIdx := by
      rw [List.zipIdx_append, List.zipIdx_append, Nat.zero_add]
      exact Attempt.collect_append_congr ((hstop after hne).trans (hstop after' hne').symm) _
    rw [hd] at hparts
    rw [hp, hparts] at hprep
    rw [hparts] at hp
    refine (runPipelineImpl_prepared L hp).trans (Eq.trans ?_ (runPipelineImpl_prepared L hprep).symm)
    exact congrArg (fun x : Attempt World PipelineFault (List SinkResult) => (x >>= fun results =>
      Attempt.done (report clock ⟨{ req with sinks := before ++ after }, none, some d, p.ingested, p.base⟩ results)) w) hloop

end Deadline

/-- a millisecond for each sink -/
def slowSinks : Clock := { noTime with sink := fun i => i * 10 ^ 6 }

/-- one millisecond, which is over when the second sink would start -/
theorem second_sink_is_late :
    runPipelineImpl (memoryLinked [("a.csv", [event 1])] "") slowSinks (.ok (.v1
        { eventsTo [.parquetFile "a.parquet" none, .xmlFile "a.xml" none] with
          orchestration := some { timeoutMs := some 1 } })) =
      runPipelineImpl (memoryLinked [("a.csv", [event 1])] "") slowSinks (.ok (.v1
        { eventsTo [.parquetFile "a.parquet" none, .parquetFile "b.parquet" none] with
          orchestration := some { timeoutMs := some 1 } })) :=
  @late_sinks_do_not_run _ _ _ _ _ _ slowSinks { eventsTo [] with orchestration := some { timeoutMs := some 1 } } (10 ^ 6)
    rfl [.parquetFile "a.parquet" none] (by decide) _ _ (by simp) (by simp)

end RustDataProcessing.JvmSys
