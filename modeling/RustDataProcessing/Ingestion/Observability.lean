/-
What an observer of path ingestion hears (`ingest_from_path`, `src/ingestion/unified.rs`).

The observer is told of the result at the end of the call. A watermark configuration that is refused and a format that
cannot be inferred leave the function before that.

- `observed_once_iff`: a call is reported, once and with what it returns, exactly when neither is the case.
- `missing_extension_unreported`: a path without an extension is an error that no observer hears of.
-/
import Mathlib.Tactic
import RustDataProcessing.Ingestion.Unified

namespace RustDataProcessing.Ingestion

/-- one call of the observer for the result, and an alert if it is an error of the severity asked for; a call that panics
returns nothing to report -/
def ObservedOnce (path : String) (threshold : IngestionSeverity) (x : Observed DataSet) : Prop :=
  match x.result with
  | .ok ds => ∃ format, x.calls = [.onSuccess ⟨path, format⟩ ⟨ds.rowCount⟩]
  | .error (.error e) => ∃ format, x.calls = .onFailure ⟨path, format⟩ (severityForError e) e ::
      if threshold.rank ≤ (severityForError e).rank then [.onAlert ⟨path, format⟩ (severityForError e) e] else []
  | .error .panic => x.calls = []

/-- the options, with an observer -/
def withObserver (options : IngestionOptions) : IngestionOptions := { options with observer := true }

theorem bind_of_error {α β : Type} {x : Observed α} {e : Fault} (h : x.result = .error e) (f : α → Observed β) :
    (x >>= f) = ⟨x.calls, .error e⟩ := by
  change Observed.bind x f = _
  simp only [Observed.bind, h]

theorem bind_of_ok {α β : Type} {x : Observed α} {a : α} (h : x.result = .ok a) (f : α → Observed β) :
    (x >>= f) = ⟨x.calls ++ (f a).calls, (f a).result⟩ := by
  change Observed.bind x f = _
  simp only [Observed.bind, h]

/-- an error that no observer hears of -/
theorem not_observed_of_silent {path : String} {threshold : IngestionSeverity} {e : Fault}
    (h : Answers (.error e : IngestionResult DataSet)) : ¬ ObservedOnce path threshold ⟨[], .error e⟩ := by
  rcases e with e | _
  · rintro ⟨format, hcalls⟩
    cases hcalls
  · exact absurd rfl h

theorem validateWatermarkConfig_answers (schema : Schema) (options : IngestionOptions) :
    Answers (validateWatermarkConfig schema options) := by
  unfold validateWatermarkConfig
  split
  · exact Answers.ok _
  · exact Answers.error _
  · exact Answers.error _
  · split_ifs
    · exact Answers.error _
    · split
      · exact Answers.error _
      · rename_i idx hidx
        obtain ⟨hi, -⟩ := Schema.indexOf_some hidx
        rw [index_fields hi]
        apply Answers.bind (Answers.ok _)
        intro field _
        unfold ensureValueMatchesType
        split_ifs
        · exact Answers.ok _
        · exact Answers.error _

theorem formatFor_answers (path : String) (options : IngestionOptions) : Answers (formatFor path options) := by
  unfold formatFor inferFormatFromPath
  split
  · exact Answers.ok _
  · split
    · exact Answers.error _
    · split
      · exact Answers.error _
      · exact Answers.ok _

/-- the report at the end of the call -/
theorem observed_of_report (path : String) (format : IngestionFormat) (options : IngestionOptions)
    (result : IngestionResult DataSet) :
    ObservedOnce path options.alertAtOrAbove ⟨observerCalls (withObserver options) ⟨path, format⟩ result, result⟩ := by
  rcases result with (e | _) | ds
  · exact ⟨format, rfl⟩
  · rfl
  · exact ⟨format, rfl⟩

/-- **An ingestion call is observed once** exactly when its watermark options are valid and its format is known -/
theorem observed_once_iff (R : Readers) (path : String) (schema : Schema) (options : IngestionOptions) :
    ObservedOnce path options.alertAtOrAbove (ingestFromPath R path schema (withObserver options)) ↔
      validateWatermarkConfig schema options = .ok () ∧ ∃ format, formatFor path options = .ok format := by
  have hvalidate : validateWatermarkConfig schema (withObserver options) = validateWatermarkConfig schema options := rfl
  have hformat : formatFor path (withObserver options) = formatFor path options := rfl
  unfold ingestFromPath
  rw [hvalidate, hformat]
  cases hv : validateWatermarkConfig schema options with
  | error e =>
    have hans := validateWatermarkConfig_answers schema options
    rw [hv] at hans
    have hquiet : (quiet (.error e : IngestionResult Unit)).result = .error e := rfl
    rw [bind_of_error hquiet]
    refine iff_of_false (not_observed_of_silent ?_) fun h => by cases h.1
    intro h
    exact hans (congrArg Except.error (Except.error.inj h))
  | ok u =>
    have hquiet : (quiet (.ok u : IngestionResult Unit)).result = .ok u := rfl
    rw [bind_of_ok hquiet]
    cases hf : formatFor path options with
    | error e =>
      have hans := formatFor_answers path options
      rw [hf] at hans
      have hquiet' : (quiet (.error e : IngestionResult IngestionFormat)).result = .error e := rfl
      rw [bind_of_error hquiet']
      refine iff_of_false (not_observed_of_silent ?_) ?_
      · intro h
        exact hans (congrArg Except.error (Except.error.inj h))
      · rintro ⟨-, format, h⟩
        cases h
    | ok format =>
      have hquiet' : (quiet (.ok format : IngestionResult IngestionFormat)).result = .ok format := rfl
      rw [bind_of_ok hquiet']
      exact iff_of_true (observed_of_report path format options _) ⟨rfl, format, rfl⟩

/-- a path without an extension is refused, and the observer is not called -/
theorem missing_extension_unreported :
    ¬ ∀ (R : Readers) (path : String) (schema : Schema) (options : IngestionOptions),
      ObservedOnce path options.alertAtOrAbove (ingestFromPath R path schema (withObserver options)) := by
  intro h
  have hunread : Reader := ⟨fun _ _ => .error .panic, fun _ _ _ h => by cases h⟩
  obtain ⟨format, hcalls⟩ := h ⟨hunread, hunread, hunread, fun _ => hunread, hunread⟩ "data" ⟨[]⟩ {}
  cases hcalls

end RustDataProcessing.Ingestion
