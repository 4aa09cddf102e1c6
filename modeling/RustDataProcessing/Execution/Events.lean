/-
What an observer of a parallel call hears (`emit` in `src/execution/mod.rs`, `ExecutionEvent` in `observer.rs`).

The call tells the observer that it starts, before any task moves, and that it is finished, when all tasks are done. A task
tells it three things, between its other steps: that it has waited for a permit, that its chunk is started, and that it is
finished. Each call of the observer is one action of its own, so the events of the tasks interleave like their steps. A
task that is in its rows does not go on before it has said what is due; the event of a wait may be left out, for the clock
need not have moved.

- `events_in_order`: whatever the interleaving, and also when the closure panics: the start of the run comes first and its
  end last, the events of each chunk come in order, and in every prefix of the log no more chunks are open than the limit
  allows.
- `finished_call_is_told`: at the end of a call each range of rows has been announced once, and the output rows add up.
- `observer_is_invisible`: a call that is watched reaches the states it reaches unwatched, and goes on when it could go on.

The observer is taken to return from each call of `on_event`. Durations and the metrics in an event are left out, and so
are the two events that only `reduce` emits.
-/
import Mathlib.Tactic
import RustDataProcessing.Execution.Refinement
import RustDataProcessing.Lib.Observed

namespace RustDataProcessing.Execution

open Machine (Reachable Watch exec said watched)
open Tally (total)

/-! ## Events -/

inductive ExecutionEvent where
  | runStarted
  | throttleWaited
  | chunkStarted (startRow rowCount : ℕ)
  | chunkFinished (outputRows : ℕ)
  | runFinished
deriving DecidableEq, Repr

namespace ExecutionEvent

/-- an event of the whole call, not of a chunk -/
def isRun : ExecutionEvent → Bool
  | .runStarted => true
  | .runFinished => true
  | _ => false

def isStart : ExecutionEvent → Bool
  | .chunkStarted .. => true
  | _ => false

def isFinish : ExecutionEvent → Bool
  | .chunkFinished _ => true
  | _ => false

def outputRows : ExecutionEvent → ℕ
  | .chunkFinished n => n
  | _ => 0

end ExecutionEvent

open ExecutionEvent

/-- the number of chunks that a log says are started -/
def starts (l : List ExecutionEvent) : ℕ := l.countP isStart

/-- the number of chunks that a log says are finished -/
def finishes (l : List ExecutionEvent) : ℕ := l.countP isFinish

def begun (r : Range) : ExecutionEvent := .chunkStarted r.start (r.stop - r.start)

/-- what an observer is told next by a task, which has said some events before -/
def due (r : Range) (waited : Bool) (events : List ExecutionEvent) : Pc → Option ExecutionEvent
  | .started => if waited && events.isEmpty then some .throttleWaited else none
  | .rows rest out =>
    if !events.any isStart then some (begun r)
    else if rest.isEmpty && !events.any isFinish then some (.chunkFinished out.length)
    else none
  | _ => none

def Pc.isRows : Pc → Bool
  | .rows _ _ => true
  | _ => false

/-- the tasks that have slept, and the log, each entry with the task that made it; the call itself is none of them -/
structure Notes where
  waited : ℕ → Bool
  log : List (Option ℕ × ExecutionEvent)

def Notes.start : Notes := ⟨fun _ => false, []⟩

/-- what an observer is told next by the call itself, which has said some events before -/
def dueRun (s : St) : List ExecutionEvent → Option ExecutionEvent
  | [] => some .runStarted
  | [_] => if s.tasks.all fun t => t.out.isSome then some .runFinished else none
  | _ => none

def dueAt (ranges : List Range) (s : St) (n : Notes) : Option ℕ → Option ExecutionEvent
  | none => dueRun s (said n.log none)
  | some i => (s.tasks[i]?).bind fun t => (ranges[i]?).bind fun r => due r (n.waited i) (said n.log (some i)) t.pc

/-- the observer of a call; an announcement names the task that makes it -/
def observer (ranges : List Range) : Watch St Act Notes (Option ℕ) where
  ready s n a := match a with
    | .run i _ =>
      !(said n.log none).isEmpty && !(s.tasks[i]?.any (·.pc.isRows) && (dueAt ranges s n (some i)).isSome)
    | .spurious _ => true
  after a s n := match a with
    | .run i _ => if s.tasks[i]?.any (·.pc.isAsleep) then { n with waited := Function.update n.waited i true } else n
    | .spurious _ => n
  say s n i := (dueAt ranges s n i).map fun e => { n with log := n.log ++ [(i, e)] }

/-! ## One task -/

/-- nothing, or that the task has waited -/
def Complaint (waited : Bool) (l : List ExecutionEvent) : Prop := l = [] ∨ (waited = true ∧ l = [.throttleWaited])

/-- the events of a task: first perhaps that it has waited -/
def Tells (waited : Bool) (events l : List ExecutionEvent) : Prop := ∃ c, Complaint waited c ∧ l = c ++ events

/-- what a task has said, by where it stands -/
def Heard (r : Range) (waited : Bool) (t : Task) (l : List ExecutionEvent) : Prop := match t.pc with
  | .idle => l = []
  | .acquire => l = []
  | .asleep => l = []
  | .woken => l = []
  | .started => Tells waited [] l
  | .activate => Tells waited [] l
  | .loadMax _ => Tells waited [] l
  | .casMax _ _ => Tells waited [] l
  | .rows rest out => Tells waited [] l ∨ Tells waited [begun r] l ∨
      rest = [] ∧ Tells waited [begun r, .chunkFinished out.length] l
  | .deactivate out => Tells waited [begun r, .chunkFinished out.length] l
  | .release out => Tells waited [begun r, .chunkFinished out.length] l
  | .done out => Tells waited [begun r, .chunkFinished out.length] l
  | .panicked _ => Tells waited [begun r] l

section Task

variable {r : Range} {waited waited' : Bool} {l : List ExecutionEvent}

theorem Complaint.mono (hw : waited = true → waited' = true) (h : Complaint waited l) : Complaint waited' l :=
  h.imp_right (And.imp_left hw)

theorem Complaint.quiet (h : Complaint waited l) : l.any isStart = false ∧ l.any isFinish = false := by
  rcases h with rfl | ⟨-, rfl⟩
  · exact ⟨rfl, rfl⟩
  · exact ⟨rfl, rfl⟩

theorem Complaint.counts (h : Complaint waited l) : starts l = 0 ∧ finishes l = 0 ∧ l.length ≤ 1 := by
  rcases h with rfl | ⟨-, rfl⟩
  · exact ⟨rfl, rfl, Nat.zero_le _⟩
  · exact ⟨rfl, rfl, le_rfl⟩

theorem Tells.mono (hw : waited = true → waited' = true) {events : List ExecutionEvent} (h : Tells waited events l) :
    Tells waited' events l := by
  obtain ⟨c, hc, rfl⟩ := h
  exact ⟨c, hc.mono hw, rfl⟩

theorem Tells.of_nil (h : l = []) : Tells waited [] l := ⟨[], Or.inl rfl, h⟩

theorem Tells.snoc {events : List ExecutionEvent} (h : Tells waited events l) (e : ExecutionEvent) :
    Tells waited (events ++ [e]) (l ++ [e]) := by
  obtain ⟨c, hc, rfl⟩ := h
  exact ⟨c, hc, List.append_assoc _ _ _⟩

theorem Tells.any_isStart {events : List ExecutionEvent} (h : Tells waited events l) :
    l.any isStart = events.any isStart := by
  obtain ⟨c, hc, rfl⟩ := h
  rw [List.any_append, hc.quiet.1, Bool.false_or]

theorem Tells.any_isFinish {events : List ExecutionEvent} (h : Tells waited events l) :
    l.any isFinish = events.any isFinish := by
  obtain ⟨c, hc, rfl⟩ := h
  rw [List.any_append, hc.quiet.2, Bool.false_or]

theorem Tells.counts {events : List ExecutionEvent} (h : Tells waited events l) :
    starts l = starts events ∧ finishes l = finishes events ∧ l.length ≤ events.length + 1 := by
  obtain ⟨c, hc, rfl⟩ := h
  obtain ⟨hs, hf, hlen⟩ := hc.counts
  refine ⟨?_, ?_, ?_⟩
  · rw [starts, List.countP_append]
    exact (congrArg (· + _) hs).trans (Nat.zero_add _)
  · rw [finishes, List.countP_append]
    exact (congrArg (· + _) hf).trans (Nat.zero_add _)
  · rw [List.length_append]
    omega

theorem Heard.mono (hw : waited = true → waited' = true) {t : Task} (h : Heard r waited t l) : Heard r waited' t l := by
  obtain ⟨rows, pc⟩ := t
  cases pc with
  | idle => exact h
  | acquire => exact h
  | asleep => exact h
  | woken => exact h
  | rows rest out =>
    rcases h with h | h | ⟨hrest, h⟩
    · exact Or.inl (h.mono hw)
    · exact Or.inr (Or.inl (h.mono hw))
    · exact Or.inr (Or.inr ⟨hrest, h.mono hw⟩)
  | _ => exact Tells.mono hw h

/-- a task in its rows that has nothing left to say has announced its chunk, and its end when there are no rows left -/
theorem Heard.of_due_none {rows rest out : List Row} (h : Heard r waited ⟨rows, .rows rest out⟩ l)
    (hdue : due r waited l (.rows rest out) = none) :
    Tells waited [begun r] l ∧ rest ≠ [] ∨ rest = [] ∧ Tells waited [begun r, .chunkFinished out.length] l := by
  rcases h with h | h | h
  · simp [due, h.any_isStart] at hdue
  · refine Or.inl ⟨h, ?_⟩
    rintro rfl
    simp [due, h.any_isStart, h.any_isFinish, begun, isStart, isFinish] at hdue
  · exact Or.inr h

/-- what a task has said stays true when it moves, if it does not leave its rows with something unsaid -/
theorem Heard.move {body : Body} {rows : List Row} {p p' : ℕ} {mt mt' : Metrics} {pc pc' : Pc}
    (hmove : Moves body rows p mt pc p' mt' pc') (h : Heard r waited ⟨rows, pc⟩ l)
    (hready : pc.isRows = true → due r waited l pc = none) : Heard r waited ⟨rows, pc'⟩ l := by
  cases hmove with
  | take => exact Tells.of_nil h
  | takeWoken => exact Tells.of_nil h
  | maxEnough => exact Or.inl h
  | swap => exact Or.inl h
  | finish =>
    rcases h.of_due_none (hready rfl) with ⟨-, hne⟩ | ⟨-, htells⟩
    · exact absurd rfl hne
    · exact htells
  | row =>
    rcases h.of_due_none (hready rfl) with ⟨htells, -⟩ | ⟨hnil, -⟩
    · exact Or.inr (Or.inl htells)
    · cases hnil
  | panic =>
    rcases h.of_due_none (hready rfl) with ⟨htells, -⟩ | ⟨hnil, -⟩
    · exact htells
    · cases hnil
  | _ => exact h

theorem Heard.say {t : Task} {e : ExecutionEvent} (h : Heard r waited t l) (hdue : due r waited l t.pc = some e) :
    Heard r waited t (l ++ [e]) := by
  obtain ⟨rows, pc⟩ := t
  cases pc with
  | started =>
    simp only [due, Bool.and_eq_true, List.isEmpty_iff] at hdue
    split_ifs at hdue with hwait
    obtain ⟨hwaited, rfl⟩ := hwait
    cases hdue
    exact ⟨[.throttleWaited], Or.inr ⟨hwaited, rfl⟩, rfl⟩
  | rows rest out =>
    rcases h with h | h | ⟨hrest, h⟩
    · simp [due, h.any_isStart] at hdue
      subst hdue
      exact Or.inr (Or.inl (h.snoc (begun r)))
    · simp [due, h.any_isStart, h.any_isFinish, begun, isStart, isFinish] at hdue
      obtain ⟨rfl, rfl⟩ := hdue
      exact Or.inr (Or.inr ⟨rfl, h.snoc _⟩)
    · simp [due, h.any_isStart, h.any_isFinish, begun, isStart, isFinish] at hdue
  | _ => cases hdue

theorem Tells.open_counts (h : Tells waited [begun r] l) : starts l = 1 ∧ finishes l = 0 ∧ l.length ≤ 2 := h.counts

theorem Tells.closed_counts {n : ℕ} (h : Tells waited [begun r, .chunkFinished n] l) :
    starts l = 1 ∧ finishes l = 1 ∧ l.length ≤ 3 := h.counts

/-- an open chunk holds a permit -/
theorem Heard.counts {t : Task} (h : Heard r waited t l) :
    finishes l ≤ starts l ∧ starts l ≤ finishes l + t.pc.holds ∧ l.length ≤ 3 := by
  have hsilent (hl : Tells waited [] l) (n : ℕ) : finishes l ≤ starts l ∧ starts l ≤ finishes l + n ∧ l.length ≤ 3 := by
    obtain ⟨hs, hf, hlen⟩ := hl.counts
    simp only [starts, finishes, List.countP_nil, List.length_nil] at hs hf hlen ⊢
    omega
  have hnil (hl : l = []) (n : ℕ) : finishes l ≤ starts l ∧ starts l ≤ finishes l + n ∧ l.length ≤ 3 :=
    hsilent (Tells.of_nil hl) n
  have hopen (hl : Tells waited [begun r] l) : finishes l ≤ starts l ∧ starts l ≤ finishes l + 1 ∧ l.length ≤ 3 := by
    have hcounts := hl.open_counts
    omega
  have hclosed {m : ℕ} (hl : Tells waited [begun r, .chunkFinished m] l) (n : ℕ) :
      finishes l ≤ starts l ∧ starts l ≤ finishes l + n ∧ l.length ≤ 3 := by
    have hcounts := hl.closed_counts
    omega
  obtain ⟨rows, pc⟩ := t
  cases pc with
  | idle => exact hnil h _
  | acquire => exact hnil h _
  | asleep => exact hnil h _
  | woken => exact hnil h _
  | rows rest out =>
    rcases h with h | h | ⟨-, h⟩
    · exact hsilent h _
    · exact hopen h
    · exact hclosed h _
  | panicked rest => exact hopen h
  | deactivate out => exact hclosed h _
  | release out => exact hclosed h _
  | done out => exact hclosed h _
  | _ => exact hsilent h _

end Task

/-! ## All tasks -/

/-- where a task comes from: it stood there, or it was woken, or it has taken its own step -/
theorem step_get {J : Job} {s s' : St} {a : Act} (h : step J s a = some s') {j : ℕ} {t' : Task}
    (hj : s'.tasks[j]? = some t') : ∃ t, s.tasks[j]? = some t ∧ t'.rows = t.rows ∧
      (t' = t ∨ t.pc = .asleep ∧ t'.pc = .woken ∨
        ∃ k, a = .run j k ∧ Moves J.body t.rows s.permits s.metrics t.pc s'.permits s'.metrics t'.pc) := by
  have hwoken : ∀ {tasks : List Task} {k : ℕ} {u : Task}, tasks[k]? = some u → u.pc.isAsleep →
      (tasks.set k ⟨u.rows, .woken⟩)[j]? = some t' →
      ∃ t, tasks[j]? = some t ∧ t'.rows = t.rows ∧ (t' = t ∨ t.pc = .asleep ∧ t'.pc = .woken) := by
    intro tasks k u hk hu hset
    by_cases hkj : k = j
    · subst hkj
      rw [List.getElem?_set_self (List.getElem?_eq_some_iff.1 hk).1] at hset
      obtain rfl := Option.some.inj hset
      exact ⟨u, hk, rfl, Or.inr ⟨Pc.eq_asleep hu, rfl⟩⟩
    · rw [List.getElem?_set_ne hkj] at hset
      exact ⟨t', hset, rfl, Or.inl rfl⟩
  rcases step_cases h with ⟨i, k, rfl, hadv⟩ | ⟨i, rfl, hwake⟩
  · obtain ⟨t, pc, hi, hmove, htasks⟩ := advance_some hadv
    have hmoved : ∀ {u : Task}, (s.tasks.set i ⟨t.rows, pc⟩)[j]? = some u → ∃ t, s.tasks[j]? = some t ∧ u.rows = t.rows ∧
        (u = t ∨ i = j ∧ Moves J.body t.rows s.permits s.metrics t.pc s'.permits s'.metrics u.pc) := by
      intro u hu
      by_cases hij : i = j
      · subst hij
        rw [List.getElem?_set_self (List.getElem?_eq_some_iff.1 hi).1] at hu
        obtain rfl := Option.some.inj hu
        exact ⟨t, hi, rfl, Or.inr ⟨rfl, hmove⟩⟩
      · rw [List.getElem?_set_ne hij] at hu
        exact ⟨u, hu, rfl, Or.inl rfl⟩
    have hplain : ∀ {u : Task}, (s.tasks.set i ⟨t.rows, pc⟩)[j]? = some u → ∃ t, s.tasks[j]? = some t ∧ u.rows = t.rows ∧
        (u = t ∨ t.pc = .asleep ∧ u.pc = .woken ∨
          ∃ l, Act.run i k = .run j l ∧ Moves J.body t.rows s.permits s.metrics t.pc s'.permits s'.metrics u.pc) := by
      intro u hu
      obtain ⟨v, hv, hrows, hcase⟩ := hmoved hu
      refine ⟨v, hv, hrows, hcase.imp_right fun hc => Or.inr ⟨k, ?_, hc.2⟩⟩
      rw [hc.1]
    split_ifs at htasks with hrel
    · rcases notifyOne_cases htasks with ⟨heq, -⟩ | ⟨v, hv, hasleep, heq⟩
      · rw [heq] at hj
        exact hplain hj
      · rw [heq] at hj
        obtain ⟨u, hu, hrows, rfl | ⟨hu1, hu2⟩⟩ := hwoken hv hasleep hj
        · exact hplain hu
        · obtain ⟨t₀, ht₀, hrows₀, rfl | ⟨rfl, hmove₀⟩⟩ := hmoved hu
          · exact ⟨u, ht₀, hrows, Or.inr (Or.inl ⟨hu1, hu2⟩)⟩
          · -- the task that releases its permit does not sleep afterwards
            obtain rfl := Option.some.inj (hi.symm.trans ht₀)
            obtain ⟨-, hnot, -, -⟩ := hmove₀.of_release hrel
            rw [hu1] at hnot
            cases hnot
    · rw [← Option.some.inj htasks] at hj
      exact hplain hj
  · obtain ⟨t, hi, hasleep, rfl⟩ := wake_some hwake
    obtain ⟨u, hu, hrows, hcase⟩ := hwoken hi hasleep hj
    exact ⟨u, hu, hrows, hcase.imp_right Or.inl⟩

/-- what a step does to a task that stands somewhere -/
theorem step_task {J : Job} {s s' : St} {a : Act} (h : step J s a = some s') :
    ∃ t ∈ s.tasks, t.pc.isAsleep ∨ ∃ p mt p' mt' pc', Moves J.body t.rows p mt t.pc p' mt' pc' := by
  rcases step_cases h with ⟨i, k, -, hadv⟩ | ⟨i, -, hwake⟩
  · obtain ⟨t, pc, hi, hmove, -⟩ := advance_some hadv
    exact ⟨t, List.mem_of_getElem? hi, Or.inr ⟨_, _, _, _, pc, hmove⟩⟩
  · obtain ⟨t, hi, hasleep, -⟩ := wake_some hwake
    exact ⟨t, List.mem_of_getElem? hi, Or.inl hasleep⟩

theorem Task.out_eq_some {t : Task} {out : List Row} (h : t.out = some out) : t.pc = .done out := by
  obtain ⟨rows, pc⟩ := t
  cases pc <;> simp_all [Task.out]

/-- a call with all its output has come to its end -/
theorem no_step_of_out {J : Job} {s s' : St} {a : Act} (hdone : ∀ t ∈ s.tasks, t.out.isSome) :
    step J s a ≠ some s' := by
  intro h
  obtain ⟨t, ht, hcase⟩ := step_task h
  obtain ⟨out, hout⟩ := Option.isSome_iff_exists.1 (hdone t ht)
  rw [Task.out_eq_some hout] at hcase
  rcases hcase with hasleep | ⟨p, mt, p', mt', pc', hmove⟩
  · cases hasleep
  · cases hmove

/-! ## The frame -/

/-- the log of a call: nothing before it starts, then its start, the events of the tasks, and its end -/
inductive Framed (s : St) : List (Option ℕ × ExecutionEvent) → Prop where
  | before (h : ∀ t ∈ s.tasks, t.pc = .idle) : Framed s []
  | running {log : List (Option ℕ × ExecutionEvent)} (h : ∀ x ∈ log, x.1 ≠ none) : Framed s ((none, .runStarted) :: log)
  | finished {log : List (Option ℕ × ExecutionEvent)} (h : ∀ x ∈ log, x.1 ≠ none) (hdone : ∀ t ∈ s.tasks, t.out.isSome) :
      Framed s ((none, .runStarted) :: (log ++ [(none, .runFinished)]))

section Frame

variable {s : St} {log : List (Option ℕ × ExecutionEvent)}

/-- what the call itself has said -/
theorem Framed.said_cases (h : Framed s log) : log = [] ∧ (∀ t ∈ s.tasks, t.pc = .idle) ∨
    (∃ rest, log = (none, .runStarted) :: rest ∧ (∀ x ∈ rest, x.1 ≠ none) ∧ said log none = [.runStarted]) ∨
    said log none = [.runStarted, .runFinished] ∧ ∀ t ∈ s.tasks, t.out.isSome := by
  cases h with
  | before h => exact Or.inl ⟨rfl, h⟩
  | running h =>
    refine Or.inr (Or.inl ⟨_, rfl, h, ?_⟩)
    rw [Machine.said_cons, if_pos rfl, Machine.said_eq_nil h]
  | finished h hdone =>
    refine Or.inr (Or.inr ⟨?_, hdone⟩)
    rw [Machine.said_cons, if_pos rfl, Machine.said_snoc_self, Machine.said_eq_nil h]
    rfl

/-- the call says two things at most -/
theorem Framed.call (h : Framed s log) : said log none <+: [.runStarted, .runFinished] := by
  rcases h.said_cases with ⟨rfl, -⟩ | ⟨-, -, -, hsaid⟩ | ⟨hsaid, -⟩
  · exact List.nil_prefix
  · rw [hsaid]
    exact List.prefix_append [ExecutionEvent.runStarted] [.runFinished]
  · rw [hsaid]

theorem Framed.run_events (h : Framed s log) : (∀ e ∈ said log none, e.isRun = true) ∧ (said log none).length ≤ 2 := by
  refine ⟨fun e he => ?_, h.call.length_le⟩
  rcases List.mem_pair.1 (h.call.subset he) with rfl | rfl
  · rfl
  · rfl

/-- a task whose events are due has been taken, and is not done -/
theorem due_some {r : Range} {waited : Bool} {l : List ExecutionEvent} {t : Task} {e : ExecutionEvent}
    (h : due r waited l t.pc = some e) : t.pc ≠ .idle ∧ t.out = none ∧ e.isRun = false := by
  obtain ⟨rows, pc⟩ := t
  cases pc with
  | started =>
    dsimp only [due] at h
    split_ifs at h
    cases h
    exact ⟨by simp, rfl, rfl⟩
  | rows rest out =>
    dsimp only [due] at h
    split_ifs at h
    · cases h
      exact ⟨by simp, rfl, rfl⟩
    · cases h
      exact ⟨by simp, rfl, rfl⟩
  | _ => cases h

theorem Framed.say {ranges : List Range} {n n' : Notes} {a : Option ℕ} (h : Framed s n.log)
    (hsay : (observer ranges).say s n a = some n') : Framed s n'.log := by
  obtain ⟨e, he, rfl⟩ := Option.map_eq_some_iff.1 hsay
  cases a with
  | none =>
    dsimp only [dueAt] at he
    rcases h.said_cases with ⟨hnil, -⟩ | ⟨rest, hlog, hrest, hsaid⟩ | ⟨hsaid, -⟩
    · rw [hnil] at he ⊢
      cases he
      exact .running (by simp)
    · rw [hsaid, dueRun] at he
      split_ifs at he with hdone
      cases he
      rw [hlog]
      exact .finished hrest (List.all_eq_true.1 hdone)
    · rw [hsaid] at he
      cases he
  | some i =>
    obtain ⟨t, ht, he⟩ := Option.bind_eq_some_iff.1 he
    obtain ⟨r, -, hdue⟩ := Option.bind_eq_some_iff.1 he
    obtain ⟨hidle, hout, -⟩ := due_some hdue
    have hmem := List.mem_of_getElem? ht
    rcases h.said_cases with ⟨-, hbefore⟩ | ⟨rest, hlog, hrest, -⟩ | ⟨-, hdone⟩
    · exact absurd (hbefore t hmem) hidle
    · rw [hlog]
      refine .running fun x hx => ?_
      rcases List.mem_append.1 hx with hx | hx
      · exact hrest x hx
      · rw [List.mem_singleton.1 hx]
        exact Option.some_ne_none i
    · simpa [hout] using hdone t hmem

end Frame

/-- what the log holds, entry by entry and author by author -/
structure Heeds (ranges : List Range) (w : St × Notes) : Prop where
  length : w.1.tasks.length = ranges.length
  framed : Framed w.1 w.2.log
  authors : ∀ x ∈ w.2.log, ∀ i, x.1 = some i → i < ranges.length
  heard : ∀ i t r, w.1.tasks[i]? = some t → ranges[i]? = some r → Heard r (w.2.waited i) t (said w.2.log (some i))

theorem dueAt_some {ranges : List Range} {s : St} {n : Notes} {i : ℕ} {e : ExecutionEvent}
    (h : dueAt ranges s n (some i) = some e) : ∃ t r, s.tasks[i]? = some t ∧ ranges[i]? = some r ∧
      due r (n.waited i) (said n.log (some i)) t.pc = some e := by
  obtain ⟨t, ht, h⟩ := Option.bind_eq_some_iff.1 h
  obtain ⟨r, hr, h⟩ := Option.bind_eq_some_iff.1 h
  exact ⟨t, r, ht, hr, h⟩

theorem Heeds.start (J : Job) (mt : Metrics) {ranges : List Range} {chunks : List (List Row)}
    (hlen : chunks.length = ranges.length) : Heeds ranges (.start J mt chunks, .start) where
  length := by simpa [St.start] using hlen
  framed := .before fun t ht => by
    obtain ⟨rows, -, rfl⟩ := List.mem_map.1 ht
    rfl
  authors := by simp [Notes.start]
  heard i t r ht _ := by
    obtain ⟨rows, -, rfl⟩ := List.mem_map.1 (List.mem_of_getElem? ht)
    rfl

theorem Heeds.say {ranges : List Range} {s : St} {n n' : Notes} {a : Option ℕ} (h : Heeds ranges (s, n))
    (hsay : (observer ranges).say s n a = some n') : Heeds ranges (s, n') := by
  have hframed := h.framed.say hsay
  obtain ⟨e, he, rfl⟩ := Option.map_eq_some_iff.1 hsay
  refine ⟨h.length, hframed, fun x hx j hj => ?_, fun j u q hu hq => ?_⟩
  · rcases List.mem_append.1 hx with hx | hx
    · exact h.authors x hx j hj
    · rw [List.mem_singleton.1 hx] at hj
      obtain rfl : a = some j := hj
      obtain ⟨t, r, -, hr, -⟩ := dueAt_some he
      exact (List.getElem?_eq_some_iff.1 hr).1
  · have hheard := h.heard j u q hu hq
    by_cases haj : a = some j
    · subst haj
      obtain ⟨t, r, ht, hr, hdue⟩ := dueAt_some he
      obtain rfl := Option.some.inj (ht.symm.trans hu)
      obtain rfl := Option.some.inj (hr.symm.trans hq)
      rw [Machine.said_snoc_self]
      exact hheard.say hdue
    · rw [Machine.said_snoc_ne _ haj]
      exact hheard

/-- a step forgets no sleeper, and changes nothing in the log -/
theorem after_notes (ranges : List Range) (a : Act) (s : St) (n : Notes) :
    ((observer ranges).after a s n).log = n.log ∧
      ∀ j, n.waited j = true → ((observer ranges).after a s n).waited j = true := by
  cases a with
  | spurious i => exact ⟨rfl, fun j h => h⟩
  | run i k =>
    dsimp only [observer]
    split_ifs
    · refine ⟨rfl, fun j h => ?_⟩
      by_cases hij : j = i
      · rw [hij]
        exact Function.update_self i true n.waited
      · exact (Function.update_of_ne hij true n.waited).trans h
    · exact ⟨rfl, fun j h => h⟩

/-- no task moves before the call has told its start, and none can when it has told its end -/
theorem Framed.act {J : Job} {ranges : List Range} {s s' : St} {n : Notes} {a : Act} (h : Framed s n.log)
    (hready : (observer ranges).ready s n a = true) (hstep : step J s a = some s') : Framed s' n.log := by
  rcases h.said_cases with ⟨hnil, hidle⟩ | ⟨rest, hlog, hrest, -⟩ | ⟨-, hdone⟩
  · cases a with
    | run i k => simp [observer, hnil] at hready
    | spurious i =>
      obtain ⟨t, ht, hasleep, -⟩ := wake_some hstep
      rw [hidle t (List.mem_of_getElem? ht)] at hasleep
      cases hasleep
  · rw [hlog]
    exact .running hrest
  · exact absurd hstep (no_step_of_out hdone)

theorem Heeds.act {J : Job} {ranges : List Range} {s s' : St} {n : Notes} {a : Act} (h : Heeds ranges (s, n))
    (hready : (observer ranges).ready s n a = true) (hstep : step J s a = some s') :
    Heeds ranges (s', (observer ranges).after a s' n) := by
  obtain ⟨hlog, hwaited⟩ := after_notes ranges a s' n
  have hlen : s'.tasks.length = s.tasks.length := by simpa using congrArg List.length (step_rows hstep)
  refine ⟨hlen.trans h.length, ?_, ?_, fun j t' r ht' hr => ?_⟩
  · rw [hlog]
    exact h.framed.act hready hstep
  · rw [hlog]
    exact h.authors
  · obtain ⟨t, ht, hrows, hcase⟩ := step_get hstep ht'
    have hheard := h.heard j t r ht hr
    rw [hlog]
    refine Heard.mono (hwaited j) ?_
    rcases hcase with rfl | ⟨hasleep, hwoken⟩ | ⟨k, rfl, hmove⟩
    · exact hheard
    · unfold Heard at hheard ⊢
      rw [hasleep] at hheard
      rw [hwoken]
      exact hheard
    · obtain ⟨rows, pc⟩ := t
      obtain ⟨rows', pc'⟩ := t'
      obtain rfl : rows' = rows := hrows
      refine hheard.move hmove fun hpc => ?_
      have hdue : dueAt ranges s n (some j) = due r (n.waited j) (said n.log (some j)) pc := by
        rw [dueAt, ht, Option.bind_some, hr, Option.bind_some]
      simp [observer, ht, hpc, hdue] at hready
      exact hready.2

theorem Heeds.step {J : Job} {ranges : List Range} {w w' : St × Notes} {a : Act ⊕ Option ℕ} (h : Heeds ranges w)
    (hstep : watched (step J) (observer ranges) w a = some w') : Heeds ranges w' := by
  obtain ⟨s', n'⟩ := w'
  cases a with
  | inl a =>
    obtain ⟨hready, hact, hn⟩ := Machine.watched_act.1 hstep
    obtain rfl : n' = (observer ranges).after a s' w.2 := hn
    exact h.act hready hact
  | inr i =>
    obtain ⟨hsay, rfl⟩ := Machine.watched_say.1 hstep
    exact h.say hsay

theorem Reachable.heeds {J : Job} {ranges : List Range} {w w' : St × Notes}
    (h : Reachable (watched (Execution.step J) (observer ranges)) w w') (hw : Heeds ranges w) : Heeds ranges w' :=
  h.inv (fun _ _ _ hu hstep => hu.step hstep) hw

/-! ## The log -/

/-- the events in the order in which the observer was called -/
def Notes.events (n : Notes) : List ExecutionEvent := n.log.map Prod.snd

/-- the events of the call, and those of its tasks one after the other -/
theorem Heeds.events_perm {ranges : List Range} {w : St × Notes} (h : Heeds ranges w) : w.2.events.Perm
    (said w.2.log none ++ (List.range ranges.length).flatMap fun i => said w.2.log (some i)) := by
  have hnodup : (none :: (List.range ranges.length).map some).Nodup :=
    List.nodup_cons.2 ⟨by simp, List.nodup_range.map (Option.some_injective ℕ)⟩
  have hauthors : ∀ x ∈ w.2.log, x.1 ∈ none :: (List.range ranges.length).map some := by
    intro x hx
    rcases hauthor : x.1 with - | i
    · exact List.mem_cons_self
    · exact List.mem_cons_of_mem _ (List.mem_map_of_mem (List.mem_range.2 (h.authors x hx i hauthor)))
  have hperm := Machine.said_perm hnodup hauthors
  rwa [List.flatMap_cons, List.flatMap_map] at hperm

/-- the events of the chunks, counted chunk by chunk -/
theorem Heeds.counts_eq {ranges : List Range} {w : St × Notes} (h : Heeds ranges w) {p : ExecutionEvent → Bool}
    (hp : ∀ e, e.isRun = true → p e = false) :
    w.2.events.countP p = total (fun i => (said w.2.log (some i)).countP p) (List.range w.1.tasks.length) := by
  have hrun : (said w.2.log none).countP p = 0 :=
    List.countP_eq_zero.2 fun e he => by simp [hp e (h.framed.run_events.1 e he)]
  rw [h.events_perm.countP_eq, List.countP_append, hrun, Nat.zero_add, Tally.countP_flatMap, h.length]

theorem not_isStart_of_isRun {e : ExecutionEvent} (h : e.isRun = true) : e.isStart = false := by
  cases e <;> first | rfl | cases h

theorem outputRows_of_isRun {e : ExecutionEvent} (h : e.isRun = true) : e.outputRows = 0 := by
  cases e <;> first | rfl | cases h

theorem not_isFinish_of_isRun {e : ExecutionEvent} (h : e.isRun = true) : e.isFinish = false := by
  cases e <;> first | rfl | cases h

/-- the permit that a task holds, by its position -/
def holdsAt (tasks : List Task) (i : ℕ) : ℕ := (tasks[i]?).elim 0 fun t => t.pc.holds

theorem Heeds.heard_at {ranges : List Range} {w : St × Notes} (h : Heeds ranges w) {i : ℕ}
    (hi : i ∈ List.range w.1.tasks.length) : ∃ t r, w.1.tasks[i]? = some t ∧ ranges[i]? = some r ∧
      Heard r (w.2.waited i) t (said w.2.log (some i)) := by
  have hlt := List.mem_range.1 hi
  have ht := List.getElem?_eq_getElem hlt
  have hr := List.getElem?_eq_getElem (h.length ▸ hlt)
  exact ⟨_, _, ht, hr, h.heard i _ _ ht hr⟩

/-- the open chunks hold permits -/
theorem Heeds.open_le {ranges : List Range} {w : St × Notes} (h : Heeds ranges w) :
    finishes w.2.events ≤ starts w.2.events ∧ starts w.2.events ≤ finishes w.2.events + holders w.1.tasks := by
  have hholders : total (holdsAt w.1.tasks) (List.range w.1.tasks.length) = holders w.1.tasks :=
    Tally.total_range fun i t ht => by rw [holdsAt, ht]; rfl
  rw [starts, finishes, h.counts_eq fun _ => not_isStart_of_isRun, h.counts_eq fun _ => not_isFinish_of_isRun, ← hholders,
    ← Tally.total_add]
  refine ⟨Tally.total_mono fun i hi => ?_, Tally.total_mono fun i hi => ?_⟩
  · obtain ⟨t, r, -, -, hheard⟩ := h.heard_at hi
    exact hheard.counts.1
  · obtain ⟨t, r, ht, -, hheard⟩ := h.heard_at hi
    rw [holdsAt, ht]
    exact hheard.counts.2.1

/-- the log grows by an entry at a time -/
theorem log_grows {J : Job} {ranges : List Range} {w w' : St × Notes} {a : Act ⊕ Option ℕ}
    (h : watched (step J) (observer ranges) w a = some w') :
    w'.2.events = w.2.events ∨ ∃ e, w'.2.events = w.2.events ++ [e] := by
  cases a with
  | inl a =>
    obtain ⟨-, -, hn⟩ := Machine.watched_act.1 h
    left
    rw [hn, Notes.events, (after_notes ranges a w'.1 w.2).1]
    rfl
  | inr i =>
    obtain ⟨hsay, -⟩ := Machine.watched_say.1 h
    obtain ⟨e, -, hn⟩ := Option.map_eq_some_iff.1 hsay
    right
    refine ⟨e, ?_⟩
    rw [← hn, Notes.events, List.map_append]
    rfl

/-- every prefix of a log is the log of a state on the way -/
theorem exists_prefix {J : Job} {ranges : List Range} {s : St} {w : St × Notes}
    (h : Reachable (watched (step J) (observer ranges)) (s, .start) w) {l : List ExecutionEvent} (hl : l <+: w.2.events) :
    ∃ u, Reachable (watched (step J) (observer ranges)) (s, .start) u ∧ u.2.events = l :=
  Machine.reachable_prefix (fun _ _ _ => log_grows) h List.nil_prefix hl

/-! ## A whole call -/

/-- the events of one task, as far as it has come; that it has waited it tells only if it has slept -/
def InOrder (r : Range) (waited : Bool) (l : List ExecutionEvent) : Prop :=
  ∃ n events, events <+: [begun r, .chunkFinished n] ∧ Tells waited events l

theorem Heard.inOrder {r : Range} {waited : Bool} {t : Task} {l : List ExecutionEvent} (h : Heard r waited t l) :
    InOrder r waited l := by
  have hsilent (hl : Tells waited [] l) : InOrder r waited l := ⟨0, [], List.nil_prefix, hl⟩
  have hopen (hl : Tells waited [begun r] l) : InOrder r waited l :=
    ⟨0, [begun r], List.prefix_append [begun r] [.chunkFinished 0], hl⟩
  obtain ⟨rows, pc⟩ := t
  cases pc with
  | idle => exact hsilent (Tells.of_nil h)
  | acquire => exact hsilent (Tells.of_nil h)
  | asleep => exact hsilent (Tells.of_nil h)
  | woken => exact hsilent (Tells.of_nil h)
  | rows rest out =>
    rcases h with h | h | ⟨-, h⟩
    · exact hsilent h
    · exact hopen h
    · exact ⟨out.length, _, List.prefix_refl _, h⟩
  | panicked rest => exact hopen h
  | deactivate out => exact ⟨out.length, _, List.prefix_refl _, h⟩
  | release out => exact ⟨out.length, _, List.prefix_refl _, h⟩
  | done out => exact ⟨out.length, _, List.prefix_refl _, h⟩
  | _ => exact hsilent h

/-- the tasks tell nothing about the whole call -/
theorem InOrder.not_isRun {r : Range} {waited : Bool} {l : List ExecutionEvent} (h : InOrder r waited l) {e : ExecutionEvent}
    (he : e ∈ l) : e.isRun = false := by
  obtain ⟨n, events, hpart, c, hc, rfl⟩ := h
  rcases List.mem_append.1 he with he | he
  · rcases hc with rfl | ⟨-, rfl⟩
    · cases he
    · rw [List.mem_singleton.1 he]
      rfl
  · rcases List.mem_pair.1 (hpart.subset he) with rfl | rfl
    · rfl
    · rfl

/-- nothing is told before the start of the run, or after its end -/
def Enclosed (l : List ExecutionEvent) : Prop :=
  l = [] ∨ ∃ mid, (∀ e ∈ mid, e.isRun = false) ∧ (l = .runStarted :: mid ∨ l = .runStarted :: (mid ++ [.runFinished]))

/-- what an observer has heard of a call, as far as it has come -/
structure ToldInOrder (ranges : List Range) (limit : ℕ) (n : Notes) : Prop where
  enclosed : Enclosed n.events
  /-- the log is a shuffle of what the call and its tasks say -/
  shuffle : n.events.Perm (said n.log none ++ (List.range ranges.length).flatMap fun i => said n.log (some i))
  call : said n.log none <+: [.runStarted, .runFinished]
  chunks : ∀ i r, ranges[i]? = some r → InOrder r (n.waited i) (said n.log (some i))
  /-- the end of the run comes after the end of every chunk -/
  ended : .runFinished ∈ n.events →
    ∀ i r, ranges[i]? = some r → ∃ m, Tells (n.waited i) [begun r, .chunkFinished m] (said n.log (some i))
  limited : ∀ l, l <+: n.events → finishes l ≤ starts l ∧ starts l ≤ finishes l + limit

theorem Heeds.inOrder {ranges : List Range} {w : St × Notes} (h : Heeds ranges w) {i : ℕ} {r : Range}
    (hr : ranges[i]? = some r) : InOrder r (w.2.waited i) (said w.2.log (some i)) := by
  have hi : i < w.1.tasks.length := h.length.symm ▸ (List.getElem?_eq_some_iff.1 hr).1
  exact (h.heard i _ r (List.getElem?_eq_getElem hi) hr).inOrder

theorem Heeds.not_isRun {ranges : List Range} {w : St × Notes} (h : Heeds ranges w) {x : Option ℕ × ExecutionEvent}
    (hx : x ∈ w.2.log) (hauthor : x.1 ≠ none) : x.2.isRun = false := by
  obtain ⟨i, hi⟩ := Option.ne_none_iff_exists'.1 hauthor
  have hsaid := Machine.mem_said hx
  rw [hi] at hsaid
  exact (h.inOrder (List.getElem?_eq_getElem (h.authors x hx i hi))).not_isRun hsaid

theorem Heeds.enclosed {ranges : List Range} {w : St × Notes} (h : Heeds ranges w) : Enclosed w.2.events := by
  have hmid : ∀ rest : List (Option ℕ × ExecutionEvent), rest ⊆ w.2.log → (∀ x ∈ rest, x.1 ≠ none) →
      ∀ e ∈ rest.map Prod.snd, e.isRun = false := by
    intro rest hsub hrest e he
    obtain ⟨x, hx, rfl⟩ := List.mem_map.1 he
    exact h.not_isRun (hsub hx) (hrest x hx)
  have hframed := h.framed
  rw [Notes.events]
  generalize w.2.log = log at hframed hmid
  cases hframed with
  | before => exact Or.inl rfl
  | running hrest => exact Or.inr ⟨_, hmid _ (List.subset_cons_self _ _) hrest, Or.inl rfl⟩
  | @finished rest hrest =>
    refine Or.inr ⟨_, hmid rest (fun x hx => ?_) hrest, Or.inr ?_⟩
    · exact List.mem_cons_of_mem _ (List.mem_append_left _ hx)
    · rw [List.map_cons, List.map_append]
      rfl

/-- when the end of the run is told, every task is done -/
theorem Heeds.ended {ranges : List Range} {w : St × Notes} (h : Heeds ranges w) (hend : .runFinished ∈ w.2.events)
    {i : ℕ} {r : Range} (hr : ranges[i]? = some r) :
    ∃ m, Tells (w.2.waited i) [begun r, .chunkFinished m] (said w.2.log (some i)) := by
  obtain ⟨x, hx, hevent⟩ := List.mem_map.1 hend
  have hcall : x.1 = none := by
    by_contra hauthor
    have hno := h.not_isRun hx hauthor
    rw [hevent] at hno
    cases hno
  have hsaid := Machine.mem_said hx
  rw [hcall, hevent] at hsaid
  rcases h.framed.said_cases with ⟨hnil, -⟩ | ⟨-, -, -, hstart⟩ | ⟨-, hdone⟩
  · rw [hnil] at hx
    cases hx
  · rw [hstart] at hsaid
    simp at hsaid
  · have hi : i < w.1.tasks.length := h.length.symm ▸ (List.getElem?_eq_some_iff.1 hr).1
    have ht := List.getElem?_eq_getElem hi
    have hheard := h.heard i _ r ht hr
    obtain ⟨out, hout⟩ := Option.isSome_iff_exists.1 (hdone _ (List.mem_of_getElem? ht))
    rw [Heard, Task.out_eq_some hout] at hheard
    exact ⟨out.length, hheard⟩

/-- the call that is watched: its chunks, and the state it starts in -/
structure Watches (E : ExecutionEngine) (body : Body) (mt : Metrics) (ds : DataSet) (ranges : List Range) (s₀ : St) :
    Prop where
  ranges : chunkRanges ds.rowCount E.opts.chunkSize.toNat = some ranges
  begins : E.begin body mt ds = some s₀

theorem ExecutionEngine.watches (E : ExecutionEngine) (body : Body) (mt : Metrics) {ds : DataSet}
    (hrows : ds.rowCount ≤ isizeMax) : ∃ ranges, Watches E body mt ds ranges
      (.start (E.job body) mt (ranges.map (slice ds.rows))) ∧ (ranges.map (slice ds.rows)).flatten = ds.rows := by
  obtain ⟨ranges, hranges, hchunks, hflat, -⟩ := E.chunks_spec hrows
  exact ⟨ranges, ⟨hranges, by rw [begin, hchunks]; rfl⟩, hflat⟩

/-- **Events in order**: the run is told first and last, each chunk tells its events in order, the log has no others, and
at no time are more chunks open than the limit allows -/
theorem events_in_order (E : ExecutionEngine) (body : Body) (mt : Metrics) (ds : DataSet)
    (hrows : ds.rowCount ≤ isizeMax) : ∃ ranges s₀, Watches E body mt ds ranges s₀ ∧
      ∀ w, Reachable (watched (step (E.job body)) (observer ranges)) (s₀, .start) w →
        ToldInOrder ranges E.opts.maxInFlightChunks.toNat w.2 := by
  obtain ⟨ranges, hwatches, -⟩ := E.watches body mt hrows
  refine ⟨ranges, _, hwatches, fun w hw => ?_⟩
  have hlen : (ranges.map (slice ds.rows)).length = ranges.length := List.length_map _
  have hstart := Heeds.start (E.job body) mt hlen
  have hheeds := Reachable.heeds hw hstart
  refine ⟨hheeds.enclosed, hheeds.events_perm, hheeds.framed.call, fun _ _ => hheeds.inOrder,
    fun hend _ _ => hheeds.ended hend, fun l hl => ?_⟩
  obtain ⟨u, hu, rfl⟩ := exists_prefix hw hl
  have hpermits := (Reachable.invariant hu.unwatched (.start (E.job body) mt _)).permits
  obtain ⟨hle, hopen⟩ := (Reachable.heeds hu hstart).open_le
  refine ⟨hle, hopen.trans ?_⟩
  have hlimit : (E.job body).maxInFlight = E.opts.maxInFlightChunks.toNat := rfl
  omega

theorem two_ids_in_order : ∃ ranges s₀, Watches oneByOne (mapBody 1 some) .new twoIds ranges s₀ ∧
    ∀ w, Reachable (watched (step (oneByOne.job (mapBody 1 some))) (observer ranges)) (s₀, .start) w →
      ToldInOrder ranges 1 w.2 :=
  events_in_order oneByOne (mapBody 1 some) .new twoIds (by decide)

/-! ## A call that is over -/

theorem Tells.closed_events {r : Range} {waited : Bool} {n : ℕ} {l : List ExecutionEvent}
    (h : Tells waited [begun r, .chunkFinished n] l) :
    l.filter isStart = [begun r] ∧ finishes l = 1 ∧ total outputRows l = n := by
  obtain ⟨c, hc | ⟨-, hc⟩, rfl⟩ := h
  · subst hc
    exact ⟨rfl, rfl, by simp [begun, outputRows]⟩
  · subst hc
    exact ⟨rfl, rfl, by simp [begun, outputRows]⟩

/-- the output of a task that is done -/
def Task.outRows (t : Task) : ℕ := (t.out.getD []).length

theorem mapM_out_some {tasks : List Task} {outs : List (List Row)} (h : tasks.mapM Task.out = some outs) :
    (∀ t ∈ tasks, ∃ out, t.out = some out) ∧ total Task.outRows tasks = outs.flatten.length := by
  induction tasks generalizing outs with
  | nil =>
    cases h
    exact ⟨by simp, rfl⟩
  | cons t tasks ih =>
    rw [List.mapM_cons] at h
    obtain ⟨out, hout, h⟩ := Option.bind_eq_some_iff.1 h
    obtain ⟨rest, hrest, h⟩ := Option.bind_eq_some_iff.1 h
    obtain rfl := Option.some.inj h
    obtain ⟨hall, htotal⟩ := ih hrest
    refine ⟨List.forall_mem_cons.2 ⟨⟨out, hout⟩, hall⟩, ?_⟩
    rw [Tally.total_cons, htotal, Task.outRows, hout, List.flatten_cons, List.length_append]
    rfl

theorem Heeds.of_out {ranges : List Range} {w : St × Notes} (h : Heeds ranges w)
    (hdone : ∀ t ∈ w.1.tasks, ∃ out, t.out = some out) {i : ℕ} {t : Task} {r : Range} (ht : w.1.tasks[i]? = some t)
    (hr : ranges[i]? = some r) : (said w.2.log (some i)).filter isStart = [begun r] ∧ finishes (said w.2.log (some i)) = 1 ∧
      total outputRows (said w.2.log (some i)) = t.outRows := by
  obtain ⟨out, hout⟩ := hdone t (List.mem_of_getElem? ht)
  have hheard := h.heard i t r ht hr
  rw [Heard, Task.out_eq_some hout] at hheard
  rw [Task.outRows, hout]
  exact Tells.closed_events hheard

/-- **The events of a call that is over**: every range of rows once, as many ends, and the rows that the call returns -/
theorem finished_call_is_told (E : ExecutionEngine) (body : Body) (mt : Metrics) (ds : DataSet)
    (hrows : ds.rowCount ≤ isizeMax) {rows : List Row} (hbody : runRows body ds.rows = some rows) :
    ∃ ranges s₀, Watches E body mt ds ranges s₀ ∧
      ∀ w, Reachable (watched (step (E.job body)) (observer ranges)) (s₀, .start) w → w.1.Finished →
        (w.2.events.filter isStart).Perm (ranges.map begun) ∧ finishes w.2.events = ranges.length ∧
          total outputRows w.2.events = rows.length := by
  obtain ⟨ranges, hwatches, hflat⟩ := E.watches body mt hrows
  refine ⟨ranges, _, hwatches, fun w hw hfin => ?_⟩
  have hlen : (ranges.map (slice ds.rows)).length = ranges.length := List.length_map _
  have hheeds := Reachable.heeds hw (Heeds.start (E.job body) mt hlen)
  have hcomputes : Computes (E.job body) (.start (E.job body) mt (ranges.map (slice ds.rows))) ⟨ds.schema, rows⟩ :=
    computes_of_runRows E.threads_pos E.maxInFlight_pos mt (by rw [hflat]; exact hbody)
  obtain ⟨outs, houts, hresult⟩ := Option.map_eq_some_iff.1 (hcomputes.result w.1 hw.unwatched hfin)
  obtain rfl : outs.flatten = rows := congrArg DataSet.rows hresult
  obtain ⟨hdone, htotal⟩ := mapM_out_some houts
  have hat : ∀ i r, ranges[i]? = some r → ∃ t, w.1.tasks[i]? = some t ∧ (said w.2.log (some i)).filter isStart = [begun r] ∧
      finishes (said w.2.log (some i)) = 1 ∧ total outputRows (said w.2.log (some i)) = t.outRows := by
    intro i r hr
    have ht := List.getElem?_eq_getElem (hheeds.length.symm ▸ (List.getElem?_eq_some_iff.1 hr).1 : i < w.1.tasks.length)
    exact ⟨_, ht, hheeds.of_out hdone ht hr⟩
  refine ⟨?_, ?_, ?_⟩
  · have hstarts : (said w.2.log none ++ (List.range ranges.length).flatMap fun i => said w.2.log (some i)).filter isStart =
        ranges.map begun := by
      have hrun : (said w.2.log none).filter isStart = [] := List.filter_eq_nil_iff.2 fun e he => by
        simp [not_isStart_of_isRun (hheeds.framed.run_events.1 e he)]
      rw [List.filter_append, hrun, List.nil_append, List.filter_flatMap, ← List.flatMap_pure_eq_map]
      exact Machine.flatMap_range fun i r hr => by
        obtain ⟨t, -, hfilter, -⟩ := hat i r hr
        exact hfilter
    rw [← hstarts]
    exact hheeds.events_perm.filter isStart
  · have hone : total (fun i => (said w.2.log (some i)).countP isFinish) (List.range ranges.length) =
        total (fun _ => 1) ranges :=
      Tally.total_range fun i r hr => by
        obtain ⟨t, -, -, hfinish, -⟩ := hat i r hr
        exact hfinish
    rw [finishes, hheeds.counts_eq fun _ => not_isFinish_of_isRun, hheeds.length, hone]
    simp [total]
  · have houtput : total (fun i => total outputRows (said w.2.log (some i))) (List.range w.1.tasks.length) =
        total Task.outRows w.1.tasks := Tally.total_range fun i t ht => by
      have hr := List.getElem?_eq_getElem (hheeds.length ▸ (List.getElem?_eq_some_iff.1 ht).1 : i < ranges.length)
      obtain ⟨u, hu, -, -, hout⟩ := hat i _ hr
      obtain rfl := Option.some.inj (ht.symm.trans hu)
      exact hout
    have hrun : ((said w.2.log none).map outputRows).sum = 0 := List.sum_eq_zero fun k hk => by
      obtain ⟨e, he, rfl⟩ := List.mem_map.1 hk
      exact outputRows_of_isRun (hheeds.framed.run_events.1 e he)
    rw [← htotal, ← houtput, hheeds.length, total, (hheeds.events_perm.map outputRows).sum_eq, List.map_append,
      List.sum_append, hrun, Nat.zero_add, List.map_flatMap, List.flatMap_def, List.sum_flatten, List.map_map]
    rfl

theorem two_ids_told : ∃ ranges s₀, Watches oneByOne (mapBody 1 some) .new twoIds ranges s₀ ∧
    ∀ w, Reachable (watched (step (oneByOne.job (mapBody 1 some))) (observer ranges)) (s₀, .start) w → w.1.Finished →
      (w.2.events.filter isStart).Perm (ranges.map begun) ∧ finishes w.2.events = ranges.length ∧
        total outputRows w.2.events = 2 :=
  @finished_call_is_told oneByOne (mapBody 1 some) .new twoIds (by decide) twoIds.rows rfl

/-! ## The observer and the call -/

/-- a step has to wait only for the start of the run, or while its task has something to say -/
theorem ready_or_due (ranges : List Range) (s : St) (n : Notes) (a : Act) :
    (observer ranges).ready s n a = true ∨ said n.log none = [] ∨
      ∃ i k e, a = .run i k ∧ dueAt ranges s n (some i) = some e := by
  cases a with
  | spurious i => exact Or.inl rfl
  | run i k =>
    by_cases hstart : said n.log none = []
    · exact Or.inr (Or.inl hstart)
    · cases hdue : dueAt ranges s n (some i) with
      | none => exact Or.inl (by simp [observer, hdue, hstart])
      | some e => exact Or.inr (Or.inr ⟨i, k, e, rfl, hdue⟩)

theorem say_start {ranges : List Range} {s : St} {n : Notes} (h : said n.log none = []) :
    (observer ranges).say s n none = some { n with log := n.log ++ [(none, .runStarted)] } := by
  simp [observer, dueAt, h, dueRun]

/-- once the run has been told, a task can say all that is due, for it is never more than three events -/
theorem Heeds.opens_started {J : Job} {ranges : List Range} {s s' : St} {n : Notes} {a : Act} (h : Heeds ranges (s, n))
    (hstarted : said n.log none ≠ []) (hstep : Execution.step J s a = some s') :
    Machine.Opens (Execution.step J) (observer ranges) s n a := by
  rcases ready_or_due ranges s n a with hready | hstart | ⟨i, k, e, rfl, hdue⟩
  · exact ⟨[], n, rfl, hready⟩
  · exact absurd hstart hstarted
  · clear hdue e
    induction hm : 3 - (said n.log (some i)).length using Nat.strong_induction_on generalizing n with
    | _ m ih =>
      rcases ready_or_due ranges s n (.run i k) with hready | hstart | ⟨j, l, e, hact, hdue⟩
      · exact ⟨[], n, rfl, hready⟩
      · exact absurd hstart hstarted
      · obtain ⟨rfl, -⟩ := Act.run.inj hact
        have hsay : (observer ranges).say s n (some i) = some { n with log := n.log ++ [(some i, e)] } := by
          simp [observer, hdue]
        have hnext := h.say hsay
        obtain ⟨t, r, ht, hr, -⟩ := dueAt_some hdue
        have hlong := (hnext.heard i t r ht hr).counts.2.2
        rw [Machine.said_snoc_self, List.length_append, List.length_singleton] at hlong
        have hstarted' : said (n.log ++ [(some i, e)]) none ≠ [] := by
          rwa [Machine.said_snoc_ne _ (Option.some_ne_none i)]
        obtain ⟨es, n', hes, hready⟩ := ih (3 - ((said n.log (some i)).length + 1)) (by omega) hnext hstarted'
          (by rw [Machine.said_snoc_self, List.length_append, List.length_singleton])
        have hannounce : watched (Execution.step J) (observer ranges) (s, n) (.inr (some i)) =
            some (s, { n with log := n.log ++ [(some i, e)] }) := Machine.watched_say.2 ⟨hsay, rfl⟩
        exact ⟨some i :: es, n', Machine.exec_cons.2 ⟨_, hannounce, hes⟩, hready⟩

/-- no step waits for ever -/
theorem Heeds.opens {J : Job} {ranges : List Range} {s s' : St} {n : Notes} {a : Act} (h : Heeds ranges (s, n))
    (hstep : Execution.step J s a = some s') : Machine.Opens (Execution.step J) (observer ranges) s n a := by
  by_cases hstart : said n.log none = []
  · have hsay : (observer ranges).say s n none = some { n with log := n.log ++ [(none, .runStarted)] } :=
      say_start hstart
    have hstarted : said (n.log ++ [(none, .runStarted)]) none ≠ [] := by simp
    obtain ⟨es, n', hes, hready⟩ := (h.say hsay).opens_started hstarted hstep
    have hannounce : watched (Execution.step J) (observer ranges) (s, n) (.inr none) =
        some (s, { n with log := n.log ++ [(none, .runStarted)] }) := Machine.watched_say.2 ⟨hsay, rfl⟩
    exact ⟨none :: es, n', Machine.exec_cons.2 ⟨_, hannounce, hes⟩, hready⟩
  · exact h.opens_started hstart hstep

/-- an announcement costs nothing -/
def spuriousCost : Act ⊕ Option ℕ → ℕ
  | .inl a => a.cost
  | .inr _ => 0

theorem sum_spuriousCost (as : List (Act ⊕ Option ℕ)) :
    ((as.filterMap Sum.getLeft?).map Act.cost).sum = (as.map spuriousCost).sum := by
  induction as with
  | nil => rfl
  | cons a as ih =>
    cases a with
    | inl a =>
      simp only [List.filterMap_cons, Sum.getLeft?_inl, List.map_cons, List.sum_cons, spuriousCost, ih]
    | inr i =>
      simp only [List.filterMap_cons, Sum.getLeft?_inr, List.map_cons, List.sum_cons, spuriousCost, ih, Nat.zero_add]

/-- two events of the call, and three of each chunk -/
theorem Heeds.events_length_le {ranges : List Range} {w : St × Notes} (h : Heeds ranges w) :
    w.2.events.length ≤ 2 + 3 * ranges.length := by
  have hle := Tally.total_le_add (w := fun i => (said w.2.log (some i)).length) (v := fun _ => 0) (c := 3)
    (l := List.range w.1.tasks.length) fun i hi => by
      obtain ⟨t, r, -, -, hheard⟩ := h.heard_at hi
      simpa using hheard.counts.2.2
  have hrun := h.framed.run_events.2
  rw [h.events_perm.length_eq, List.length_append, List.length_flatMap]
  refine Nat.add_le_add hrun ?_
  simpa [total, h.length] using hle

/-- **The observer is invisible**: the states of a call are those it has unwatched; a call that could go on can go on; and
a watched run is a run of the call itself with at most two announcements of the run and three of each chunk in between,
so that it ends as that one does -/
theorem observer_is_invisible (E : ExecutionEngine) (body : Body) (mt : Metrics) (ds : DataSet)
    (hrows : ds.rowCount ≤ isizeMax) : ∃ ranges s₀, Watches E body mt ds ranges s₀ ∧
      (∀ s, Reachable (step (E.job body)) s₀ s ↔
        ∃ n, Reachable (watched (step (E.job body)) (observer ranges)) (s₀, .start) (s, n)) ∧
      (∀ w, Reachable (watched (step (E.job body)) (observer ranges)) (s₀, .start) w →
        (∃ i k s', step (E.job body) w.1 (.run i k) = some s') →
        ∃ a w', watched (step (E.job body)) (observer ranges) w a = some w' ∧ spuriousCost a = 0) ∧
      ∀ as w, exec (watched (step (E.job body)) (observer ranges)) (s₀, .start) as = some w →
        exec (step (E.job body)) s₀ (as.filterMap Sum.getLeft?) = some w.1 ∧
        as.length ≤ (as.filterMap Sum.getLeft?).length + (2 + 3 * ranges.length) ∧
        as.length ≤ s₀.measure + (2 + 3 * ranges.length) + (as.map spuriousCost).sum := by
  obtain ⟨ranges, hwatches, -⟩ := E.watches body mt hrows
  have hlen : (ranges.map (slice ds.rows)).length = ranges.length := List.length_map _
  have hstart := Heeds.start (E.job body) mt hlen
  refine ⟨ranges, _, hwatches, fun s => ⟨fun hs => ?_, fun hn => ?_⟩, fun w hw hgo => ?_, fun as w has => ?_⟩
  · obtain ⟨as, has⟩ := hs
    obtain ⟨bs, n, hbs, -⟩ := Machine.exec_watched (fun _ _ _ hu hstep => Heeds.step hu hstep)
      (fun _ _ _ _ hu hstep => Heeds.opens hu hstep) hstart has
    exact ⟨n, bs, hbs⟩
  · obtain ⟨n, hn⟩ := hn
    exact hn.unwatched
  · obtain ⟨s, n⟩ := w
    obtain ⟨i, k, s', hstep⟩ := hgo
    rcases ready_or_due ranges s n (.run i k) with hready | hsilent | ⟨j, l, e, hact, hdue⟩
    · exact ⟨.inl (.run i k), (s', (observer ranges).after (.run i k) s' n),
        Machine.watched_act.2 ⟨hready, hstep, rfl⟩, rfl⟩
    · exact ⟨.inr none, (s, { n with log := n.log ++ [(none, .runStarted)] }),
        Machine.watched_say.2 ⟨say_start hsilent, rfl⟩, rfl⟩
    · obtain ⟨rfl, -⟩ := Act.run.inj hact
      exact ⟨.inr (some i), (s, { n with log := n.log ++ [(some i, e)] }),
        Machine.watched_say.2 ⟨by simp [observer, hdue], rfl⟩, rfl⟩
  · have hrun := Machine.exec_unwatched has
    have hsteps := run_length_le hrun
    have hlog := (Reachable.heeds ⟨as, has⟩ hstart).events_length_le
    have hcount := Machine.exec_log_length (fun a s n => (after_notes ranges a s n).1) (fun s n i n' hsay => by
      obtain ⟨e, -, rfl⟩ := Option.map_eq_some_iff.1 hsay
      simp) has
    rw [sum_spuriousCost] at hsteps
    rw [Notes.events, List.length_map] at hlog
    simp only [Notes.start, List.length_nil] at hcount
    dsimp only at hsteps
    refine ⟨hrun, ?_, ?_⟩
    · omega
    · omega

theorem two_ids_watched : ∃ ranges s₀, Watches oneByOne (mapBody 1 some) .new twoIds ranges s₀ ∧
    (∀ s, Reachable (step (oneByOne.job (mapBody 1 some))) s₀ s ↔
      ∃ n, Reachable (watched (step (oneByOne.job (mapBody 1 some))) (observer ranges)) (s₀, .start) (s, n)) ∧
    (∀ w, Reachable (watched (step (oneByOne.job (mapBody 1 some))) (observer ranges)) (s₀, .start) w →
      (∃ i k s', step (oneByOne.job (mapBody 1 some)) w.1 (.run i k) = some s') →
      ∃ a w', watched (step (oneByOne.job (mapBody 1 some))) (observer ranges) w a = some w' ∧ spuriousCost a = 0) ∧
    ∀ as w, exec (watched (step (oneByOne.job (mapBody 1 some))) (observer ranges)) (s₀, .start) as = some w →
      exec (step (oneByOne.job (mapBody 1 some))) s₀ (as.filterMap Sum.getLeft?) = some w.1 ∧
      as.length ≤ (as.filterMap Sum.getLeft?).length + (2 + 3 * ranges.length) ∧
      as.length ≤ s₀.measure + (2 + 3 * ranges.length) + (as.map spuriousCost).sum :=
  observer_is_invisible oneByOne (mapBody 1 some) .new twoIds (by decide)

end RustDataProcessing.Execution
