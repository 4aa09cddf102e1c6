/-
Parallel calls whose closure panics.

A task that panics unwinds past `sem.release()`: its permit is lost. So a call gets stuck when enough chunks panic to
lose every permit while others are still to come.

- `stuck_reachable`: when as many chunks panic as there are permits and there are more chunks than permits, some
  interleaving runs the panicking chunks first and leaves the others waiting for ever.
- `panic_progress_iff`: otherwise none gets stuck; and every permit is back in the end only when no chunk panics.
-/
import Mathlib.Tactic
import RustDataProcessing.Execution.Refinement

namespace RustDataProcessing.Execution

open Machine (Reachable Quiescent within)
open Tally (total)

def Pc.isWaiting : Pc → Bool
  | .acquire => true
  | .asleep => true
  | .woken => true
  | _ => false

theorem Pc.of_over {pc : Pc} (h : pc.isOver) : pc.isIdle = false ∧ pc.isWaiting = false := by
  cases pc <;> first | exact ⟨rfl, rfl⟩ | cases h

theorem Pc.of_waiting {pc : Pc} (h : pc.isWaiting) : pc.holds = 0 := by
  cases pc <;> first | rfl | cases h

/-! ## Properties of a call -/

/-- no interleaving reaches a state in which the call is not over and no task can be advanced -/
def NeverStuck (J : Job) (s₀ : St) : Prop := ∀ s, Reachable (step J) s₀ s → Halted J s → s.Finished

/-- whenever a task waits in `acquire` and no permit is free, some task holds one and will not panic before its release -/
def WaitersServed (J : Job) (s₀ : St) : Prop :=
  ∀ s, Reachable (step J) s₀ s → s.permits = 0 → ∀ t ∈ s.tasks, t.pc.isWaiting →
    ∃ u ∈ s.tasks, u.pc.holds = 1 ∧ panics J.body u.rows = false

/-- when no task can be advanced any more, every permit is back -/
def PermitsReturned (J : Job) (s₀ : St) : Prop :=
  ∀ s, Reachable (step J) s₀ s → Halted J s → s.permits = J.maxInFlight

/-! ## Running to a halt -/

theorem exists_halted {J : Job} {s : St} (hinv : Inv J s) : ∃ s', Reachable (step J) s s' ∧ Halted J s' := by
  have hkeep : ∀ u a u', Inv J u → within (step J) (fun _ a => a.cost = 0) u a = some u' → Inv J u' :=
    fun _ _ _ hinv hstep => Inv.step hinv (Machine.within_some.1 hstep).2
  have hless : ∀ u a u', Inv J u → within (step J) (fun _ a => a.cost = 0) u a = some u' → u'.measure < u.measure := by
    intro u a u' _ hstep
    obtain ⟨ha, hstep⟩ := Machine.within_some.1 hstep
    simpa [ha] using step_measure hstep
  obtain ⟨s', hreach, hquiet⟩ := Machine.exists_quiescent hkeep hless hinv
  exact ⟨s', hreach.of_within, fun i k => hquiet.of_within (a := .run i k) rfl⟩

/-! ## Panicking chunks first -/

/-- the scheduler lets only the chunks run that will panic, until every permit is taken -/
def doomedFirst (body : Body) (s : St) : Act → Bool
  | .run i _ => s.permits == 0 || (s.tasks[i]?).any fun t => panics body t.rows
  | .spurious _ => false

/-- the other chunks are not taken, or wait for a permit when there is none -/
def Held (body : Body) (permits : ℕ) (t : Task) : Prop :=
  panics body t.rows = true ∨ t.pc.isIdle ∨ (permits = 0 ∧ t.pc.isWaiting)

theorem Moves.held {body : Body} {rows : List Row} {p p' : ℕ} {mt mt' : Metrics} {pc pc' : Pc}
    (h : Moves body rows p mt pc p' mt' pc') (hheld : Held body p ⟨rows, pc⟩) (hallowed : p = 0 ∨ panics body rows = true) :
    Held body p ⟨rows, pc'⟩ := by
  rcases hallowed with rfl | hdoomed
  · rcases hheld with hdoomed | hidle | ⟨-, hwait⟩
    · exact Or.inl hdoomed
    · cases h <;> first | exact Or.inr (Or.inr ⟨rfl, rfl⟩) | cases hidle
    · cases h <;> first | exact Or.inr (Or.inr ⟨rfl, rfl⟩) | cases hwait
  · exact Or.inl hdoomed

/-- a task that holds back no permit it will return: tasks that panic never come to the release -/
theorem not_release_of_held {J : Job} {s : St} (hinv : Inv J s) {t : Task} (ht : t ∈ s.tasks)
    (hheld : Held J.body s.permits t) : ¬t.pc.isRelease := by
  intro hrel
  have hok := hinv.ok t ht
  obtain ⟨rows, pc⟩ := t
  cases pc <;> try cases hrel
  rcases hheld with hdoomed | hidle | ⟨-, hwait⟩
  · rw [runRows_isSome hok] at hdoomed
    cases hdoomed
  · cases hidle
  · cases hwait

theorem Moves.none_left {body : Body} {rows : List Row} {p' : ℕ} {mt mt' : Metrics} {pc pc' : Pc}
    (h : Moves body rows 0 mt pc p' mt' pc') (hrel : ¬pc.isRelease) : p' = 0 := by
  cases h <;> first | rfl | exact absurd rfl hrel

theorem held_step {J : Job} {s s' : St} {a : Act} (hinv : Inv J s) (hheld : ∀ t ∈ s.tasks, Held J.body s.permits t)
    (hallowed : doomedFirst J.body s a = true) (h : step J s a = some s') :
    ∀ t ∈ s'.tasks, Held J.body s'.permits t := by
  rcases step_cases h with ⟨i, k, rfl, hadv⟩ | ⟨i, rfl, -⟩
  · have hlocal : ∀ t, s.tasks[i]? = some t → ∀ pc, Held J.body s.permits t →
        Moves J.body t.rows s.permits s.metrics t.pc s'.permits s'.metrics pc → Held J.body s.permits ⟨t.rows, pc⟩ := by
      intro t ht pc hP hmove
      exact hmove.held hP (by simpa [doomedFirst, ht] using hallowed)
    have hwoken : ∀ rows, Held J.body s.permits ⟨rows, .asleep⟩ → Held J.body s.permits ⟨rows, .woken⟩ := by
      rintro rows (hdoomed | hidle | ⟨h0, -⟩)
      · exact Or.inl hdoomed
      · cases hidle
      · exact Or.inr (Or.inr ⟨h0, rfl⟩)
    have hzero : s.permits = 0 → s'.permits = 0 := by
      intro h0
      obtain ⟨t, ht, pc, hmove, -⟩ := advance_total hadv
      rw [h0] at hmove
      exact hmove.none_left (not_release_of_held hinv (List.mem_of_getElem? ht) (hheld t (List.mem_of_getElem? ht)))
    intro t ht
    rcases advance_forall hadv hlocal hwoken hheld t ht with hdoomed | hidle | ⟨h0, hwait⟩
    · exact Or.inl hdoomed
    · exact Or.inr (Or.inl hidle)
    · exact Or.inr (Or.inr ⟨hzero h0, hwait⟩)
  · cases hallowed

/-- a task that is over, with a chunk that panics, has panicked and holds a permit -/
theorem holds_of_doomed {body : Body} {t : Task} (hok : t.Ok body) (hover : t.pc.isOver)
    (hdoomed : panics body t.rows = true) : t.pc.holds = 1 := by
  cases hpc : t.pc with
  | done out =>
    rw [runRows_isSome (hok.of_done hpc)] at hdoomed
    cases hdoomed
  | panicked rest => rfl
  | _ =>
    rw [hpc] at hover
    cases hover

/-- when the panicking chunks have run as far as they can, no permit is free -/
theorem no_permit_left {J : Job} (hthreads : 0 < J.threads) {s : St} (hinv : Inv J s)
    (hheld : ∀ t ∈ s.tasks, Held J.body s.permits t)
    (hquiet : Quiescent (within (step J) fun u a => doomedFirst J.body u a) s)
    (hmany : J.maxInFlight ≤ (s.tasks.map Task.rows).countP (panics J.body)) : s.permits = 0 := by
  by_contra hpos
  have hcases : ∀ t ∈ s.tasks, (t.pc.isIdle ∧ (panics J.body t.rows = true → J.threads ≤ inProgress s.tasks)) ∨
      t.pc.isAsleep ∨ t.pc.isOver := by
    intro t ht
    by_cases hdoomed : panics J.body t.rows = true
    · obtain ⟨i, hi⟩ := List.mem_iff_getElem?.1 ht
      have hblocked : ∀ k, step J s (.run i k) = none := fun k =>
        hquiet.of_within (a := .run i k) (by simp [doomedFirst, hi, hdoomed])
      exact (idle_or_of_blocked hi hblocked).imp_left fun h => ⟨h.1, fun _ => h.2⟩
    · rcases hheld t ht with h | hidle | ⟨h0, -⟩
      · exact absurd h hdoomed
      · exact Or.inl ⟨hidle, fun h => absurd h hdoomed⟩
      · exact absurd h0 hpos
  have hzero : wokens s.tasks = 0 := wokens_eq_zero fun t ht => (hcases t ht).imp_left And.left
  have hsleep : sleepers s.tasks = 0 := hinv.wake.resolve_right fun hle => hpos (by omega)
  have hrest : ∀ t ∈ s.tasks, (t.pc.isIdle ∧ (panics J.body t.rows = true → J.threads ≤ inProgress s.tasks)) ∨
      t.pc.isOver := by
    intro t ht
    exact (hcases t ht).imp_right fun h => h.resolve_left (not_asleep hsleep ht)
  have hfree := not_blocked_of_idle hthreads fun t ht => (hrest t ht).imp_left And.left
  have hholders : (s.tasks.map Task.rows).countP (panics J.body) ≤ holders s.tasks := by
    rw [← Tally.total_ite, Tally.total_map]
    refine Tally.total_mono fun t ht => ?_
    rw [Function.comp_apply]
    split_ifs with hdoomed
    · rcases hrest t ht with ⟨-, hbusy⟩ | hover
      · exact absurd (hbusy hdoomed) (not_le.2 hfree)
      · rw [holds_of_doomed (hinv.ok t ht) hover hdoomed]
    · exact Nat.zero_le _
  have := hinv.permits
  omega

/-- **A call gets stuck** when as many chunks panic as there are permits, and there are more chunks than permits -/
theorem stuck_reachable {J : Job} (hthreads : 0 < J.threads) (mt : Metrics) {chunks : List (List Row)}
    (hmany : J.maxInFlight ≤ chunks.countP (panics J.body)) (hmore : J.maxInFlight < chunks.length) :
    ∃ s, Reachable (step J) (.start J mt chunks) s ∧ Halted J s ∧ ¬s.Finished := by
  have hstart : ∀ t ∈ (St.start J mt chunks).tasks, Held J.body (St.start J mt chunks).permits t := by
    intro t ht
    obtain ⟨rows, -, rfl⟩ := List.mem_map.1 ht
    exact Or.inr (Or.inl rfl)
  have hstep : ∀ u a u', (Inv J u ∧ ∀ t ∈ u.tasks, Held J.body u.permits t) →
      within (step J) (fun u a => doomedFirst J.body u a) u a = some u' →
      Inv J u' ∧ ∀ t ∈ u'.tasks, Held J.body u'.permits t := by
    rintro u a u' ⟨hinv, hheld⟩ h
    obtain ⟨ha, h⟩ := Machine.within_some.1 h
    exact ⟨hinv.step h, held_step hinv hheld ha h⟩
  obtain ⟨s, hreach, hquiet⟩ := Machine.exists_quiescent hstep
    (fun u a u' _ h => by
      obtain ⟨ha, h⟩ := Machine.within_some.1 h
      rcases a with ⟨i, k⟩ | i
      · exact step_measure h
      · cases ha)
    ⟨Inv.start J mt chunks, hstart⟩
  obtain ⟨hinv, hheld⟩ := hreach.inv hstep ⟨Inv.start J mt chunks, hstart⟩
  have hrows := (Reachable.rows hreach.of_within).trans (start_rows J mt chunks)
  have hlen : s.tasks.length = chunks.length := by simpa using congrArg List.length hrows
  have hzero := no_permit_left hthreads hinv hheld hquiet (by rw [hrows]; exact hmany)
  refine ⟨s, hreach.of_within, fun i k => hquiet.of_within (a := .run i k) (by simp [doomedFirst, hzero]), fun hfin => ?_⟩
  have hall : s.tasks.length ≤ holders s.tasks := by
    have hone : total (fun _ => 1) s.tasks = s.tasks.length := by simp [total]
    rw [← hone]
    refine Tally.total_mono fun t ht => ?_
    have hover := hfin t ht
    rcases hheld t ht with hdoomed | hidle | ⟨-, hwait⟩
    · rw [holds_of_doomed (hinv.ok t ht) hover hdoomed]
    · rw [(Pc.of_over hover).1] at hidle
      cases hidle
    · rw [(Pc.of_over hover).2] at hwait
      cases hwait
  have := hinv.permits
  omega

/-! ## When a call gets through -/

theorem never_stuck {J : Job} (hthreads : 0 < J.threads) {mt : Metrics} {chunks : List (List Row)}
    (h : chunks.countP (panics J.body) < J.maxInFlight ∨ chunks.length ≤ J.maxInFlight) :
    NeverStuck J (.start J mt chunks) := by
  intro s hreach hhalted
  have hrows := (Reachable.rows hreach).trans (start_rows J mt chunks)
  have hlen : s.tasks.length = chunks.length := by simpa using congrArg List.length hrows
  refine (halted_finished hthreads (Reachable.invariant hreach (.start J mt chunks)) hhalted).resolve_right ?_
  rintro ⟨hmany, hmore⟩
  rw [hrows] at hmany
  omega

theorem waiters_served {J : Job} {mt : Metrics} {chunks : List (List Row)}
    (h : chunks.countP (panics J.body) < J.maxInFlight ∨ chunks.length ≤ J.maxInFlight) :
    WaitersServed J (.start J mt chunks) := by
  intro s hreach hzero t ht hwait
  have hinv := Reachable.invariant hreach (.start J mt chunks)
  have hrows := (Reachable.rows hreach).trans (start_rows J mt chunks)
  have hpermits := hinv.permits
  have hlt : holders s.tasks < s.tasks.length :=
    Tally.total_lt_length (fun u _ => u.pc.holds_le_one) ht (Pc.of_waiting hwait)
  have hlen : s.tasks.length = chunks.length := by simpa using congrArg List.length hrows
  by_contra hnone
  -- otherwise every permit is held for a chunk that panics
  have hle : holders s.tasks ≤ chunks.countP (panics J.body) := by
    rw [← hrows, ← Tally.total_ite, Tally.total_map]
    refine Tally.total_mono fun u hu => ?_
    rw [Function.comp_apply]
    split_ifs with hdoomed
    · exact u.pc.holds_le_one
    · have := u.pc.holds_le_one
      have hne : u.pc.holds ≠ 1 := fun h1 => hnone ⟨u, hu, h1, by simpa using hdoomed⟩
      omega
  omega

theorem permits_returned_iff {J : Job} (hthreads : 0 < J.threads) (hlimit : 0 < J.maxInFlight) (mt : Metrics)
    (chunks : List (List Row)) :
    PermitsReturned J (.start J mt chunks) ↔ chunks.countP (panics J.body) = 0 := by
  constructor
  · intro h
    obtain ⟨s, hreach, hhalted⟩ := exists_halted (Inv.start J mt chunks)
    have hinv := Reachable.invariant hreach (.start J mt chunks)
    have hrows := (Reachable.rows hreach).trans (start_rows J mt chunks)
    have hback := h s hreach hhalted
    have hpermits := hinv.permits
    have hfin := (halted_cases hthreads hinv hhalted).2.resolve_right fun ⟨h0, _⟩ => by omega
    have hnone : holders s.tasks = 0 := by omega
    rw [← hrows, List.countP_eq_zero]
    intro rows hmem hdoomed
    obtain ⟨t, ht, rfl⟩ := List.mem_map.1 hmem
    have h1 := holds_of_doomed (hinv.ok t ht) (hfin t ht) hdoomed
    have h0 : t.pc.holds = 0 := (Tally.total_eq_zero_iff _).1 hnone t ht
    omega
  · intro h s hreach hhalted
    have hinv := Reachable.invariant hreach (.start J mt chunks)
    have hle := holders_le hinv (halted_cases hthreads hinv hhalted).1
    rw [(Reachable.rows hreach).trans (start_rows J mt chunks)] at hle
    have := hinv.permits
    omega

/-- **Progress of a parallel call**: no interleaving gets stuck, and waiting tasks are served, exactly when fewer chunks
panic than there are permits or every chunk has a permit; every permit is returned exactly when no chunk panics -/
theorem panic_progress_iff (E : ExecutionEngine) (body : Body) (mt : Metrics) (ds : DataSet)
    (hrows : ds.rowCount ≤ isizeMax) :
    ∃ chunks, E.chunks ds = some chunks ∧ E.begin body mt ds = some (.start (E.job body) mt chunks) ∧
      ((NeverStuck (E.job body) (.start (E.job body) mt chunks) ∧
          WaitersServed (E.job body) (.start (E.job body) mt chunks)) ↔
        chunks.countP (panics body) < E.opts.maxInFlightChunks.toNat ∨
          chunks.length ≤ E.opts.maxInFlightChunks.toNat) ∧
      (PermitsReturned (E.job body) (.start (E.job body) mt chunks) ↔ chunks.countP (panics body) = 0) := by
  obtain ⟨ranges, -, hchunks, -, -⟩ := E.chunks_spec hrows
  refine ⟨_, hchunks, by rw [ExecutionEngine.begin, hchunks]; rfl, ⟨?_, fun h => ?_⟩,
    permits_returned_iff E.threads_pos E.maxInFlight_pos mt _⟩
  · rintro ⟨hnever, -⟩
    by_contra hne
    rw [not_or, not_lt, not_le] at hne
    obtain ⟨s, hreach, hhalted, hunfinished⟩ :=
      stuck_reachable (J := E.job body) E.threads_pos mt hne.1 hne.2
    exact hunfinished (hnever s hreach hhalted)
  · exact ⟨never_stuck E.threads_pos h, waiters_served h⟩

/-! ## One permit and two chunks -/

/-- a mapper that returns a row of the wrong length for id 1 -/
def dropFirst (row : Row) : Option Row := some (if row = [.int64 1] then [] else row)

/-- the second chunk waits for the permit that the first one lost -/
theorem wrong_length_blocks_call :
    ∃ s₀, oneByOne.begin (mapBody 1 dropFirst) .new twoIds = some s₀ ∧
      ¬NeverStuck (oneByOne.job (mapBody 1 dropFirst)) s₀ := by
  refine ⟨.start (oneByOne.job (mapBody 1 dropFirst)) .new [[[.int64 1]], [[.int64 2]]], by decide, fun h => ?_⟩
  have hrun : Machine.exec (step (oneByOne.job (mapBody 1 dropFirst)))
      (.start (oneByOne.job (mapBody 1 dropFirst)) .new [[[.int64 1]], [[.int64 2]]])
      [.run 0 0, .run 0 0, .run 0 0, .run 0 0, .run 0 0, .run 0 0, .run 0 0, .run 1 0, .run 1 0] =
        some ⟨⟨1, 1, 1, 0, 1, 1⟩, 0, [⟨[[.int64 1]], .panicked []⟩, ⟨[[.int64 2]], .asleep⟩]⟩ := by decide
  have hfin := h _ ⟨_, hrun⟩ fun i k => by
    rcases i with _ | _ | i <;> rfl
  exact absurd (hfin ⟨[[.int64 2]], .asleep⟩ (by simp)) (by decide)

/-- with two permits the call goes on past the chunk that panics -/
def oneByTwo : ExecutionEngine :=
  ⟨⟨some 1, 1, 2⟩, 1, oneByOne.chunkSize_pos, Nat.two_pos, oneByOne.threads_pos⟩

def threeIds : DataSet := ⟨⟨[⟨"id", .int64⟩]⟩, [[.int64 1], [.int64 2], [.int64 3]]⟩

/-- one of three chunks panics, and a permit is left -/
theorem spare_permit_gets_through :
    [[[.int64 1]], [[.int64 2]], [[.int64 3]]].countP (panics (mapBody 1 dropFirst)) = 1 ∧
      NeverStuck (oneByTwo.job (mapBody 1 dropFirst))
        (.start (oneByTwo.job (mapBody 1 dropFirst)) .new [[[.int64 1]], [[.int64 2]], [[.int64 3]]]) := by
  obtain ⟨chunks, hchunks, -, h, -⟩ := panic_progress_iff oneByTwo (mapBody 1 dropFirst) .new threeIds (by decide)
  obtain rfl : [[[.int64 1]], [[.int64 2]], [[.int64 3]]] = chunks :=
    Option.some.inj (hchunks.symm.trans (by decide)).symm
  exact ⟨by decide, (h.2 (by decide)).1⟩

end RustDataProcessing.Execution
