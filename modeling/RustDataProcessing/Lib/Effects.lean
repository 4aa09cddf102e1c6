/-
Loops of computations that may fail (`Attempt`), and what a computation can change.

A loop that keeps what each step returns (`collect`) ends with all its steps taken, or with the steps before the one that
failed (`collect_ok_iff`, `collect_error_iff`). What a state holds is looked up at places; a computation confined to some
places changes nothing elsewhere (`Confined`), and what all steps taken leave alone the loop leaves alone
(`Steps.unchanged`). A computation on a part of the state (`Part`, `on`) changes only that part.
-/
import Mathlib.Tactic
import RustDataProcessing.Lib.Attempt

namespace Attempt

variable {σ τ ε ε' α β : Type}

/-- a loop that keeps what each step returns, and stops at the first failure -/
def collect (f : α → Attempt σ ε β) : List α → Attempt σ ε (List β)
  | [] => done []
  | x :: xs => f x >>= fun y => collect f xs >>= fun ys => done (y :: ys)

def mapError (g : ε → ε') (x : Attempt σ ε α) : Attempt σ ε' α := fun s => ((x s).1, (x s).2.mapError g)

/-- a computation that says how it ended, and does not fail -/
def caught (x : Attempt σ ε α) : Attempt σ ε' (Except ε α) := fun s => ((x s).1, .ok (x s).2)

/-! ## Steps -/

/-- the steps of a loop, each with what it returned -/
inductive Steps (f : α → Attempt σ ε β) : σ → List (α × β) → σ → Prop where
  | nil (s : σ) : Steps f s [] s
  | cons {s t u : σ} {x : α} {y : β} {ps : List (α × β)} :
      f x s = (t, .ok y) → Steps f t ps u → Steps f s ((x, y) :: ps) u

section Steps

variable {f : α → Attempt σ ε β} {s s' t : σ}

theorem Steps.append {ps qs : List (α × β)} (h₁ : Steps f s ps t) (h₂ : Steps f t qs s') : Steps f s (ps ++ qs) s' := by
  induction h₁ with
  | nil => exact h₂
  | cons hx _ ih => exact .cons hx (ih h₂)

theorem Steps.cons_iff {x : α} {y : β} {ps : List (α × β)} :
    Steps f s ((x, y) :: ps) s' ↔ ∃ t, f x s = (t, .ok y) ∧ Steps f t ps s' := by
  constructor
  · intro h
    cases h with
    | cons hx hrest => exact ⟨_, hx, hrest⟩
  · rintro ⟨t, hx, hrest⟩
    exact .cons hx hrest

theorem Steps.append_iff {ps qs : List (α × β)} :
    Steps f s (ps ++ qs) s' ↔ ∃ t, Steps f s ps t ∧ Steps f t qs s' := by
  constructor
  · intro h
    induction ps generalizing s with
    | nil => exact ⟨s, .nil s, h⟩
    | cons p ps ih =>
      obtain ⟨t, hp, hrest⟩ := cons_iff.1 h
      obtain ⟨u, hps, hqs⟩ := ih hrest
      exact ⟨u, .cons hp hps, hqs⟩
  · rintro ⟨t, h₁, h₂⟩
    exact h₁.append h₂

theorem collect_ok_iff {xs : List α} {ys : List β} :
    collect f xs s = (s', .ok ys) ↔ ∃ ps : List (α × β), ps.map Prod.fst = xs ∧ ps.map Prod.snd = ys ∧ Steps f s ps s' := by
  constructor
  · intro h
    induction xs generalizing s ys with
    | nil =>
      obtain ⟨rfl, hys⟩ := Prod.mk.inj h
      exact ⟨[], rfl, Except.ok.inj hys, .nil s⟩
    | cons x xs ih =>
      obtain ⟨y, t, hx, hrest⟩ := bind_done h
      obtain ⟨ys', u, hxs, hend⟩ := bind_done hrest
      obtain ⟨rfl, hys⟩ := Prod.mk.inj hend
      obtain ⟨ps, rfl, rfl, hsteps⟩ := ih hxs
      exact ⟨(x, y) :: ps, rfl, Except.ok.inj hys, .cons hx hsteps⟩
  · rintro ⟨ps, rfl, rfl, hsteps⟩
    induction hsteps with
    | nil => rfl
    | cons hx _ ih => exact (bind_ok hx).trans (bind_ok ih)

theorem collect_error_iff {xs : List α} {e : ε} :
    collect f xs s = (s', .error e) ↔ ∃ (ps : List (α × β)) (x : α) (post : List α) (t : σ),
      xs = ps.map Prod.fst ++ x :: post ∧ Steps f s ps t ∧ f x t = (s', .error e) := by
  constructor
  · intro h
    induction xs generalizing s with
    | nil => cases h
    | cons x xs ih =>
      rcases bind_error h with hx | ⟨y, t, hx, hrest⟩
      · exact ⟨[], x, xs, s, rfl, .nil s, hx⟩
      · rcases bind_error hrest with hxs | ⟨ys, u, -, hend⟩
        · obtain ⟨ps, z, post, v, rfl, hsteps, hz⟩ := ih hxs
          exact ⟨(x, y) :: ps, z, post, v, rfl, .cons hx hsteps, hz⟩
        · cases hend
  · rintro ⟨ps, x, post, t, rfl, hsteps, hx⟩
    induction hsteps with
    | nil => exact bind_of_error hx
    | cons hy _ ih => exact (bind_ok hy).trans (bind_of_error (ih hx))

theorem collect_congr {g : α → Attempt σ ε β} {xs : List α} (h : ∀ x ∈ xs, f x = g x) : collect f xs = collect g xs := by
  induction xs with
  | nil => rfl
  | cons x xs ih =>
    obtain ⟨hx, hxs⟩ := List.forall_mem_cons.1 h
    rw [collect, collect, hx, ih hxs]

/-- a loop whose first step fails in every state -/
theorem collect_head_fails {x : α} {e : ε} (h : ∀ s, f x s = (s, .error e)) (xs : List α) : collect f (x :: xs) = fail e :=
  funext fun s => bind_of_error (h s)

/-- what comes after the first steps matters only through what it does -/
theorem collect_append_congr {ys zs : List α} (h : collect f ys = collect f zs) (xs : List α) :
    collect f (xs ++ ys) = collect f (xs ++ zs) := by
  induction xs with
  | nil => exact h
  | cons x xs ih => rw [List.cons_append, List.cons_append, collect, collect, ih]

/-- what every step keeps, the steps keep -/
theorem Steps.inv {I : σ → Prop} {ps : List (α × β)} (h : Steps f s ps s')
    (hstep : ∀ p ∈ ps, ∀ t u, I t → f p.1 t = (u, .ok p.2) → I u) (hs : I s) : I s' := by
  induction h with
  | nil => exact hs
  | cons hx _ ih =>
    exact ih (fun p hp => hstep p (List.mem_cons_of_mem _ hp)) (hstep _ List.mem_cons_self _ _ hs hx)

/-- the state before one of the steps -/
theorem Steps.at {ps : List (α × β)} (h : Steps f s ps s') {p : α × β} (hp : p ∈ ps) :
    ∃ before after t u, ps = before ++ p :: after ∧ Steps f s before t ∧ f p.1 t = (u, .ok p.2) ∧ Steps f u after s' := by
  induction h with
  | nil => cases hp
  | @cons s t u x y ps hx hrest ih =>
    rcases List.mem_cons.1 hp with rfl | hp
    · exact ⟨[], ps, s, t, rfl, .nil s, hx, hrest⟩
    · obtain ⟨before, after, v, w, rfl, hbefore, hstep, hafter⟩ := ih hp
      exact ⟨(x, y) :: before, after, v, w, rfl, .cons hx hbefore, hstep, hafter⟩

end Steps

/-! ## Places -/

/-- a computation that changes nothing outside some places -/
def Confined {π κ : Type} (view : π → σ → κ) (places : Set π) (x : Attempt σ ε α) : Prop :=
  ∀ s, ∀ p ∉ places, view p (x s).1 = view p s

namespace Confined

variable {π κ : Type} {view : π → σ → κ} {places : Set π}

theorem of_same {x : Attempt σ ε α} (h : ∀ s, (x s).1 = s) : Confined view places x := fun s p _ => by rw [h s]

theorem done (a : α) : Confined view places (Attempt.done a : Attempt σ ε α) := of_same fun _ => rfl

theorem fail (e : ε) : Confined view places (Attempt.fail e : Attempt σ ε α) := of_same fun _ => rfl

theorem ofExcept (x : Except ε α) : Confined view places (Attempt.ofExcept x : Attempt σ ε α) := of_same fun _ => rfl

theorem bind {x : Attempt σ ε α} {f : α → Attempt σ ε β} (hx : Confined view places x)
    (hf : ∀ a, Confined view places (f a)) : Confined view places (x >>= f) :=
  fun s p hp => bind_keeps (fun s => hx s p hp) (fun a s => hf a s p hp) s

theorem mapError {g : ε → ε'} {x : Attempt σ ε α} (h : Confined view places x) :
    Confined view places (x.mapError g) := h

theorem caught {x : Attempt σ ε α} (h : Confined view places x) :
    Confined view places (x.caught : Attempt σ ε' (Except ε α)) := h

/-- the steps change nothing outside the places of the steps -/
theorem unchanged {f : α → Attempt σ ε β} {footprint : α → Set π} (hf : ∀ x, Confined view (footprint x) (f x))
    {s s' : σ} {ps : List (α × β)} (h : Steps f s ps s') {p : π} (hp : ∀ q ∈ ps, p ∉ footprint q.1) :
    view p s' = view p s := by
  refine h.inv (I := fun u => view p u = view p s) (fun q hq t u ht hstep => ?_) rfl
  have hkeep := hf q.1 t p (hp q hq)
  rw [hstep] at hkeep
  exact hkeep.trans ht

end Confined

/-! ## Parts -/

/-- a part of a state: how to read it, and how to put another in its place -/
structure Part (σ τ : Type) where
  get : σ → τ
  set : τ → σ → σ

/-- a computation on a part of the state -/
def on (p : Part σ τ) (x : Attempt τ ε α) : Attempt σ ε α := fun s => (p.set (x (p.get s)).1 s, (x (p.get s)).2)

end Attempt
