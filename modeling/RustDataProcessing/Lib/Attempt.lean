/-
Computations on a state that may fail, and leave the state they had reached.

`bind_error` says where a failure comes from, of two steps the first or the second; `bind_keeps` and `each_keeps` say
what no step changes.
-/
import Mathlib.Tactic

/-- a result beside the state reached -/
def Attempt (σ ε α : Type) := σ → σ × Except ε α

namespace Attempt

variable {σ ε α β : Type}

def done (a : α) : Attempt σ ε α := fun s => (s, .ok a)

def fail (e : ε) : Attempt σ ε α := fun s => (s, .error e)

def ofExcept (x : Except ε α) : Attempt σ ε α := fun s => (s, x)

/-- a step that looks at the state and leaves it -/
def reads (f : σ → Except ε α) : Attempt σ ε α := fun s => (s, f s)

def bind (x : Attempt σ ε α) (f : α → Attempt σ ε β) : Attempt σ ε β := fun s =>
  match x s with
  | (s', .ok a) => f a s'
  | (s', .error e) => (s', .error e)

instance : Monad (Attempt σ ε) where
  pure := done
  bind := bind

/-- a step taken only if asked for -/
def when (c : Bool) (x : Attempt σ ε Unit) : Attempt σ ε Unit := if c then x else done ()

/-- a step whose failure is ignored -/
def ignore (x : Attempt σ ε Unit) : Attempt σ ε Unit := fun s => ((x s).1, .ok ())

/-- a loop that changes a list in place, and stops at the first failure -/
def eachMut (f : α → Except ε α) : List α → List α × Except ε Unit
  | [] => ([], .ok ())
  | x :: xs => match f x with
    | .error e => (x :: xs, .error e)
    | .ok y =>
      let (ys, r) := eachMut f xs
      (y :: ys, r)

/-- a loop that stops at the first failure -/
def each (f : α → Attempt σ ε Unit) : List α → Attempt σ ε Unit
  | [] => done ()
  | x :: xs => bind (f x) fun _ => each f xs

theorem eq_of_ok {x : Attempt σ ε α} {s : σ} {a : α} (h : (x s).2 = .ok a) : x s = ((x s).1, .ok a) := Prod.ext rfl h

theorem bind_error {x : Attempt σ ε α} {f : α → Attempt σ ε β} {s s' : σ} {e : ε}
    (h : (x >>= f) s = (s', .error e)) :
    x s = (s', .error e) ∨ ∃ a s₁, x s = (s₁, .ok a) ∧ f a s₁ = (s', .error e) := by
  change bind x f s = _ at h
  unfold bind at h
  split at h
  · rename_i s₁ a hx
    exact Or.inr ⟨a, s₁, hx, h⟩
  · rename_i s₁ e' hx
    obtain ⟨rfl, he⟩ := Prod.mk.inj h
    exact Or.inl (hx.trans (by rw [Except.error.inj he]))

theorem bind_ok {x : Attempt σ ε α} {f : α → Attempt σ ε β} {s s₁ : σ} {a : α} (hx : x s = (s₁, .ok a)) :
    (x >>= f) s = f a s₁ := by
  change bind x f s = _
  unfold bind
  rw [hx]

theorem bind_of_error {x : Attempt σ ε α} {f : α → Attempt σ ε β} {s s₁ : σ} {e : ε} (hx : x s = (s₁, .error e)) :
    (x >>= f) s = (s₁, .error e) := by
  change bind x f s = _
  unfold bind
  rw [hx]

theorem bind_done {x : Attempt σ ε α} {f : α → Attempt σ ε β} {s s' : σ} {b : β} (h : (x >>= f) s = (s', .ok b)) :
    ∃ a s₁, x s = (s₁, .ok a) ∧ f a s₁ = (s', .ok b) := by
  change bind x f s = _ at h
  unfold bind at h
  split at h
  · rename_i s₁ a hx
    exact ⟨a, s₁, hx, h⟩
  · cases h

theorem when_ok {c : Bool} {x : Attempt σ ε Unit} {s s' : σ} {u : Unit} (h : when c x s = (s', .ok u)) :
    (c = false ∧ s' = s) ∨ (c = true ∧ x s = (s', .ok u)) := by
  cases c with
  | false => exact Or.inl ⟨rfl, (Prod.mk.inj h).1.symm⟩
  | true => exact Or.inr ⟨rfl, h⟩

theorem when_error {c : Bool} {x : Attempt σ ε Unit} {s s' : σ} {e : ε} (h : when c x s = (s', .error e)) :
    c = true ∧ x s = (s', .error e) := by
  cases c with
  | false => cases h
  | true => exact ⟨rfl, h⟩

theorem ofExcept_ok {x : Except ε α} {s s' : σ} {a : α} (h : ofExcept x s = (s', .ok a)) : x = .ok a ∧ s' = s :=
  ⟨(Prod.mk.inj h).2, (Prod.mk.inj h).1.symm⟩

theorem ofExcept_error {x : Except ε α} {s s' : σ} {e : ε} (h : ofExcept x s = (s', .error e)) :
    x = .error e ∧ s' = s := ⟨(Prod.mk.inj h).2, (Prod.mk.inj h).1.symm⟩

theorem reads_ok {f : σ → Except ε α} {s s' : σ} {a : α} (h : reads f s = (s', .ok a)) : f s = .ok a ∧ s' = s :=
  ⟨(Prod.mk.inj h).2, (Prod.mk.inj h).1.symm⟩

theorem reads_error {f : σ → Except ε α} {s s' : σ} {e : ε} (h : reads f s = (s', .error e)) :
    f s = .error e ∧ s' = s := ⟨(Prod.mk.inj h).2, (Prod.mk.inj h).1.symm⟩

theorem bind_assoc {γ : Type} (x : Attempt σ ε α) (f : α → Attempt σ ε β) (g : β → Attempt σ ε γ) :
    x >>= f >>= g = x >>= fun a => f a >>= g := by
  funext s
  change bind (bind x f) g s = bind x (fun a => bind (f a) g) s
  simp only [bind]
  rcases x s with ⟨s₁, e | a⟩ <;> rfl

theorem ofExcept_ok_bind (a : α) (f : α → Attempt σ ε β) : (ofExcept (.ok a) : Attempt σ ε α) >>= f = f a := rfl

/-- steps that do not look at the state, taken together or one by one -/
theorem ofExcept_bind {γ : Type} (x : Except ε α) (f : α → Except ε β) (g : β → Attempt σ ε γ) :
    (ofExcept (x >>= f) : Attempt σ ε β) >>= g =
      (ofExcept x : Attempt σ ε α) >>= fun a => (ofExcept (f a) : Attempt σ ε β) >>= g := by
  cases x <;> rfl

/-- a loop whose steps do not fail is a map -/
theorem eachMut_eq {f : α → Except ε α} {g : α → α} {l : List α} (h : ∀ x ∈ l, f x = .ok (g x)) :
    eachMut f l = (l.map g, .ok ()) := by
  induction l with
  | nil => rfl
  | cons x l ih =>
    obtain ⟨hx, hl⟩ := List.forall_mem_cons.1 h
    rw [eachMut, hx, ih hl]
    rfl

theorem bind_keeps {τ : Type} {g : σ → τ} {x : Attempt σ ε α} {f : α → Attempt σ ε β} (hx : ∀ s, g (x s).1 = g s)
    (hf : ∀ a s, g (f a s).1 = g s) (s : σ) : g ((x >>= f) s).1 = g s := by
  have hxs := hx s
  change g (bind x f s).1 = g s
  unfold bind
  split
  · rename_i s₁ a heq
    rw [heq] at hxs
    exact (hf a s₁).trans hxs
  · rename_i s₁ e heq
    rw [heq] at hxs
    exact hxs

/-- what no step of a loop changes, the loop does not change -/
theorem each_keeps {τ : Type} {g : σ → τ} {f : α → Attempt σ ε Unit} (hf : ∀ x s, g (f x s).1 = g s) (l : List α)
    (s : σ) : g (each f l s).1 = g s := by
  induction l generalizing s with
  | nil => rfl
  | cons x l ih => exact bind_keeps (hf x) (fun _ => ih) s

end Attempt
