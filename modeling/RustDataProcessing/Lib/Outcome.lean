/-
What a call returns, its errors apart: `toOption` goes through binds and loops, so a program of calls that may fail is
compared with one of calls that return nothing.

- `foldlM_follows`: a loop follows a plan, if each of its bodies does.
- `mapM_flatten`: a loop over the elements of lists is a loop over each of the lists.
-/
import Mathlib.Tactic
import RustDataProcessing.Lib.Attempt
import RustDataProcessing.Lib.Traverse

namespace Traverse

variable {ε α β : Type}

theorem toOption_bind (x : Except ε α) (f : α → Except ε β) :
    (x >>= f).toOption = x.toOption.bind fun a => (f a).toOption := by
  cases x <;> rfl

theorem toOption_map (x : Except ε α) (f : α → β) : (x.map f).toOption = x.toOption.map f := by cases x <;> rfl

theorem toOption_mapError {ε' : Type} (x : Except ε α) (f : ε → ε') : (x.mapError f).toOption = x.toOption := by
  cases x <;> rfl

theorem toOption_mapM (f : α → Except ε β) (l : List α) : (l.mapM f).toOption = l.mapM fun a => (f a).toOption := by
  induction l with
  | nil => rfl
  | cons a l ih =>
    rw [List.mapM_cons, List.mapM_cons, toOption_bind]
    refine Option.bind_congr fun b _ => ?_
    rw [toOption_bind, ih]
    rfl

theorem Returns.toOption {x : Except ε α} {P : Prop} [Decidable P] {a : α} (h : Returns x P a) :
    x.toOption = if P then some a else none := by
  rcases h with ⟨hP, rfl⟩ | ⟨hP, e, rfl⟩
  · rw [if_pos hP]
    rfl
  · rw [if_neg hP]
    rfl

/-! ## Loops -/

/-- a loop in place that returns has made a new list -/
theorem toOption_eachMut (f : α → Except ε α) (l : List α) :
    ((Attempt.eachMut f l).2.map fun _ => (Attempt.eachMut f l).1).toOption = l.mapM fun a => (f a).toOption := by
  induction l with
  | nil => rfl
  | cons a l ih =>
    rw [List.mapM_cons, ← ih, Attempt.eachMut]
    cases f a with
    | error e => rfl
    | ok b => cases (Attempt.eachMut f l).2 <;> simp [Except.map, Except.toOption]

theorem mapM_map_some {γ : Type} (f : α → Option β) (g : β → γ) (l : List α) :
    (l.mapM fun a => (f a).map g) = (l.mapM f).map (List.map g) := by
  induction l with
  | nil => rfl
  | cons a l ih =>
    rw [List.mapM_cons, List.mapM_cons, ih]
    cases f a with
    | none => rfl
    | some b => cases l.mapM f <;> rfl

/-- a loop whose bodies only check their element -/
theorem mapM_guard (p : α → Bool) (f : α → β) (l : List α) :
    (l.mapM fun a => if p a then some (f a) else none) = if l.all p then some (l.map f) else none := by
  induction l with
  | nil => rfl
  | cons a l ih =>
    rw [List.mapM_cons, ih, List.all_cons, List.map_cons]
    cases p a <;> cases l.all p <;> rfl

theorem loop_congr {m : Type → Type} [Monad m] [LawfulMonad m] {f g : α → m β} {l : List α} (h : ∀ a ∈ l, f a = g a) :
    l.mapM f = l.mapM g := by
  induction l with
  | nil => rfl
  | cons a l ih =>
    obtain ⟨ha, hl⟩ := List.forall_mem_cons.1 h
    rw [List.mapM_cons, List.mapM_cons, ha, ih hl]

/-- two loops, one after the other, or in one -/
theorem mapM_bind_mapM {γ : Type} (f : α → Option β) (g : β → Option γ) (l : List α) :
    ((l.mapM f).bind fun out => out.mapM g) = l.mapM fun a => (f a).bind g := by
  induction l with
  | nil => rfl
  | cons a l ih =>
    rw [List.mapM_cons, List.mapM_cons, ← ih]
    cases f a with
    | none => rfl
    | some b =>
      cases l.mapM f with
      | none => cases hg : g b <;> simp [hg]
      | some out => exact List.mapM_cons

theorem all_and (p q : α → Bool) (l : List α) : (l.all fun a => p a && q a) = (l.all p && l.all q) := by
  induction l with
  | nil => rfl
  | cons a l ih =>
    rw [List.all_cons, List.all_cons, List.all_cons, ih]
    ac_rfl

theorem mapM_flatten (f : α → Option β) (ls : List (List α)) :
    ls.flatten.mapM f = (ls.mapM fun (l : List α) => l.mapM f).map List.flatten := by
  induction ls with
  | nil => rfl
  | cons l ls ih =>
    rw [List.flatten_cons, List.mapM_append, ih, List.mapM_cons]
    cases l.mapM f with
    | none => rfl
    | some out => cases ls.mapM fun (l : List α) => l.mapM f <;> rfl

section Follows

variable {σ π ι ρ : Type} {step : σ → ι → Except ε σ} {plan : π → ι → Option π} {out : σ → Option ρ}
  {made : π → Option ρ}

/-- a plan is good before a loop and after each of its bodies -/
def Along (plan : π → ι → Option π) (good : π → Prop) : π → List ι → Prop
  | p, [] => good p
  | p, i :: l => good p ∧ ∀ p', plan p i = some p' → Along plan good p' l

instance Along.decidable (plan : π → ι → Option π) (good : π → Prop) [DecidablePred good] :
    (p : π) → (l : List ι) → Decidable (Along plan good p l)
  | p, [] => inferInstanceAs (Decidable (good p))
  | p, i :: l => match h : plan p i with
    | none => decidable_of_iff (good p)
        ⟨fun hp => ⟨hp, fun _ hp' => nomatch hp'.symm.trans h⟩, fun hp => hp.1⟩
    | some p' =>
      have := Along.decidable plan good p' l
      decidable_of_iff (good p ∧ Along plan good p' l)
        ⟨fun hp => ⟨hp.1, fun _ hq => Option.some.inj (h.symm.trans hq) ▸ hp.2⟩, fun hp => ⟨hp.1, hp.2 p' h⟩⟩

theorem Along.head {good : π → Prop} {p : π} {l : List ι} (h : Along plan good p l) : good p := by
  cases l with
  | nil => exact h
  | cons i l => exact h.1

theorem planned_nothing (hmade : ∀ p i, made p = none → (plan p i).bind made = none) (l : List ι) {p : π}
    (hp : made p = none) : (l.foldlM plan p).bind made = none := by
  induction l generalizing p with
  | nil => exact hp
  | cons i l ih =>
    rw [List.foldlM_cons]
    have hbody := hmade p i hp
    cases hplan : plan p i with
    | none => rfl
    | some p' =>
      rw [hplan] at hbody
      exact ih hbody

/-- where nothing comes out, nothing comes out later -/
theorem foldlM_nothing (hnone : ∀ s i, out s = none → (step s i).toOption.bind out = none) (l : List ι) {s : σ}
    (hs : out s = none) : (l.foldlM step s).toOption.bind out = none := by
  induction l generalizing s with
  | nil => exact hs
  | cons i l ih =>
    rw [List.foldlM_cons, toOption_bind]
    have hbody := hnone s i hs
    cases hi : step s i with
    | error e => rfl
    | ok s' =>
      rw [hi] at hbody
      exact ih hbody

/-- **A loop follows its plan**: what comes out of it is what is made of the plan -/
theorem foldlM_follows {inv good : π → Prop} (hinv : ∀ p i p', inv p → plan p i = some p' → inv p')
    (hstep : ∀ s p i, inv p → good p → (∀ p', plan p i = some p' → good p') → out s = made p →
      (step s i).toOption.bind out = (plan p i).bind made)
    (hnone : ∀ s i, out s = none → (step s i).toOption.bind out = none)
    (hmade : ∀ p i, made p = none → (plan p i).bind made = none) {s : σ} {p : π} (l : List ι) (hp : inv p)
    (hgood : Along plan good p l) (h : out s = made p) :
    (l.foldlM step s).toOption.bind out = (l.foldlM plan p).bind made := by
  induction l generalizing s p with
  | nil => exact h
  | cons i l ih =>
    have hbody := hstep s p i hp hgood.1 (fun p' hp' => (hgood.2 p' hp').head) h
    rw [List.foldlM_cons, List.foldlM_cons, toOption_bind]
    change (((step s i).toOption.bind fun s' => (l.foldlM step s').toOption).bind out) =
      ((plan p i).bind fun p' => l.foldlM plan p').bind made
    cases hplan : plan p i with
    | none =>
      rw [hplan] at hbody
      cases hi : step s i with
      | error e => rfl
      | ok s' =>
        rw [hi] at hbody
        exact foldlM_nothing hnone l hbody
    | some p' =>
      rw [hplan] at hbody
      cases hi : step s i with
      | error e =>
        rw [hi] at hbody
        exact (planned_nothing hmade l hbody.symm).symm
      | ok s' =>
        rw [hi] at hbody
        exact ih (hinv p i p' hp hplan) (hgood.2 p' hplan) hbody

end Follows

end Traverse
