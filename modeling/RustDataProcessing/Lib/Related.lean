/-
Two calls with related outcomes: both return, and what they return is related, or both fail, and their errors are.

The relation composes along binds and loops, so two programs of one shape are compared call by call.
-/
import Mathlib.Tactic

namespace Traverse

variable {ε ε' α α' β β' : Type}

/-- related results or related errors -/
inductive Related (R : α → α' → Prop) (S : ε → ε' → Prop) : Except ε α → Except ε' α' → Prop where
  | ok {a : α} {a' : α'} (h : R a a') : Related R S (.ok a) (.ok a')
  | error {e : ε} {e' : ε'} (h : S e e') : Related R S (.error e) (.error e')

namespace Related

variable {R : α → α' → Prop} {Q : β → β' → Prop} {S : ε → ε' → Prop}

theorem bind {x : Except ε α} {y : Except ε' α'} {f : α → Except ε β} {g : α' → Except ε' β'} (h : Related R S x y)
    (hfg : ∀ a a', R a a' → Related Q S (f a) (g a')) : Related Q S (x >>= f) (y >>= g) := by
  cases h with
  | ok h => exact hfg _ _ h
  | error h => exact .error h

/-- two loops of one length, body by body -/
theorem mapM {f : α → Except ε β} {g : α' → Except ε' β'} {l : List α} {l' : List α'}
    (h : List.Forall₂ (fun a a' => Related Q S (f a) (g a')) l l') :
    Related (List.Forall₂ Q) S (l.mapM f) (l'.mapM g) := by
  induction h with
  | nil => exact .ok .nil
  | cons hbody _ ih =>
    rw [List.mapM_cons, List.mapM_cons]
    apply hbody.bind
    intro b b' hb
    apply ih.bind
    intro bs bs' hbs
    exact .ok (.cons hb hbs)

theorem mapError {ε₂ ε₂' : Type} {T : ε₂ → ε₂' → Prop} {x : Except ε α} {y : Except ε' α'} {f : ε → ε₂} {g : ε' → ε₂'}
    (h : Related R S x y) (hfg : ∀ e e', S e e' → T (f e) (g e')) : Related R T (x.mapError f) (y.mapError g) := by
  cases h with
  | ok h => exact .ok h
  | error h => exact .error (hfg _ _ h)

/-- a call and itself -/
theorem refl {S : ε → ε → Prop} (hS : ∀ e, S e e) (x : Except ε α) : Related Eq S x x := by
  cases x with
  | ok a => exact .ok rfl
  | error e => exact .error (hS e)

theorem mono {R' : α → α' → Prop} {S' : ε → ε' → Prop} {x : Except ε α} {y : Except ε' α'} (h : Related R S x y)
    (hR : ∀ a a', R a a' → R' a a') (hS : ∀ e e', S e e' → S' e e') : Related R' S' x y := by
  cases h with
  | ok h => exact .ok (hR _ _ h)
  | error h => exact .error (hS _ _ h)

end Related

/-- elements in the same places -/
theorem forall₂_zipIdx {R : α → α' → Prop} {l : List α} {l' : List α'} (h : List.Forall₂ R l l') (n : ℕ) :
    List.Forall₂ (fun p p' => R p.1 p'.1 ∧ p.2 = p'.2) (l.zipIdx n) (l'.zipIdx n) := by
  induction h generalizing n with
  | nil => exact .nil
  | cons hR _ ih => exact .cons ⟨hR, rfl⟩ (ih (n + 1))

theorem forall₂_zip {R : α → α' → Prop} (keys : List β) {l : List α} {l' : List α'} (h : List.Forall₂ R l l') :
    List.Forall₂ (fun p p' => p.1 = p'.1 ∧ R p.2 p'.2) (keys.zip l) (keys.zip l') := by
  induction keys generalizing l l' with
  | nil => exact .nil
  | cons k keys ih =>
    cases h with
    | nil => exact .nil
    | cons hR h => exact .cons ⟨rfl, hR⟩ (ih h)

/-- a grid read by columns or by rows -/
theorem forall₂_swap {R : α → α' → β → β' → Prop} {l : List α} {l' : List α'} {m : List β} {m' : List β'}
    (hlength : m.length = m'.length) (h : List.Forall₂ (fun a a' => List.Forall₂ (R a a') m m') l l') :
    List.Forall₂ (fun b b' => List.Forall₂ (fun a a' => R a a' b b') l l') m m' := by
  rw [List.forall₂_iff_zip] at h
  refine List.forall₂_iff_zip.2 ⟨hlength, fun {b b'} hb => List.forall₂_iff_zip.2 ⟨h.1, fun {a a'} ha => ?_⟩⟩
  exact (List.forall₂_iff_zip.1 (h.2 ha)).2 hb

end Traverse
