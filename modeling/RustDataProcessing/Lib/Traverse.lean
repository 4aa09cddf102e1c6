/-
Calls that may fail, and loops of them that stop at the first error.

`Returns x P a` says all there is to know of a call `x` whose error does not matter: it returns `a` when `P` holds and
fails otherwise. Such facts compose along binds (`Returns.bind`) and loops (`Returns.mapM`, `Returns.forM`), so what a
whole function returns is assembled from what its calls return.

Two calls agree (`Agree`) when they return the same value or both fail; of two calls whose results are known in this
form it is decided by their conditions and values (`agree_iff`).
-/
import Mathlib.Tactic

namespace Traverse

variable {ε α β : Type}

/-! ## What a call returns -/

/-- the call returns `a` when `P` holds, and fails otherwise -/
def Returns (x : Except ε α) (P : Prop) (a : α) : Prop := (P ∧ x = .ok a) ∨ (¬ P ∧ ∃ e, x = .error e)

namespace Returns

theorem ok (a : α) : Returns (.ok a : Except ε α) True a := Or.inl ⟨trivial, rfl⟩

theorem congr {x : Except ε α} {P Q : Prop} {a b : α} (h : Returns x P a) (hPQ : P ↔ Q) (hab : a = b) :
    Returns x Q b := by
  subst hab
  rwa [propext hPQ] at h

theorem of_ok {x : Except ε α} {P : Prop} {a b : α} (h : Returns x P a) (hb : x = .ok b) : P ∧ b = a := by
  rcases h with ⟨hP, rfl⟩ | ⟨-, e, rfl⟩
  · exact ⟨hP, (Except.ok.inj hb).symm⟩
  · cases hb

theorem eq_ok {x : Except ε α} {P : Prop} {a : α} (h : Returns x P a) (hP : P) : x = .ok a := by
  rcases h with ⟨-, hx⟩ | ⟨hnot, -⟩
  · exact hx
  · exact absurd hP hnot

/-- what a call returns, read off its result -/
theorem of_toOption (x : Except ε α) (a : α) : Returns x (x.toOption.isSome = true) (x.toOption.getD a) := by
  cases x with
  | error e => exact Or.inr ⟨by simp [Except.toOption], e, rfl⟩
  | ok b => exact Or.inl ⟨rfl, rfl⟩

/-- calls that return the same under the same condition have the same result, errors apart -/
theorem toOption_eq {ε' : Type} {x : Except ε α} {y : Except ε' α} {P : Prop} {a : α} (hx : Returns x P a)
    (hy : Returns y P a) : x.toOption = y.toOption := by
  rcases hx with ⟨hP, rfl⟩ | ⟨hP, e, rfl⟩
  · rcases hy with ⟨-, rfl⟩ | ⟨hP', -⟩
    · rfl
    · exact absurd hP hP'
  · rcases hy with ⟨hP', -⟩ | ⟨-, e', rfl⟩
    · exact absurd hP' hP
    · rfl

/-- a bind returns when its parts do; the second part is only asked for when the first returns -/
theorem bind {x : Except ε α} {f : α → Except ε β} {P Q : Prop} {a : α} {b : β} (hx : Returns x P a)
    (hf : P → Returns (f a) Q b) : Returns (x >>= f) (P ∧ Q) b := by
  rcases hx with ⟨hP, rfl⟩ | ⟨hP, e, rfl⟩
  · rcases hf hP with ⟨hQ, hb⟩ | ⟨hQ, e, he⟩
    · exact Or.inl ⟨⟨hP, hQ⟩, hb⟩
    · exact Or.inr ⟨fun h => hQ h.2, e, he⟩
  · exact Or.inr ⟨fun h => hP h.1, e, rfl⟩

theorem mapError {ε' : Type} {x : Except ε α} {P : Prop} {a : α} (h : Returns x P a) (f : ε → ε') :
    Returns (x.mapError f) P a := by
  rcases h with ⟨hP, rfl⟩ | ⟨hP, e, rfl⟩
  · exact Or.inl ⟨hP, rfl⟩
  · exact Or.inr ⟨hP, f e, rfl⟩

/-- a loop returns when every body does -/
theorem mapM {f : α → Except ε β} {P : α → Prop} {g : α → β} {l : List α} (h : ∀ x ∈ l, Returns (f x) (P x) (g x)) :
    Returns (l.mapM f) (∀ x ∈ l, P x) (l.map g) := by
  induction l with
  | nil => exact Or.inl ⟨by simp, rfl⟩
  | cons x l ih =>
    obtain ⟨hx, hl⟩ := List.forall_mem_cons.1 h
    rw [List.mapM_cons]
    refine (bind hx fun _ => bind (ih hl) fun _ => ok (g x :: l.map g)).congr ?_ rfl
    rw [List.forall_mem_cons, and_true]

theorem forM {f : α → Except ε Unit} {P : α → Prop} {l : List α} (h : ∀ x ∈ l, Returns (f x) (P x) ()) :
    Returns (l.forM f) (∀ x ∈ l, P x) () := by
  induction l with
  | nil => exact Or.inl ⟨by simp, rfl⟩
  | cons x l ih =>
    obtain ⟨hx, hl⟩ := List.forall_mem_cons.1 h
    change Returns (f x >>= fun _ => l.forM f) _ _
    exact (bind hx fun _ => ih hl).congr List.forall_mem_cons.symm rfl

end Returns

theorem ok_of_toOption {x : Except ε α} {a : α} (h : x.toOption = some a) : x = .ok a := by
  cases x with
  | error e => cases h
  | ok b => exact congrArg Except.ok (Option.some.inj h)

/-- a bind that returns has a first part that returns -/
theorem bind_eq_ok {x : Except ε α} {f : α → Except ε β} {b : β} (h : x >>= f = .ok b) :
    ∃ a, x = .ok a ∧ f a = .ok b := by
  cases x with
  | error e => cases h
  | ok a => exact ⟨a, rfl, h⟩

/-- a bind that fails has a part that fails -/
theorem bind_eq_error {x : Except ε α} {f : α → Except ε β} {e : ε} (h : x >>= f = .error e) :
    x = .error e ∨ ∃ a, x = .ok a ∧ f a = .error e := by
  cases x with
  | error e' => exact Or.inl (congrArg Except.error (Except.error.inj h))
  | ok a => exact Or.inr ⟨a, rfl, h⟩

theorem map_eq_ok {x : Except ε α} {f : α → β} {b : β} (h : x.map f = .ok b) : ∃ a, x = .ok a ∧ f a = b := by
  cases x with
  | error e => cases h
  | ok a => exact ⟨a, rfl, Except.ok.inj h⟩

theorem exists_error {x : Except ε α} (h : x.toOption.isNone = true) : ∃ e, x = .error e := by
  cases x with
  | error e => exact ⟨e, rfl⟩
  | ok a => cases h

theorem exists_ok {x : Except ε α} (h : x.toOption.isSome = true) : ∃ a, x = .ok a := by
  cases x with
  | error e => cases h
  | ok a => exact ⟨a, rfl⟩

theorem map_bind {γ : Type} (x : Except ε α) (f : α → Except ε β) (g : β → γ) :
    (x >>= f).map g = x >>= fun a => (f a).map g := by
  cases x <;> rfl

/-- a loop fails with the error of one of its bodies -/
theorem mapM_eq_error {f : α → Except ε β} {l : List α} {e : ε} (h : l.mapM f = .error e) : ∃ x ∈ l, f x = .error e := by
  induction l with
  | nil => cases h
  | cons x l ih =>
    rw [List.mapM_cons] at h
    rcases bind_eq_error h with hx | ⟨y, -, h⟩
    · exact ⟨x, List.mem_cons_self, hx⟩
    · rcases bind_eq_error h with hl | ⟨ys, -, h⟩
      · obtain ⟨z, hz, hze⟩ := ih hl
        exact ⟨z, List.mem_cons_of_mem x hz, hze⟩
      · cases h

theorem ok_of_mapError {ε' : Type} {x : Except ε α} {f : ε → ε'} {a : α} (h : x.mapError f = .ok a) : x = .ok a := by
  cases x with
  | error e => cases h
  | ok b => exact congrArg Except.ok (Except.ok.inj h)

/-- a loop returns what its bodies return -/
theorem mapM_eq_ok_iff {f : α → Except ε β} {l : List α} {out : List β} :
    l.mapM f = .ok out ↔ List.Forall₂ (fun x y => f x = .ok y) l out := by
  induction l generalizing out with
  | nil =>
    rw [List.forall₂_nil_left_iff]
    exact ⟨fun h => (Except.ok.inj h).symm, fun h => h ▸ rfl⟩
  | cons x l ih =>
    rw [List.mapM_cons, List.forall₂_cons_left_iff]
    constructor
    · intro h
      cases hx : f x with
      | error e => rw [hx] at h; cases h
      | ok y =>
        rw [hx] at h
        cases hl : l.mapM f with
        | error e => rw [hl] at h; cases h
        | ok ys =>
          rw [hl] at h
          exact ⟨y, ys, rfl, ih.1 hl, (Except.ok.inj h).symm⟩
    · rintro ⟨y, ys, hx, hl, rfl⟩
      rw [hx, ih.2 hl]
      rfl

theorem mapM_ok {f : α → Except ε β} {l : List α} {out : List β} (h : List.Forall₂ (fun x y => f x = .ok y) l out) :
    l.mapM f = .ok out := mapM_eq_ok_iff.2 h

theorem mapM_congr {f g : α → Except ε β} {l : List α} (h : ∀ x ∈ l, f x = g x) : l.mapM f = l.mapM g := by
  induction l with
  | nil => rfl
  | cons x l ih =>
    obtain ⟨hx, hl⟩ := List.forall_mem_cons.1 h
    rw [List.mapM_cons, List.mapM_cons, hx, ih hl]

theorem mapM_eq_of_forall₂ {f : α → Except ε β} {l l' : List α} (h : List.Forall₂ (fun x y => f y = f x) l l') :
    l'.mapM f = l.mapM f := by
  induction h with
  | nil => rfl
  | cons hx _ ih => rw [List.mapM_cons, List.mapM_cons, hx, ih]

theorem exists_of_mem {R : α → β → Prop} {l : List α} {out : List β} (h : List.Forall₂ R l out) {x : α} (hx : x ∈ l) :
    ∃ y ∈ out, R x y := by
  induction h with
  | nil => cases hx
  | cons hxy _ ih =>
    rcases List.mem_cons.1 hx with rfl | hx
    · exact ⟨_, List.mem_cons_self, hxy⟩
    · obtain ⟨y, hy, hR⟩ := ih hx
      exact ⟨y, List.mem_cons_of_mem _ hy, hR⟩

theorem exists_of_getElem? {R : α → β → Prop} {l : List α} {out : List β} (h : List.Forall₂ R l out) {i : ℕ} {x : α}
    (hx : l[i]? = some x) : ∃ y, out[i]? = some y ∧ R x y := by
  obtain ⟨hl, rfl⟩ := List.getElem?_eq_some_iff.1 hx
  have hout : i < out.length := by rw [← h.length_eq]; exact hl
  exact ⟨out[i], List.getElem?_eq_getElem hout, List.Forall₂.get h hl hout⟩

theorem exists_forall₂_iff {R : α → β → Prop} {l : List α} : (∃ out, List.Forall₂ R l out) ↔ ∀ x ∈ l, ∃ y, R x y := by
  constructor
  · rintro ⟨out, h⟩ x hx
    obtain ⟨y, -, hy⟩ := exists_of_mem h hx
    exact ⟨y, hy⟩
  · intro h
    induction l with
    | nil => exact ⟨[], .nil⟩
    | cons x l ih =>
      obtain ⟨⟨y, hy⟩, hl⟩ := List.forall_mem_cons.1 h
      obtain ⟨ys, hys⟩ := ih hl
      exact ⟨y :: ys, .cons hy hys⟩

/-- a loop returns when each of its bodies does -/
theorem exists_mapM_ok_iff {f : α → Except ε β} {l : List α} :
    (∃ out, l.mapM f = .ok out) ↔ ∀ x ∈ l, ∃ y, f x = .ok y := by
  simp only [mapM_eq_ok_iff, exists_forall₂_iff]

/-- a loop returns what is wanted of each of its bodies -/
theorem exists_mapM_and_iff {f : α → Except ε β} {R : α → β → Prop} {l : List α} :
    (∃ out, l.mapM f = .ok out ∧ List.Forall₂ R l out) ↔ ∀ x ∈ l, ∃ y, f x = .ok y ∧ R x y := by
  rw [← exists_forall₂_iff]
  refine exists_congr fun out => ?_
  rw [mapM_eq_ok_iff, List.forall₂_iff_zip, List.forall₂_iff_zip, List.forall₂_iff_zip]
  constructor
  · rintro ⟨⟨hlength, hf⟩, -, hR⟩
    exact ⟨hlength, fun h => ⟨hf h, hR h⟩⟩
  · rintro ⟨hlength, h⟩
    exact ⟨⟨hlength, fun hxy => (h hxy).1⟩, hlength, fun hxy => (h hxy).2⟩

/-- what holds between the elements of a loop and what its bodies returned, when the bodies say so one by one -/
theorem forall₂_iff_of_mapM {f : α → Except ε β} {R : β → α → Prop} {Q : α → Prop} {l : List α} {out : List β}
    (h : l.mapM f = .ok out) (hR : ∀ x y, f x = .ok y → (R y x ↔ Q x)) : List.Forall₂ R out l ↔ ∀ x ∈ l, Q x := by
  have hcells := mapM_eq_ok_iff.1 h
  clear h
  induction hcells with
  | nil => simp
  | cons hxy _ ih =>
    rw [List.forall₂_cons, List.forall_mem_cons]
    exact and_congr (hR _ _ hxy) ih

/-- the same of what holds of each value returned -/
theorem forall_mem_iff_of_mapM {f : α → Except ε β} {R : β → Prop} {Q : α → Prop} {l : List α} {out : List β}
    (h : l.mapM f = .ok out) (hR : ∀ x y, f x = .ok y → (R y ↔ Q x)) : (∀ y ∈ out, R y) ↔ ∀ x ∈ l, Q x := by
  have hcells := mapM_eq_ok_iff.1 h
  clear h
  induction hcells with
  | nil => simp
  | cons hxy _ ih =>
    rw [List.forall_mem_cons, List.forall_mem_cons]
    exact and_congr (hR _ _ hxy) ih

/-! ## Agreement of two calls -/

def Agree (x y : Except ε α) : Prop := (∃ a, x = .ok a ∧ y = .ok a) ∨ ((∃ e, x = .error e) ∧ ∃ e, y = .error e)

/-- calls agree when their results are the same, errors apart -/
theorem agree_iff_toOption {x y : Except ε α} : Agree x y ↔ x.toOption = y.toOption := by
  cases x with
  | error e => cases y <;> simp [Agree, Except.toOption]
  | ok a => cases y <;> simp [Agree, Except.toOption, eq_comm]

theorem agree_iff {x y : Except ε α} {P Q : Prop} {a b : α} (hx : Returns x P a) (hy : Returns y Q b) :
    Agree x y ↔ (¬ P ∧ ¬ Q) ∨ (P ∧ Q ∧ a = b) := by
  rcases hx with ⟨hP, rfl⟩ | ⟨hP, e, rfl⟩ <;> rcases hy with ⟨hQ, rfl⟩ | ⟨hQ, e', rfl⟩ <;>
    simp [Agree, hP, hQ, eq_comm]

/-! ## Calls that may return nothing -/

theorem mapM_eq_some_iff {f : α → Option β} {l : List α} {out : List β} :
    l.mapM f = some out ↔ List.Forall₂ (fun x y => f x = some y) l out := by
  induction l generalizing out with
  | nil => simp [List.forall₂_nil_left_iff, eq_comm]
  | cons x l ih =>
    rw [List.mapM_cons, List.forall₂_cons_left_iff]
    constructor
    · intro h
      obtain ⟨y, hy, h⟩ := Option.bind_eq_some_iff.1 h
      obtain ⟨ys, hys, h⟩ := Option.bind_eq_some_iff.1 h
      exact ⟨y, ys, hy, ih.1 hys, (Option.some.inj h).symm⟩
    · rintro ⟨y, ys, hy, hys, rfl⟩
      rw [hy, ih.2 hys]
      rfl

/-- a loop returns nothing when one of its bodies does not -/
theorem mapM_eq_none_iff {f : α → Option β} {l : List α} : l.mapM f = none ↔ ∃ x ∈ l, f x = none := by
  induction l with
  | nil => simp
  | cons x l ih =>
    rw [List.mapM_cons, List.exists_mem_cons_iff]
    cases hx : f x with
    | none => simp
    | some y =>
      rw [← ih]
      cases hl : l.mapM f <;> simp

end Traverse
