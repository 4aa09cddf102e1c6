/-
Substitution of needles in a list: one after the other, and all at once.

`replace` is one pass from left to right. `substitute` cuts the list into holes, where a needle stands, and text, and
fills all the holes (`parse`, `fill`). The needles are `Apart`: no two of their occurrences overlap. Then an occurrence
is a barrier (`parse_needle`, `occurrences_needle`): what stands to its left is read without what stands to its right,
and so a needle that is there from the start is still there when its turn comes.

`sequential_iff`: replacing the needles one after the other is, at every moment and for every order, filling the holes
of those visited so far, exactly when no needle occurs anew once all the others have been filled.
-/
import Mathlib.Tactic

namespace Substitution

variable {α β : Type}

/-! ## One pass -/

section Pass

variable [DecidableEq α]

/-- after a match, `skip` elements of it are still to be dropped -/
def replaceFrom (n v : List α) : ℕ → List α → List α
  | _, [] => []
  | skip + 1, _ :: l => replaceFrom n v skip l
  | 0, a :: l => if n.isPrefixOf (a :: l) then v ++ replaceFrom n v (n.length - 1) l else a :: replaceFrom n v 0 l

/-- every match of `n`, from left to right, replaced by `v` -/
def replace (n v l : List α) : List α := replaceFrom n v 0 l

/-- the number of places where `n` stands -/
def occurrences (n : List α) : List α → ℕ
  | [] => 0
  | a :: l => (if n <+: a :: l then 1 else 0) + occurrences n l

theorem occurrences_append_le (n x y : List α) : occurrences n x + occurrences n y ≤ occurrences n (x ++ y) := by
  induction x with
  | nil => exact (Nat.zero_add _).le
  | cons a x ih =>
    have hhead : (if n <+: a :: x then 1 else 0) ≤ (if n <+: a :: (x ++ y) then 1 else 0) := by
      split_ifs with h h'
      · exact le_rfl
      · exact absurd (h.trans (List.prefix_append (a :: x) y)) h'
      · exact Nat.zero_le _
      · exact le_rfl
    simp only [occurrences, List.cons_append]
    omega

end Pass

/-! ## Holes -/

inductive Piece (α β : Type) where
  | text (a : α)
  | hole (k : β)
deriving DecidableEq

def fill (f : β → List α) (ps : List (Piece α β)) : List α := ps.flatMap fun
  | .text a => [a]
  | .hole k => f k

@[simp] theorem fill_nil (f : β → List α) : fill f [] = [] := rfl

@[simp] theorem fill_text (f : β → List α) (a : α) (ps : List (Piece α β)) : fill f (.text a :: ps) = a :: fill f ps := rfl

@[simp] theorem fill_hole (f : β → List α) (k : β) (ps : List (Piece α β)) : fill f (.hole k :: ps) = f k ++ fill f ps := rfl

@[simp] theorem fill_append (f : β → List α) (ps qs : List (Piece α β)) : fill f (ps ++ qs) = fill f ps ++ fill f qs :=
  List.flatMap_append

@[simp] theorem fill_map_text (f : β → List α) (l : List α) : fill f (l.map .text) = l := by
  induction l with
  | nil => rfl
  | cons a l ih => rw [List.map_cons, fill_text, ih]

theorem fill_congr {f g : β → List α} {ps : List (Piece α β)} (h : ∀ k, .hole k ∈ ps → f k = g k) :
    fill f ps = fill g ps := by
  induction ps with
  | nil => rfl
  | cons p ps ih =>
    have hrest := ih fun k hk => h k (List.mem_cons_of_mem _ hk)
    cases p with
    | text a => rw [fill_text, fill_text, hrest]
    | hole k => rw [fill_hole, fill_hole, hrest, h k List.mem_cons_self]

/-! ## Needles that do not overlap -/

/-- no needle starts inside a needle, wherever it ends -/
structure Apart (needle : β → List α) : Prop where
  nonempty : ∀ k, needle k ≠ []
  start : ∀ j k, needle j <+: needle k → j = k
  inside : ∀ j k i, 0 < i → i < (needle j).length →
    ¬(needle j).drop i <+: needle k ∧ ¬needle k <+: (needle j).drop i

section Apart

variable {needle : β → List α} (h : Apart needle)
include h

/-- the needle that starts where a needle stands is that needle -/
theorem Apart.eq_of_start {j k : β} {y : List α} (hp : needle k <+: needle j ++ y) : k = j := by
  rcases List.prefix_or_prefix_of_prefix hp (List.prefix_append _ y) with hkj | hjk
  · exact h.start k j hkj
  · exact (h.start j k hjk).symm

theorem Apart.not_inside {j k : β} {i : ℕ} (hpos : 0 < i) (hlt : i < (needle j).length) (y : List α) :
    ¬needle k <+: (needle j).drop i ++ y := by
  intro hp
  obtain ⟨h1, h2⟩ := h.inside j k i hpos hlt
  rcases List.prefix_or_prefix_of_prefix hp (List.prefix_append _ y) with hkj | hjk
  · exact h2 hkj
  · exact h1 hjk

/-- a needle is a barrier: one that starts before it ends before it -/
theorem Apart.before_iff {j k : β} {x : List α} (hx : x ≠ []) (y : List α) :
    needle k <+: x ++ (needle j ++ y) ↔ needle k <+: x := by
  constructor
  · intro hp
    by_cases hlen : (needle k).length ≤ x.length
    · exact List.prefix_of_prefix_length_le hp (List.prefix_append _ _) hlen
    · obtain ⟨r, hr⟩ := List.prefix_of_prefix_length_le (List.prefix_append x (needle j ++ y)) hp (by omega)
      have hdrop : (needle k).drop x.length = r := by rw [← hr, List.drop_left]
      rw [← hr, List.prefix_append_right_inj] at hp
      obtain ⟨h1, h2⟩ := h.inside k j x.length (List.length_pos_iff.2 hx) (by omega)
      rw [hdrop] at h1 h2
      rcases List.prefix_or_prefix_of_prefix hp (List.prefix_append _ y) with hrj | hjr
      · exact absurd hrj h1
      · exact absurd hjr h2
  · exact fun hp => hp.trans (List.prefix_append _ _)

end Apart

/-! ## Reading a list -/

section Parse

variable [DecidableEq α] (needle : β → List α)

def parseFrom (ks : List β) : ℕ → List α → List (Piece α β)
  | _, [] => []
  | skip + 1, _ :: l => parseFrom ks skip l
  | 0, a :: l => match ks.find? fun k => (needle k).isPrefixOf (a :: l) with
    | some k => .hole k :: parseFrom ks ((needle k).length - 1) l
    | none => .text a :: parseFrom ks 0 l

/-- the list cut at the needles of the keys -/
def parse (ks : List β) (l : List α) : List (Piece α β) := parseFrom needle ks 0 l

variable {needle}

theorem parseFrom_skip (ks : List β) (x y : List α) : parseFrom needle ks x.length (x ++ y) = parse needle ks y := by
  induction x with
  | nil => rfl
  | cons a x ih => exact ih

theorem parse_text {ks : List β} {a : α} {l : List α} (hnone : ∀ k ∈ ks, ¬needle k <+: a :: l) :
    parse needle ks (a :: l) = .text a :: parse needle ks l := by
  have hfind : (ks.find? fun k => (needle k).isPrefixOf (a :: l)) = none :=
    List.find?_eq_none.2 fun k hk hp => hnone k hk (List.isPrefixOf_iff_prefix.1 hp)
  rw [parse, parseFrom, hfind]
  rfl

variable (h : Apart needle)
include h

theorem parse_hole {ks : List β} {k : β} (hk : k ∈ ks) (y : List α) :
    parse needle ks (needle k ++ y) = .hole k :: parse needle ks y := by
  have hsome : (ks.find? fun j => (needle j).isPrefixOf (needle k ++ y)).isSome :=
    List.find?_isSome.2 ⟨k, hk, List.isPrefixOf_iff_prefix.2 (List.prefix_append _ _)⟩
  obtain ⟨j, hj⟩ := Option.isSome_iff_exists.1 hsome
  have hp := List.find?_some hj
  obtain rfl := h.eq_of_start (List.isPrefixOf_iff_prefix.1 hp)
  obtain ⟨a, t, ht⟩ := List.exists_cons_of_ne_nil (h.nonempty j)
  have hlen : (needle j).length - 1 = t.length := by rw [ht, List.length_cons, Nat.add_sub_cancel]
  have hlist : needle j ++ y = a :: (t ++ y) := by rw [ht, List.cons_append]
  rw [hlist] at hj ⊢
  rw [parse, parseFrom, hj]
  dsimp only
  rw [hlen, parseFrom_skip]

/-- a list is empty, or starts with the needle of a key, or with an element of no needle -/
theorem pieces_induction (ks : List β) {P : List α → Prop} (nil : P [])
    (hole : ∀ k ∈ ks, ∀ y, P y → P (needle k ++ y))
    (text : ∀ a l, (∀ k ∈ ks, ¬needle k <+: a :: l) → P l → P (a :: l)) (l : List α) : P l := by
  induction hn : l.length using Nat.strong_induction_on generalizing l with
  | _ n ih =>
    rcases l with - | ⟨a, l⟩
    · exact nil
    · by_cases hk : ∃ k ∈ ks, needle k <+: a :: l
      · obtain ⟨k, hk, y, hy⟩ := hk
        have hpos := List.length_pos_iff.2 (h.nonempty k)
        have hlen := congrArg List.length hy
        rw [List.length_append] at hlen
        rw [← hy]
        exact hole k hk y (ih y.length (by omega) y rfl)
      · refine text a l (fun k hmem hp => hk ⟨k, hmem, hp⟩) (ih l.length ?_ l rfl)
        rw [← hn, List.length_cons]
        exact Nat.lt_succ_self _

/-- inside a needle no other starts -/
theorem parse_suffix {ks : List β} {j : β} {i : ℕ} (hpos : 0 < i) (y : List α) :
    parse needle ks ((needle j).drop i ++ y) = ((needle j).drop i).map .text ++ parse needle ks y := by
  induction hn : (needle j).length - i generalizing i with
  | zero => rw [List.drop_eq_nil_of_le (by omega)]; rfl
  | succ n ih =>
    have hlt : i < (needle j).length := by omega
    have hdrop := List.drop_eq_getElem_cons hlt
    have hnone : ∀ k ∈ ks, ¬needle k <+: (needle j)[i] :: ((needle j).drop (i + 1) ++ y) := by
      intro k _ hp
      rw [← List.cons_append, ← hdrop] at hp
      exact h.not_inside hpos hlt y hp
    rw [hdrop, List.cons_append, parse_text hnone, ih (Nat.succ_pos i) (by omega)]
    rfl

variable [DecidableEq β]

/-- what a needle is read as -/
def needlePieces (needle : β → List α) (ks : List β) (j : β) : List (Piece α β) :=
  if j ∈ ks then [.hole j] else (needle j).map .text

theorem parse_needle_append (ks : List β) (j : β) (y : List α) :
    parse needle ks (needle j ++ y) = needlePieces needle ks j ++ parse needle ks y := by
  unfold needlePieces
  split_ifs with hj
  · exact parse_hole h hj y
  · obtain ⟨a, t, ht⟩ := List.exists_cons_of_ne_nil (h.nonempty j)
    have htail : t = (needle j).drop 1 := by rw [ht]; rfl
    have hnone : ∀ k ∈ ks, ¬needle k <+: a :: (t ++ y) := by
      intro k hk hp
      rw [← List.cons_append, ← ht] at hp
      exact hj (h.eq_of_start hp ▸ hk)
    have hlist : needle j ++ y = a :: (t ++ y) := by rw [ht, List.cons_append]
    rw [hlist, parse_text hnone, htail, parse_suffix h Nat.one_pos y, ← htail, ht]
    rfl

/-- **A needle is a barrier** -/
theorem parse_needle (ks : List β) (x : List α) (j : β) (y : List α) :
    parse needle ks (x ++ (needle j ++ y)) = parse needle ks x ++ (needlePieces needle ks j ++ parse needle ks y) := by
  induction x using pieces_induction h ks with
  | nil => exact parse_needle_append h ks j y
  | hole k hk x ih => rw [List.append_assoc, parse_hole h hk, parse_hole h hk, ih, List.cons_append]
  | text a x hnone ih =>
    have hnone' : ∀ k ∈ ks, ¬needle k <+: a :: (x ++ (needle j ++ y)) := fun k hk hp =>
      hnone k hk ((h.before_iff (List.cons_ne_nil a x) y).1 hp)
    rw [List.cons_append, parse_text hnone', parse_text hnone, ih, List.cons_append]

omit [DecidableEq β] in
/-- filling the holes with their needles gives the list back -/
theorem fill_parse (ks : List β) (l : List α) : fill needle (parse needle ks l) = l := by
  induction l using pieces_induction h ks with
  | nil => rfl
  | hole k hk y ih => rw [parse_hole h hk, fill_hole, ih]
  | text a l hnone ih => rw [parse_text hnone, fill_text, ih]

omit [DecidableEq β] in
theorem mem_of_hole {ks : List β} {l : List α} {k : β} (hk : .hole k ∈ parse needle ks l) : k ∈ ks := by
  induction l using pieces_induction h ks with
  | nil => cases hk
  | hole j hj y ih =>
    rw [parse_hole h hj] at hk
    rcases List.mem_cons.1 hk with heq | hk
    · exact Piece.hole.inj heq ▸ hj
    · exact ih hk
  | text a l hnone ih =>
    rw [parse_text hnone] at hk
    rcases List.mem_cons.1 hk with heq | hk
    · cases heq
    · exact ih hk

/-- holes that are filled with their needles need not be cut out -/
theorem fill_parse_subset {ks ks' : List β} (hsub : ks' ⊆ ks) {f : β → List α}
    (hf : ∀ k ∈ ks, k ∉ ks' → f k = needle k) (l : List α) :
    fill f (parse needle ks' l) = fill f (parse needle ks l) := by
  induction l using pieces_induction h ks with
  | nil => rfl
  | hole k hk y ih =>
    rw [parse_hole h hk, parse_needle_append h, fill_append, fill_hole, ih]
    congr 1
    unfold needlePieces
    split_ifs with hk'
    · exact List.append_nil _
    · rw [fill_map_text, hf k hk hk']
  | text a l hnone ih =>
    rw [parse_text hnone, parse_text fun k hk => hnone k (hsub hk), fill_text, fill_text, ih]

omit h [DecidableEq β] in
/-- one pass fills the holes of one key -/
theorem replace_eq (k : β) (v l : List α) : replace (needle k) v l = fill (fun _ => v) (parse needle [k] l) := by
  have hfrom : ∀ skip, replaceFrom (needle k) v skip l = fill (fun _ => v) (parseFrom needle [k] skip l) := by
    induction l with
    | nil => intro skip; cases skip <;> rfl
    | cons a l ih =>
      intro skip
      cases skip with
      | succ skip => exact ih skip
      | zero =>
        rw [replaceFrom, parseFrom, List.find?_cons, ih, ih]
        split_ifs with hp
        · rw [hp]; rfl
        · rw [Bool.not_eq_true] at hp
          rw [hp]; rfl
  exact hfrom 0

/-! ## Counting the places of a needle -/

omit [DecidableEq β] in
theorem occurrences_suffix {j k : β} {i : ℕ} (hpos : 0 < i) (y : List α) :
    occurrences (needle k) ((needle j).drop i ++ y) = occurrences (needle k) y := by
  induction hn : (needle j).length - i generalizing i with
  | zero => rw [List.drop_eq_nil_of_le (by omega)]; rfl
  | succ n ih =>
    have hlt : i < (needle j).length := by omega
    have hnot := h.not_inside (k := k) hpos hlt y
    rw [List.drop_eq_getElem_cons hlt, List.cons_append] at hnot ⊢
    rw [occurrences, if_neg hnot, Nat.zero_add, ih (Nat.succ_pos i) (by omega)]

theorem occurrences_needle_append (j k : β) (y : List α) :
    occurrences (needle k) (needle j ++ y) = (if j = k then 1 else 0) + occurrences (needle k) y := by
  obtain ⟨a, t, ht⟩ := List.exists_cons_of_ne_nil (h.nonempty j)
  have htail : t = (needle j).drop 1 := by rw [ht]; rfl
  have hhead : needle k <+: a :: (t ++ y) ↔ j = k := by
    rw [← List.cons_append, ← ht]
    exact ⟨fun hp => (h.eq_of_start hp).symm, fun hjk => hjk ▸ List.prefix_append _ y⟩
  have hlist : needle j ++ y = a :: (t ++ y) := by rw [ht, List.cons_append]
  rw [hlist, occurrences, htail, occurrences_suffix h Nat.one_pos y, ← htail]
  simp only [hhead]

/-- a needle is a barrier for the places of needles -/
theorem occurrences_needle (k : β) (x : List α) (j : β) (y : List α) :
    occurrences (needle k) (x ++ (needle j ++ y)) =
      occurrences (needle k) x + ((if j = k then 1 else 0) + occurrences (needle k) y) := by
  induction x with
  | nil => rw [List.nil_append, occurrences_needle_append h, occurrences, Nat.zero_add]
  | cons a x ih =>
    have hiff := h.before_iff (j := j) (k := k) (List.cons_ne_nil a x) y
    rw [List.cons_append] at hiff ⊢
    rw [occurrences, occurrences, ih, Nat.add_assoc]
    simp only [hiff]

/-- a needle stands where its holes are -/
theorem occurrences_eq {ks : List β} {k : β} (hk : k ∈ ks) (l : List α) :
    occurrences (needle k) l = (parse needle ks l).count (.hole k) := by
  induction l using pieces_induction h ks with
  | nil => rfl
  | hole j hj y ih =>
    rw [parse_hole h hj, occurrences_needle_append h, List.count_cons, ih, Nat.add_comm]
    simp
  | text a l hnone ih =>
    rw [parse_text hnone, occurrences, if_neg (hnone k hk), List.count_cons_of_ne (by simp), ih, Nat.zero_add]

/-! ## One needle after others -/

theorem replace_needle (k : β) (v x y : List α) :
    replace (needle k) v (x ++ (needle k ++ y)) = replace (needle k) v x ++ (v ++ replace (needle k) v y) := by
  simp only [replace_eq, parse_needle h, needlePieces, List.mem_singleton, if_true, fill_append, fill_hole, fill_nil,
    List.append_nil]

theorem replace_of_none {k : β} {l : List α} (hnone : occurrences (needle k) l = 0) (v : List α) :
    replace (needle k) v l = l := by
  rw [replace_eq]
  conv_rhs => rw [← fill_parse h [k] l]
  refine fill_congr fun j hj => ?_
  obtain rfl := List.mem_singleton.1 (mem_of_hole h hj)
  rw [occurrences_eq h (List.mem_singleton_self j)] at hnone
  exact absurd hj (List.count_eq_zero.1 hnone)

theorem length_replace (k : β) (v l : List α) : (replace (needle k) v l).length +
    occurrences (needle k) l * (needle k).length = l.length + occurrences (needle k) l * v.length := by
  induction l using pieces_induction h [k] with
  | nil => simp [replace, replaceFrom, occurrences]
  | hole j hj y ih =>
    obtain rfl := List.mem_singleton.1 hj
    have hrep := replace_needle h j v [] y
    have hocc := occurrences_needle_append h j j y
    rw [if_pos rfl] at hocc
    have hnil : replace (needle j) v [] = [] := rfl
    rw [List.nil_append, hnil, List.nil_append] at hrep
    rw [hrep, hocc]
    simp only [List.length_append, Nat.add_mul, Nat.one_mul]
    omega
  | text a l hnone ih =>
    have hrep : replace (needle k) v (a :: l) = a :: replace (needle k) v l := by
      rw [replace_eq, replace_eq, parse_text hnone, fill_text]
    have hocc : occurrences (needle k) (a :: l) = occurrences (needle k) l := by
      rw [occurrences, if_neg (hnone k (List.mem_singleton_self k)), Nat.zero_add]
    rw [hrep, hocc]
    simp only [List.length_cons]
    omega

/-- a pass that changes nothing finds nothing, or puts the needle back -/
theorem none_of_replace {k : β} {v l : List α} (hlen : v.length = (needle k).length)
    (heq : replace (needle k) v l = l) : occurrences (needle k) l = 0 ∨ v = needle k := by
  induction l using pieces_induction h [k] with
  | nil => exact Or.inl rfl
  | hole j hj y ih =>
    obtain rfl := List.mem_singleton.1 hj
    have hrep := replace_needle h j v [] y
    have hnil : replace (needle j) v [] = [] := rfl
    rw [List.nil_append, hnil, List.nil_append, heq] at hrep
    exact Or.inr (List.append_inj hrep hlen.symm).1.symm
  | text a l hnone ih =>
    rw [replace_eq, parse_text hnone, fill_text, ← replace_eq] at heq
    rw [occurrences, if_neg (hnone k (List.mem_singleton_self k)), Nat.zero_add]
    exact ih (List.cons.inj heq).2

section Fill

variable {f : β → List α} {k : β} (hk : f k = needle k)

/-- filling more holes takes no needle away -/
theorem occurrences_fill_le {g : β → List α} (hfg : ∀ j, g j = f j ∨ f j = needle j ∧ j ≠ k) (ps : List (Piece α β))
    (x : List α) : occurrences (needle k) (x ++ fill f ps) ≤ occurrences (needle k) (x ++ fill g ps) := by
  induction ps generalizing x with
  | nil => exact le_rfl
  | cons p ps ih =>
    cases p with
    | text a =>
      have hstep := ih (x ++ [a])
      rwa [List.append_assoc, List.append_assoc] at hstep
    | hole j =>
      rw [fill_hole, fill_hole]
      rcases hfg j with hj | ⟨hj, hjk⟩
      · have hstep := ih (x ++ f j)
        rw [hj]
        rwa [List.append_assoc, List.append_assoc] at hstep
      · have hrest := ih []
        have h1 := occurrences_append_le (needle k) x (g j ++ fill g ps)
        have h2 := occurrences_append_le (needle k) (g j) (fill g ps)
        rw [hj, occurrences_needle h, if_neg hjk]
        rw [List.nil_append, List.nil_append] at hrest
        omega

include hk

/-- the holes of a key that are filled with its needle are places of it -/
theorem count_le_occurrences (ps : List (Piece α β)) (x : List α) :
    ps.count (.hole k) ≤ occurrences (needle k) (x ++ fill f ps) := by
  induction ps generalizing x with
  | nil => exact Nat.zero_le _
  | cons p ps ih =>
    cases p with
    | text a =>
      have hstep := ih (x ++ [a])
      rw [List.append_assoc] at hstep
      rwa [List.count_cons_of_ne (by simp)]
    | hole j =>
      rw [fill_hole]
      by_cases hj : j = k
      · subst hj
        have hrest := ih []
        rw [List.nil_append] at hrest
        rw [List.count_cons_self, hk, occurrences_needle h, if_pos rfl]
        omega
      · have hstep := ih (x ++ f j)
        rw [List.append_assoc] at hstep
        rwa [List.count_cons_of_ne (by simpa using hj)]

/-- **One needle after others**: when it stands at its holes only, replacing it fills them -/
theorem replace_fill (v : List α) (ps : List (Piece α β)) (x : List α)
    (hcount : occurrences (needle k) (x ++ fill f ps) = ps.count (.hole k)) :
    replace (needle k) v (x ++ fill f ps) = x ++ fill (Function.update f k v) ps := by
  induction ps generalizing x with
  | nil =>
    rw [fill_nil, List.append_nil] at hcount ⊢
    rw [fill_nil, List.append_nil]
    exact replace_of_none h hcount v
  | cons p ps ih =>
    cases p with
    | text a =>
      rw [List.count_cons_of_ne (by simp)] at hcount
      have hstep := ih (x ++ [a]) (by rwa [List.append_assoc])
      rwa [List.append_assoc, List.append_assoc] at hstep
    | hole j =>
      rw [fill_hole] at hcount ⊢
      rw [fill_hole]
      by_cases hj : j = k
      · subst hj
        have hge := count_le_occurrences h hk ps []
        rw [List.nil_append] at hge
        rw [hk, occurrences_needle h, if_pos rfl, List.count_cons_self] at hcount
        have hstep := ih [] (by rw [List.nil_append]; omega)
        rw [List.nil_append, List.nil_append] at hstep
        rw [hk, replace_needle h, replace_of_none h (by omega), hstep, Function.update_self]
      · rw [List.count_cons_of_ne (by simpa using hj)] at hcount
        have hstep := ih (x ++ f j) (by rwa [List.append_assoc])
        rw [Function.update_of_ne hj]
        rwa [List.append_assoc, List.append_assoc] at hstep

omit h in
theorem length_fill_update (v : List α) (ps : List (Piece α β)) : (fill (Function.update f k v) ps).length +
    ps.count (.hole k) * (needle k).length = (fill f ps).length + ps.count (.hole k) * v.length := by
  induction ps with
  | nil => simp
  | cons p ps ih =>
    cases p with
    | text a =>
      rw [fill_text, fill_text, List.count_cons_of_ne (by simp), List.length_cons, List.length_cons]
      omega
    | hole j =>
      rw [fill_hole, fill_hole, List.length_append, List.length_append]
      by_cases hj : j = k
      · subst hj
        rw [Function.update_self, List.count_cons_self, hk, Nat.add_mul, Nat.add_mul, Nat.one_mul, Nat.one_mul]
        omega
      · rw [Function.update_of_ne hj, List.count_cons_of_ne (by simpa using hj)]
        omega

/-- and when replacing it fills its holes, it stands there only, or is put back -/
theorem count_of_replace_fill {v : List α} (ps : List (Piece α β)) (x : List α)
    (heq : replace (needle k) v (x ++ fill f ps) = x ++ fill (Function.update f k v) ps) :
    occurrences (needle k) (x ++ fill f ps) = ps.count (.hole k) ∨ v = needle k := by
  by_cases hlen : v.length = (needle k).length
  · induction ps generalizing x with
    | nil =>
      rw [fill_nil, List.append_nil] at heq ⊢
      rw [fill_nil, List.append_nil] at heq
      exact none_of_replace h hlen heq
    | cons p ps ih =>
      cases p with
      | text a =>
        rw [List.count_cons_of_ne (by simp)]
        have hstep := ih (x ++ [a]) (by simpa using heq)
        rwa [List.append_assoc] at hstep
      | hole j =>
        rw [fill_hole] at heq ⊢
        rw [fill_hole] at heq
        by_cases hj : j = k
        · subst hj
          rw [hk, replace_needle h, Function.update_self] at heq
          have hx : (replace (needle j) v x).length = x.length := by
            have := length_replace h j v x
            rw [hlen] at this
            omega
          obtain ⟨hhead, htail⟩ := List.append_inj heq hx
          rw [hk, occurrences_needle h, if_pos rfl, List.count_cons_self]
          rcases none_of_replace h hlen hhead with hzero | hv
          · rcases ih [] (by simpa using List.append_cancel_left htail) with hcount | hv
            · rw [List.nil_append] at hcount
              exact Or.inl (by omega)
            · exact Or.inr hv
          · exact Or.inr hv
        · rw [List.count_cons_of_ne (by simpa using hj)]
          rw [Function.update_of_ne hj] at heq
          have hstep := ih (x ++ f j) (by rwa [List.append_assoc, List.append_assoc])
          rwa [List.append_assoc] at hstep
  · -- the lengths tell how many places were replaced
    have h1 := length_replace h k v (x ++ fill f ps)
    have h2 := length_fill_update hk v ps
    have hge := count_le_occurrences h hk ps x
    rw [heq] at h1
    simp only [List.length_append] at h1
    obtain ⟨d, hd⟩ := Nat.exists_eq_add_of_le hge
    rw [hd, Nat.add_mul, Nat.add_mul] at h1
    have hmul : d * (needle k).length = d * v.length := by omega
    rcases Nat.eq_zero_or_pos d with rfl | hpos
    · exact Or.inl hd
    · exact absurd (Nat.eq_of_mul_eq_mul_left hpos hmul).symm hlen

end Fill

end Parse

/-! ## All the needles -/

section Bindings

variable [DecidableEq α] [DecidableEq β] (needle : β → List α)

/-- what a key is bound to, or its needle -/
def value (bs : List (β × List α)) (k : β) : List α := (bs.lookup k).getD (needle k)

/-- all the needles at once -/
def substitute (bs : List (β × List α)) (l : List α) : List α := fill (value needle bs) (parse needle (bs.map Prod.fst) l)

/-- one needle after the other -/
def sequential (bs : List (β × List α)) (l : List α) : List α :=
  bs.foldl (fun l b => replace (needle b.1) b.2 l) l

omit [DecidableEq β] in
theorem sequential_snoc (bs : List (β × List α)) (b : β × List α) (l : List α) :
    sequential needle (bs ++ [b]) l = replace (needle b.1) b.2 (sequential needle bs l) := by
  rw [sequential, List.foldl_append]
  rfl

omit [DecidableEq α] [DecidableEq β] in
theorem keys_nodup {before after bs : List (β × List α)} (hnodup : (bs.map Prod.fst).Nodup)
    (hperm : (before ++ after).Perm bs) : (before.map Prod.fst).Nodup := by
  have hall := (hperm.map Prod.fst).nodup_iff.2 hnodup
  rw [List.map_append] at hall
  exact (List.nodup_append'.1 hall).1

omit [DecidableEq α] [DecidableEq β] in
theorem last_not_mem {init : List (β × List α)} {b : β × List α} (hnodup : ((init ++ [b]).map Prod.fst).Nodup) :
    b.1 ∉ init.map Prod.fst := by
  rw [List.map_append, List.nodup_append'] at hnodup
  exact fun hmem => hnodup.2.2 hmem (List.mem_singleton_self _)

omit [DecidableEq α] in
theorem value_of_not_mem {bs : List (β × List α)} {k : β} (hk : k ∉ bs.map Prod.fst) : value needle bs k = needle k := by
  have hnone : bs.lookup k = none := List.lookup_eq_none_iff.2 fun b hb =>
    bne_iff_ne.2 fun heq => hk (heq ▸ List.mem_map_of_mem hb)
  rw [value, hnone]
  rfl

omit [DecidableEq α] in
theorem value_of_mem {bs : List (β × List α)} (hnodup : (bs.map Prod.fst).Nodup) {b : β × List α} (hb : b ∈ bs) :
    value needle bs b.1 = b.2 := by
  obtain ⟨s, t, rfl⟩ := List.append_of_mem hb
  have hlookup : (s ++ b :: t).lookup b.1 = some b.2 := by
    refine List.lookup_eq_some_iff.2 ⟨s, t, rfl, fun c hc => ?_⟩
    rw [List.map_append, List.map_cons, List.nodup_append'] at hnodup
    exact bne_iff_ne.2 fun heq => hnodup.2.2 (List.mem_map_of_mem hc) (heq ▸ List.mem_cons_self)
  rw [value, hlookup]
  rfl

omit [DecidableEq α] in
/-- bindings of distinct keys agree with those they are among -/
theorem value_of_subset {bs bs' : List (β × List α)} (hnodup : (bs.map Prod.fst).Nodup) (hsub : bs' ⊆ bs)
    (hnodup' : (bs'.map Prod.fst).Nodup) {k : β} (hk : k ∈ bs'.map Prod.fst) : value needle bs' k = value needle bs k := by
  obtain ⟨b, hb, rfl⟩ := List.mem_map.1 hk
  rw [value_of_mem needle hnodup' hb, value_of_mem needle hnodup (hsub hb)]

omit [DecidableEq α] in
theorem value_snoc {bs : List (β × List α)} {b : β × List α} (hnodup : ((bs ++ [b]).map Prod.fst).Nodup) :
    value needle (bs ++ [b]) = Function.update (value needle bs) b.1 b.2 := by
  have hnodup' := keys_nodup hnodup (.refl _)
  funext k
  by_cases hk : k = b.1
  · subst hk
    rw [Function.update_self]
    exact value_of_mem needle hnodup (by simp)
  · rw [Function.update_of_ne hk]
    by_cases hmem : k ∈ bs.map Prod.fst
    · exact (value_of_subset needle hnodup (List.subset_append_left bs [b]) hnodup' hmem).symm
    · rw [value_of_not_mem needle hmem, value_of_not_mem needle (by simpa [hk] using hmem)]

variable {needle} (h : Apart needle)
include h

theorem substitute_eq {bs : List (β × List α)} {ks : List β} (hsub : bs.map Prod.fst ⊆ ks) (l : List α) :
    substitute needle bs l = fill (value needle bs) (parse needle ks l) :=
  fill_parse_subset h hsub (fun _ _ hk => value_of_not_mem needle hk) l

/-- the order of the bindings does not matter for substituting at once -/
theorem substitute_perm {bs bs' : List (β × List α)} (hnodup : (bs.map Prod.fst).Nodup) (hperm : bs'.Perm bs) (l : List α) :
    substitute needle bs' l = substitute needle bs l := by
  have hkeys := hperm.map Prod.fst
  rw [substitute_eq h hkeys.subset, substitute]
  refine fill_congr fun k hk => ?_
  exact value_of_subset needle hnodup hperm.subset (hkeys.nodup_iff.2 hnodup) (hkeys.symm.subset (mem_of_hole h hk))

/-- the bindings of the other keys -/
def others (bs : List (β × List α)) (k : β) : List (β × List α) := bs.filter fun c => c.1 ≠ k

omit h [DecidableEq α] in
theorem value_others (bs : List (β × List α)) (k : β) : value needle (others bs k) k = needle k := by
  refine value_of_not_mem needle fun hmem => ?_
  obtain ⟨c, hc, hck⟩ := List.mem_map.1 hmem
  exact of_decide_eq_true (List.mem_filter.1 hc).2 hck

omit h [DecidableEq α] in
theorem others_perm {bs : List (β × List α)} (hnodup : (bs.map Prod.fst).Nodup) {b : β × List α} (hb : b ∈ bs) :
    (others bs b.1 ++ [b]).Perm bs := by
  have hself : (bs.filter fun c => !decide (c.1 ≠ b.1)) = [b] := by
    obtain ⟨s, t, rfl⟩ := List.append_of_mem hb
    rw [List.map_append, List.map_cons, List.nodup_append', List.nodup_cons] at hnodup
    obtain ⟨-, ⟨hbt, -⟩, hdisjoint⟩ := hnodup
    have hs : (s.filter fun c => !decide (c.1 ≠ b.1)) = [] := List.filter_eq_nil_iff.2 fun c hc hcb =>
      hdisjoint (List.mem_map_of_mem hc) (by simp at hcb; rw [hcb]; exact List.mem_cons_self)
    have ht : (t.filter fun c => !decide (c.1 ≠ b.1)) = [] := List.filter_eq_nil_iff.2 fun c hc hcb =>
      hbt (by simp at hcb; rw [← hcb]; exact List.mem_map_of_mem hc)
    rw [List.filter_append, List.filter_cons, hs, ht]
    simp
  have hsplit := List.filter_append_perm (fun c : β × List α => decide (c.1 ≠ b.1)) bs
  rwa [hself] at hsplit

/-- what has been visited fills the holes of all the keys -/
theorem substitute_eq_of_perm {before after bs : List (β × List α)} (hperm : (before ++ after).Perm bs) (l : List α) :
    substitute needle before l = fill (value needle before) (parse needle (bs.map Prod.fst) l) := by
  refine substitute_eq h (fun k hk => ?_) l
  obtain ⟨b, hb, rfl⟩ := List.mem_map.1 hk
  exact List.mem_map_of_mem (hperm.subset (List.mem_append_left _ hb))

omit h [DecidableEq α] in
/-- before a key's turn the keys have the values they have with all the others filled, or are still to be filled -/
theorem value_before_turn {bs init after : List (β × List α)} {b : β × List α} (hnodup : (bs.map Prod.fst).Nodup)
    (hperm : (init ++ [b] ++ after).Perm bs) (j : β) :
    value needle (others bs b.1) j = value needle init j ∨ value needle init j = needle j ∧ j ≠ b.1 := by
  have hb : b ∈ bs := hperm.subset (by simp)
  have hnot := last_not_mem (keys_nodup hnodup hperm)
  have hinit : (init ++ ([b] ++ after)).Perm bs := by rwa [← List.append_assoc]
  by_cases hj : j ∈ init.map Prod.fst
  · have hothers := keys_nodup hnodup (others_perm hnodup hb)
    refine Or.inl (value_of_subset needle hothers (fun c hc => ?_) (keys_nodup hnodup hinit) hj).symm
    refine List.mem_filter.2 ⟨hinit.subset (List.mem_append_left _ hc), decide_eq_true fun hcb => ?_⟩
    exact hnot (hcb ▸ List.mem_map_of_mem hc)
  · by_cases hjb : j = b.1
    · subst hjb
      exact Or.inl ((value_others bs b.1).trans (value_of_not_mem needle hnot).symm)
    · exact Or.inr ⟨value_of_not_mem needle hj, hjb⟩

/-- **One turn**: filling the holes of one more key -/
theorem replace_substitute {bs init after : List (β × List α)} {b : β × List α} (hnodup : (bs.map Prod.fst).Nodup)
    (hperm : (init ++ [b] ++ after).Perm bs) {l : List α} (hb : b.2 = needle b.1 ∨
      occurrences (needle b.1) (substitute needle (others bs b.1) l) = occurrences (needle b.1) l) :
    replace (needle b.1) b.2 (substitute needle init l) = substitute needle (init ++ [b]) l := by
  have hmem : b ∈ bs := hperm.subset (by simp)
  have hinit : (init ++ ([b] ++ after)).Perm bs := by rwa [← List.append_assoc]
  have hlast := keys_nodup hnodup hperm
  have hk := value_of_not_mem needle (last_not_mem hlast)
  rw [substitute_eq_of_perm h hinit, substitute_eq_of_perm h hperm, value_snoc needle hlast]
  rcases hb with hself | hcount
  · rw [hself, replace_eq, ← hk, Function.update_eq_self, hk]
    conv_rhs => rw [← fill_parse h [b.1] (fill (value needle init) _)]
    exact fill_congr fun j hj => congrArg needle (List.mem_singleton.1 (mem_of_hole h hj)).symm
  · -- what stands before the key's turn stands when all the others have been filled
    rw [substitute_eq_of_perm h (others_perm hnodup hmem), occurrences_eq h (List.mem_map_of_mem hmem) l] at hcount
    have hge := count_le_occurrences h hk (parse needle (bs.map Prod.fst) l) []
    have hle := occurrences_fill_le h (value_before_turn hnodup hperm) (parse needle (bs.map Prod.fst) l) []
    exact replace_fill h hk b.2 _ [] (le_antisymm (hle.trans_eq hcount) hge)

/-- **One after the other is all at once**, at every moment of every order, exactly when no needle occurs anew in the list
with the others filled (or it is replaced by itself) -/
theorem sequential_iff {bs : List (β × List α)} (hnodup : (bs.map Prod.fst).Nodup) (l : List α) :
    (∀ before after, (before ++ after).Perm bs → sequential needle before l = substitute needle before l) ↔
      ∀ b ∈ bs, b.2 = needle b.1 ∨
        occurrences (needle b.1) (substitute needle (others bs b.1) l) = occurrences (needle b.1) l := by
  constructor
  · -- the key that is visited last
    intro hall b hb
    have hperm := others_perm hnodup hb
    have hbefore := hall _ _ hperm
    have hperm' : (others bs b.1 ++ [b] ++ []).Perm bs := by rwa [List.append_nil]
    have hwhole := hall _ _ hperm'
    rw [sequential_snoc, hbefore, substitute_eq_of_perm h hperm', value_snoc needle (keys_nodup hnodup hperm'),
      substitute_eq_of_perm h hperm] at hwhole
    rw [substitute_eq_of_perm h hperm, occurrences_eq h (List.mem_map_of_mem hb) l]
    exact (count_of_replace_fill h (value_others bs b.1) _ [] hwhole).symm
  · intro hcond before
    induction before using List.reverseRecOn with
    | nil =>
      intro after hperm
      rw [substitute_eq_of_perm h hperm]
      exact (fill_parse h _ l).symm
    | append_singleton init b ih =>
      intro after hperm
      have hinit : (init ++ ([b] ++ after)).Perm bs := by rwa [← List.append_assoc]
      rw [sequential_snoc, ih _ hinit]
      exact replace_substitute h hnodup hperm (hcond b (hperm.subset (by simp)))

end Bindings

end Substitution
