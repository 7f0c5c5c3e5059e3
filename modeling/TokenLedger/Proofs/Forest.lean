import Mathlib.Data.Fintype.Card
import TokenLedger.Lane

/-! Forests of disjoint sets and the roots above their elements. Main statements: a find gives the
root and moves no element to another, and a union moves the elements below one of two roots to the
other, which joins these two sets and no others. -/
namespace TokenLedger
namespace DisjointSet

variable {n : Nat}

def up (s : DisjointSet n) (x : Fin n) : Fin n := getElem s.parent x x.isLt

def weight (s : DisjointSet n) (x : Fin n) : Nat := getElem s.size x x.isLt

/-- Sizes grow along parents, and the map sends each element to the root above it. -/
structure Forest (s : DisjointSet n) (root : Fin n → Fin n) : Prop where
  pos : ∀ x : Fin n, 0 < s.weight x
  grows : ∀ x : Fin n, s.up x ≠ x → s.weight x < s.weight (s.up x)
  up_root : ∀ x, s.up (root x) = root x
  root_up : ∀ x : Fin n, root (s.up x) = root x
  root_eq : ∀ {x : Fin n}, s.up x = x → root x = x

@[simp] theorem up_setParent (s : DisjointSet n) (x p y : Fin n) :
    (s.setParent x p).up y = if x = y then p else s.up y := by
  simp [up, setParent, Vector.getElem_set, Fin.ext_iff]

@[simp] theorem up_link (s : DisjointSet n) (a b y : Fin n) :
    (s.link a b).up y = if b = y then a else s.up y := by
  simp [up, link, Vector.getElem_set, Fin.ext_iff]

@[simp] theorem weight_link (s : DisjointSet n) (a b y : Fin n) :
    (s.link a b).weight y = if a = y then s.weight a + s.weight b else s.weight y := by
  simp [weight, link, Vector.getElem_set, Fin.ext_iff]

theorem walk_succ (steps : Nat) (s : DisjointSet n) (x : Fin n) :
    walk (steps + 1) s x = if s.up x = x then (s, x) else
      walk steps (s.setParent x (s.up (s.up x))) (s.up (s.up x)) := rfl

theorem size_walk (steps : Nat) (s : DisjointSet n) (x : Fin n) :
    (walk steps s x).1.size = s.size := by
  induction steps generalizing s x with
  | zero => rfl
  | succ steps ih =>
    rw [walk_succ]
    split
    · rfl
    · rw [ih]
      rfl

@[simp] theorem size_find (s : DisjointSet n) (x : Fin n) : (s.find x).1.size = s.size :=
  size_walk n s x

@[simp] theorem weight_find (s : DisjointSet n) (x y : Fin n) :
    (s.find x).1.weight y = s.weight y := by
  rw [weight, size_find, weight]

/-- How many elements have a larger size, which bounds the way up. -/
def above (s : DisjointSet n) (x : Fin n) : Nat :=
  (Finset.univ.filter fun y : Fin n => s.weight x < s.weight y).card

theorem above_lt (s : DisjointSet n) (x : Fin n) : s.above x < n := by
  have h : (Finset.univ.filter fun y : Fin n => s.weight x < s.weight y) ⊂ Finset.univ := by
    refine Finset.filter_ssubset.2 ⟨x, Finset.mem_univ x, ?_⟩
    exact Nat.lt_irrefl _
  have hc := Finset.card_lt_card h
  rwa [Finset.card_univ, Fintype.card_fin] at hc

theorem above_lt_above {s : DisjointSet n} {x y : Fin n} (h : s.weight x < s.weight y) :
    s.above y < s.above x := by
  refine Finset.card_lt_card (Finset.ssubset_iff_of_subset ?_ |>.2 ⟨y, ?_, ?_⟩)
  · intro z hz
    rw [Finset.mem_filter] at hz ⊢
    exact ⟨hz.1, Nat.lt_trans h hz.2⟩
  · exact Finset.mem_filter.2 ⟨Finset.mem_univ y, h⟩
  · intro hy
    exact Nat.lt_irrefl _ (Finset.mem_filter.1 hy).2

namespace Forest

variable {s : DisjointSet n} {root : Fin n → Fin n}

theorem singletons (n : Nat) : Forest (singletons n) id where
  pos x := by simp [weight, DisjointSet.singletons]
  grows x h := absurd (by simp [up, DisjointSet.singletons]) h
  up_root x := by simp [up, DisjointSet.singletons]
  root_up x := by simp [up, DisjointSet.singletons]
  root_eq _ := rfl

theorem root_root (h : Forest s root) (x : Fin n) : root (root x) = root x :=
  h.root_eq (h.up_root x)

theorem grows_twice (h : Forest s root) {x : Fin n} (hx : s.up x ≠ x) :
    s.weight x < s.weight (s.up (s.up x)) := by
  have hp := h.grows x hx
  by_cases hg : s.up (s.up x) = s.up x
  · rwa [hg]
  · exact Nat.lt_trans hp (h.grows _ hg)

theorem setParent (h : Forest s root) {x : Fin n} (hx : s.up x ≠ x) :
    Forest (s.setParent x (s.up (s.up x))) root where
  pos := h.pos
  grows y hy := by
    rw [up_setParent] at hy ⊢
    by_cases hxy : x = y
    · subst hxy
      rw [if_pos rfl]
      exact h.grows_twice hx
    · rw [if_neg hxy] at hy ⊢
      exact h.grows y hy
  up_root y := by
    rw [up_setParent, if_neg, h.up_root]
    intro hxy
    exact hx (by rw [hxy, h.up_root])
  root_up y := by
    rw [up_setParent]
    by_cases hxy : x = y
    · rw [if_pos hxy, h.root_up, h.root_up, hxy]
    · rw [if_neg hxy, h.root_up]
  root_eq {y} hy := by
    rw [up_setParent] at hy
    by_cases hxy : x = y
    · subst hxy
      rw [if_pos rfl] at hy
      have hlt := h.grows_twice hx
      rw [hy] at hlt
      exact absurd hlt (Nat.lt_irrefl _)
    · rw [if_neg hxy] at hy
      exact h.root_eq hy

theorem walk (h : Forest s root) {steps : Nat} {x : Fin n} (hsteps : s.above x < steps) :
    (walk steps s x).2 = root x ∧ Forest (walk steps s x).1 root := by
  induction steps generalizing s x with
  | zero => exact absurd hsteps (Nat.not_lt_zero _)
  | succ steps ih =>
    rw [walk_succ]
    by_cases hx : s.up x = x
    · rw [if_pos hx]
      exact ⟨(h.root_eq hx).symm, h⟩
    · rw [if_neg hx]
      have hlt := above_lt_above (h.grows_twice hx)
      obtain ⟨hr, hf⟩ := ih (h.setParent hx) (Nat.lt_of_lt_of_le hlt (Nat.le_of_lt_succ hsteps))
      refine ⟨?_, hf⟩
      rw [hr, h.root_up, h.root_up]

theorem find (h : Forest s root) (x : Fin n) :
    (s.find x).2 = root x ∧ Forest (s.find x).1 root :=
  h.walk (s.above_lt x)

theorem link (h : Forest s root) {a b : Fin n} (ha : root a = a) (hb : root b = b) (hab : a ≠ b) :
    Forest (s.link a b) fun x => if root x = b then a else root x where
  pos x := by
    rw [weight_link]
    split
    · exact Nat.add_pos_left (h.pos a) _
    · exact h.pos x
  grows x hx := by
    rw [up_link] at hx ⊢
    have hpa : s.up a = a := by have hp := h.up_root a; rwa [ha] at hp
    have hposa := h.pos a
    by_cases hbx : b = x
    · subst hbx
      rw [if_pos rfl, weight_link, weight_link, if_neg hab, if_pos rfl]
      omega
    · rw [if_neg hbx] at hx ⊢
      have hgrow := h.grows x hx
      have hax : a ≠ x := fun hax => hx (hax ▸ hpa)
      rw [weight_link, weight_link, if_neg hax]
      split
      · next hp => rw [← hp] at hgrow; omega
      · exact hgrow
  up_root x := by
    rw [up_link]
    by_cases hx : root x = b
    · rw [if_pos hx, if_neg hab.symm]
      have hp := h.up_root a
      rwa [ha] at hp
    · rw [if_neg hx, if_neg (Ne.symm hx), h.up_root]
  root_up x := by
    rw [up_link]
    by_cases hbx : b = x
    · subst hbx
      rw [if_pos rfl, ha, if_neg hab, hb, if_pos rfl]
    · rw [if_neg hbx, h.root_up]
  root_eq {x} hx := by
    rw [up_link] at hx
    by_cases hbx : b = x
    · subst hbx
      rw [if_pos rfl] at hx
      exact absurd hx hab
    · rw [if_neg hbx] at hx
      rw [h.root_eq hx, if_neg (Ne.symm hbx)]

theorem union_eq (h : Forest s root) (x y : Fin n) : s.union x y =
    if root x = root y then ((s.find x).1.find y).1
    else if s.weight (root x) < s.weight (root y) then
      ((s.find x).1.find y).1.link (root y) (root x)
    else ((s.find x).1.find y).1.link (root x) (root y) := by
  obtain ⟨hx, h₁⟩ := h.find x
  have hy := (h₁.find y).1
  simp only [DisjointSet.union, hx, hy, size_find]
  rfl

theorem union_eq_or (h : Forest s root) (x y : Fin n) : ∃ keep drop,
    (keep = root x ∧ drop = root y ∨ keep = root y ∧ drop = root x) ∧
      (keep = drop ∧ s.union x y = ((s.find x).1.find y).1 ∨
        keep ≠ drop ∧ s.union x y = ((s.find x).1.find y).1.link keep drop) := by
  rw [h.union_eq]
  by_cases hab : root x = root y
  · rw [if_pos hab]
    exact ⟨root x, root y, .inl ⟨rfl, rfl⟩, .inl ⟨hab, rfl⟩⟩
  · rw [if_neg hab]
    split
    · exact ⟨root y, root x, .inr ⟨rfl, rfl⟩, .inr ⟨Ne.symm hab, rfl⟩⟩
    · exact ⟨root x, root y, .inl ⟨rfl, rfl⟩, .inr ⟨hab, rfl⟩⟩

theorem moved_self (root : Fin n → Fin n) (keep : Fin n) :
    (fun u => if root u = keep then keep else root u) = root := by
  funext u
  split
  · next hu => exact hu.symm
  · rfl

theorem root_of_ends (h : Forest s root) {x y keep drop : Fin n}
    (hkd : keep = root x ∧ drop = root y ∨ keep = root y ∧ drop = root x) :
    root keep = keep ∧ root drop = drop := by
  rcases hkd with ⟨rfl, rfl⟩ | ⟨rfl, rfl⟩
  · exact ⟨h.root_root x, h.root_root y⟩
  · exact ⟨h.root_root y, h.root_root x⟩

/-- A union moves all that is below one of the two roots below the other. -/
theorem union (h : Forest s root) (x y : Fin n) : ∃ keep drop,
    (keep = root x ∧ drop = root y ∨ keep = root y ∧ drop = root x) ∧
      Forest (s.union x y) fun u => if root u = drop then keep else root u := by
  have h₂ := ((h.find x).2.find y).2
  obtain ⟨keep, drop, hkd, ⟨rfl, heq⟩ | ⟨hne, heq⟩⟩ := h.union_eq_or x y
  · refine ⟨keep, keep, hkd, ?_⟩
    rwa [heq, moved_self]
  · obtain ⟨hkeep, hdrop⟩ := h.root_of_ends hkd
    exact ⟨keep, drop, hkd, heq ▸ h₂.link hkeep hdrop hne⟩

theorem moved_eq_iff {a b keep drop : Fin n} :
    (if a = drop then keep else a) = (if b = drop then keep else b) ↔
      a = b ∨ a = keep ∧ b = drop ∨ a = drop ∧ b = keep := by
  split_ifs with ha hb hb
  · simp [ha, hb]
  · simp only [ha, hb, Ne.symm hb, true_and, false_or, and_false, @eq_comm _ keep]
  · simp only [ha, hb, and_true, false_and, or_false, false_or]
  · simp [ha, hb]

theorem moved_joins (root : Fin n → Fin n) {x y keep drop : Fin n}
    (hkd : keep = root x ∧ drop = root y ∨ keep = root y ∧ drop = root x) (u v : Fin n) :
    (if root u = drop then keep else root u) = (if root v = drop then keep else root v) ↔
      root u = root v ∨ root u = root x ∧ root v = root y ∨ root u = root y ∧ root v = root x := by
  rw [moved_eq_iff]
  rcases hkd with ⟨rfl, rfl⟩ | ⟨rfl, rfl⟩
  · exact .rfl
  · rw [@or_comm (root u = root y ∧ root v = root x)]

theorem union_joins (h : Forest s root) (x y : Fin n) : ∃ root', Forest (s.union x y) root' ∧
    ∀ u v, root' u = root' v ↔ root u = root v ∨ root u = root x ∧ root v = root y ∨
      root u = root y ∧ root v = root x := by
  obtain ⟨keep, drop, hkd, hf⟩ := h.union x y
  exact ⟨_, hf, moved_joins root hkd⟩

end Forest
end DisjointSet
end TokenLedger
