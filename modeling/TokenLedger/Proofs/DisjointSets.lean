import Mathlib.Data.List.Induction
import Mathlib.Logic.Relation
import TokenLedger.Proofs.Forest

/-! Disjoint sets after finds and unions in any order, and the same calls on lists of plain numbers,
where a find goes on for as long as a number is not its own parent. Main statement: every call on
the lists ends and leaves what the forest has, elements have one root if and only if unions link
them, and the size of a root is the number of elements below it. -/
namespace TokenLedger
namespace DisjointSet

inductive Call (n : Nat)
  | find (x : Fin n)
  | union (x y : Fin n)
  deriving DecidableEq

/-- The parents and the sizes as plain numbers, of which nothing is known. -/
structure Cells where
  parent : List Nat
  size : List Nat

namespace Cells

variable {n : Nat} {parent : List Nat} {c d e : Cells} {x : Nat} {call : Call n}
  {calls : List (Call n)}

def fresh (n : Nat) : Cells := ⟨List.range n, List.replicate n 1⟩

/-- The parents before a find, the number it starts from, the parents after it, and the number it
stops at. A find that is caught in a cycle or leaves the list does not end. -/
inductive Find : List Nat → Nat → List Nat → Nat → Prop
  | stop {parent : List Nat} {x : Nat} (hx : parent[x]? = some x) : Find parent x parent x
  | halve {parent after : List Nat} {x p g r : Nat} (hx : parent[x]? = some p) (hp : p ≠ x)
      (hg : parent[p]? = some g) (next : Find (parent.set x g) g after r) : Find parent x after r

def link (c : Cells) (root child total : Nat) : Cells :=
  ⟨c.parent.set child root, c.size.set root total⟩

/-- Links two roots unless they are the same. The first one is kept if the sizes are. -/
def join? (c : Cells) (a b : Nat) : Option Cells :=
  if a = b then some c
  else do
    let sizeA ← c.size[a]?
    let sizeB ← c.size[b]?
    return if sizeA < sizeB then c.link b a (sizeB + sizeA) else c.link a b (sizeA + sizeB)

/-- A call that ends. -/
inductive Exec (c : Cells) : Call n → Cells → Prop
  | find {x : Fin n} {p : List Nat} {r : Nat} (h : Find c.parent x p r) :
      Exec c (.find x) ⟨p, c.size⟩
  | union {x y : Fin n} {p q : List Nat} {a b : Nat} {d : Cells} (first : Find c.parent x p a)
      (second : Find p y q b) (joined : join? ⟨q, c.size⟩ a b = some d) : Exec c (.union x y) d

/-- Calls of which every one ends. -/
inductive Run : Cells → List (Call n) → Cells → Prop
  | nil {c : Cells} : Run c [] c
  | cons {c d e : Cells} {call : Call n} {calls : List (Call n)} (first : Exec c call d)
      (rest : Run d calls e) : Run c (call :: calls) e

theorem Find.unique {after after' : List Nat} {r r' : Nat} (h : Find parent x after r)
    (h' : Find parent x after' r') : after = after' ∧ r = r' := by
  induction h with
  | stop hx =>
    cases h' with
    | stop => exact ⟨rfl, rfl⟩
    | halve hx' hp => exact absurd (Option.some.inj (hx'.symm.trans hx)) hp
  | halve hx hp hg _ ih =>
    cases h' with
    | stop hx' => exact absurd (Option.some.inj (hx.symm.trans hx')) hp
    | halve hx' _ hg' next' =>
      obtain rfl := Option.some.inj (hx.symm.trans hx')
      obtain rfl := Option.some.inj (hg.symm.trans hg')
      exact ih next'

theorem Exec.unique (h : Exec c call d) (h' : Exec c call e) : d = e := by
  cases h with
  | find h =>
    cases h' with
    | find h' => rw [(h.unique h').1]
  | union first second joined =>
    cases h' with
    | union first' second' joined' =>
      obtain ⟨rfl, rfl⟩ := first.unique first'
      obtain ⟨rfl, rfl⟩ := second.unique second'
      exact Option.some.inj (joined.symm.trans joined')

end Cells

variable {n : Nat} {s : DisjointSet n} {root : Fin n → Fin n}

def exec (s : DisjointSet n) : Call n → DisjointSet n
  | .find x => (s.find x).1
  | .union x y => s.union x y

def run (calls : List (Call n)) : DisjointSet n := calls.foldl exec (singletons n)

def cells (s : DisjointSet n) : Cells := ⟨s.parent.toList.map Fin.val, s.size.toList⟩

theorem cells_singletons (n : Nat) : (singletons n).cells = .fresh n := by
  simp only [cells, singletons, Cells.fresh, Vector.toList_ofFn, Vector.toList_replicate,
    List.ofFn_id, List.map_coe_finRange_eq_range]

theorem parent_cells (s : DisjointSet n) (x : Fin n) :
    s.cells.parent[x.val]? = some (s.up x).val := by
  simp [cells, up]

theorem size_cells (s : DisjointSet n) (x : Fin n) : s.cells.size[x.val]? = some (s.weight x) := by
  simp [cells, weight]

theorem parent_cells_setParent (s : DisjointSet n) (x p : Fin n) :
    (s.setParent x p).cells.parent = s.cells.parent.set x p := by
  simp only [cells, setParent, Vector.toList_set, List.map_set]

theorem cells_find (s : DisjointSet n) (x : Fin n) :
    (s.find x).1.cells = ⟨(s.find x).1.cells.parent, s.cells.size⟩ := by
  simp only [cells, size_find]

theorem cells_link (s : DisjointSet n) (a b : Fin n) :
    (s.link a b).cells = s.cells.link a b (s.weight a + s.weight b) := by
  simp only [cells, link, Cells.link, Vector.toList_set, List.map_set]
  rfl

theorem join?_cells (s : DisjointSet n) (a b : Fin n) : s.cells.join? a b = some (
    if a = b then s else if s.weight a < s.weight b then s.link b a else s.link a b).cells := by
  rw [Cells.join?, size_cells, size_cells]
  simp only [Option.bind_eq_bind, Option.bind_some, ← Fin.ext_iff, ← cells_link]
  split
  · rfl
  · split <;> rfl

namespace Forest

/-- The sizes grow on the way up, so that a find on the lists ends where the walk does. -/
theorem walk_cells (h : Forest s root) {steps : Nat} {x : Fin n} (hsteps : s.above x < steps) :
    Cells.Find s.cells.parent x (DisjointSet.walk steps s x).1.cells.parent
      (DisjointSet.walk steps s x).2 := by
  induction steps generalizing s x with
  | zero => exact absurd hsteps (Nat.not_lt_zero _)
  | succ steps ih =>
    have hup := s.parent_cells x
    rw [walk_succ]
    by_cases hx : s.up x = x
    · rw [if_pos hx]
      rw [hx] at hup
      exact .stop hup
    · rw [if_neg hx]
      have hlt := above_lt_above (h.grows_twice hx)
      refine .halve hup (fun he => hx (Fin.ext he)) (s.parent_cells (s.up x)) ?_
      rw [← parent_cells_setParent]
      exact ih (h.setParent hx) (Nat.lt_of_lt_of_le hlt (Nat.le_of_lt_succ hsteps))

theorem find_cells (h : Forest s root) (x : Fin n) :
    Cells.Find s.cells.parent x (s.find x).1.cells.parent (s.find x).2 :=
  h.walk_cells (s.above_lt x)

theorem exec (h : Forest s root) (call : Call n) : ∃ root', Forest (s.exec call) root' := by
  cases call with
  | find x => exact ⟨root, (h.find x).2⟩
  | union x y =>
    obtain ⟨keep, drop, -, hf⟩ := h.union x y
    exact ⟨_, hf⟩

theorem exec_cells (h : Forest s root) (call : Call n) :
    Cells.Exec s.cells call (s.exec call).cells := by
  cases call with
  | find x =>
    rw [DisjointSet.exec, cells_find]
    exact .find (h.find_cells x)
  | union x y =>
    obtain ⟨hx, h₁⟩ := h.find x
    obtain ⟨hy, h₂⟩ := h₁.find y
    refine .union (h.find_cells x) (h₁.find_cells y) ?_
    have hsize : s.cells.size = (s.find x).1.cells.size := by rw [cells_find]
    rw [hsize, ← cells_find, join?_cells, hx, hy, DisjointSet.exec, h.union_eq]
    simp only [weight_find]

theorem run_cells_iff (h : Forest s root) {calls : List (Call n)} {c : Cells} :
    Cells.Run s.cells calls c ↔ c = (calls.foldl DisjointSet.exec s).cells := by
  induction calls generalizing s root with
  | nil =>
    constructor
    · rintro ⟨⟩
      rfl
    · rintro rfl
      exact .nil
  | cons call calls ih =>
    obtain ⟨root', h'⟩ := h.exec call
    have hexec := h.exec_cells call
    rw [List.foldl_cons, ← ih h']
    constructor
    · rintro (_ | ⟨first, rest⟩)
      rwa [hexec.unique first]
    · exact .cons hexec

end Forest

/-- A forest whose roots record how many elements are below them. -/
structure Census (s : DisjointSet n) (root : Fin n → Fin n) : Prop extends Forest s root where
  counted : ∀ r, root r = r → s.weight r = (Finset.univ.filter fun y => root y = r).card

namespace Census

theorem singletons (n : Nat) : Census (singletons n) id where
  toForest := .singletons n
  counted r _ := by
    simp [weight, DisjointSet.singletons, Finset.filter_eq']

theorem find (h : Census s root) (x : Fin n) : Census (s.find x).1 root where
  toForest := (h.toForest.find x).2
  counted r hr := by rw [weight_find, h.counted r hr]

theorem link (h : Census s root) {a b : Fin n} (ha : root a = a) (hb : root b = b) (hab : a ≠ b) :
    Census (s.link a b) fun x => if root x = b then a else root x where
  toForest := h.toForest.link ha hb hab
  counted r hr := by
    rw [weight_link]
    by_cases har : a = r
    · subst har
      have hdisj : Disjoint (Finset.univ.filter fun y => root y = a)
          (Finset.univ.filter fun y => root y = b) :=
        Finset.disjoint_filter.2 fun y _ hya hyb => hab (hya.symm.trans hyb)
      rw [if_pos rfl, h.counted a ha, h.counted b hb, ← Finset.card_union_of_disjoint hdisj,
        ← Finset.filter_or]
      refine congrArg _ (Finset.filter_congr fun y _ => ?_)
      split
      · next hy => simp only [hy, or_true]
      · next hy => simp only [hy, or_false]
    · -- Every other root that is left keeps its elements.
      have hrb : root r ≠ b := fun hrb => har (by rwa [if_pos hrb] at hr)
      rw [if_neg hrb] at hr
      rw [if_neg har, h.counted r hr]
      refine congrArg _ (Finset.filter_congr fun y _ => ?_)
      split
      · next hy =>
        rw [hy]
        exact ⟨fun hbr => absurd (hr.trans hbr.symm) hrb, fun h => absurd h har⟩
      · rfl

theorem union (h : Census s root) (x y : Fin n) : ∃ keep drop,
    (keep = root x ∧ drop = root y ∨ keep = root y ∧ drop = root x) ∧
      Census (s.union x y) fun u => if root u = drop then keep else root u := by
  have h₂ := (h.find x).find y
  obtain ⟨keep, drop, hkd, ⟨rfl, heq⟩ | ⟨hne, heq⟩⟩ := h.union_eq_or x y
  · refine ⟨keep, keep, hkd, ?_⟩
    rwa [heq, Forest.moved_self]
  · obtain ⟨hkeep, hdrop⟩ := h.root_of_ends hkd
    exact ⟨keep, drop, hkd, heq ▸ h₂.link hkeep hdrop hne⟩

end Census

/-- The unions among calls link two elements, directly or through others. -/
def Linked (calls : List (Call n)) : Fin n → Fin n → Prop :=
  Relation.EqvGen fun x y => .union x y ∈ calls

variable {calls : List (Call n)}

theorem Linked.root_eq {u v : Fin n} (h : Linked calls u v)
    (hunion : ∀ x y, .union x y ∈ calls → root x = root y) : root u = root v := by
  induction h with
  | rel x y hxy => exact hunion x y hxy
  | refl x => rfl
  | symm x y _ ih => exact ih.symm
  | trans x y z _ _ hxy hyz => exact hxy.trans hyz

theorem Linked.append {u v : Fin n} (h : Linked calls u v) (more : List (Call n)) :
    Linked (calls ++ more) u v :=
  Relation.EqvGen.mono (fun _ _ hxy => List.mem_append_left more hxy) u v h

theorem linked_union (calls : List (Call n)) (x y : Fin n) : Linked (calls ++ [.union x y]) x y :=
  .rel x y (List.mem_append_right calls (List.mem_singleton_self _))

/-- Below one root is what the calls so far have linked. -/
structure Tracks (calls : List (Call n)) (s : DisjointSet n) (root : Fin n → Fin n) : Prop extends
    Census s root where
  root_eq_iff : ∀ u v, root u = root v ↔ Linked calls u v

namespace Tracks

theorem singletons (n : Nat) : Tracks [] (singletons n) id where
  toCensus := .singletons n
  root_eq_iff u v := by
    constructor
    · rintro rfl
      exact .refl u
    · intro h
      exact h.root_eq fun _ _ hxy => by cases hxy

theorem find (h : Tracks calls s root) (x : Fin n) :
    Tracks (calls ++ [.find x]) (s.find x).1 root where
  toCensus := h.toCensus.find x
  root_eq_iff u v := by
    constructor
    · intro he
      exact ((h.root_eq_iff u v).1 he).append _
    · intro hl
      refine hl.root_eq fun a b hab => (h.root_eq_iff a b).2 (.rel a b ?_)
      simpa using hab

theorem union (h : Tracks calls s root) (x y : Fin n) :
    ∃ root', Tracks (calls ++ [.union x y]) (s.union x y) root' := by
  obtain ⟨keep, drop, hkd, hc⟩ := h.toCensus.union x y
  refine ⟨_, hc, fun u v => ?_⟩
  have hjoin := Forest.moved_joins root hkd
  have hxy := linked_union calls x y
  have hold {a b : Fin n} (he : root a = root b) : Linked (calls ++ [.union x y]) a b :=
    ((h.root_eq_iff a b).1 he).append _
  constructor
  · intro he
    rcases (hjoin u v).1 he with he | ⟨hu, hv⟩ | ⟨hu, hv⟩
    · exact hold he
    · exact .trans _ _ _ (hold hu) (.trans _ _ _ hxy (hold hv.symm))
    · exact .trans _ _ _ (hold hu) (.trans _ _ _ (.symm _ _ hxy) (hold hv.symm))
  · intro hl
    refine hl.root_eq fun a b hab => (hjoin a b).2 ?_
    rcases List.mem_append.1 hab with hab | hab
    · exact .inl ((h.root_eq_iff a b).2 (.rel a b hab))
    · cases List.mem_singleton.1 hab
      exact .inr (.inl ⟨rfl, rfl⟩)

theorem run (calls : List (Call n)) : ∃ root, Tracks calls (run calls) root := by
  induction calls using List.reverseRecOn with
  | nil => exact ⟨id, singletons n⟩
  | append_singleton calls call ih =>
    obtain ⟨root, h⟩ := ih
    rw [DisjointSet.run, List.foldl_append]
    cases call with
    | find x => exact ⟨root, h.find x⟩
    | union x y => exact h.union x y

end Tracks

/-- What a user of disjoint sets may rely on after some calls. -/
structure Sound (calls : List (Call n)) (s : DisjointSet n) : Prop where
  /-- On the lists every call ends, and what is left there is the forest. -/
  ends : ∀ c, Cells.Run (.fresh n) calls c ↔ c = s.cells
  parent_lt : ∀ p ∈ s.cells.parent, p < n
  grows : ∀ x, s.up x ≠ x → s.weight x < s.weight (s.up x)
  /-- On the lists the next find ends as well, at a root. -/
  find_ends : ∀ x : Fin n, Cells.Find s.cells.parent x (s.find x).1.cells.parent (s.find x).2 ∧
    s.up (s.find x).2 = (s.find x).2
  find_eq_iff : ∀ x y, (s.find x).2 = (s.find y).2 ↔ Linked calls x y
  /-- The next find leaves every element below its root. -/
  find_find : ∀ x y, ((s.find x).1.find y).2 = (s.find y).2
  size_root : ∀ r, s.up r = r →
    s.weight r = (Finset.univ.filter fun y => (s.find y).2 = r).card

theorem Tracks.sound (h : Tracks calls s root)
    (ends : ∀ c, Cells.Run (.fresh n) calls c ↔ c = s.cells) : Sound calls s where
  ends := ends
  parent_lt p hp := by
    obtain ⟨x, -, rfl⟩ := List.mem_map.1 hp
    exact x.isLt
  grows := h.grows
  find_ends x := by
    refine ⟨h.find_cells x, ?_⟩
    rw [(h.toForest.find x).1, h.up_root]
  find_eq_iff x y := by
    rw [(h.toForest.find x).1, (h.toForest.find y).1, h.root_eq_iff]
  find_find x y := by
    rw [((h.toForest.find x).2.find y).1, (h.toForest.find y).1]
  size_root r hr := by
    rw [h.counted r (h.root_eq hr)]
    refine congrArg _ (Finset.filter_congr fun y _ => ?_)
    rw [(h.toForest.find y).1]

/-- After any calls parents stay in range, sizes grow along them so that every find ends, elements
have one root if and only if they are linked, finds change no root, and roots count what is below
them. -/
theorem sound_run (calls : List (Call n)) : Sound calls (run calls) := by
  obtain ⟨root, h⟩ := Tracks.run calls
  refine h.sound fun c => ?_
  rw [← cells_singletons]
  exact (Forest.singletons n).run_cells_iff

end DisjointSet
end TokenLedger
