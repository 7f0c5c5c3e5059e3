import Mathlib.Logic.Function.Basic
import Mathlib.Logic.Relation
import TokenLedger.Lane
import TokenLedger.Proofs.Forest

/-! How jobs are dealt out to lanes. Main statements: the lanes of a plan keep all jobs in chain
order, jobs are below one root if and only if keys link them, and jobs of different lanes have no
key in common. -/
namespace TokenLedger

open Function (update)

section Shuffle

variable {ι β : Type} [DecidableEq ι]

/-- A list that is dealt out to lanes, each of which keeps its order. -/
inductive Shuffle : (ι → List β) → List β → Prop
  | nil {lanes : ι → List β} (h : ∀ i, lanes i = []) : Shuffle lanes []
  | cons {lanes : ι → List β} {xs : List β} {x : β} (i : ι) (tail : List β)
      (h : lanes i = x :: tail) (rest : Shuffle (update lanes i tail) xs) : Shuffle lanes (x :: xs)

theorem perm_flatten_set {lanes : List (List β)} {i : Nat} {x : β} {tail : List β}
    (h : lanes[i]? = some (x :: tail)) : lanes.flatten.Perm (x :: (lanes.set i tail).flatten) := by
  induction lanes generalizing i with
  | nil => cases h
  | cons lane lanes ih =>
    cases i with
    | zero =>
      obtain rfl : lane = x :: tail := Option.some.inj h
      exact .refl _
    | succ i =>
      rw [List.set_cons_succ, List.flatten_cons, List.flatten_cons]
      exact ((ih h).append_left lane).trans List.perm_middle

namespace Shuffle

theorem cast {m n : Nat} (hmn : m = n) {f : Fin m → List β} {g : Fin n → List β} {xs : List β}
    (hfg : ∀ i, f i = g (i.cast hmn)) (h : Shuffle f xs) : Shuffle g xs := by
  subst hmn
  obtain rfl : f = g := funext hfg
  exact h

theorem of_labels {γ : Type} [DecidableEq γ] {labels : List γ} (hn : labels.Nodup)
    {xs : List (β × γ)} (hx : ∀ x ∈ xs, x.2 ∈ labels) :
    Shuffle (fun i : Fin labels.length => (xs.filter fun x => x.2 = labels[i]).map Prod.fst)
      (xs.map Prod.fst) := by
  induction xs with
  | nil => exact .nil fun _ => rfl
  | cons x xs ih =>
    obtain ⟨i, hi, he⟩ := List.getElem_of_mem (hx x List.mem_cons_self)
    refine .cons ⟨i, hi⟩ ((xs.filter fun y => y.2 = labels[i]).map Prod.fst) ?_ ?_
    · rw [List.filter_cons_of_pos (by simp [he]), List.map_cons]
      rfl
    · have hrest := ih fun y hy => hx y (List.mem_cons_of_mem _ hy)
      convert hrest using 1
      funext j
      by_cases hj : j = ⟨i, hi⟩
      · subst hj
        rw [Function.update_self]
        rfl
      · rw [Function.update_of_ne hj, List.filter_cons_of_neg]
        simp only [← he, decide_eq_true_eq]
        exact fun hl => hj (Fin.ext ((hn.getElem_inj_iff).1 hl).symm)

theorem perm {n : Nat} {lanes : Fin n → List β} {xs : List β} (h : Shuffle lanes xs) :
    (List.ofFn lanes).flatten.Perm xs := by
  induction h with
  | nil h =>
    obtain rfl : _ = fun _ => [] := funext h
    rw [List.ofFn_const, List.flatten_replicate_nil]
  | @cons lanes xs x i tail hi _ ih =>
    have hset : (List.ofFn lanes).set i tail = List.ofFn (Function.update lanes i tail) := by
      refine List.ext_getElem (by simp) fun j hj _ => ?_
      simp only [List.getElem_set, List.getElem_ofFn, Function.update_apply, Fin.ext_iff]
      exact if_congr eq_comm rfl rfl
    have hperm : (List.ofFn lanes).flatten.Perm (x :: ((List.ofFn lanes).set i tail).flatten) :=
      perm_flatten_set (by simp [hi])
    rw [hset] at hperm
    exact hperm.trans (ih.cons x)

end Shuffle
end Shuffle

theorem nodup_eraseDups {α : Type} [BEq α] [LawfulBEq α] (xs : List α) : xs.eraseDups.Nodup := by
  match xs with
  | [] => exact .nil
  | x :: xs =>
    have hlen : (xs.filter fun y => !y == x).length < xs.length + 1 :=
      Nat.lt_succ_of_le (List.length_filter_le _ xs)
    rw [List.eraseDups_cons, List.nodup_cons]
    exact ⟨by simp, nodup_eraseDups _⟩
termination_by xs.length

namespace Links

variable {n : Nat}

def Share (seen : List (Fin n × LedgerKey)) (i j : Fin n) : Prop :=
  ∃ k, (i, k) ∈ seen ∧ (j, k) ∈ seen

/-- Every job that was seen to touch a key is below the root of the key's owner, and what is below
one root is linked by keys that were seen. -/
structure Joined (l : Links n) (root : Fin n → Fin n) (seen : List (Fin n × LedgerKey)) : Prop where
  forest : l.sets.Forest root
  owned : ∀ {i k}, (i, k) ∈ seen → ∃ owner, l.owners[k]? = some owner ∧ root owner = root i
  known : ∀ {owner k}, l.owners[k]? = some owner → (owner, k) ∈ seen
  linked : ∀ {i j}, root i = root j → Relation.ReflTransGen (Share seen) i j

theorem Joined.none (n : Nat) : Joined (Links.none n) id [] where
  forest := .singletons n
  owned h := by cases h
  known h := by simp [Links.none] at h
  linked h := by
    cases h
    exact .refl

theorem linked_cons {seen : List (Fin n × LedgerKey)} {i j : Fin n} (p : Fin n × LedgerKey)
    (h : Relation.ReflTransGen (Share seen) i j) : Relation.ReflTransGen (Share (p :: seen)) i j :=
  Relation.ReflTransGen.mono
    (fun _ _ ⟨k, hi, hj⟩ => ⟨k, List.mem_cons_of_mem _ hi, List.mem_cons_of_mem _ hj⟩) _ _ h

section

variable {l : Links n} {root : Fin n → Fin n} {seen : List (Fin n × LedgerKey)}
  (h : Joined l root seen) {k : LedgerKey}

include h

theorem Joined.union {owner : Fin n} (ho : l.owners[k]? = some owner) (i : Fin n) :
    ∃ root', Joined { l with sets := l.sets.union owner i } root' ((i, k) :: seen) := by
  obtain ⟨root', hf, hjoin⟩ := h.forest.union_joins owner i
  have hshare : Share ((i, k) :: seen) owner i :=
    ⟨k, List.mem_cons_of_mem _ (h.known ho), List.mem_cons_self⟩
  refine ⟨root', hf, fun {j c} hj => ?_, fun hc => List.mem_cons_of_mem _ (h.known hc),
    fun {a b} hab => ?_⟩
  · rcases List.mem_cons.1 hj with hj | hj
    · cases hj
      exact ⟨owner, ho, (hjoin _ _).2 (.inr (.inl ⟨rfl, rfl⟩))⟩
    · obtain ⟨o, hc, hr⟩ := h.owned hj
      exact ⟨o, hc, (hjoin _ _).2 (.inl hr)⟩
  · rcases (hjoin a b).1 hab with hr | ⟨ha, hb⟩ | ⟨ha, hb⟩
    · exact linked_cons _ (h.linked hr)
    · exact ((linked_cons _ (h.linked ha)).tail hshare).trans (linked_cons _ (h.linked hb.symm))
    · have hback : Share ((i, k) :: seen) i owner := hshare.imp fun _ hk => hk.symm
      exact ((linked_cons _ (h.linked ha)).tail hback).trans (linked_cons _ (h.linked hb.symm))

theorem Joined.insert (ho : l.owners[k]? = .none) (i : Fin n) :
    Joined { l with owners := l.owners.insert k i } root ((i, k) :: seen) := by
  have hinsert (c : LedgerKey) : (l.owners.insert k i)[c]? =
      if k = c then some i else l.owners[c]? := by
    simp only [Std.ExtTreeMap.getElem?_insert, Std.LawfulEqOrd.compare_eq_iff_eq]
  refine ⟨h.forest, fun {j c} hj => ?_, fun {o c} hc => ?_, fun hab => linked_cons _ (h.linked hab)⟩
  · dsimp only
    rw [hinsert]
    rcases List.mem_cons.1 hj with hj | hj
    · cases hj
      exact ⟨i, if_pos rfl, rfl⟩
    · obtain ⟨o, hc, hr⟩ := h.owned hj
      refine ⟨o, ?_, hr⟩
      rw [if_neg, hc]
      rintro rfl
      rw [ho] at hc
      cases hc
  · dsimp only at hc
    rw [hinsert] at hc
    split at hc
    · next hk =>
      cases hc
      exact hk ▸ List.mem_cons_self
    · exact List.mem_cons_of_mem _ (h.known hc)

theorem Joined.touch (i : Fin n) (k : LedgerKey) :
    ∃ root', Joined (l.touch i k) root' ((i, k) :: seen) := by
  unfold Links.touch
  cases ho : l.owners[k]? with
  | some owner => exact h.union ho i
  | none => exact ⟨root, h.insert ho i⟩

end

theorem Joined.foldl {l : Links n} {root : Fin n → Fin n} {seen : List (Fin n × LedgerKey)}
    (h : Joined l root seen) (ps : List (Fin n × LedgerKey)) :
    ∃ root', Joined (ps.foldl (fun l p => l.touch p.1 p.2) l) root' (ps.reverse ++ seen) := by
  induction ps generalizing l root seen with
  | nil => exact ⟨root, h⟩
  | cons p ps ih =>
    obtain ⟨root', h'⟩ := h.touch p.1 p.2
    have hps := ih h'
    rwa [List.reverse_cons, List.append_assoc]

theorem Joined.root_eq_iff {l : Links n} {root : Fin n → Fin n} {seen : List (Fin n × LedgerKey)}
    (h : Joined l root seen) {i j : Fin n} :
    root i = root j ↔ Relation.ReflTransGen (Share seen) i j := by
  refine ⟨h.linked, fun hij => ?_⟩
  induction hij with
  | refl => rfl
  | tail _ hshare ih =>
    obtain ⟨k, ha, hb⟩ := hshare
    obtain ⟨o, ho, hr⟩ := h.owned ha
    obtain ⟨o', ho', hr'⟩ := h.owned hb
    rw [ho, Option.some.injEq] at ho'
    rw [ih, ← hr, ho', hr']

def visits (footprint : Fin n → List LedgerKey) : List (Fin n × LedgerKey) :=
  (List.finRange n).flatMap fun i => (footprint i).map (i, ·)

theorem mem_visits {footprint : Fin n → List LedgerKey} {i : Fin n} {k : LedgerKey} :
    (i, k) ∈ visits footprint ↔ k ∈ footprint i := by
  simp [visits, List.mem_flatMap]

theorem ofFootprints_eq (footprint : Fin n → List LedgerKey) : ofFootprints footprint =
    (visits footprint).foldl (fun l p => l.touch p.1 p.2) (Links.none n) := by
  simp only [ofFootprints, visits, List.foldl_flatMap, List.foldl_map]

/-- In whatever order jobs and keys are visited, two jobs are below one root if and only if a chain
of jobs with common keys links them. -/
theorem foldl_visits_joined {footprint : Fin n → List LedgerKey} {ps : List (Fin n × LedgerKey)}
    (hps : ps.Perm (visits footprint)) :
    ∃ root, (ps.foldl (fun l p => l.touch p.1 p.2) (Links.none n)).sets.Forest root ∧
      ∀ {i j}, root i = root j ↔
        Relation.ReflTransGen (fun i j => ∃ k ∈ footprint i, k ∈ footprint j) i j := by
  obtain ⟨root, h⟩ := (Joined.none n).foldl ps
  have hshare : Share (ps.reverse ++ []) = fun i j => ∃ k ∈ footprint i, k ∈ footprint j := by
    funext i j
    simp only [Share, List.append_nil, List.mem_reverse, hps.mem_iff, mem_visits]
  refine ⟨root, h.forest, fun {i j} => ?_⟩
  rw [h.root_eq_iff, hshare]

theorem ofFootprints_joined (footprint : Fin n → List LedgerKey) :
    ∃ root, (ofFootprints footprint).sets.Forest root ∧
      ∀ {i j k}, k ∈ footprint i → k ∈ footprint j → root i = root j := by
  obtain ⟨root, hf, hroot⟩ := foldl_visits_joined (.refl (visits footprint))
  rw [← ofFootprints_eq] at hf
  exact ⟨root, hf, fun hi hj => hroot.2 (.single ⟨_, hi, hj⟩)⟩

end Links

theorem DisjointSet.Forest.roots {n : Nat} {s : DisjointSet n} {root : Fin n → Fin n}
    (h : s.Forest root) : s.roots = (List.finRange n).map root := by
  have hfold (xs rs : List (Fin n)) {s : DisjointSet n} (h : s.Forest root) :
      (xs.foldl (fun p i => ((p.1.find i).1, (p.1.find i).2 :: p.2)) (s, rs)).2 =
        (xs.map root).reverse ++ rs := by
    induction xs generalizing s rs with
    | nil => rfl
    | cons x xs ih =>
      obtain ⟨hx, hf⟩ := h.find x
      rw [List.foldl_cons, ih _ hf, hx, List.map_cons, List.reverse_cons, List.append_assoc]
      rfl
  have hroots : s.roots = ((List.finRange n).foldl
      (fun p i => ((p.1.find i).1, (p.1.find i).2 :: p.2)) (s, [])).2.reverse := rfl
  rw [hroots, hfold _ _ h, List.append_nil, List.reverse_reverse]

namespace Lane

/-- A job of the lane has the key in its footprint. -/
def Touches (lane : Lane) (key : LedgerKey) : Prop := ∃ job ∈ lane, key ∈ job.operation.footprint

/-- The jobs below one of the roots. -/
def below (jobs : List Job) (root : Fin jobs.length → Fin jobs.length) (r : Fin jobs.length) :
    Lane :=
  ((jobs.zip ((List.finRange jobs.length).map root)).filter fun jr => jr.2 = r).map Prod.fst

theorem exists_of_mem_below {jobs : List Job} {root : Fin jobs.length → Fin jobs.length}
    {r : Fin jobs.length} {job : Job} (h : job ∈ below jobs root r) :
    ∃ i : Fin jobs.length, jobs.get i = job ∧ root i = r := by
  obtain ⟨⟨job', r'⟩, hjr, rfl⟩ := List.mem_map.1 h
  obtain ⟨hzip, hr⟩ := List.mem_filter.1 hjr
  obtain ⟨i, hi, he⟩ := List.getElem_of_mem hzip
  simp only [List.getElem_zip, List.getElem_map, List.getElem_finRange, Prod.mk.injEq] at he
  rw [List.length_zip, Nat.lt_min] at hi
  exact ⟨⟨i, hi.1⟩, he.1, by rw [← of_decide_eq_true hr, ← he.2]; rfl⟩

theorem ofSorted_spec (jobs : List Job) :
    ∃ (root : Fin jobs.length → Fin jobs.length) (labels : List (Fin jobs.length)),
      labels.Nodup ∧ (∀ i, root i ∈ labels) ∧ ofSorted jobs = labels.map (below jobs root) ∧
      ∀ {i j : Fin jobs.length} {key : LedgerKey}, key ∈ (jobs.get i).operation.footprint →
        key ∈ (jobs.get j).operation.footprint → root i = root j := by
  obtain ⟨root, hf, hroot⟩ :=
    Links.ofFootprints_joined fun i : Fin jobs.length => jobs[i].operation.footprint
  refine ⟨root, ((List.finRange jobs.length).map root).eraseDups, nodup_eraseDups _,
    fun i => ?_, ?_, hroot⟩
  · exact List.mem_eraseDups.2 (List.mem_map_of_mem (List.mem_finRange i))
  · simp only [ofSorted, hf.roots]
    rfl

theorem ofSorted_shuffle (jobs : List Job) :
    Shuffle (fun i : Fin (ofSorted jobs).length => (ofSorted jobs)[i]) jobs := by
  obtain ⟨root, labels, hn, hl, he, -⟩ := ofSorted_spec jobs
  have hall : ∀ x ∈ jobs.zip ((List.finRange jobs.length).map root), x.2 ∈ labels := by
    intro x hx
    obtain ⟨i, -, hi⟩ := List.mem_map.1 (List.of_mem_zip (a := x.1) (b := x.2) hx).2
    exact hi ▸ hl i
  have hs := Shuffle.of_labels hn hall
  rw [List.map_fst_zip (by simp)] at hs
  refine hs.cast (by rw [he, List.length_map]) fun i => ?_
  simp only [he, Fin.getElem_fin, List.getElem_map]
  rfl

theorem plan_perm (jobs : List Job) : (plan jobs).flatten.Perm jobs := by
  have hperm := (ofSorted_shuffle (inChainOrder jobs)).perm.trans (List.mergeSort_perm _ _)
  simpa only [plan, Fin.getElem_fin, List.ofFn_getElem] using hperm

/-- Lanes that have a key in common are the same lane. -/
theorem ofSorted_disjoint (jobs : List Job) {i j : Fin (ofSorted jobs).length} {key : LedgerKey}
    (hi : Touches (ofSorted jobs)[i] key) (hj : Touches (ofSorted jobs)[j] key) : i = j := by
  obtain ⟨root, labels, hn, -, he, hroot⟩ := ofSorted_spec jobs
  obtain ⟨x, hx, hkx⟩ := hi
  obtain ⟨y, hy, hky⟩ := hj
  simp only [he, Fin.getElem_fin, List.getElem_map] at hx hy
  obtain ⟨a, rfl, hra⟩ := exists_of_mem_below hx
  obtain ⟨b, rfl, hrb⟩ := exists_of_mem_below hy
  have hab := hroot hkx hky
  rw [hra, hrb] at hab
  exact Fin.ext ((hn.getElem_inj_iff).1 hab)

theorem make_roots_congr {γ : Type} {m n : Nat} (hmn : m = n) {f : Fin m → List LedgerKey}
    {g : Fin n → List LedgerKey} (hfg : ∀ i, f i = g (i.cast hmn))
    (make : (n : Nat) → List (Fin n) → γ) :
    make m (Links.ofFootprints f).sets.roots = make n (Links.ofFootprints g).sets.roots := by
  subst hmn
  obtain rfl : f = g := funext hfg
  rfl

theorem length_ofSorted_congr {jobs jobs' : List Job}
    (h : jobs.map Job.operation = jobs'.map Job.operation) :
    (ofSorted jobs).length = (ofSorted jobs').length := by
  have hlen : jobs.length = jobs'.length := by
    rw [← List.length_map (f := Job.operation), h, List.length_map]
  simp only [ofSorted, List.length_map]
  refine make_roots_congr hlen (fun i => ?_) fun _ roots => roots.eraseDups.length
  have hi := List.getElem_of_eq h (by rw [List.length_map]; exact i.isLt)
  simp only [List.getElem_map] at hi
  simp only [Fin.getElem_fin, Fin.val_cast, hi]

end Lane
end TokenLedger
