import Mathlib.Data.List.Nodup
import TokenLedger.Batch

/-! Chain order: places come in ascending order, and what is at one place in the order of the batch.
Main statements: this is the order of a report's entries and of the jobs before they are dealt out,
and for envelopes at different places it does not depend on the order of the batch. -/
namespace TokenLedger

theorem Location.le_antisymm {a b : Location} (hab : a ≤ b) (hba : b ≤ a) : a = b := by
  cases a; cases b
  simp only [le_def, Location.mk.injEq, ← UInt64.toNat_inj, ← UInt32.toNat_inj] at *
  omega

theorem Location.le_refl (a : Location) : a ≤ a := (le_total a a).elim id id

section InOrder

variable {α : Type} {place : α → Location} {position : α → Nat}

/-- Places come in chain order, and what is at one place in the order of positions. -/
def InOrder (place : α → Location) (position : α → Nat) (x y : α) : Prop :=
  place x ≤ place y ∧ (place x = place y → position x ≤ position y)

instance (x y : α) : Decidable (InOrder place position x y) :=
  inferInstanceAs (Decidable (_ ∧ _))

theorem InOrder.total (x y : α) : InOrder place position x y ∨ InOrder place position y x := by
  by_cases he : place x = place y
  · rcases Nat.le_total (position x) (position y) with h | h
    · exact .inl ⟨he ▸ Location.le_refl _, fun _ => h⟩
    · exact .inr ⟨he ▸ Location.le_refl _, fun _ => h⟩
  · rcases Location.le_total (place x) (place y) with h | h
    · exact .inl ⟨h, fun hxy => absurd hxy he⟩
    · exact .inr ⟨h, fun hyx => absurd hyx.symm he⟩

theorem InOrder.trans {x y z : α} (hxy : InOrder place position x y)
    (hyz : InOrder place position y z) : InOrder place position x z := by
  refine ⟨Location.le_trans hxy.1 hyz.1, fun hxz => ?_⟩
  have hyx : place y = place x := Location.le_antisymm (hxz ▸ hyz.1) hxy.1
  exact Nat.le_trans (hxy.2 hyx.symm) (hyz.2 (hyx.trans hxz))

theorem pairwise_sort_inOrder (xs : List α) :
    (xs.mergeSort fun x y => InOrder place position x y).Pairwise (InOrder place position) := by
  have h : (xs.mergeSort fun x y => InOrder place position x y).Pairwise
      fun x y => decide (InOrder place position x y) = true :=
    List.pairwise_mergeSort
      (fun x y z hxy hyz => decide_eq_true ((of_decide_eq_true hxy).trans (of_decide_eq_true hyz)))
      (fun x y => by simpa using InOrder.total x y) xs
  exact h.imp of_decide_eq_true

/-- Sorting by place alone keeps what is at one place in the order of positions. -/
theorem pairwise_sort_place {xs : List α} (h : xs.Pairwise fun x y => position x < position y) :
    (xs.mergeSort fun x y => place x ≤ place y).Pairwise (InOrder place position) := by
  have htrans (x y z : α) (hxy : decide (place x ≤ place y) = true)
      (hyz : decide (place y ≤ place z) = true) : decide (place x ≤ place z) = true :=
    decide_eq_true (Location.le_trans (of_decide_eq_true hxy) (of_decide_eq_true hyz))
  have htotal (x y : α) : (decide (place x ≤ place y) || decide (place y ≤ place x)) = true := by
    simpa using Location.le_total (place x) (place y)
  have hsorted := List.pairwise_mergeSort (List.zipIdxLE_trans htrans)
    (List.zipIdxLE_total htotal) xs.zipIdx
  rw [← List.mergeSort_zipIdx, List.pairwise_map]
  refine hsorted.imp_of_mem fun {p q} hp hq hpq => ?_
  rw [List.mem_mergeSort, List.mem_zipIdx_iff_getElem?, List.getElem?_eq_some_iff] at hp hq
  obtain ⟨hi, hp⟩ := hp
  obtain ⟨hj, hq⟩ := hq
  have hle : place p.1 ≤ place q.1 ∧ (place q.1 ≤ place p.1 → p.2 ≤ q.2) := by
    simpa [List.zipIdxLE, imp_iff_not_or] using hpq
  refine ⟨hle.1, fun he => ?_⟩
  rcases Nat.lt_or_eq_of_le (hle.2 (he ▸ hle.1)) with hlt | heq
  · rw [← hp, ← hq]
    exact Nat.le_of_lt (List.pairwise_iff_getElem.1 h p.2 q.2 hi hj hlt)
  · simp only [← hp, ← hq, heq, Nat.le_refl]

theorem InOrder.antisymm {xs : List α} (hn : (xs.map position).Nodup) {x y : α} (hx : x ∈ xs)
    (hy : y ∈ xs) (hxy : InOrder place position x y) (hyx : InOrder place position y x) :
    x = y := by
  have he : place x = place y := Location.le_antisymm hxy.1 hyx.1
  have hp : position x = position y := Nat.le_antisymm (hxy.2 he) (hyx.2 he.symm)
  exact List.inj_on_of_nodup_map hn hx hy hp

theorem eq_of_inOrder {xs ys : List α} (hn : (xs.map position).Nodup) (h : xs.Perm ys)
    (hx : xs.Pairwise (InOrder place position)) (hy : ys.Pairwise (InOrder place position)) :
    xs = ys :=
  List.Perm.eq_of_pairwise (fun _ _ hmx hmy => InOrder.antisymm hn hmx (h.mem_iff.2 hmy)) hx hy h

end InOrder

/-- The operation that an envelope of a batch asks for. -/
def Job.ofEnvelope? (x : Envelope × Nat) : Option Job :=
  match Operation.ofEnvelope x.1 with
  | .ok op => some ⟨x.2, x.1.location, op⟩
  | .error _ => none

theorem Job.ofEnvelope?_eq_some {x : Envelope × Nat} {job : Job} (h : ofEnvelope? x = some job) :
    job.position = x.2 ∧ job.location = x.1.location := by
  unfold ofEnvelope? at h
  cases he : Operation.ofEnvelope x.1 with
  | error r =>
    rw [he] at h
    cases h
  | ok op =>
    rw [he] at h
    cases h
    exact ⟨rfl, rfl⟩

namespace Batch

/-- The envelopes with their positions, in the order in which they are to have effect. -/
def chain (batch : List Envelope) : List (Envelope × Nat) :=
  batch.zipIdx.mergeSort fun x y => InOrder (fun x => x.1.location) Prod.snd x y

theorem chain_perm (batch : List Envelope) : (chain batch).Perm batch.zipIdx :=
  List.mergeSort_perm _ _

theorem chain_inOrder (batch : List Envelope) :
    (chain batch).Pairwise (InOrder (fun x => x.1.location) Prod.snd) :=
  pairwise_sort_inOrder _

theorem zipIdx_increasing (batch : List Envelope) :
    batch.zipIdx.Pairwise fun x y => x.2 < y.2 := by
  rw [← List.pairwise_map (f := Prod.snd), List.zipIdx_map_snd]
  exact List.pairwise_lt_range'

theorem chain_nodup (batch : List Envelope) : ((chain batch).map Prod.snd).Nodup := by
  rw [((chain_perm batch).map Prod.snd).nodup_iff, List.zipIdx_map_snd]
  exact List.nodup_range'

theorem chain_eq {batch : List Envelope} {xs : List (Envelope × Nat)} (hp : xs.Perm batch.zipIdx)
    (hs : xs.Pairwise (InOrder (fun x => x.1.location) Prod.snd)) : chain batch = xs :=
  eq_of_inOrder (chain_nodup batch) ((chain_perm batch).trans hp.symm) (chain_inOrder batch) hs

theorem sort_zipIdx (batch : List Envelope) :
    (batch.zipIdx.mergeSort fun x y => x.1.location ≤ y.1.location) = chain batch :=
  (chain_eq (List.mergeSort_perm _ _) (pairwise_sort_place (zipIdx_increasing batch))).symm

def entry (outcomes : List (Nat × Outcome)) (x : Envelope × Nat) : Entry :=
  ⟨x.1.location, x.1.inscription.protocol, x.1.inscription.op, outcome outcomes x.1 x.2⟩

theorem outcome_congr {outcomes outcomes' : List (Nat × Outcome)} {i : Nat}
    (h : outcomes.lookup i = outcomes'.lookup i) (e : Envelope) :
    outcome outcomes e i = outcome outcomes' e i := by
  rw [outcome, outcome, h]

theorem entries_eq (batch : List Envelope) (outcomes : List (Nat × Outcome)) :
    entries batch outcomes = (chain batch).map (entry outcomes) := by
  rw [← sort_zipIdx, entries]
  symm
  exact List.map_mergeSort fun x _ y _ => rfl

theorem jobs_increasing (batch : List Envelope) :
    (jobs batch).Pairwise fun i j => i.position < j.position :=
  (zipIdx_increasing batch).filterMap _ fun x y hxy i hi j hj => by
    rwa [(Job.ofEnvelope?_eq_some hi).1, (Job.ofEnvelope?_eq_some hj).1]

theorem inChainOrder_nodup (batch : List Envelope) :
    ((Lane.inChainOrder (jobs batch)).map Job.position).Nodup := by
  have hperm : (Lane.inChainOrder (jobs batch)).Perm (jobs batch) := List.mergeSort_perm _ _
  rw [(hperm.map _).nodup_iff]
  exact List.pairwise_map.2 ((jobs_increasing batch).imp Nat.ne_of_lt)

theorem inChainOrder_jobs (batch : List Envelope) :
    Lane.inChainOrder (jobs batch) = (chain batch).filterMap Job.ofEnvelope? := by
  have hperm : (Lane.inChainOrder (jobs batch)).Perm ((chain batch).filterMap Job.ofEnvelope?) :=
    (List.mergeSort_perm _ _).trans ((chain_perm batch).symm.filterMap _)
  have hchain : ((chain batch).filterMap Job.ofEnvelope?).Pairwise
      (InOrder Job.location Job.position) :=
    (chain_inOrder batch).filterMap _ fun x y hxy i hi j hj => by
      obtain ⟨hpi, hli⟩ := Job.ofEnvelope?_eq_some hi
      obtain ⟨hpj, hlj⟩ := Job.ofEnvelope?_eq_some hj
      simpa only [InOrder, hpi, hli, hpj, hlj] using hxy
  exact eq_of_inOrder (inChainOrder_nodup batch) hperm (pairwise_sort_place (jobs_increasing batch))
    hchain

theorem perm_map_fst_chain (batch : List Envelope) : ((chain batch).map Prod.fst).Perm batch := by
  have hp := (chain_perm batch).map Prod.fst
  rwa [List.zipIdx_map_fst] at hp

theorem pairwise_map_fst_chain (batch : List Envelope) :
    ((chain batch).map Prod.fst).Pairwise fun x y => x.location ≤ y.location :=
  List.pairwise_map.2 ((chain_inOrder batch).imp fun hxy => hxy.1)

theorem map_fst_chain {batch xs : List Envelope} (h : xs.Perm batch)
    (hx : xs.Pairwise fun x y => x.location ≤ y.location)
    (hn : (batch.map Enveloped.location).Nodup) : (chain batch).map Prod.fst = xs := by
  have hperm := perm_map_fst_chain batch
  refine List.Perm.eq_of_pairwise (fun x y hmx hmy hxy hyx => ?_)
    (pairwise_map_fst_chain batch) hx (hperm.trans h.symm)
  rw [hperm.mem_iff] at hmx
  rw [h.mem_iff] at hmy
  exact List.inj_on_of_nodup_map hn hmx hmy (Location.le_antisymm hxy hyx)

section

variable {batch : List Envelope} (h : batch.Pairwise fun x y => x.location ≤ y.location)

include h

theorem chain_of_sorted : chain batch = batch.zipIdx := by
  have hplaces : batch.zipIdx.Pairwise fun x y => x.1.location ≤ y.1.location := by
    rwa [← List.zipIdx_map_fst 0 batch, List.pairwise_map] at h
  have hsorted : batch.zipIdx.Pairwise (InOrder (fun x => x.1.location) Prod.snd) :=
    hplaces.imp₂ (fun x y hxy hlt => ⟨hxy, fun _ => Nat.le_of_lt hlt⟩) (zipIdx_increasing batch)
  exact chain_eq (.refl _) hsorted

theorem map_fst_chain_of_sorted : (chain batch).map Prod.fst = batch := by
  rw [chain_of_sorted h, List.zipIdx_map_fst]

theorem plan_of_sorted : Lane.plan (jobs batch) = Lane.ofSorted (jobs batch) := by
  rw [Lane.plan, inChainOrder_jobs, chain_of_sorted h]
  rfl

theorem entries_of_sorted (outcomes : List (Nat × Outcome)) :
    entries batch outcomes = batch.zipIdx.map (entry outcomes) := by
  rw [entries_eq, chain_of_sorted h]

theorem process_of_sorted {σ : Type} {limits : Limits} (store : Store σ) (rules : Rules)
    (hne : batch ≠ []) (hmax : batch.length ≤ limits.maxBatchSize.toNat) (s : σ) :
    process store rules limits batch s =
      (.ok (report batch (store.runLanes rules (Lane.ofSorted (jobs batch)) s).1),
        (store.runLanes rules (Lane.ofSorted (jobs batch)) s).2) := by
  rw [process, if_neg hne, if_neg (Nat.not_lt_of_le hmax), plan_of_sorted h]

end

theorem chain_congr {batch batch' : List Envelope} (h : batch'.Perm batch)
    (hn : (batch.map Enveloped.location).Nodup) :
    (chain batch').map Prod.fst = (chain batch).map Prod.fst :=
  (map_fst_chain ((perm_map_fst_chain batch').trans h) (pairwise_map_fst_chain batch') hn).symm

theorem map_fst_chain_filter {batch some : List Envelope} {p : Envelope → Bool}
    (h : some.Perm (batch.filter p)) (hn : (batch.map Enveloped.location).Nodup) :
    (chain some).map Prod.fst = ((chain batch).map Prod.fst).filter p := by
  refine map_fst_chain ?_ ((pairwise_map_fst_chain batch).sublist List.filter_sublist) ?_
  · exact ((perm_map_fst_chain batch).filter _).trans h.symm
  · rw [(h.map _).nodup_iff]
    exact hn.sublist (List.filter_sublist.map _)

theorem map_operation_chain (batch : List Envelope) :
    (Lane.inChainOrder (jobs batch)).map Job.operation =
      ((chain batch).map Prod.fst).filterMap fun e => (Operation.ofEnvelope e).toOption := by
  rw [inChainOrder_jobs, List.map_filterMap, List.filterMap_map]
  refine List.filterMap_congr fun x _ => ?_
  rw [Job.ofEnvelope?, Function.comp_apply]
  cases Operation.ofEnvelope x.1 <;> rfl

end Batch
end TokenLedger
