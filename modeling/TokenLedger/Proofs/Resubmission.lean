import TokenLedger.Proofs.Halt

/-! Halts and resubmission. Main statement: of a batch that meets failures, what is settled has the
outcome that it has without them, and submitting the rest again, in any order, gives the rest theirs
and leads to the ledger that the whole batch leads to. -/
namespace TokenLedger

namespace Batch

variable {σ : Type} {rules : Rules} {limits : Limits} {batch again : List Envelope} {l l' : Ledger}

/-- What a report on a batch that met failures is worth, against the report and the ledger that the
batch leads to without them. What is settled has the same outcomes and is all that was written, and
what is pending, submitted again in any order, makes up for the rest. -/
structure Resumable (rules : Rules) (batch : List Envelope) (l : Ledger) (full : Report)
    (final : Ledger) (r : Report) (l' : Ledger) : Prop where
  settled : List.Forall₂ (fun x y : Entry => x.location = y.location ∧
    x.protocol = y.protocol ∧ x.op = y.op ∧
    (x.outcome.isPending = false → x.outcome = y.outcome)) r.entries full.entries
  written : l' = (Store.ledger.processInTurn rules (((chain batch).map Prod.fst).filter
    fun e => e.location ∉ r.pendingLocations) l).2
  resumed : ∀ {again : List Envelope} {limits : Limits},
    again.Perm (batch.filter fun e => e.location ∈ r.pendingLocations) →
    again.length ≤ limits.maxBatchSize.toNat →
    (again = [] → l' = final) ∧
    (again ≠ [] → ∃ rest : Report, rest.isComplete = true ∧
      rest.entries = full.entries.filter (fun x => x.location ∈ r.pendingLocations) ∧
      ∀ res l'', Yields rules limits again l' res l'' ↔ res = .ok rest ∧ l'' = final)

def leavesOpen (outcomes : List (Nat × Outcome)) (x : Envelope × Nat) : Bool :=
  (outcome outcomes x.1 x.2).isPending

theorem leavesOpen_eq {outcomes : List (Nat × Outcome)} {x : Envelope × Nat} {job : Job}
    (h : Job.ofEnvelope? x = some job) : leavesOpen outcomes x = Lane.leaves outcomes job := by
  unfold Job.ofEnvelope? at h
  cases he : Operation.ofEnvelope x.1 with
  | error r =>
    rw [he] at h
    cases h
  | ok op =>
    rw [he] at h
    cases h
    rw [leavesOpen, outcome, he, Lane.leaves]

theorem mem_pendingLocations {lanes : List (List (Nat × Outcome))}
    (hn : (batch.map Enveloped.location).Nodup) {x : Envelope × Nat} (hx : x ∈ chain batch) :
    x.1.location ∈ (report batch lanes).pendingLocations ↔ leavesOpen lanes.flatten x = true := by
  have hplaces : ((chain batch).map fun x => x.1.location).Nodup := by
    have hp := (perm_map_fst_chain batch).map Enveloped.location
    rw [List.map_map] at hp
    exact hp.nodup_iff.2 hn
  rw [Report.pendingLocations, report, entries_eq]
  simp only [List.mem_map, List.mem_filter]
  constructor
  · rintro ⟨_, ⟨⟨y, hy, rfl⟩, hpend⟩, hloc⟩
    obtain rfl : y = x := List.inj_on_of_nodup_map hplaces hy hx hloc
    exact hpend
  · exact fun hopen => ⟨_, ⟨⟨x, hx, rfl⟩, hopen⟩, rfl⟩

theorem filterMap_chain (outcomes : List (Nat × Outcome)) (b : Bool) :
    ((chain batch).filter fun x => leavesOpen outcomes x == b).filterMap Job.ofEnvelope? =
      (Lane.inChainOrder (jobs batch)).filter fun job => Lane.leaves outcomes job == b := by
  rw [inChainOrder_jobs, List.filterMap_filter, List.filter_filterMap]
  refine List.filterMap_congr fun x _ => ?_
  cases hx : Job.ofEnvelope? x with
  | none => simp
  | some job => rw [leavesOpen_eq hx]; rfl

/-- The envelopes at pending places one at a time, or the others, are the jobs that are left, or the
others. -/
theorem processInTurn_filter (rules : Rules) (lanes : List (List (Nat × Outcome)))
    (hn : (batch.map Enveloped.location).Nodup) (b : Bool) (l : Ledger) :
    Store.ledger.processInTurn rules (((chain batch).map Prod.fst).filter fun e =>
      decide (e.location ∈ (report batch lanes).pendingLocations) == b) l =
      (((chain batch).filter fun x => leavesOpen lanes.flatten x == b).map (entry
        (Store.ledger.processAll rules ((Lane.inChainOrder (jobs batch)).filter
          fun job => Lane.leaves lanes.flatten job == b) l).1),
        (Store.ledger.processAll rules ((Lane.inChainOrder (jobs batch)).filter
          fun job => Lane.leaves lanes.flatten job == b) l).2) := by
  have hfst : ((chain batch).map Prod.fst).filter (fun e =>
      decide (e.location ∈ (report batch lanes).pendingLocations) == b) =
      ((chain batch).filter fun x => leavesOpen lanes.flatten x == b).map Prod.fst := by
    rw [List.filter_map]
    refine congrArg _ (List.filter_congr fun x hx => ?_)
    simp only [Function.comp_apply, mem_pendingLocations hn hx, Bool.decide_eq_true]
  rw [hfst, Store.processInTurn_eq, filterMap_chain]
  exact (chain_nodup batch).sublist (List.filter_sublist.map _)

theorem outcome_eq {outcomes outcomes' : List (Nat × Outcome)} {x : Envelope × Nat}
    (h : ∀ job, Job.ofEnvelope? x = some job →
      outcomes.lookup job.position = outcomes'.lookup job.position) :
    outcome outcomes x.1 x.2 = outcome outcomes' x.1 x.2 := by
  cases he : Operation.ofEnvelope x.1 with
  | error r => rw [outcome, outcome, he]
  | ok op => exact outcome_congr (h ⟨x.2, x.1.location, op⟩ (by rw [Job.ofEnvelope?, he])) x.1

theorem resumable_of_interrupted
    {settled pending : Fin (Lane.plan (jobs batch)).length → Lane}
    {out : Fin (Lane.plan (jobs batch)).length → List (Nat × Outcome)}
    (hn : (batch.map Enveloped.location).Nodup)
    (h : Lane.Interrupted rules (Lane.plan (jobs batch)).get l out l' settled pending) :
    Resumable rules batch l (reference rules batch l).1 (reference rules batch l).2
      (report batch (List.ofFn out)) l' := by
  obtain ⟨hsame, hwritten, hfinal, hagain⟩ := h.resume_lookup
    (Lane.ofSorted_shuffle (Lane.inChainOrder (jobs batch))) (inChainOrder_nodup batch)
    (fun i j key => Lane.ofSorted_disjoint (Lane.inChainOrder (jobs batch))) rfl
  have hjob {x : Envelope × Nat} (hx : x ∈ chain batch) {job : Job}
      (hj : Job.ofEnvelope? x = some job) : job ∈ Lane.inChainOrder (jobs batch) := by
    rw [inChainOrder_jobs]
    exact List.mem_filterMap.2 ⟨x, hx, hj⟩
  rw [reference_eq]
  constructor
  case settled =>
    rw [report, entries_eq, List.forall₂_map_left_iff, List.forall₂_map_right_iff,
      List.forall₂_same]
    intro x hx
    refine ⟨rfl, rfl, rfl, fun hnot => outcome_eq fun job hj => hsame job (hjob hx hj) ?_⟩
    rw [← leavesOpen_eq hj]
    exact hnot
  case written =>
    have hrun := processInTurn_filter rules (List.ofFn out) hn false l
    simp only [beq_false] at hrun
    simpa [hrun] using hwritten
  case resumed =>
    intro again limits hperm hmax
    have hrun : Store.ledger.processInTurn rules ((chain again).map Prod.fst) l' =
        (((chain batch).filter (leavesOpen (List.ofFn out).flatten)).map (entry
          (Store.ledger.processAll rules (Lane.inChainOrder (jobs batch)) l).1),
          (Store.ledger.processAll rules (Lane.inChainOrder (jobs batch)) l).2) := by
      have hopen := processInTurn_filter rules (List.ofFn out) hn true l'
      simp only [beq_true] at hopen
      rw [map_fst_chain_filter hperm hn, hopen]
      refine Prod.ext (List.map_congr_left fun x hx => ?_) hfinal
      obtain ⟨hx, hleft⟩ := List.mem_filter.1 hx
      rw [entry, entry, outcome_eq fun job hj => hagain job (hjob hx hj) ?_]
      rw [← leavesOpen_eq hj]
      exact hleft
    constructor
    · rintro rfl
      have hnil : (chain []).map Prod.fst = [] := (perm_map_fst_chain []).eq_nil
      rw [hnil] at hrun
      exact congrArg Prod.snd hrun
    · intro hempty
      refine ⟨(reference rules again l').1, by rw [reference, hrun]; rfl, ?_, fun res l'' => ?_⟩
      · rw [reference, hrun, List.filter_map]
        refine congrArg _ (List.filter_congr fun x hx => ?_)
        simp [entry, mem_pendingLocations hn hx]
      · rw [yields_iff hempty hmax, reference, hrun]

/-- Whatever accesses of a store fail while a batch is processed, and however its lanes take turns,
what is reported can be relied on and what is pending can be submitted again. -/
theorem resumable {store : Store σ} {view : σ → Ledger} (hf : store.MayFail view) (rules : Rules)
    (hne : batch ≠ []) (hmax : batch.length ≤ limits.maxBatchSize.toNat)
    (hn : (batch.map Enveloped.location).Nodup) (s : σ) :
    ∃ full final,
      (∀ res l', Yields rules limits batch (view s) res l' ↔ res = .ok full ∧ l' = final) ∧
      (∀ out s', Interleaved store (tasks rules batch) s out s' →
        Resumable rules batch (view s) full final (report batch (List.ofFn out)) (view s')) ∧
      ∃ r s', process store rules limits batch s = (.ok r, s') ∧
        Resumable rules batch (view s) full final r (view s') := by
  refine ⟨_, _, fun res l' => yields_iff hne hmax, ?_⟩
  have hturns {out : Fin (Lane.plan (jobs batch)).length → List (Nat × Outcome)} {s' : σ}
      (h : Interleaved store (tasks rules batch) s out s') :
      Resumable rules batch (view s) (reference rules batch (view s)).1
        (reference rules batch (view s)).2 (report batch (List.ofFn out)) (view s') := by
    obtain ⟨settled, pending, hi⟩ := Lane.interrupted hf
      (fun i j key => Lane.ofSorted_disjoint (Lane.inChainOrder (jobs batch))) h
    exact resumable_of_interrupted hn hi
  refine ⟨fun out s' h => hturns h, ?_⟩
  obtain ⟨out, hout, h⟩ := store.interleaved_runLanes rules (Lane.plan (jobs batch)) s
  refine ⟨_, _, ?_, hturns h⟩
  rw [process, if_neg hne, if_neg (Nat.not_lt_of_le hmax), hout]

/-- A deployment that the first access fails, with a mint after it, beside one that is settled. -/
theorem resumable_first_access :
    let by_ (height : UInt64) (index : UInt32) (i : Inscription) : Envelope :=
      ⟨⟨height, index⟩, ⟨"DA"⟩, "", 1, i⟩
    let first := by_ 1 0 (.deploy ⟨"AA", "5000", none, none, none, none⟩)
    let other := by_ 1 1 (.deploy ⟨"BB", "5000", none, none, none, none⟩)
    let mint := by_ 2 0 (.mint ⟨"AA", "2000"⟩)
    let store := Store.flaky fun n => if n = 0 then some .lockPoisoned else none
    ∃ r s', process store ⟨false⟩ ⟨3, false⟩ [mint, other, first] (.empty, 0) = (.ok r, s') ∧
      r.pendingLocations = [⟨1, 0⟩, ⟨2, 0⟩] ∧ s'.1.token? (.ofText "AA") = none ∧
      ∃ rest l', (∀ res l'', Yields ⟨false⟩ ⟨3, true⟩ [mint, first] s'.1 res l'' ↔
          res = .ok rest ∧ l'' = l') ∧
        l'.held (.ofText "AA") ⟨"DA"⟩ = .ofUInt64 2000 ∧ l'.token? (.ofText "BB") ≠ none := by
  intro by_ first other mint store
  have hchain : chain [mint, other, first] = [(first, 2), (other, 1), (mint, 0)] := by
    have hp : (chain [mint, other, first]).Perm [(first, 2), (other, 1), (mint, 0)] :=
      (chain_perm _).trans (List.reverse_perm _).symm
    exact eq_of_inOrder (chain_nodup _) hp (chain_inOrder _) (by decide +kernel)
  have hplan : Lane.plan (jobs [mint, other, first]) =
      Lane.ofSorted ([(first, 2), (other, 1), (mint, 0)].filterMap Job.ofEnvelope?) := by
    rw [Lane.plan, inChainOrder_jobs, hchain]
  have hmax : [mint, other, first].length ≤ (Limits.mk 3 false).maxBatchSize.toNat := by decide
  obtain ⟨full, final, hfull, -, r, s', hr, h⟩ := resumable (Store.flaky_mayFail fun n =>
    if n = 0 then some .lockPoisoned else none) ⟨false⟩ (List.cons_ne_nil _ _) hmax (by decide)
    (.empty, 0)
  have hrun := hr
  rw [process, if_neg (List.cons_ne_nil _ _), if_neg (Nat.not_lt_of_le hmax), hplan] at hrun
  obtain ⟨hreport, hstate⟩ : _ = Except.ok r ∧ _ = s' := Prod.ext_iff.1 hrun
  have hpending : r.pendingLocations = [⟨1, 0⟩, ⟨2, 0⟩] := by
    rw [← Except.ok.inj hreport, Report.pendingLocations, report, entries_eq, hchain]
    decide +kernel
  have hagain : [mint, first].Perm
      ([mint, other, first].filter fun e => e.location ∈ r.pendingLocations) := by
    rw [hpending]
    decide +kernel
  have hfinal : final = (reference ⟨false⟩ [mint, other, first] .empty).2 :=
    ((hfull _ _).1 (yields_reference (List.cons_ne_nil _ _) hmax)).2.symm
  have hwithin : [mint, first].length ≤ (Limits.mk 3 true).maxBatchSize.toNat := by decide
  obtain ⟨rest, -, -, hrest⟩ := (h.resumed hagain hwithin).2 (List.cons_ne_nil _ _)
  refine ⟨r, s', hr, hpending, ?_, rest, final, hrest, ?_⟩
  · rw [← hstate]
    decide +kernel
  · rw [hfinal, reference, hchain]
    decide +kernel

end Batch
end TokenLedger
