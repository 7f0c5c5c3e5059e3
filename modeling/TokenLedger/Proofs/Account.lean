import TokenLedger.Proofs.Failure
import TokenLedger.Proofs.LaneRun
import TokenLedger.Proofs.Serial

/-! What a report says of a batch, whatever the store does. Main statement: every envelope has one
entry, with the outcome that its operation had in its lane, lanes stop at their first halt, and the
counts add up. -/
namespace TokenLedger

theorem eq_map_lookup {γ : Type} {outs xs : List (Nat × γ)} (hn : (outs.map Prod.fst).Nodup)
    (hsub : xs ⊆ outs) (d : γ) :
    xs = (xs.map Prod.fst).map fun k => (k, (outs.lookup k).getD d) := by
  rw [List.map_map]
  conv_lhs => rw [← List.map_id xs]
  refine List.map_congr_left fun x hx => ?_
  rw [Function.comp_apply, (lookup_eq_some_iff hn).2 (hsub hx)]
  rfl

theorem Outcome.counted_once (o : Outcome) :
    (if o.isApplied then 1 else 0) + (if o.reason?.isSome then 1 else 0) +
      (if o.isUnapplied then 1 else 0) + (if o.isPending then 1 else 0) = 1 := by
  cases o <;> rfl

theorem Report.counts_add (r : Report) :
    r.applied + r.rejected + r.unapplied + r.pending = r.entries.length := by
  obtain ⟨entries, lanes, halted⟩ := r
  simp only [applied, rejected, reasons, unapplied, pending, List.length_filterMap_eq_countP]
  induction entries with
  | nil => rfl
  | cons e entries ih =>
    have hone := e.outcome.counted_once
    simp only [List.countP_cons, List.length_cons]
    omega

namespace Batch

section

variable {rules : Rules} {batch : List Envelope} {what : Nat → Outcome} {p : Outcome → Bool}

/-- A report gives every envelope the outcome that its operation has, said by the position in the
batch, and tells which lanes were halted and what is left to do. -/
structure Accounts (rules : Rules) (batch : List Envelope) (what : Nat → Outcome) (r : Report) :
    Prop where
  entries : r.entries = (chain batch).map fun x =>
    ⟨x.1.location, x.1.inscription.protocol, x.1.inscription.op, what x.2⟩
  unread : ∀ x ∈ batch.zipIdx, ∀ e, Operation.ofEnvelope x.1 = .error e → what x.2 = .rejected e
  dealt : (Lane.plan (jobs batch)).flatten.Perm (jobs batch)
  /-- A lane has the outcomes that its operations have one after another with some replies. -/
  ran : ∀ lane ∈ Lane.plan (jobs batch), ∃ script script', Store.scripted.Runs rules
    (lane.map Job.operation) script (lane.map fun job => what job.position) script'
  halts : ∀ lane ∈ Lane.plan (jobs batch), Outcome.HaltsOnce (lane.map fun job => what job.position)
  skipped : ∀ before job after, before ++ job :: after ∈ Lane.plan (jobs batch) →
    what job.position = .skipped → ∃ first ∈ before, (what first.position).isHalted = true
  haltedLanes : r.haltedLanes = r.entries.countP fun e => e.outcome.isHalted
  complete : r.isComplete = true ↔ r.pending = 0
  total : r.applied + r.rejected + r.unapplied + r.pending = batch.length

theorem countP_any_isHalted {lanes : List Lane}
    (h : ∀ lane ∈ lanes, Outcome.HaltsOnce (lane.map fun job => what job.position)) :
    lanes.countP (fun lane => lane.any fun job => (what job.position).isHalted) =
      lanes.flatten.countP fun job => (what job.position).isHalted := by
  induction lanes with
  | nil => rfl
  | cons lane lanes ih =>
    obtain ⟨hlane, hlanes⟩ := List.forall_mem_cons.1 h
    have hone := hlane.countP_isHalted
    rw [List.countP_map, List.any_map] at hone
    rw [List.countP_cons, ih hlanes, List.flatten_cons, List.countP_append, Nat.add_comm]
    exact congrArg (· + _) hone.symm

def reported (batch : List Envelope) (outcomes : List (Nat × Outcome)) (i : Nat) : Outcome :=
  match batch[i]? with
  | some e => outcome outcomes e i
  | none => .skipped

theorem reported_eq (outcomes : List (Nat × Outcome)) {x : Envelope × Nat}
    (hx : x ∈ batch.zipIdx) : reported batch outcomes x.2 = outcome outcomes x.1 x.2 := by
  rw [reported, List.mem_zipIdx_iff_getElem?.1 hx]

theorem reported_unread (batch : List Envelope) (outcomes : List (Nat × Outcome)) :
    ∀ x ∈ batch.zipIdx, ∀ e, Operation.ofEnvelope x.1 = .error e →
      reported batch outcomes x.2 = .rejected e := by
  intro x hx e he
  rw [reported_eq _ hx, outcome, he]

theorem entries_report (batch : List Envelope) (lanes : List (List (Nat × Outcome))) :
    (report batch lanes).entries = (chain batch).map fun x =>
      ⟨x.1.location, x.1.inscription.protocol, x.1.inscription.op,
        reported batch lanes.flatten x.2⟩ := by
  rw [report, entries_eq]
  refine List.map_congr_left fun x hx => ?_
  rw [entry, reported_eq _ ((chain_perm batch).mem_iff.1 hx)]

theorem reported_job (outcomes : List (Nat × Outcome)) {job : Job} (hjob : job ∈ jobs batch) :
    reported batch outcomes job.position = (outcomes.lookup job.position).getD .skipped := by
  obtain ⟨⟨e, i⟩, hx, hj⟩ := List.mem_filterMap.1 hjob
  dsimp only at hj
  cases he : Operation.ofEnvelope e with
  | error r =>
    rw [he] at hj
    cases hj
  | ok op =>
    rw [he] at hj
    cases hj
    rw [reported_eq _ hx, outcome, he]

section

variable {r : Report}
  (hentries : r.entries = (chain batch).map fun x =>
    ⟨x.1.location, x.1.inscription.protocol, x.1.inscription.op, what x.2⟩)
  (hunread : ∀ x ∈ batch.zipIdx, ∀ e, Operation.ofEnvelope x.1 = .error e → what x.2 = .rejected e)

include hentries hunread

theorem countP_entries (hp : ∀ e, p (.rejected e) = false) :
    r.entries.countP (fun e => p e.outcome) =
      (Lane.plan (jobs batch)).flatten.countP fun job => p (what job.position) := by
  have hjobs : (jobs batch).Perm ((chain batch).filterMap Job.ofEnvelope?) :=
    (chain_perm batch).symm.filterMap _
  rw [hentries, List.countP_map, ((Lane.plan_perm _).trans hjobs).countP_eq, List.countP_filterMap]
  refine List.countP_congr fun x hx => ?_
  have hx : x ∈ batch.zipIdx := (chain_perm batch).mem_iff.1 hx
  cases he : Operation.ofEnvelope x.1 with
  | error e => simp [Job.ofEnvelope?, he, hunread x hx e he, hp]
  | ok op => simp [Job.ofEnvelope?, he]

variable
  (hhalts : ∀ lane ∈ Lane.plan (jobs batch),
    Outcome.HaltsOnce (lane.map fun job => what job.position))
  (hlanes : r.haltedLanes = (Lane.plan (jobs batch)).countP fun lane =>
    lane.any fun job => (what job.position).isHalted)

include hhalts hlanes

theorem haltedLanes_eq : r.haltedLanes = r.entries.countP fun e => e.outcome.isHalted := by
  rw [hlanes, countP_any_isHalted hhalts, countP_entries hentries hunread fun _ => rfl]

theorem isComplete_iff : r.isComplete = true ↔ r.pending = 0 := by
  rw [Report.isComplete, beq_iff_eq, hlanes, Report.pending,
    countP_entries hentries hunread fun _ => rfl, List.countP_eq_zero, List.countP_eq_zero]
  constructor
  · intro h job hjob hpending
    obtain ⟨lane, hlane, hmem⟩ := List.mem_flatten.1 hjob
    have hany := (hhalts lane hlane).any_isHalted (List.mem_map_of_mem hmem) hpending
    rw [List.any_map] at hany
    exact h lane hlane hany
  · intro h lane hlane hany
    obtain ⟨job, hjob, hhalted⟩ := List.any_eq_true.1 hany
    have hnot := h job (List.mem_flatten.2 ⟨lane, hlane, hjob⟩)
    rw [Outcome.isHalted_of_not_isPending (Bool.eq_false_iff.2 hnot)] at hhalted
    cases hhalted

end

section

variable {out : Fin (Lane.plan (jobs batch)).length → List (Nat × Outcome)}
  (hpos : ∀ i, (out i).map Prod.fst = ((Lane.plan (jobs batch)).get i).map Job.position)

include hpos

theorem out_eq (i : Fin (Lane.plan (jobs batch)).length) :
    out i = ((Lane.plan (jobs batch)).get i).map fun job =>
      (job.position, reported batch (List.ofFn out).flatten job.position) := by
  have hsub : out i ⊆ (List.ofFn out).flatten := fun x hx =>
    List.mem_flatten.2 ⟨out i, List.mem_ofFn.2 ⟨i, rfl⟩, hx⟩
  have hn := (Lane.ofSorted_shuffle _).nodup_positions (inChainOrder_nodup batch) hpos
  rw [eq_map_lookup hn hsub .skipped, hpos, List.map_map]
  refine List.map_congr_left fun job hjob => ?_
  have hmem : job ∈ jobs batch :=
    (Lane.plan_perm _).mem_iff.1 (List.mem_flatten.2 ⟨_, List.getElem_mem i.2, hjob⟩)
  rw [reported_job _ hmem]
  rfl

theorem ofFn_out : List.ofFn out = (Lane.plan (jobs batch)).map fun lane => lane.map fun job =>
    (job.position, reported batch (List.ofFn out).flatten job.position) := by
  rw [← List.ofFn_getElem_eq_map]
  exact congrArg List.ofFn (funext (out_eq hpos))

theorem haltedLanes_report : (report batch (List.ofFn out)).haltedLanes =
    (Lane.plan (jobs batch)).countP fun lane => lane.any fun job =>
      (reported batch (List.ofFn out).flatten job.position).isHalted := by
  have hcount : (report batch (List.ofFn out)).haltedLanes =
      (List.ofFn out).countP fun lane => lane.any fun o => o.2.isHalted := rfl
  conv_rhs at hcount => rw [ofFn_out hpos, List.countP_map]
  rw [hcount]
  refine List.countP_congr fun lane _ => ?_
  rw [Function.comp_apply, List.any_map]
  rfl

/-- The outcomes of lanes, each of which goes through its jobs with some replies, make a report that
accounts for the batch. -/
theorem accounts_report
    (hran : ∀ i, ∃ script script', Store.scripted.Runs rules
      (((Lane.plan (jobs batch)).get i).map Job.operation) script ((out i).map Prod.snd) script') :
    Accounts rules batch (reported batch (List.ofFn out).flatten) (report batch (List.ofFn out)) := by
  have hran' : ∀ lane ∈ Lane.plan (jobs batch), ∃ script script', Store.scripted.Runs rules
      (lane.map Job.operation) script
      (lane.map fun job => reported batch (List.ofFn out).flatten job.position) script' := by
    intro lane hlane
    obtain ⟨i, hi, rfl⟩ := List.getElem_of_mem hlane
    have h := hran ⟨i, hi⟩
    rw [out_eq hpos, List.map_map] at h
    exact h
  have hhalts : ∀ lane ∈ Lane.plan (jobs batch), Outcome.HaltsOnce
      (lane.map fun job => reported batch (List.ofFn out).flatten job.position) := by
    intro lane hlane
    obtain ⟨script, script', h⟩ := hran' lane hlane
    exact h.haltsOnce
  have hunread := reported_unread batch (List.ofFn out).flatten
  have hentries := entries_report batch (List.ofFn out)
  have hlanes := haltedLanes_report hpos
  constructor
  case entries => exact hentries
  case unread => exact hunread
  case dealt => exact Lane.plan_perm _
  case ran => exact hran'
  case halts => exact hhalts
  case skipped =>
    intro before job after hlane hskipped
    have h := hhalts _ hlane
    rw [List.map_append, List.map_cons, hskipped] at h
    have hany := h.halt_before_skipped
    rwa [List.any_map, List.any_eq_true] at hany
  case haltedLanes => exact haltedLanes_eq hentries hunread hhalts hlanes
  case complete => exact isComplete_iff hentries hunread hhalts hlanes
  case total =>
    rw [Report.counts_add, hentries, List.length_map, (chain_perm batch).length_eq,
      List.length_zipIdx]

end
end

variable {σ : Type} {store : Store σ} {rules : Rules} {limits : Limits} {batch : List Envelope}

theorem runs_of_interleaved {s s' : σ}
    {out : Fin (Lane.plan (jobs batch)).length → List (Nat × Outcome)}
    (h : Interleaved store (tasks rules batch) s out s') (i : Fin (Lane.plan (jobs batch)).length) :
    (out i).map Prod.fst = ((Lane.plan (jobs batch)).get i).map Job.position ∧
      ∃ script script', Store.scripted.Runs rules (((Lane.plan (jobs batch)).get i).map Job.operation)
        script ((out i).map Prod.snd) script' := by
  obtain ⟨script, hrun⟩ := h.scripted i
  rw [tasks, Task.run_ofLane, List.nil_append] at hrun
  rw [← hrun]
  exact ⟨Store.map_fst_runLane .., script, _, Store.runs_runLane ..⟩

theorem accounts_of_interleaved {s s' : σ}
    {out : Fin (Lane.plan (jobs batch)).length → List (Nat × Outcome)}
    (h : Interleaved store (tasks rules batch) s out s') :
    Accounts rules batch (reported batch (List.ofFn out).flatten) (report batch (List.ofFn out)) :=
  accounts_report (fun i => (runs_of_interleaved h i).1) fun i => (runs_of_interleaved h i).2

theorem process_interleaved (store : Store σ) (rules : Rules) (hne : batch ≠ [])
    (hmax : batch.length ≤ limits.maxBatchSize.toNat) (s : σ) :
    ∃ out, List.ofFn out = (store.runLanes rules (Lane.plan (jobs batch)) s).1 ∧
      Interleaved store (tasks rules batch) s out
        (store.runLanes rules (Lane.plan (jobs batch)) s).2 ∧
      process store rules limits batch s = (.ok (report batch (List.ofFn out)),
        (store.runLanes rules (Lane.plan (jobs batch)) s).2) := by
  obtain ⟨out, hout, h⟩ := store.interleaved_runLanes rules (Lane.plan (jobs batch)) s
  refine ⟨out, hout, h, ?_⟩
  rw [process, if_neg hne, if_neg (Nat.not_lt_of_le hmax), hout]

/-- Whatever a store does, and however the lanes of a batch take turns at it, the report accounts
for the batch with the outcomes that the lanes have. Where they run one after another, these are
the outcomes of their operations at the store. -/
theorem report_accounts (store : Store σ) (rules : Rules) (hne : batch ≠ [])
    (hmax : batch.length ≤ limits.maxBatchSize.toNat) (s : σ) :
    (∀ out s', Interleaved store (tasks rules batch) s out s' →
      ∃ what, Accounts rules batch what (report batch (List.ofFn out)) ∧
        ∀ i, out i =
          ((Lane.plan (jobs batch)).get i).map fun job => (job.position, what job.position)) ∧
    ∃ what r s', process store rules limits batch s = (.ok r, s') ∧
      Accounts rules batch what r ∧ store.RunsLanes rules what (Lane.plan (jobs batch)) s s' := by
  constructor
  · exact fun out s' h =>
      ⟨_, accounts_of_interleaved h, out_eq fun i => (runs_of_interleaved h i).1⟩
  · obtain ⟨out, hout, h, hprocess⟩ := process_interleaved store rules hne hmax s
    have hlanes := hout.symm.trans (ofFn_out fun i => (runs_of_interleaved h i).1)
    exact ⟨_, _, _, hprocess, accounts_of_interleaved h, Store.runsLanes_runLanes hlanes⟩

/-- A store whose first access fails, at a batch that begins with an envelope rejected at once. -/
theorem report_accounts_first_access :
    let by_ (height : UInt64) (index : UInt32) (i : Inscription) : Envelope :=
      ⟨⟨height, index⟩, ⟨"DA"⟩, "", 1, i⟩
    let bad := by_ 1 2 (.mint ⟨"BB", "many"⟩)
    let mint := by_ 2 0 (.mint ⟨"AA", "2000"⟩)
    let other := by_ 1 1 (.deploy ⟨"BB", "5000", none, none, none, none⟩)
    let first := by_ 1 0 (.deploy ⟨"AA", "5000", none, none, none, none⟩)
    let store := Store.flaky fun n => if n = 0 then some .lockPoisoned else none
    ∃ what r s', process store ⟨false⟩ ⟨4, false⟩ [bad, mint, other, first] (.empty, 0) =
        (.ok r, s') ∧
      Accounts ⟨false⟩ [bad, mint, other, first] what r ∧
      what 3 = .halted .lockPoisoned ∧ what 1 = .skipped ∧ (what 2).isApplied = true ∧
      (what 0).reason?.isSome = true ∧ r.haltedLanes = 1 := by
  intro by_ bad mint other first store
  have hmax : [bad, mint, other, first].length ≤ (Limits.mk 4 false).maxBatchSize.toNat := by decide
  have hchain : chain [bad, mint, other, first] = [(first, 3), (other, 2), (bad, 0), (mint, 1)] :=
    chain_eq (by decide +kernel) (by decide +kernel)
  have hplan : Lane.plan (jobs [bad, mint, other, first]) =
      Lane.ofSorted ([(first, 3), (other, 2), (bad, 0), (mint, 1)].filterMap Job.ofEnvelope?) := by
    rw [Lane.plan, inChainOrder_jobs, hchain]
  obtain ⟨-, what, r, s', hr, h, -⟩ := report_accounts store ⟨false⟩ (List.cons_ne_nil _ _) hmax
    (.empty, 0)
  have hrun := hr
  rw [process, if_neg (List.cons_ne_nil _ _), if_neg (Nat.not_lt_of_le hmax), hplan] at hrun
  obtain ⟨rfl, -⟩ : _ = r ∧ _ = s' := (Prod.ext_iff.1 hrun).imp_left Except.ok.inj
  have hentries := h.entries
  rw [report, entries_eq, hchain] at hentries
  simp only [List.map_cons, List.map_nil, entry, List.cons.injEq, Entry.mk.injEq, true_and,
    and_true] at hentries
  obtain ⟨hfirst, hother, hbad, hmint⟩ := hentries
  refine ⟨what, _, s', hr, h, ?_⟩
  rw [← hfirst, ← hother, ← hbad, ← hmint]
  decide +kernel

end Batch
end TokenLedger
