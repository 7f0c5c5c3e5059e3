import TokenLedger.Proofs.Order
import TokenLedger.Proofs.Turns

/-! What a batch comes to when its lanes run at the same time. Main statement: the report and the
ledger are those of the envelopes taken one at a time in chain order. -/
namespace TokenLedger

theorem lookup_perm {γ : Type} {xs ys : List (Nat × γ)} (h : xs.Perm ys)
    (hn : (xs.map Prod.fst).Nodup) (k : Nat) : xs.lookup k = ys.lookup k := by
  ext x
  rw [lookup_eq_some_iff hn, lookup_eq_some_iff ((h.map Prod.fst).nodup hn), h.mem_iff]

theorem Shuffle.nodup_positions {n : Nat} {lanes : Fin n → Lane} {jobs : List Job}
    (h : Shuffle lanes jobs) (hn : (jobs.map Job.position).Nodup)
    {out : Fin n → List (Nat × Outcome)}
    (hpos : ∀ i, (out i).map Prod.fst = (lanes i).map Job.position) :
    ((List.ofFn out).flatten.map Prod.fst).Nodup := by
  have hlanes : (List.ofFn out).flatten.map Prod.fst =
      (List.ofFn lanes).flatten.map Job.position := by
    simp only [List.map_flatten, List.map_ofFn]
    exact congrArg (fun f => (List.ofFn f).flatten) (funext hpos)
  rwa [hlanes, (h.perm.map _).nodup_iff]

variable {σ : Type}

/-- Envelopes one at a time: each is read, judged and carried out before the next. -/
def Store.processInTurn (store : Store σ) (rules : Rules) : List Envelope → σ → List Entry × σ
  | [], s => ([], s)
  | e :: rest, s =>
    let (outcome, s) := match Operation.ofEnvelope e with
      | .ok op => store.process rules op s
      | .error r => (.rejected r, s)
    let (entries, s) := store.processInTurn rules rest s
    (⟨e.location, e.inscription.protocol, e.inscription.op, outcome⟩ :: entries, s)

theorem Store.processInTurn_eq (store : Store σ) (rules : Rules) {xs : List (Envelope × Nat)}
    (hn : (xs.map Prod.snd).Nodup) (s : σ) :
    store.processInTurn rules (xs.map Prod.fst) s =
      (xs.map (Batch.entry (store.processAll rules (xs.filterMap Job.ofEnvelope?) s).1),
        (store.processAll rules (xs.filterMap Job.ofEnvelope?) s).2) := by
  induction xs generalizing s with
  | nil => rfl
  | cons x xs ih =>
    obtain ⟨e, i⟩ := x
    rw [List.map_cons, List.nodup_cons] at hn
    cases he : Operation.ofEnvelope e with
    | error r =>
      have hx : Job.ofEnvelope? (e, i) = none := by rw [Job.ofEnvelope?, he]
      rw [List.filterMap_cons_none hx, List.map_cons, processInTurn, he]
      dsimp only
      rw [ih hn.2, List.map_cons, Batch.entry, Batch.outcome, he]
    | ok op =>
      have hx : Job.ofEnvelope? (e, i) = some ⟨i, e.location, op⟩ := by rw [Job.ofEnvelope?, he]
      rw [List.filterMap_cons_some hx, List.map_cons, processInTurn, he, processAll]
      dsimp only
      rw [ih hn.2, List.map_cons, Batch.entry, Batch.outcome, he, List.lookup_cons_self]
      congr 2
      refine List.map_congr_left fun y hy => ?_
      have hi : i ∉ xs.map Prod.snd := hn.1
      have hne : y.2 ≠ i := fun he => hi (he ▸ List.mem_map_of_mem hy)
      rw [Batch.entry, Batch.entry, Batch.outcome_congr]
      rw [List.lookup_cons, beq_false_of_ne hne]

theorem Store.map_fst_processAll (store : Store σ) (rules : Rules) (jobs : List Job) (s : σ) :
    (store.processAll rules jobs s).1.map Prod.fst = jobs.map Job.position := by
  induction jobs generalizing s with
  | nil => rfl
  | cons job jobs ih =>
    rw [processAll, List.map_cons, List.map_cons, ih]

theorem Store.isPending_processAll_ledger {rules : Rules} {jobs : List Job} {l : Ledger}
    {x : Nat × Outcome} (h : x ∈ (ledger.processAll rules jobs l).1) : x.2.isPending = false := by
  induction jobs generalizing l with
  | nil => cases h
  | cons job jobs ih =>
    rcases List.mem_cons.1 h with rfl | h
    · exact isPending_process_ledger rules job.operation l
    · exact ih h

namespace Batch

/-- What each lane of a batch does. -/
def tasks (rules : Rules) (batch : List Envelope) (i : Fin (Lane.plan (jobs batch)).length) :
    Task (List (Nat × Outcome)) :=
  Task.ofLane rules (Lane.plan (jobs batch))[i] []

/-- The report on envelopes that are taken one at a time. -/
def reference (rules : Rules) (batch : List Envelope) (l : Ledger) : Report × Ledger :=
  let (entries, l) := Store.ledger.processInTurn rules ((chain batch).map Prod.fst) l
  (⟨entries, (Lane.plan (jobs batch)).length, 0⟩, l)

variable {rules : Rules} {limits : Limits} {batch batch' : List Envelope} {l l' : Ledger}
  {r : Except BatchError Report}

theorem reference_eq (rules : Rules) (batch : List Envelope) (l : Ledger) :
    reference rules batch l =
      (⟨(chain batch).map (entry
          (Store.ledger.processAll rules (Lane.inChainOrder (jobs batch)) l).1),
        (Lane.plan (jobs batch)).length, 0⟩,
        (Store.ledger.processAll rules (Lane.inChainOrder (jobs batch)) l).2) := by
  rw [reference, Store.processInTurn_eq _ _ (chain_nodup batch), ← inChainOrder_jobs]

/-- However the lanes take turns, the report and the ledger are those of the envelopes one at a
time. -/
theorem report_of_interleaved
    {out : Fin (Lane.plan (jobs batch)).length → List (Nat × Outcome)}
    (h : Interleaved Store.ledger (tasks rules batch) l out l') :
    (report batch (List.ofFn out), l') = reference rules batch l := by
  obtain ⟨hout, rfl⟩ := Lane.turns_unique h
  have hperm := hout.perm
  have hn : ((List.ofFn out).flatten.map Prod.fst).Nodup := by
    rw [(hperm.map Prod.fst).nodup_iff, Store.map_fst_processAll]
    exact inChainOrder_nodup batch
  have hentries : entries batch (List.ofFn out).flatten = (chain batch).map
      (entry (Store.ledger.processAll rules (Lane.inChainOrder (jobs batch)) l).1) := by
    rw [entries_eq]
    refine List.map_congr_left fun x hx => ?_
    rw [entry, entry, outcome_congr (lookup_perm hperm hn x.2)]
  have hhalted : (List.ofFn out).countP (fun lane => lane.any fun o => o.2.isHalted) = 0 := by
    refine List.countP_eq_zero.2 fun lane hlane hany => ?_
    obtain ⟨o, ho, hh⟩ := List.any_eq_true.1 hany
    have hmem := hperm.mem_iff.1 (List.mem_flatten.2 ⟨lane, hlane, ho⟩)
    exact Bool.false_ne_true ((Outcome.isHalted_of_not_isPending
      (Store.isPending_processAll_ledger hmem)).symm.trans hh)
  rw [reference_eq, report, hentries, hhalted, List.length_ofFn]

theorem report_runLanes (rules : Rules) (batch : List Envelope) (l : Ledger) :
    (report batch (Store.ledger.runLanes rules (Lane.plan (jobs batch)) l).1,
      (Store.ledger.runLanes rules (Lane.plan (jobs batch)) l).2) = reference rules batch l := by
  obtain ⟨out, hout, h⟩ := Store.ledger.interleaved_runLanes rules (Lane.plan (jobs batch)) l
  rw [← hout]
  exact report_of_interleaved h

theorem process_eq_reference (hne : batch ≠ []) (hmax : batch.length ≤ limits.maxBatchSize.toNat) :
    process Store.ledger rules limits batch l =
      (.ok (reference rules batch l).1, (reference rules batch l).2) := by
  rw [process, if_neg hne, if_neg (Nat.not_lt_of_le hmax), ← report_runLanes]

/-- Fewer lanes than this run one after another in any case. -/
def parallelThreshold : Nat := 4

/-- The lanes of a batch run at the same time. -/
def RunsAtOnce (limits : Limits) (batch : List Envelope) : Prop :=
  limits.parallelLanes = true ∧ parallelThreshold ≤ (Lane.plan (jobs batch)).length

/-- What may come of a batch. Lanes that run at the same time take turns at the ledger in any
order. -/
inductive Yields (rules : Rules) (limits : Limits) (batch : List Envelope) (l : Ledger) :
    Except BatchError Report → Ledger → Prop
  | empty (h : batch = []) : Yields rules limits batch l (.error .empty) l
  | tooLarge (h : batch ≠ []) (hmax : limits.maxBatchSize.toNat < batch.length) :
      Yields rules limits batch l (.error (.tooLarge batch.length limits.maxBatchSize.toNat)) l
  | oneByOne (h : batch ≠ []) (hmax : batch.length ≤ limits.maxBatchSize.toNat)
      (hp : ¬RunsAtOnce limits batch) : Yields rules limits batch l
        (.ok (report batch (Store.ledger.runLanes rules (Lane.plan (jobs batch)) l).1))
        (Store.ledger.runLanes rules (Lane.plan (jobs batch)) l).2
  | atOnce (h : batch ≠ []) (hmax : batch.length ≤ limits.maxBatchSize.toNat)
      (hp : RunsAtOnce limits batch) {l' : Ledger}
      {out : Fin (Lane.plan (jobs batch)).length → List (Nat × Outcome)}
      (hi : Interleaved Store.ledger (tasks rules batch) l out l') :
      Yields rules limits batch l (.ok (report batch (List.ofFn out))) l'

theorem Yields.eq_reference (h : Yields rules limits batch l r l') (hne : batch ≠ [])
    (hmax : batch.length ≤ limits.maxBatchSize.toNat) :
    r = .ok (reference rules batch l).1 ∧ l' = (reference rules batch l).2 := by
  cases h with
  | empty h => exact absurd h hne
  | tooLarge _ h => exact absurd hmax (Nat.not_le_of_lt h)
  | oneByOne =>
    rw [← report_runLanes]
    exact ⟨rfl, rfl⟩
  | atOnce _ _ _ hi =>
    rw [← report_of_interleaved hi]
    exact ⟨rfl, rfl⟩

theorem yields_reference (hne : batch ≠ []) (hmax : batch.length ≤ limits.maxBatchSize.toNat) :
    Yields rules limits batch l (.ok (reference rules batch l).1) (reference rules batch l).2 := by
  by_cases hp : RunsAtOnce limits batch
  · obtain ⟨out, hout, hi⟩ := Store.ledger.interleaved_runLanes rules (Lane.plan (jobs batch)) l
    rw [← report_of_interleaved hi]
    exact .atOnce hne hmax hp hi
  · rw [← report_runLanes]
    exact .oneByOne hne hmax hp

theorem yields_iff (hne : batch ≠ []) (hmax : batch.length ≤ limits.maxBatchSize.toNat) :
    Yields rules limits batch l r l' ↔
      r = .ok (reference rules batch l).1 ∧ l' = (reference rules batch l).2 := by
  refine ⟨fun h => h.eq_reference hne hmax, ?_⟩
  rintro ⟨rfl, rfl⟩
  exact yields_reference hne hmax

theorem yields_process (rules : Rules) (limits : Limits) (batch : List Envelope) (l : Ledger) :
    Yields rules limits batch l (process Store.ledger rules limits batch l).1
      (process Store.ledger rules limits batch l).2 := by
  by_cases hne : batch = []
  · rw [process, if_pos hne]
    exact .empty hne
  by_cases hmax : limits.maxBatchSize.toNat < batch.length
  · rw [process, if_neg hne, if_pos hmax]
    exact .tooLarge hne hmax
  · rw [process_eq_reference hne (Nat.le_of_not_lt hmax)]
    exact yields_reference hne (Nat.le_of_not_lt hmax)

theorem reference_congr (h : batch'.Perm batch) (hn : (batch.map Enveloped.location).Nodup) :
    reference rules batch' l = reference rules batch l := by
  have hc := chain_congr h hn
  have hlanes : (Lane.plan (jobs batch')).length = (Lane.plan (jobs batch)).length :=
    Lane.length_ofSorted_congr (by rw [map_operation_chain, map_operation_chain, hc])
  rw [reference, reference, hc, hlanes]

/-- Lanes are serializable: the outcome of every operation and the ledger are those of the
envelopes one at a time in chain order, however the lanes take turns. It makes no difference
whether lanes may run at the same time, nor, for envelopes at different places, in which order the
batch has them. -/
theorem serializable (rules : Rules) (l : Ledger) (hne : batch ≠ [])
    (hmax : batch.length ≤ limits.maxBatchSize.toNat) :
    (∃ out l', Interleaved Store.ledger (tasks rules batch) l out l') ∧
    (∀ out l', Interleaved Store.ledger (tasks rules batch) l out l' →
      report batch (List.ofFn out) = (reference rules batch l).1 ∧
        l' = (reference rules batch l).2) ∧
    process Store.ledger rules limits batch l =
      (.ok (reference rules batch l).1, (reference rules batch l).2) ∧
    (∀ parallel r l', Yields rules { limits with parallelLanes := parallel } batch l r l' ↔
      r = .ok (reference rules batch l).1 ∧ l' = (reference rules batch l).2) ∧
    (∀ batch', batch'.Perm batch → (batch.map Enveloped.location).Nodup → ∀ r l',
      Yields rules limits batch' l r l' ↔ Yields rules limits batch l r l') := by
  refine ⟨?_, fun out l' h => ?_, process_eq_reference hne hmax,
    fun parallel r l' => yields_iff hne hmax, ?_⟩
  · obtain ⟨out, -, h⟩ := Store.ledger.interleaved_runLanes rules (Lane.plan (jobs batch)) l
    exact ⟨out, _, h⟩
  · rw [← report_of_interleaved h]
    exact ⟨rfl, rfl⟩
  · intro batch' h hn r l'
    have hne' : batch' ≠ [] := by
      rintro rfl
      exact hne h.symm.eq_nil
    rw [yields_iff hne' (h.length_eq ▸ hmax), yields_iff hne hmax, reference_congr h hn]

/-- Four tokens, of which the first is minted at the end. Their lanes run at the same time, and the
batch may have its envelopes in any order. -/
theorem serializable_four_lanes :
    let by_ (index : UInt32) (i : Inscription) : Envelope := ⟨⟨1, index⟩, ⟨"DA"⟩, "", 1, i⟩
    let deploy (index : UInt32) (tick : String) : Envelope :=
      by_ index (.deploy ⟨tick, "5000", none, none, none, none⟩)
    let batch := [deploy 0 "AA", deploy 1 "BB", deploy 2 "CC", deploy 3 "DD",
      by_ 4 (.mint ⟨"AA", "2000"⟩)]
    RunsAtOnce ⟨5, true⟩ batch ∧
    (∃ out l', Interleaved Store.ledger (tasks ⟨false⟩ batch) .empty out l' ∧
      (report batch (List.ofFn out)).applied = 5) ∧
    ∀ batch', batch'.Perm batch → ∀ parallel r l', Yields ⟨false⟩ ⟨5, parallel⟩ batch' .empty r l' →
      ∃ report, r = .ok report ∧ report.laneCount = 4 ∧ report.haltedLanes = 0 ∧
        report.applied = 5 := by
  intro by_ deploy batch
  have hs : batch.Pairwise fun x y => x.location ≤ y.location := by decide +kernel
  have hlanes : (Lane.plan (jobs batch)).length = 4 := by
    rw [plan_of_sorted hs]
    decide +kernel
  have hreport : (reference ⟨false⟩ batch .empty).1.applied = 5 := by
    rw [reference, map_fst_chain_of_sorted hs]
    decide +kernel
  have hmax : batch.length ≤ (5 : UInt64).toNat := by decide
  have h (parallel : Bool) := @serializable ⟨5, parallel⟩ batch ⟨false⟩ .empty
    (List.cons_ne_nil _ _) hmax
  refine ⟨⟨rfl, Nat.le_of_eq hlanes.symm⟩, ?_, fun batch' hperm parallel r l' hr => ?_⟩
  · obtain ⟨⟨out, l', hi⟩, hall, -⟩ := h true
    exact ⟨out, l', hi, by rw [(hall out l' hi).1, hreport]⟩
  · have hyields := ((h parallel).2.2.2.2 batch' hperm (by decide) r l').1 hr
    obtain ⟨rfl, -⟩ := ((h parallel).2.2.2.1 parallel r l').1 hyields
    exact ⟨_, rfl, hlanes, rfl, hreport⟩

end Batch
end TokenLedger
