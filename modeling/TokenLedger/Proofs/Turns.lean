import TokenLedger.Proofs.Interleaving
import TokenLedger.Proofs.Lanes
import TokenLedger.Proofs.Reachable

/-! Lanes as tasks that take turns. Main statements: a lane's task comes to what the lane does, and
both doing the lanes one after another and doing the jobs one after another are ways to take
turns. -/
namespace TokenLedger

theorem Outcome.isHalted_of_not_isPending {o : Outcome} (h : o.isPending = false) :
    o.isHalted = false := by
  cases o with
  | halted | skipped => cases h
  | applied | rejected | unapplied => rfl

variable {σ α : Type}

namespace Store

/-- What comes of a verdict. -/
def conclude (store : Store σ) : Except Dismissal Approval × σ → Outcome × σ
  | (.ok a, s) =>
    match store.apply a s with
    | (.ok journal, s) => (.applied a journal.length, s)
    | (.error (.failed e), s) => (.halted e, s)
    | (.error (.refused r), s) => (.unapplied r, s)
  | (.error (.rejected r), s) => (.rejected r, s)
  | (.error (.unverified e), s) => (.halted e, s)

theorem process_eq (store : Store σ) (rules : Rules) (op : Operation) (s : σ) :
    store.process rules op s = store.conclude ((op.verdict rules).run store s) := rfl

/-- Jobs one after another, each judged and carried out. -/
def processAll (store : Store σ) (rules : Rules) : List Job → σ → List (Nat × Outcome) × σ
  | [], s => ([], s)
  | job :: rest, s =>
    let (outcome, s) := store.process rules job.operation s
    let (outcomes, s) := store.processAll rules rest s
    ((job.position, outcome) :: outcomes, s)

theorem isPending_process_ledger (rules : Rules) (op : Operation) (l : Ledger) :
    (ledger.process rules op l).1.isPending = false := by
  rw [process_ledger]
  cases (op.verdict rules).on l.answer with
  | error r => rfl
  | ok a => dsimp only; cases l.apply a <;> rfl

end Store

namespace Task

/-- Goes through an inquiry, carries out the approval, and goes on with the outcome. -/
def judge (k : Outcome → Task α) : Inquiry Approval → Task α
  | .done a => .apply a fun
    | .ok journal => k (.applied a journal.length)
    | .error (.failed e) => k (.halted e)
    | .error (.refused r) => k (.unapplied r)
  | .reject r => k (.rejected r)
  | .ask q next => .read q fun
    | .ok x => judge k (next x)
    | .error e => k (.halted e)

/-- The jobs of a lane in order, after the outcomes so far. After a halt the rest is skipped. -/
def ofLane (rules : Rules) : Lane → List (Nat × Outcome) → Task (List (Nat × Outcome))
  | [], out => done out
  | job :: rest, out => judge (fun
      | .halted e =>
        done (out ++ (job.position, .halted e) :: rest.map fun j => (j.position, .skipped))
      | outcome => ofLane rules rest (out ++ [(job.position, outcome)]))
    (job.operation.verdict rules)

variable {store : Store σ} {k : Outcome → Task α} {K : LedgerKey → Prop} {rules : Rules}

theorem steps_judge (x : Inquiry Approval) (s : σ) : Steps store (judge k x) s
    (k (store.conclude (x.run store s)).1) (store.conclude (x.run store s)).2 := by
  induction x generalizing s with
  | done a =>
    refine .head (.apply a _ s) ?_
    simp only [Inquiry.run, Store.conclude]
    rcases store.apply a s with ⟨(_ | _) | _, s'⟩ <;> exact .refl _ _
  | reject r => exact .refl _ _
  | ask q next ih =>
    rw [judge]
    refine .head (.read q _ s) ?_
    simp only [Inquiry.run]
    rcases store.read q s with ⟨_ | x, s'⟩
    · exact .refl _ _
    · exact ih x s'

theorem run_ofLane (lane : Lane) (out : List (Nat × Outcome)) (s : σ) :
    (ofLane rules lane out).run store s =
      (out ++ (store.runLane rules lane s).1, (store.runLane rules lane s).2) := by
  induction lane generalizing out s with
  | nil => simp [ofLane, run, Store.runLane]
  | cons job rest ih =>
    rw [ofLane, (steps_judge _ s).run_eq, Store.runLane, Store.process_eq]
    rcases store.conclude ((job.operation.verdict rules).run store s) with ⟨outcome, s'⟩
    cases outcome with
    | halted e => rfl
    | applied | rejected | unapplied | skipped => simp [ih]

theorem steps_ofLane {job : Job} {rest : Lane} {out : List (Nat × Outcome)} {s : σ}
    (h : (store.process rules job.operation s).1.isPending = false) :
    Steps store (ofLane rules (job :: rest) out) s
      (ofLane rules rest (out ++ [(job.position, (store.process rules job.operation s).1)]))
      (store.process rules job.operation s).2 := by
  rw [ofLane]
  have hsteps := @steps_judge _ _ store (fun
    | .halted e =>
      done (out ++ (job.position, .halted e) :: rest.map fun j => (j.position, .skipped))
    | outcome => ofLane rules rest (out ++ [(job.position, outcome)]))
    (job.operation.verdict rules) s
  rw [← Store.process_eq] at hsteps
  generalize store.process rules job.operation s = p at h hsteps ⊢
  obtain ⟨outcome, s'⟩ := p
  cases outcome with
  | halted | skipped => cases h
  | applied | rejected | unapplied => exact hsteps

theorem judge_within {x : Inquiry Approval} (hx : x.Within K fun a => ∀ key ∈ a.keys, K key)
    (hk : ∀ o, (k o).Within K) : (judge k x).Within K := by
  induction x with
  | done a =>
    refine ⟨hx, fun r => ?_⟩
    rcases r with (_ | _) | _ <;> exact hk _
  | reject r => exact hk _
  | ask q next ih =>
    rw [judge]
    refine ⟨hx.1, fun r => ?_⟩
    cases r with
    | error e => exact hk _
    | ok x => exact ih x (hx.2 x)

theorem ofLane_within {lane : Lane} (h : ∀ key, lane.Touches key → K key)
    (out : List (Nat × Outcome)) : (ofLane rules lane out).Within K := by
  induction lane generalizing out with
  | nil => trivial
  | cons job rest ih =>
    have hx := job.operation.verdict_within rules
    have hjob : ∀ key ∈ job.operation.footprint, K key := fun key hkey =>
      h key ⟨job, List.mem_cons_self, hkey⟩
    refine judge_within (hx.mono hjob fun a ha key hkey => hjob key (ha key hkey)) fun o => ?_
    have hrest := ih fun key ⟨j, hj, hkey⟩ => h key ⟨j, List.mem_cons_of_mem _ hj, hkey⟩
    cases o with
    | halted e => trivial
    | applied | rejected | unapplied | skipped => exact hrest _

end Task

open Function (update)

theorem Store.interleaved_runLanes (store : Store σ) (rules : Rules) (lanes : List Lane) (s : σ) :
    ∃ out, List.ofFn out = (store.runLanes rules lanes s).1 ∧
      Interleaved store (fun i : Fin lanes.length => Task.ofLane rules lanes[i] []) s out
        (store.runLanes rules lanes s).2 := by
  induction lanes generalizing s with
  | nil => exact ⟨fun i => i.elim0, rfl, .done s fun i => i.elim0⟩
  | cons lane rest ih =>
    obtain ⟨out, hout, h⟩ := ih (store.runLane rules lane s).2
    have hfirst : Task.Steps store (Task.ofLane rules lane []) s
        (.done (store.runLane rules lane s).1) (store.runLane rules lane s).2 := by
      have hs : Task.Steps store (Task.ofLane rules lane []) s _ _ := Task.steps_run _ s
      rwa [Task.run_ofLane, List.nil_append] at hs
    refine ⟨Fin.cases (store.runLane rules lane s).1 out, ?_, .steps (i := 0) hfirst rfl ?_⟩
    · rw [List.ofFn_succ]
      exact congrArg (_ :: ·) hout
    · refine h.embed (Fin.succ_injective _) (fun i => ?_) (fun i => rfl) fun c hc => ?_
      · rw [Function.update_of_ne (Fin.succ_ne_zero i)]
        rfl
      · cases c using Fin.cases with
        | zero => rw [Function.update_self]; rfl
        | succ i => exact absurd rfl (hc i)

/-- The jobs one after another take turns, a job of some lane at a time. -/
theorem Shuffle.interleaved {ι : Type} [DecidableEq ι] {lanes : ι → Lane} {jobs : List Job}
    (h : Shuffle lanes jobs) (rules : Rules) (before : ι → List (Nat × Outcome)) (l : Ledger) :
    ∃ out, Shuffle out (Store.ledger.processAll rules jobs l).1 ∧
      Interleaved Store.ledger (fun i => Task.ofLane rules (lanes i) (before i)) l
        (fun i => before i ++ out i) (Store.ledger.processAll rules jobs l).2 := by
  induction h generalizing before l with
  | nil h =>
    refine ⟨fun _ => [], .nil fun _ => rfl, .done l fun i => ?_⟩
    rw [h i, List.append_nil, Task.ofLane]
  | @cons lanes xs job i tail hi _ ih =>
    have hsteps : Task.Steps Store.ledger (Task.ofLane rules (job :: tail) (before i)) l _ _ :=
      Task.steps_ofLane (Store.isPending_process_ledger rules job.operation l)
    rw [← hi] at hsteps
    rw [Store.processAll]
    generalize Store.ledger.process rules job.operation l = p at hsteps ⊢
    obtain ⟨outcome, l₁⟩ := p
    obtain ⟨out, hout, hrest⟩ := ih (update before i (before i ++ [(job.position, outcome)])) l₁
    refine ⟨update out i ((job.position, outcome) :: out i), ?_, .steps (i := i) hsteps rfl ?_⟩
    · refine .cons i (out i) (Function.update_self ..) ?_
      rwa [Function.update_idem, Function.update_eq_self]
    · convert hrest using 1
      · funext j
        by_cases hj : j = i
        · subst hj
          rw [Function.update_self, Function.update_self, Function.update_self]
        · rw [Function.update_of_ne hj, Function.update_of_ne hj, Function.update_of_ne hj]
      · funext j
        by_cases hj : j = i
        · subst hj
          rw [Function.update_self, Function.update_self, List.append_assoc]
          rfl
        · rw [Function.update_of_ne hj, Function.update_of_ne hj]

/-- However the lanes of a plan take turns, they have the outcomes of the jobs in chain order, and
leave the ledger that these leave. -/
theorem Lane.turns_unique {jobs : List Job} {rules : Rules} {l l' : Ledger}
    {out : Fin (plan jobs).length → List (Nat × Outcome)}
    (h : Interleaved Store.ledger (fun i => Task.ofLane rules (plan jobs)[i] []) l out l') :
    Shuffle out (Store.ledger.processAll rules (inChainOrder jobs) l).1 ∧
      l' = (Store.ledger.processAll rules (inChainOrder jobs) l).2 := by
  obtain ⟨out', hout, h'⟩ :=
    (ofSorted_shuffle (inChainOrder jobs)).interleaved rules (fun _ => []) l
  have hwithin (i : Fin (plan jobs).length) :
      (Task.ofLane rules (plan jobs)[i] []).Within (Touches (plan jobs)[i]) :=
    Task.ofLane_within (fun _ hkey => hkey) []
  obtain ⟨rfl, rfl⟩ := h.unique h' hwithin fun i j key => ofSorted_disjoint (inChainOrder jobs)
  exact ⟨hout, rfl⟩

end TokenLedger
