import TokenLedger.Proofs.Turns

/-! What a lane does at a store of any kind, whose accesses may fail and may answer anything. Main
statements: a lane processes its operations one after another up to the first that the store fails,
and a lane that takes turns with others does so at a store that gives the replies that it got. -/
namespace TokenLedger

namespace Outcome

/-- Settled outcomes, and then none or a halt before operations that are skipped. -/
inductive HaltsOnce : List Outcome → Prop
  | nil : HaltsOnce []
  | settled {o : Outcome} {os : List Outcome} (ho : o.isPending = false) (rest : HaltsOnce os) :
      HaltsOnce (o :: os)
  | halted (e : StoreError) (n : Nat) : HaltsOnce (.halted e :: List.replicate n .skipped)

namespace HaltsOnce

variable {o : Outcome} {os before after : List Outcome}

theorem countP_isHalted (h : HaltsOnce os) :
    os.countP isHalted = if os.any isHalted then 1 else 0 := by
  induction h with
  | nil => rfl
  | @settled o os ho _ ih =>
    have hnot := isHalted_of_not_isPending ho
    rw [List.countP_cons_of_neg (by rw [hnot]; decide), ih, List.any_cons, hnot, Bool.false_or]
  | halted e n =>
    have hskipped : (List.replicate n skipped).countP isHalted = 0 :=
      List.countP_eq_zero.2 fun o ho => by rw [List.eq_of_mem_replicate ho]; decide
    rw [List.countP_cons_of_pos rfl, hskipped]
    rfl

theorem any_isHalted (h : HaltsOnce os) (hmem : o ∈ os) (ho : o.isPending = true) :
    os.any isHalted = true := by
  induction h with
  | nil => cases hmem
  | settled hs _ ih =>
    rcases List.mem_cons.1 hmem with rfl | hmem
    · rw [hs] at ho
      cases ho
    · rw [List.any_cons, ih hmem, Bool.or_true]
  | halted e n => rfl

theorem halt_before_skipped (h : HaltsOnce (before ++ .skipped :: after)) :
    before.any isHalted = true := by
  generalize hos : before ++ .skipped :: after = os at h
  induction h generalizing before with
  | nil => simp at hos
  | settled ho _ ih =>
    cases before with
    | nil =>
      obtain ⟨rfl, -⟩ := List.cons.inj hos
      cases ho
    | cons b before =>
      rw [List.any_cons, ih (List.cons.inj hos).2, Bool.or_true]
  | halted e n =>
    cases before with
    | nil => cases hos
    | cons b before =>
      obtain ⟨rfl, -⟩ := List.cons.inj hos
      rfl

theorem pairwise_isPending (h : HaltsOnce os) :
    os.Pairwise fun o o' => o.isPending = true → o'.isPending = true := by
  induction h with
  | nil => exact .nil
  | settled ho _ ih =>
    refine .cons (fun o' _ hpending => ?_) ih
    rw [ho] at hpending
    cases hpending
  | halted e n =>
    have hskipped : ∀ o ∈ List.replicate n skipped, o.isPending = true := fun o ho => by
      rw [List.eq_of_mem_replicate ho]
      rfl
    refine .cons (fun o ho _ => hskipped o ho) ?_
    exact List.pairwise_of_forall_mem_list fun _ _ o ho _ => hskipped o ho

end HaltsOnce
end Outcome

variable {σ α : Type}

namespace Store

/-- Operations are processed one after another, up to the first that the store fails. -/
inductive Runs (store : Store σ) (rules : Rules) : List Operation → σ → List Outcome → σ → Prop
  | nil (s : σ) : Runs store rules [] s [] s
  | settled {op : Operation} {ops : List Operation} {s s₁ s₂ : σ} {o : Outcome}
      {os : List Outcome} (h : store.process rules op s = (o, s₁)) (ho : o.isPending = false)
      (rest : Runs store rules ops s₁ os s₂) : Runs store rules (op :: ops) s (o :: os) s₂
  | halted {op : Operation} {ops : List Operation} {s s₁ : σ} {e : StoreError}
      (h : store.process rules op s = (.halted e, s₁)) :
      Runs store rules (op :: ops) s (.halted e :: List.replicate ops.length .skipped) s₁

variable {store : Store σ} {rules : Rules}

theorem Runs.haltsOnce {ops : List Operation} {s s' : σ} {os : List Outcome}
    (h : store.Runs rules ops s os s') : Outcome.HaltsOnce os := by
  induction h with
  | nil => exact .nil
  | settled _ ho _ ih => exact .settled ho ih
  | halted => exact .halted _ _

theorem process_ne_skipped (store : Store σ) (rules : Rules) (op : Operation) (s : σ) :
    (store.process rules op s).1 ≠ .skipped := by
  rw [process_eq]
  rcases (op.verdict rules).run store s with ⟨(r | e) | a, s₁⟩
  · simp [conclude]
  · simp [conclude]
  · simp only [conclude]
    rcases store.apply a s₁ with ⟨(r | e) | j, s₂⟩ <;> simp

theorem map_fst_runLane (store : Store σ) (rules : Rules) (lane : Lane) (s : σ) :
    (store.runLane rules lane s).1.map Prod.fst = lane.map Job.position := by
  induction lane generalizing s with
  | nil => rfl
  | cons job rest ih =>
    rw [runLane]
    rcases store.process rules job.operation s with ⟨o, s₁⟩
    cases o with
    | halted e => simp [Function.comp_def]
    | applied | rejected | unapplied | skipped => simp [ih]

theorem runs_runLane (store : Store σ) (rules : Rules) (lane : Lane) (s : σ) :
    store.Runs rules (lane.map Job.operation) s ((store.runLane rules lane s).1.map Prod.snd)
      (store.runLane rules lane s).2 := by
  induction lane generalizing s with
  | nil => exact .nil s
  | cons job rest ih =>
    have hne := store.process_ne_skipped rules job.operation s
    rw [runLane]
    rcases hp : store.process rules job.operation s with ⟨o, s₁⟩
    rw [hp] at hne
    cases o with
    | halted e =>
      have hhalted : store.Runs rules ((job :: rest).map Job.operation) s _ s₁ := .halted hp
      simpa [Function.comp_def, List.map_const'] using hhalted
    | skipped => exact absurd rfl hne
    | applied | rejected | unapplied => exact .settled hp rfl (ih s₁)

/-- Lanes are processed one after another, with outcomes said by the position in the batch. -/
inductive RunsLanes (store : Store σ) (rules : Rules) (what : Nat → Outcome) :
    List Lane → σ → σ → Prop
  | nil (s : σ) : RunsLanes store rules what [] s s
  | cons {lane : Lane} {lanes : List Lane} {s s₁ s₂ : σ}
      (h : store.Runs rules (lane.map Job.operation) s (lane.map fun job => what job.position) s₁)
      (rest : RunsLanes store rules what lanes s₁ s₂) :
      RunsLanes store rules what (lane :: lanes) s s₂

theorem runsLanes_runLanes {what : Nat → Outcome} {lanes : List Lane} {s : σ}
    (h : (store.runLanes rules lanes s).1 =
      lanes.map fun lane => lane.map fun job => (job.position, what job.position)) :
    store.RunsLanes rules what lanes s (store.runLanes rules lanes s).2 := by
  induction lanes generalizing s with
  | nil => exact .nil s
  | cons lane lanes ih =>
    obtain ⟨hlane, hlanes⟩ := List.cons.inj h
    refine .cons ?_ (ih hlanes)
    have hruns := store.runs_runLane rules lane s
    rw [hlane, List.map_map] at hruns
    exact hruns

/-- What a store says to one access, whichever it is. -/
structure Reply where
  read : (q : Query) → Except StoreError q.Answer
  apply : Approval → Except ApplyError Journal

/-- A store that gives replies in turn, and then none. -/
def scripted : Store (List Reply) where
  read q
    | [] => (.error .lockPoisoned, [])
    | reply :: rest => (reply.read q, rest)
  apply a
    | [] => (.error (.failed .lockPoisoned), [])
    | reply :: rest => (reply.apply a, rest)

end Store

theorem Task.Step.scripted {store : Store σ} {t t' : Task α} {s s' : σ}
    (h : Task.Step store t s t' s') :
    ∃ reply, ∀ rest, t.run Store.scripted (reply :: rest) = t'.run Store.scripted rest := by
  cases h with
  | read q next =>
    exact ⟨⟨fun q => (store.read q s).1, fun a => (store.apply a s).1⟩, fun rest => rfl⟩
  | apply a next =>
    exact ⟨⟨fun q => (store.read q s).1, fun a => (store.apply a s).1⟩, fun rest => rfl⟩

/-- A task that takes turns ends as it does alone, with the replies that it got. -/
theorem Interleaved.scripted {ι : Type} [DecidableEq ι] {store : Store σ} {ts : ι → Task α}
    {out : ι → α} {s s' : σ} (h : Interleaved store ts s out s') (i : ι) :
    ∃ script, ((ts i).run Store.scripted script).1 = out i := by
  induction h with
  | done s h => exact ⟨[], by rw [h i, Task.run]⟩
  | step j h _ ih =>
    obtain ⟨script, hrun⟩ := ih
    by_cases hij : i = j
    · subst hij
      obtain ⟨reply, hreply⟩ := h.scripted
      rw [Function.update_self] at hrun
      exact ⟨reply :: script, by rw [hreply, hrun]⟩
    · rw [Function.update_of_ne hij] at hrun
      exact ⟨script, hrun⟩

end TokenLedger
