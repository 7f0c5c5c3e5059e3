import TokenLedger.Store
import TokenLedger.Proofs.Turns

/-! Stores that fail now and then. A failure may meet any access and changes nothing. Main
statements: tasks that take turns at such a store end as each of them may alone, and a lane that
meets a failure has carried out the jobs before it and no others. -/
namespace TokenLedger

variable {σ α : Type}

/-- A store that shows a ledger. It answers and applies as the ledger does, or fails and leaves the
ledger as it is. -/
structure Store.MayFail (store : Store σ) (view : σ → Ledger) : Prop where
  read : ∀ q s, view (store.read q s).2 = view s ∧
    ((store.read q s).1 = .ok ((view s).answer q) ∨ ∃ e, (store.read q s).1 = .error e)
  apply : ∀ a s, ((store.apply a s).1 = (ledger.apply a (view s)).1 ∧
      view (store.apply a s).2 = (ledger.apply a (view s)).2) ∨
    ((∃ e, (store.apply a s).1 = .error (.failed e)) ∧ view (store.apply a s).2 = view s)

namespace Store

/-- The ledger behind a pattern of failures, one for each access in turn. -/
def flaky (pattern : Nat → Option StoreError) : Store (Ledger × Nat) where
  read q s :=
    match pattern s.2 with
    | some e => (.error e, s.1, s.2 + 1)
    | none => (.ok (s.1.answer q), s.1, s.2 + 1)
  apply a s :=
    match pattern s.2 with
    | some e => (.error (.failed e), s.1, s.2 + 1)
    | none => ((ledger.apply a s.1).1, (ledger.apply a s.1).2, s.2 + 1)

theorem flaky_mayFail (pattern : Nat → Option StoreError) : (flaky pattern).MayFail Prod.fst where
  read q s := by
    simp only [flaky]
    cases pattern s.2 with
    | some e => exact ⟨rfl, .inr ⟨e, rfl⟩⟩
    | none => exact ⟨rfl, .inl rfl⟩
  apply a s := by
    simp only [flaky]
    cases pattern s.2 with
    | some e => exact .inr ⟨⟨e, rfl⟩, rfl⟩
    | none => exact .inl ⟨rfl, rfl⟩

end Store

namespace Task

variable {K : LedgerKey → Prop} {rules : Rules} {store : Store σ} {view : σ → Ledger}

/-- What a task may come to by itself on a ledger where any access may fail. -/
inductive Fallible : Task α → Ledger → α → Ledger → Prop
  | done (a : α) (l : Ledger) : Fallible (.done a) l a l
  | read {q : Query} {next : Except StoreError q.Answer → Task α} {l l' : Ledger} {b : α}
      (rest : Fallible (next (.ok (l.answer q))) l b l') : Fallible (.read q next) l b l'
  | readFails {q : Query} {next : Except StoreError q.Answer → Task α} {l l' : Ledger} {b : α}
      (e : StoreError) (rest : Fallible (next (.error e)) l b l') : Fallible (.read q next) l b l'
  | apply {a : Approval} {next : Except ApplyError Journal → Task α} {l l' : Ledger} {b : α}
      (rest : Fallible (next (Store.ledger.apply a l).1) (Store.ledger.apply a l).2 b l') :
      Fallible (.apply a next) l b l'
  | applyFails {a : Approval} {next : Except ApplyError Journal → Task α} {l l' : Ledger} {b : α}
      (e : StoreError) (rest : Fallible (next (.error (.failed e))) l b l') :
      Fallible (.apply a next) l b l'

theorem Step.fallible {t t' : Task α} {s s' : σ} {b : α} {m : Ledger} (h : Step store t s t' s')
    (hf : store.MayFail view) (ht : t.Within K) (hm : (view s).AgreeOn K m) :
    ∃ m', (view s').AgreeOn K m' ∧
      ∀ {n}, Fallible t' m' b n → Fallible t m b n := by
  cases h with
  | read q next =>
    obtain ⟨hv, hr | ⟨e, hr⟩⟩ := hf.read q s
    · rw [hv, hr, hm.answer ht.1]
      exact ⟨m, hm, .read⟩
    · rw [hv, hr]
      exact ⟨m, hm, .readFails e⟩
  | apply a next =>
    rcases hf.apply a s with ⟨hr, hv⟩ | ⟨⟨e, hr⟩, hv⟩
    · obtain ⟨hout, hagree⟩ := Store.apply_agreeOn hm ht.1
      rw [hr, hv, hout]
      exact ⟨_, hagree, .apply⟩
    · rw [hr, hv]
      exact ⟨m, hm, .applyFails e⟩

theorem Step.frame_fallible {t t' : Task α} {s s' : σ} {F : LedgerKey → Prop}
    (h : Step store t s t' s') (hf : store.MayFail view) (ht : t.Within K)
    (hF : ∀ key, K key → ¬F key) : (view s).AgreeOn F (view s') := by
  cases h with
  | read q next => rw [(hf.read q s).1]; exact .refl F _
  | apply a next =>
    rcases hf.apply a s with ⟨-, hv⟩ | ⟨-, hv⟩
    · rw [hv]
      exact Store.apply_frame fun key hkey => hF key (ht.1 key hkey)
    · rw [hv]
      exact .refl F _

end Task

namespace Interleaved

open Function (update)

variable {ι : Type} [DecidableEq ι] {store : Store σ} {view : σ → Ledger} {ts : ι → Task α}
  {out : ι → α} {s s' : σ} {K : ι → LedgerKey → Prop} {m : Ledger}

theorem fallible (h : Interleaved store ts s out s') (hf : store.MayFail view)
    (hw : ∀ i, (ts i).Within (K i)) (hd : ∀ i j key, K i key → K j key → i = j) (i : ι)
    (hm : (view s).AgreeOn (K i) m) :
    ∃ m', Task.Fallible (ts i) m (out i) m' ∧ (view s').AgreeOn (K i) m' := by
  induction h generalizing m with
  | done s h =>
    rw [h i]
    exact ⟨m, .done _ m, hm⟩
  | @step ts t out s s₁ _ j h rest ih =>
    have hw' := within_update hw (h.within (hw j))
    by_cases hij : i = j
    · subst hij
      obtain ⟨m₁, hm₁, hstep⟩ := h.fallible hf (hw i) hm
      obtain ⟨m', hrun, hm'⟩ := ih hw' hm₁
      rw [Function.update_self] at hrun
      exact ⟨m', hstep hrun, hm'⟩
    · have hl : (view s).AgreeOn (K i) (view s₁) :=
        h.frame_fallible hf (hw j) fun key hj hi => hij (hd i j key hi hj)
      have hrest := ih hw' (hl.symm.trans hm)
      rwa [Function.update_of_ne hij] at hrest

theorem frame_fallible (h : Interleaved store ts s out s') (hf : store.MayFail view)
    (hw : ∀ i, (ts i).Within (K i)) :
    (view s).AgreeOn (fun key => ∀ i, ¬K i key) (view s') := by
  induction h with
  | done s h => exact .refl _ _
  | step j h _ ih =>
    refine .trans ?_ (ih (within_update hw (h.within (hw j))))
    exact h.frame_fallible hf (hw j) fun key hj hn => hn j hj

end Interleaved

namespace Task

variable {k : Outcome → Task α} {rules : Rules} {l l' : Ledger} {b : α}

/-- A job that meets a failure is halted and changes nothing, and one that does not is judged and
carried out. -/
theorem Fallible.judge {x : Inquiry Approval} (h : Fallible (judge k x) l b l') :
    (∃ e, Fallible (k (.halted e)) l b l') ∨
      Fallible (k (Store.ledger.conclude (x.run Store.ledger l)).1)
        (Store.ledger.conclude (x.run Store.ledger l)).2 b l' := by
  induction x with
  | done a =>
    rw [Task.judge] at h
    cases h with
    | apply rest =>
      refine .inr ?_
      simp only [Inquiry.run, Store.conclude]
      generalize Store.ledger.apply a l = applied at rest ⊢
      rcases applied with ⟨(_ | _) | _, l₁⟩ <;> exact rest
    | applyFails e rest => exact .inl ⟨e, rest⟩
  | reject r => exact .inr h
  | ask q next ih =>
    rw [Task.judge] at h
    cases h with
    | read rest => exact ih _ rest
    | readFails e rest => exact .inl ⟨e, rest⟩

/-- A lane that may meet a failure settles its first jobs, as they are settled without one, and the
others are pending. -/
theorem Fallible.ofLane {lane : Lane} {before out : List (Nat × Outcome)}
    (h : Fallible (ofLane rules lane before) l out l') :
    ∃ settled pending outcomes, lane = settled ++ pending ∧
      out = before ++ (Store.ledger.processAll rules settled l).1 ++ outcomes ∧
      outcomes.map Prod.fst = pending.map Job.position ∧
      (∀ x ∈ outcomes, x.2.isPending = true) ∧
      l' = (Store.ledger.processAll rules settled l).2 := by
  induction lane generalizing before l with
  | nil =>
    cases h
    exact ⟨[], [], [], rfl, by simp [Store.processAll], rfl, by simp, rfl⟩
  | cons job rest ih =>
    rw [Task.ofLane] at h
    have hnot := Store.isPending_process_ledger rules job.operation l
    rcases h.judge with ⟨e, h⟩ | h
    · cases h
      refine ⟨[], job :: rest,
        (job.position, .halted e) :: rest.map fun j => (j.position, .skipped), rfl,
        by simp [Store.processAll], ?_, ?_, rfl⟩
      · simp [Function.comp_def]
      · rintro x hx
        rcases List.mem_cons.1 hx with rfl | hx
        · rfl
        · obtain ⟨j, -, rfl⟩ := List.mem_map.1 hx
          rfl
    · rw [← Store.process_eq] at h
      have hrest : Fallible (Task.ofLane rules rest
          (before ++ [(job.position, (Store.ledger.process rules job.operation l).1)]))
          (Store.ledger.process rules job.operation l).2 out l' := by
        generalize Store.ledger.process rules job.operation l = p at h hnot ⊢
        obtain ⟨outcome, l₁⟩ := p
        cases outcome with
        | halted | skipped => cases hnot
        | applied | rejected | unapplied => exact h
      obtain ⟨settled, pending, outcomes, rfl, rfl, hpos, hpend, rfl⟩ := ih hrest
      refine ⟨job :: settled, pending, outcomes, rfl, ?_, hpos, hpend, rfl⟩
      rw [Store.processAll, List.append_assoc before, List.singleton_append]

end Task
end TokenLedger
