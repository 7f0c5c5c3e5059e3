import Mathlib.Logic.Function.Basic
import TokenLedger.Proofs.Coverage

/-! Tasks that share a store, one access at a time in any order. Main statement: tasks that keep to
parts of the ledger of their own end as each of them does alone, in whatever order they take
turns. -/
namespace TokenLedger

/-- A program that uses a store by single accesses. -/
inductive Task (α : Type)
  | done (a : α)
  | read (q : Query) (next : Except StoreError q.Answer → Task α)
  | apply (a : Approval) (next : Except ApplyError Journal → Task α)

namespace Task

variable {σ α : Type} {store : Store σ} {K : LedgerKey → Prop}

/-- What a task comes to by itself. -/
def run (store : Store σ) : Task α → σ → α × σ
  | done a, s => (a, s)
  | read q next, s => (next (store.read q s).1).run store (store.read q s).2
  | apply a next, s => (next (store.apply a s).1).run store (store.apply a s).2

/-- One access to the store. -/
inductive Step (store : Store σ) : Task α → σ → Task α → σ → Prop
  | read (q : Query) (next : Except StoreError q.Answer → Task α) (s : σ) :
      Step store (.read q next) s (next (store.read q s).1) (store.read q s).2
  | apply (a : Approval) (next : Except ApplyError Journal → Task α) (s : σ) :
      Step store (.apply a next) s (next (store.apply a s).1) (store.apply a s).2

/-- Some accesses in a row. -/
inductive Steps (store : Store σ) : Task α → σ → Task α → σ → Prop
  | refl (t : Task α) (s : σ) : Steps store t s t s
  | head {t t' t'' : Task α} {s s' s'' : σ} (h : Step store t s t' s')
      (rest : Steps store t' s' t'' s'') : Steps store t s t'' s''

theorem steps_run (t : Task α) (s : σ) :
    Steps store t s (.done (t.run store s).1) (t.run store s).2 := by
  induction t generalizing s with
  | done a => exact .refl _ _
  | read q next ih => exact .head (.read q next s) (ih _ _)
  | apply a next ih => exact .head (.apply a next s) (ih _ _)

theorem Step.run_eq {t t' : Task α} {s s' : σ} (h : Step store t s t' s') :
    t.run store s = t'.run store s' := by
  cases h <;> rfl

theorem Steps.run_eq {t t' : Task α} {s s' : σ} (h : Steps store t s t' s') :
    t.run store s = t'.run store s' := by
  induction h with
  | refl => rfl
  | head h _ ih => rw [h.run_eq, ih]

/-- Whatever it is answered, a task uses the store under keys with a property only. -/
def Within (K : LedgerKey → Prop) : Task α → Prop
  | done _ => True
  | read q next => K q.key ∧ ∀ x, (next x).Within K
  | apply a next => (∀ key ∈ a.keys, K key) ∧ ∀ x, (next x).Within K

theorem Step.within {t t' : Task α} {s s' : σ} (h : Step store t s t' s') (ht : t.Within K) :
    t'.Within K := by
  cases h with
  | read q next s => exact ht.2 _
  | apply a next s => exact ht.2 _

theorem Step.agreeOn {t t' : Task α} {l l' m : Ledger} (h : Step Store.ledger t l t' l')
    (ht : t.Within K) (hm : l.AgreeOn K m) :
    ∃ m', Step Store.ledger t m t' m' ∧ l'.AgreeOn K m' := by
  cases h with
  | read q next =>
    have hq : l.answer q = m.answer q := hm.answer ht.1
    refine ⟨m, ?_, hm⟩
    have hstep : Step Store.ledger (.read q next) m _ _ := .read q next m
    simpa only [Store.ledger, hq] using hstep
  | apply a next =>
    obtain ⟨hr, ha⟩ := Store.apply_agreeOn hm ht.1
    refine ⟨(Store.ledger.apply a m).2, ?_, ha⟩
    rw [hr]
    exact .apply a next m

theorem Step.frame {t t' : Task α} {l l' : Ledger} {F : LedgerKey → Prop}
    (h : Step Store.ledger t l t' l') (ht : t.Within K) (hF : ∀ key, K key → ¬F key) :
    l.AgreeOn F l' := by
  cases h with
  | read q next => exact .refl F l
  | apply a next => exact Store.apply_frame fun key hkey => hF key (ht.1 key hkey)

end Task

open Function (update)

variable {ι σ α : Type} [DecidableEq ι]

/-- Tasks take turns at a store until all of them are done. -/
inductive Interleaved (store : Store σ) : (ι → Task α) → σ → (ι → α) → σ → Prop
  | done {ts : ι → Task α} {out : ι → α} (s : σ) (h : ∀ i, ts i = .done (out i)) :
      Interleaved store ts s out s
  | step {ts : ι → Task α} {t : Task α} {out : ι → α} {s s' s'' : σ} (i : ι)
      (h : Task.Step store (ts i) s t s') (rest : Interleaved store (update ts i t) s' out s'') :
      Interleaved store ts s out s''

namespace Interleaved

variable {store : Store σ} {ts : ι → Task α} {t : Task α} {out out' : ι → α} {s s' s'' : σ}

theorem steps {i : ι} {u : Task α} (h : Task.Steps store u s t s') (hu : ts i = u)
    (rest : Interleaved store (update ts i t) s' out s'') : Interleaved store ts s out s'' := by
  induction h generalizing ts with
  | refl t s =>
    rw [← hu, Function.update_eq_self] at rest
    exact rest
  | head h _ ih =>
    refine .step i (hu ▸ h) (ih (Function.update_self i _ ts) ?_)
    rwa [Function.update_idem]

theorem embed {κ : Type} [DecidableEq κ] {f : ι → κ} (hf : Function.Injective f)
    (h : Interleaved store ts s out s') {ts' : κ → Task α} {out' : κ → α}
    (hts : ∀ i, ts' (f i) = ts i) (hout : ∀ i, out' (f i) = out i)
    (hrest : ∀ c, (∀ i, f i ≠ c) → ts' c = .done (out' c)) : Interleaved store ts' s out' s' := by
  induction h generalizing ts' with
  | done s h =>
    refine .done s fun c => ?_
    by_cases hc : ∃ i, f i = c
    · obtain ⟨i, rfl⟩ := hc
      rw [hts, hout, h]
    · exact hrest c fun i hi => hc ⟨i, hi⟩
  | @step ts t _ _ _ _ i h _ ih =>
    refine .step (f i) (hts i ▸ h) (ih (fun j => ?_) hout fun c hc => ?_)
    · by_cases hj : j = i
      · rw [hj, Function.update_self, Function.update_self]
      · rw [Function.update_of_ne hj, Function.update_of_ne fun he => hj (hf he), hts]
    · rw [Function.update_of_ne (Ne.symm (hc i)), hrest c hc]

variable {K : ι → LedgerKey → Prop} {l l' l'' m : Ledger}

theorem within_update (hw : ∀ i, (ts i).Within (K i)) {i : ι} (ht : t.Within (K i)) (j : ι) :
    (update ts i t j).Within (K j) := by
  by_cases hj : j = i
  · subst hj
    rwa [Function.update_self]
  · rw [Function.update_of_ne hj]
    exact hw j

/-- Each task has the result that it has alone, from any ledger that agrees on its own part, and
its own part of the ledger is left the same. -/
theorem alone (h : Interleaved Store.ledger ts l out l') (hw : ∀ i, (ts i).Within (K i))
    (hd : ∀ i j key, K i key → K j key → i = j) (i : ι) (hm : l.AgreeOn (K i) m) :
    out i = ((ts i).run Store.ledger m).1 ∧
      l'.AgreeOn (K i) ((ts i).run Store.ledger m).2 := by
  induction h generalizing m with
  | done l h =>
    rw [h i]
    exact ⟨rfl, hm⟩
  | @step ts t _ l l₁ _ j h rest ih =>
    have hw' := within_update hw (h.within (hw j))
    by_cases hij : i = j
    · subst hij
      obtain ⟨m', hstep, hm'⟩ := h.agreeOn (hw i) hm
      have hrest := ih hw' hm'
      rwa [Function.update_self, ← hstep.run_eq] at hrest
    · -- The turn of another task does not touch this one's part.
      have hl : l.AgreeOn (K i) l₁ :=
        h.frame (hw j) fun key hj hi => hij (hd i j key hi hj)
      have hrest := ih hw' (hl.symm.trans hm)
      rwa [Function.update_of_ne hij] at hrest

theorem frame (h : Interleaved Store.ledger ts l out l') (hw : ∀ i, (ts i).Within (K i)) :
    l.AgreeOn (fun key => ∀ i, ¬K i key) l' := by
  induction h with
  | done l h => exact .refl _ l
  | step j h _ ih =>
    refine .trans ?_ (ih (within_update hw (h.within (hw j))))
    exact h.frame (hw j) fun key hj hn => hn j hj

/-- The order of turns makes no difference. -/
theorem unique (h : Interleaved Store.ledger ts l out l')
    (h' : Interleaved Store.ledger ts l out' l'') (hw : ∀ i, (ts i).Within (K i))
    (hd : ∀ i j key, K i key → K j key → i = j) : out = out' ∧ l' = l'' := by
  have halone (i : ι) := h.alone hw hd i (.refl _ l)
  have halone' (i : ι) := h'.alone hw hd i (.refl _ l)
  have hparts (i : ι) : l'.AgreeOn (K i) l'' := (halone i).2.trans (halone' i).2.symm
  have hrest := (h.frame hw).symm.trans (h'.frame hw)
  refine ⟨funext fun i => ?_, Ledger.AgreeOn.eq_of_parts hparts hrest⟩
  rw [(halone i).1, (halone' i).1]

end Interleaved
end TokenLedger
