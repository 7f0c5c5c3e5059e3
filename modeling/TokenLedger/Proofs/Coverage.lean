import TokenLedger.Proofs.Accepted
import TokenLedger.Proofs.Locality

/-! Footprints cover what operations read and write. Main statement: whatever the answers are, the
verdict on an operation asks only under its keys, and an approval is of the operation's kind and
writes under no other keys. -/
namespace TokenLedger

namespace Inquiry

variable {α β : Type} {K : LedgerKey → Prop} {P : α → Prop} {Q : β → Prop}

/-- However it is answered, an inquiry asks under keys with a property, and has results with one. -/
def Within (K : LedgerKey → Prop) (P : α → Prop) : Inquiry α → Prop
  | done a => P a
  | reject _ => True
  | ask q next => K q.key ∧ ∀ x, (next x).Within K P

theorem Within.bind {x : Inquiry α} {f : α → Inquiry β} (hx : x.Within K P)
    (hf : ∀ a, P a → (f a).Within K Q) : (x >>= f).Within K Q := by
  induction x with
  | done a => exact hf a hx
  | reject r => trivial
  | ask q next ih => exact ⟨hx.1, fun x => ih x (hx.2 x)⟩

theorem Within.mono {K' : LedgerKey → Prop} {P' : α → Prop} {x : Inquiry α} (hx : x.Within K P)
    (hK : ∀ key, K key → K' key) (hP : ∀ a, P a → P' a) : x.Within K' P' := by
  induction x with
  | done a => exact hP a hx
  | reject r => trivial
  | ask q next ih => exact ⟨hK _ hx.1, fun x => ih x (hx.2 x)⟩

theorem Within.ite {c : Prop} [Decidable c] {x y : Inquiry α} (hx : x.Within K P)
    (hy : y.Within K P) : (if c then x else y).Within K P := by
  split
  · exact hx
  · exact hy

theorem requireTickerSize_within (t : Ticker) : (requireTickerSize t).Within K fun _ => True :=
  .ite trivial trivial

theorem requirePositive_within (x : Amount) (r : Reason) (s : String) :
    (requirePositive x r s).Within K fun _ => True :=
  .ite trivial trivial

theorem requireBalance_within {t : Ticker} (ht : K (.ticker t)) (a : Address) (n : Nat)
    (s : Shortfall) : (requireBalance t a n s).Within K fun x => x.val = n := by
  refine ⟨ht, fun held => ?_⟩
  cases held with
  | none => trivial
  | some held =>
    dsimp only
    split
    · next hx => exact .ite (Amount.ofNat?_eq_some_iff.1 hx) trivial
    · trivial

end Inquiry

namespace TokenOperation

open Inquiry

variable {K : LedgerKey → Prop} {op : TokenOperation}

theorem verdict_within (ht : K (.ticker op.ticker)) :
    op.verdict.Within K fun a => (∀ key ∈ a.keys, K key) ∧ a.kind = op.kind := by
  have hkeys : ∀ key ∈ [LedgerKey.ticker op.ticker], K key := List.forall_mem_singleton.2 ht
  unfold verdict
  split
  · next hk =>
    refine (requireTickerSize_within _).bind fun _ _ => (requirePositive_within ..).bind fun _ _ =>
      (requirePositive_within ..).bind fun _ _ => .ite trivial ⟨ht, fun s => ?_⟩
    cases s with
    | none => exact ⟨hkeys, hk.symm⟩
    | some s => trivial
  · next hk =>
    refine (requireTickerSize_within _).bind fun _ _ => ⟨ht, fun s => ?_⟩
    cases s with
    | none => trivial
    | some s =>
      refine (requirePositive_within ..).bind fun _ _ => .ite trivial ?_
      split
      · exact ⟨hkeys, hk.symm⟩
      · trivial
  · next hk =>
    refine (requirePositive_within ..).bind fun _ _ => .ite trivial ?_
    exact (requireBalance_within ht ..).bind fun _ _ => ⟨hkeys, hk.symm⟩
  · trivial

end TokenOperation

namespace PairOperation

open Inquiry

variable {K : LedgerKey → Prop} {op : PairOperation}

theorem existingPool_within (hk : K (.pool op.poolKey)) :
    op.existingPool.Within K fun _ => True := by
  refine ⟨hk, fun p => ?_⟩
  cases p <;> trivial

theorem cover_within (ha : K (.ticker op.sides.tickerA)) (hb : K (.ticker op.sides.tickerB))
    (m n : Nat) : (op.cover m n).Within K fun x => x.1.val = m ∧ x.2.val = n :=
  (requireBalance_within ha ..).bind fun _ hm =>
    (requireBalance_within hb ..).bind fun _ hn => ⟨hm, hn⟩

theorem forall_mem_keys (ha : K (.ticker op.sides.tickerA)) (hb : K (.ticker op.sides.tickerB))
    (hs : K (.ticker op.poolKey.shareTicker)) (hk : K (.pool op.poolKey)) :
    ∀ key ∈ [LedgerKey.ticker op.poolKey.a, .ticker op.poolKey.b, .ticker op.poolKey.shareTicker,
      .pool op.poolKey], K key := by
  have hab : K (.ticker op.poolKey.a) ∧ K (.ticker op.poolKey.b) := by
    rcases PoolKey.ofPair_eq_or op.sides.tickerA op.sides.tickerB with he | he
    · rw [poolKey, he]; exact ⟨ha, hb⟩
    · rw [poolKey, he]; exact ⟨hb, ha⟩
  simp [hab.1, hab.2, hs, hk]

theorem verdict_within (ha : K (.ticker op.sides.tickerA)) (hb : K (.ticker op.sides.tickerB))
    (hs : K (.ticker op.poolKey.shareTicker)) (hk : K (.pool op.poolKey)) :
    op.verdict.Within K fun a => (∀ key ∈ a.keys, K key) ∧ a.kind = op.kind := by
  have hkeys := forall_mem_keys ha hb hs hk
  refine .ite trivial ?_
  split
  · next hkind =>
    refine (requirePositive_within ..).bind fun _ _ => (requirePositive_within ..).bind fun _ _ =>
      ⟨hk, fun p => ?_⟩
    cases p with
    | none => exact (cover_within ha hb ..).bind fun _ _ => ⟨hkeys, hkind.symm⟩
    | some p => trivial
  · next hkind =>
    refine (existingPool_within hk).bind fun p _ => .ite ?_ ?_
    · exact (cover_within ha hb ..).bind fun _ _ => ⟨hkeys, hkind.symm⟩
    · split
      · trivial
      · trivial
      · exact (cover_within ha hb ..).bind fun _ _ => ⟨hkeys, hkind.symm⟩
      · exact (cover_within ha hb ..).bind fun _ _ => ⟨hkeys, hkind.symm⟩
  · next hkind =>
    refine (requirePositive_within ..).bind fun _ _ => (existingPool_within hk).bind fun p _ =>
      .ite trivial ?_
    exact (requireBalance_within hs ..).bind fun _ _ => ⟨hkeys, hkind.symm⟩
  · next hkind =>
    refine (existingPool_within hk).bind fun p _ => .ite trivial ?_
    split
    · trivial
    · refine .ite trivial ((requireBalance_within ha ..).bind fun _ _ =>
        (requireBalance_within hb ..).bind fun _ _ => ⟨?_, hkind.symm⟩)
      simp only [Approval.keys, List.forall_mem_cons, List.not_mem_nil, false_imp_iff,
        implies_true, and_true]
      exact ⟨ha, hb, hk⟩
  · trivial

end PairOperation

namespace BridgeOperation

open Inquiry

variable {K : LedgerKey → Prop} {op : BridgeOperation}

theorem verdict_within (rules : Rules) (ht : K (.ticker op.ticker)) :
    (op.verdict rules).Within K fun a => (∀ key ∈ a.keys, K key) ∧ a.kind = op.kind := by
  unfold verdict
  split
  · trivial
  · next hw =>
    have hticker : op.ticker = .wrapped := by
      by_cases he : op.ticker = .wrapped
      · exact he
      · exact absurd he hw
    rw [hticker] at ht
    have hkeys : ∀ key ∈ [LedgerKey.ticker .wrapped], K key := List.forall_mem_singleton.2 ht
    split
    · next hk => exact (requirePositive_within ..).bind fun _ _ => ⟨hkeys, hk.symm⟩
    · next hk =>
      unfold withdraw
      refine .ite ?_ ⟨hkeys, hk.symm⟩
      exact (requireBalance_within (by rwa [hticker]) ..).bind fun _ _ => ⟨hkeys, hk.symm⟩
    · trivial

end BridgeOperation

theorem Operation.verdict_within_footprint (rules : Rules) (op : Operation) :
    (op.verdict rules).Within (· ∈ op.footprint) fun a =>
      (∀ key ∈ a.keys, key ∈ op.footprint) ∧ a.kind = op.kind := by
  cases op with
  | token op => exact TokenOperation.verdict_within (by simp [footprint])
  | bridge op => exact BridgeOperation.verdict_within rules (by simp [footprint])
  | pair op =>
    exact PairOperation.verdict_within (by simp [footprint]) (by simp [footprint])
      (by simp [footprint]) (by simp [footprint])

/-- The footprint of an operation covers what its verdict asks and what its approval writes. -/
theorem Operation.verdict_within (rules : Rules) (op : Operation) :
    (op.verdict rules).Within (· ∈ op.footprint) fun a => ∀ key ∈ a.keys, key ∈ op.footprint :=
  (verdict_within_footprint rules op).mono (fun _ h => h) fun _ h => h.1

theorem Inquiry.run_bind_eq_ok {σ α β : Type} {store : Store σ} {s : σ} {x : Inquiry α}
    {f : α → Inquiry β} {b : β} (h : ((x >>= f).run store s).1 = .ok b) :
    ∃ a s', x.run store s = (.ok a, s') ∧ ((f a).run store s').1 = .ok b := by
  rw [run_bind] at h
  generalize x.run store s = ran at h ⊢
  obtain ⟨_ | a, s'⟩ := ran
  · cases h
  · exact ⟨a, s', rfl, h⟩

theorem Inquiry.Within.of_run {α σ : Type} {K : LedgerKey → Prop} {P : α → Prop} {x : Inquiry α}
    (hx : x.Within K P) {store : Store σ} {s : σ} {a : α} (h : (x.run store s).1 = .ok a) :
    P a := by
  induction x generalizing s with
  | done b => cases h; exact hx
  | reject r => cases h
  | ask q next ih =>
    simp only [run] at h
    split at h
    · exact ih _ (hx.2 _) h
    · cases h

theorem Operation.kind_of_validate {σ : Type} {store : Store σ} {rules : Rules} {op : Operation}
    {s : σ} {a : Approval} (h : (store.validate rules op s).1 = .ok a) : a.kind = op.kind :=
  ((verdict_within_footprint rules op).of_run h).2

end TokenLedger
