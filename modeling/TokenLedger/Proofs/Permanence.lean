import TokenLedger.Proofs.Chunks
import TokenLedger.Proofs.Failure

/-! What is recorded once is recorded for good. Every approval that is carried out keeps all records
that there are, and what it changes of them is the minted supply, the reserves and the balances
alone. Main statement: whatever envelopes a store takes, and whatever accesses fail meanwhile, no
record is lost, and what identifies a token or a pool stays as it was. -/
namespace TokenLedger

/-- A later record of a token. The supply of the bridge's token also falls, and has no cap of its
own. -/
structure Token.Persists (t : Ticker) (r r' : Token) : Prop where
  max : r'.supply.max = r.supply.max
  limit : r'.supply.limit = r.supply.limit
  decimals : r'.decimals = r.decimals
  deployer : r'.deployer = r.deployer
  minted_le : t ≠ .wrapped → r.supply.minted ≤ r'.supply.minted
  capped : t ≠ .wrapped → r.supply.minted ≤ r.supply.max → r'.supply.minted ≤ r'.supply.max

namespace Token.Persists

variable {t : Ticker} {r r' r'' : Token}

theorem refl (t : Ticker) (r : Token) : Persists t r r :=
  ⟨rfl, rfl, rfl, rfl, fun _ => Nat.le_refl _, fun _ h => h⟩

theorem trans (h : Persists t r r') (h' : Persists t r' r'') : Persists t r r'' where
  max := h'.max.trans h.max
  limit := h'.limit.trans h.limit
  decimals := h'.decimals.trans h.decimals
  deployer := h'.deployer.trans h.deployer
  minted_le ht := Nat.le_trans (h.minted_le ht) (h'.minted_le ht)
  capped ht hr := h'.capped ht (h.capped ht hr)

theorem wrapped (r : Token) (minted : Amount) : Persists .wrapped r (r.withMinted minted) :=
  ⟨rfl, rfl, rfl, rfl, fun ht => absurd rfl ht, fun ht => absurd rfl ht⟩

end Token.Persists

namespace Ledger

/-- All records of the first ledger are in the second, with what identifies them. -/
structure Keeps (l l' : Ledger) : Prop where
  token : ∀ t r, l.token? t = some r → ∃ r', l'.token? t = some r' ∧ r.Persists t r'
  pool : ∀ k p, l.pool? k = some p → ∃ p', l'.pool? k = some p' ∧ p'.owner = p.owner
  balance : ∀ t o, l.balance? t o ≠ none → l'.balance? t o ≠ none

variable {l m n : Ledger}

theorem Keeps.refl (l : Ledger) : l.Keeps l where
  token t r hr := ⟨r, hr, .refl t r⟩
  pool _ p hp := ⟨p, hp, rfl⟩
  balance _ _ hb := hb

theorem Keeps.trans (h : l.Keeps m) (h' : m.Keeps n) : l.Keeps n where
  token t r hr := by
    obtain ⟨r', hr', hp⟩ := h.token t r hr
    obtain ⟨r'', hr'', hp'⟩ := h'.token t r' hr'
    exact ⟨r'', hr'', hp.trans hp'⟩
  pool k p hp := by
    obtain ⟨p', hp', ho⟩ := h.pool k p hp
    obtain ⟨p'', hp'', ho'⟩ := h'.pool k p' hp'
    exact ⟨p'', hp'', ho'.trans ho⟩
  balance t o hb := h'.balance t o (h.balance t o hb)

end Ledger

namespace Effect

variable {l l' : Ledger} {a : Approval} {j : Journal} {t : Ticker} {k : PoolKey} {r : Token}
  {p : Pool}

theorem token_persists (h : Effect l a j l') (hr : l.token? t = some r) :
    ∃ r', l'.token? t = some r' ∧ r.Persists t r' := by
  cases h with
  | deploy absent =>
    rw [Ledger.token?_setToken, if_neg]
    · exact ⟨r, hr, .refl t r⟩
    · rintro rfl
      rw [absent] at hr
      cases hr
  | @mint u _ total minted r' _ record sum capped moves =>
    rw [moves.token?, Ledger.token?_setToken]
    split
    · next hu =>
      subst hu
      obtain rfl : r' = r := Option.some.inj (record.symm.trans hr)
      have hle : r'.supply.minted ≤ minted := by rw [Amount.le_def]; omega
      exact ⟨_, rfl, rfl, rfl, rfl, rfl, fun _ => hle, fun _ _ => capped⟩
    · exact ⟨r, hr, .refl t r⟩
  | deposit _ moves =>
    rw [moves.token?, Ledger.token?_setToken]
    split
    · next hu =>
      subst hu
      rw [hr]
      exact ⟨_, rfl, .wrapped r _⟩
    · exact ⟨r, hr, .refl t r⟩
  | withdraw record moves =>
    rw [moves.token?, Ledger.token?_setToken]
    split
    · next hu =>
      subst hu
      cases record.symm.trans hr
      exact ⟨_, rfl, .wrapped r _⟩
    · exact ⟨r, hr, .refl t r⟩
  | transfer moves | withdrawUnrecorded _ moves =>
    exact ⟨r, (moves.token? t).trans hr, .refl t r⟩
  | createPool _ moves | addLiquidity _ _ _ _ _ _ moves | removeLiquidity _ _ _ _ _ _ _ _ moves
  | swapFirst _ _ _ _ _ moves | swapSecond _ _ _ _ _ _ moves =>
    exact ⟨r, (moves.token? t).trans hr, .refl t r⟩

theorem pool_persists (h : Effect l a j l') (hp : l.pool? k = some p) :
    ∃ p', l'.pool? k = some p' ∧ p'.owner = p.owner := by
  have hne : l.pool? k ≠ none := by rw [hp]; exact Option.some_ne_none p
  obtain ⟨q, hq⟩ := Option.ne_none_iff_exists'.1 (h.pool?_ne_none_iff.2 (.inl hne))
  rcases h.pool?_eq_some hq with ⟨p', hp', ho⟩ | ⟨_, _, _, rfl, -⟩
  · obtain rfl : p' = p := Option.some.inj (hp'.symm.trans hp)
    exact ⟨q, hq, ho.symm⟩
  · -- A pool is created only where there is none.
    cases h with
    | createPool absent => exact absurd absent hne

/-- An approval that is carried out, validated or not, keeps every record. -/
theorem keeps (h : Effect l a j l') : l.Keeps l' where
  token _ _ hr := h.token_persists hr
  pool _ _ hp := h.pool_persists hp
  balance _ _ hb := h.balance?_ne_none_iff.2 (.inl hb)

end Effect

theorem Store.keeps_apply_ledger (a : Approval) (l : Ledger) : l.Keeps (ledger.apply a l).2 := by
  simp only [ledger]
  cases hl : l.apply a with
  | error r => exact .refl l
  | ok lj => exact (Ledger.effect_of_apply hl).keeps

section

variable {σ α ι : Type} [DecidableEq ι] {store : Store σ} {view : σ → Ledger} {s s' : σ}

theorem Task.Step.keeps {t t' : Task α} (h : Step store t s t' s') (hf : store.MayFail view) :
    (view s).Keeps (view s') := by
  cases h with
  | read q next => rw [(hf.read q s).1]; exact .refl _
  | apply a next =>
    rcases hf.apply a s with ⟨-, hv⟩ | ⟨-, hv⟩
    · rw [hv]
      exact Store.keeps_apply_ledger a (view s)
    · rw [hv]
      exact .refl _

theorem Task.Steps.keeps {t t' : Task α} (h : Steps store t s t' s') (hf : store.MayFail view) :
    (view s).Keeps (view s') := by
  induction h with
  | refl t s => exact .refl _
  | head h _ ih => exact (h.keeps hf).trans ih

theorem Interleaved.keeps {ts : ι → Task α} {out : ι → α} (h : Interleaved store ts s out s')
    (hf : store.MayFail view) : (view s).Keeps (view s') := by
  induction h with
  | done s _ => exact .refl _
  | step i h _ ih => exact (h.keeps hf).trans ih

end

namespace Store

variable {σ : Type} {store : Store σ} {view : σ → Ledger}

theorem keeps_process (hf : store.MayFail view) (rules : Rules) (op : Operation) (s : σ) :
    (view s).Keeps (view (store.process rules op s).2) := by
  rw [process_eq]
  exact (Task.steps_judge (k := Task.done) (op.verdict rules) s).keeps hf

theorem keeps_processInTurn (hf : store.MayFail view) (rules : Rules) (es : List Envelope) (s : σ) :
    (view s).Keeps (view (store.processInTurn rules es s).2) := by
  induction es generalizing s with
  | nil => exact .refl _
  | cons e es ih =>
    rw [processInTurn]
    refine .trans ?_ (ih _)
    cases Operation.ofEnvelope e with
    | error r => exact .refl _
    | ok op => exact keeps_process hf rules op s

/-- Records are permanent. However a store is used that shows a ledger and may fail at any access,
whatever is recorded at some point of a run of envelopes, or before a batch whose lanes take turns
in any order, is recorded at every later one. -/
theorem records_permanent (hf : store.MayFail view) (rules : Rules) (s : σ) :
    (∀ xs ys, (view (store.processInTurn rules xs s).2).Keeps
      (view (store.processInTurn rules (xs ++ ys) s).2)) ∧
    ∀ batch out s', Interleaved store (Batch.tasks rules batch) s out s' →
      (view s).Keeps (view s') := by
  refine ⟨fun xs ys => ?_, fun batch out s' h => h.keeps hf⟩
  rw [processInTurn_append]
  exact keeps_processInTurn hf rules ys _

/-- A token whose first mint fails, and which then is deployed again in lower case, is minted. -/
theorem records_permanent_minted :
    let aa := Ticker.ofText "AA"
    let by_ (sender : String) (i : Inscription) : Envelope := ⟨⟨1, 0⟩, ⟨sender⟩, "", 1, i⟩
    let deploy := by_ "DA" (.deploy ⟨"AA", "5000", some "2000", none, none, none⟩)
    let again := by_ "DB" (.deploy ⟨"aa", "9000", none, some "2", none, none⟩)
    let mint := by_ "DC" (.mint ⟨"Aa", "2000"⟩)
    let store := flaky fun n => if n = 2 then some .lockPoisoned else none
    let first := store.processInTurn ⟨false⟩ [deploy] (.empty, 0)
    let last := store.processInTurn ⟨false⟩ ([deploy] ++ [mint, again, mint]) (.empty, 0)
    last.1.map (fun e => e.outcome.isApplied) = [true, false, false, true] ∧
      first.2.1.Keeps last.2.1 ∧ ∃ r r', first.2.1.token? aa = some r ∧
        last.2.1.token? aa = some r' ∧ r.Persists aa r' ∧ r.supply.minted = .zero ∧
        r'.supply.minted = .ofUInt64 2000 ∧ r'.deployer = some ⟨"DA"⟩ := by
  intro aa by_ deploy again mint store first last
  have hf : store.MayFail Prod.fst := flaky_mayFail _
  have hkeeps : first.2.1.Keeps last.2.1 :=
    (records_permanent hf ⟨false⟩ (.empty, 0)).1 [deploy] [mint, again, mint]
  have hfirst : first.2.1.token? aa =
      some (.deployed (.ofUInt64 5000) (.ofUInt64 2000) 8 ⟨"DA"⟩) := by
    decide +kernel
  have hlast : last.2.1.token? aa = some ((Token.deployed (.ofUInt64 5000) (.ofUInt64 2000) 8
      ⟨"DA"⟩).withMinted (.ofUInt64 2000)) := by
    decide +kernel
  obtain ⟨r', hr', hp⟩ := hkeeps.token aa _ hfirst
  obtain rfl : r' = _ := Option.some.inj (hr'.symm.trans hlast)
  exact ⟨by decide +kernel, hkeeps, _, _, hfirst, hr', hp, rfl, rfl, rfl⟩

end Store
end TokenLedger
