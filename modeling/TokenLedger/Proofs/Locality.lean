import TokenLedger.Lane
import TokenLedger.Store
import TokenLedger.Proofs.Effect

/-! What an approval depends on. Ledgers that agree under the keys of an approval carry it out
alike and agree afterwards, and under every other key nothing changes. Main statements: these two,
for the ledger as a store. -/
namespace TokenLedger

def Query.key : Query → LedgerKey
  | supply t => .ticker t
  | balance t _ => .ticker t
  | pool k => .pool k

/-- The keys under which an approval is carried out. -/
def Approval.keys : Approval → List LedgerKey
  | deploy t .. | mint t .. | transfer t .. => [.ticker t]
  | createPool k .. | addLiquidity k .. | removeLiquidity k .. =>
    [.ticker k.a, .ticker k.b, .ticker k.shareTicker, .pool k]
  | swap k _ tickerIn tickerOut .. => [.ticker tickerIn, .ticker tickerOut, .pool k]
  | deposit .. | withdraw .. => [.ticker .wrapped]

namespace Ledger

/-- Two ledgers have the same records under all keys with a property. -/
structure AgreeOn (K : LedgerKey → Prop) (l m : Ledger) : Prop where
  token : ∀ {t}, K (.ticker t) → l.token? t = m.token? t
  balance : ∀ {t}, K (.ticker t) → ∀ o, l.balance? t o = m.balance? t o
  pool : ∀ {k}, K (.pool k) → l.pool? k = m.pool? k

namespace AgreeOn

variable {K K' : LedgerKey → Prop} {l m n : Ledger} {t : Ticker} {o : Address}

theorem refl (K : LedgerKey → Prop) (l : Ledger) : AgreeOn K l l :=
  ⟨fun _ => rfl, fun _ _ => rfl, fun _ => rfl⟩

theorem symm (h : AgreeOn K l m) : AgreeOn K m l :=
  ⟨fun ht => (h.token ht).symm, fun ht o => (h.balance ht o).symm, fun hk => (h.pool hk).symm⟩

theorem trans (h : AgreeOn K l m) (h' : AgreeOn K m n) : AgreeOn K l n :=
  ⟨fun ht => (h.token ht).trans (h'.token ht),
    fun ht o => (h.balance ht o).trans (h'.balance ht o),
    fun hk => (h.pool hk).trans (h'.pool hk)⟩

theorem mono (h : AgreeOn K l m) (hK : ∀ key, K' key → K key) : AgreeOn K' l m :=
  ⟨fun ht => h.token (hK _ ht), fun ht => h.balance (hK _ ht), fun hk => h.pool (hK _ hk)⟩

theorem eq (h : ∀ key, AgreeOn (· = key) l m) : l = m :=
  Ledger.ext (fun t => (h (.ticker t)).token rfl)
    (fun s => (h (.ticker s.ticker)).balance rfl s.holder) fun k => (h (.pool k)).pool rfl

theorem eq_of_parts {ι : Type} {K : ι → LedgerKey → Prop} (h : ∀ i, l.AgreeOn (K i) m)
    (hrest : l.AgreeOn (fun key => ∀ i, ¬K i key) m) : l = m := by
  refine AgreeOn.eq fun key => ?_
  by_cases hkey : ∃ i, K i key
  · obtain ⟨i, hi⟩ := hkey
    exact (h i).mono fun c hc => hc ▸ hi
  · exact hrest.mono fun c hc i hi => hkey ⟨i, hc ▸ hi⟩

theorem held (h : AgreeOn K l m) (ht : K (.ticker t)) : l.held t o = m.held t o := by
  rw [Ledger.held, h.balance ht, Ledger.held]

theorem answer (h : AgreeOn K l m) {q : Query} (hq : K q.key) : l.answer q = m.answer q := by
  cases q with
  | supply t => rw [Ledger.answer, h.token hq, Ledger.answer]
  | balance t o => exact h.balance hq o
  | pool k => exact h.pool hq

theorem setToken (h : AgreeOn K l m) (t : Ticker) (r : Token) :
    AgreeOn K (l.setToken t r) (m.setToken t r) where
  token ht := by rw [token?_setToken, token?_setToken, h.token ht]
  balance := h.balance
  pool := h.pool

theorem setPool (h : AgreeOn K l m) (k : PoolKey) (p : Pool) :
    AgreeOn K (l.setPool k p) (m.setPool k p) where
  token := h.token
  balance := h.balance
  pool hk := by rw [pool?_setPool, pool?_setPool, h.pool hk]

theorem setBalance (h : AgreeOn K l m) (t : Ticker) (o : Address) (x : Amount) :
    AgreeOn K (l.setBalance t o x) (m.setBalance t o x) where
  token := h.token
  balance ht o := by rw [balance?_setBalance, balance?_setBalance, h.balance ht]
  pool := h.pool

end AgreeOn
end Ledger

namespace Draft

open Ledger (AgreeOn)

/-- Two drafts with the same journal, on ledgers that agree. -/
structure SameOn (K : LedgerKey → Prop) (d e : Draft) : Prop where
  journal : d.journal = e.journal
  agree : AgreeOn K d.ledger e.ledger

/-- The same refusal, or drafts that are the same under the keys. -/
inductive SameResult (K : LedgerKey → Prop) : Except Refusal Draft → Except Refusal Draft → Prop
  | error (r : Refusal) : SameResult K (.error r) (.error r)
  | ok {d e : Draft} (h : SameOn K d e) : SameResult K (.ok d) (.ok e)

variable {K : LedgerKey → Prop} {d e : Draft} {t : Ticker} {a b : Address} {x : Amount}
  {k : PoolKey}

theorem SameResult.bind {f g : Draft → Except Refusal Draft} {x y : Except Refusal Draft}
    (h : SameResult K x y) (hf : ∀ d e, SameOn K d e → SameResult K (f d) (g e)) :
    SameResult K (x >>= f) (y >>= g) := by
  cases h with
  | error r => exact .error r
  | ok h => exact hf _ _ h

theorem SameResult.bind_left {α : Type} {f g : α → Except Refusal Draft} {x : Except Refusal α}
    (hf : ∀ a, SameResult K (f a) (g a)) : SameResult K (x >>= f) (x >>= g) := by
  cases x with
  | error r => exact .error r
  | ok a => exact hf a

theorem SameOn.record (h : SameOn K d e) (m : Movement) (x : Amount) :
    SameOn K (d.record m x) (e.record m x) :=
  ⟨by rw [Draft.record, Draft.record, h.journal], h.agree.setBalance _ _ _⟩

theorem SameOn.credit (h : SameOn K d e) (ht : K (.ticker t)) :
    SameResult K (d.credit t a x) (e.credit t a x) := by
  rw [Draft.credit, Draft.credit, h.agree.held ht]
  split
  · exact .ok (h.record _ _)
  · exact .error _

theorem SameOn.debit (h : SameOn K d e) (ht : K (.ticker t)) :
    SameResult K (d.debit t a x) (e.debit t a x) := by
  rw [Draft.debit, Draft.debit, h.agree.held ht]
  split
  · exact .ok (h.record _ _)
  · exact .error _

theorem SameOn.move (h : SameOn K d e) (ht : K (.ticker t)) :
    SameResult K (d.move t a b x) (e.move t a b x) :=
  (h.debit ht).bind fun _ _ h => h.credit ht

theorem SameOn.creditAll (h : SameOn K d e) (ht : K (.ticker t)) (as : List Address) :
    SameResult K (d.creditAll t x as) (e.creditAll t x as) := by
  induction as generalizing d e with
  | nil => exact .ok h
  | cons a as ih => exact (h.credit ht).bind fun _ _ h => ih h

theorem SameOn.setToken (h : SameOn K d e) (t : Ticker) (r : Token) :
    SameOn K (d.setToken t r) (e.setToken t r) :=
  ⟨h.journal, h.agree.setToken t r⟩

theorem SameOn.setPool (h : SameOn K d e) (k : PoolKey) (p : Pool) :
    SameOn K (d.setPool k p) (e.setPool k p) :=
  ⟨h.journal, h.agree.setPool k p⟩

theorem SameOn.pool (h : SameOn K d e) (hk : K (.pool k)) : d.pool k = e.pool k := by
  rw [Draft.pool, h.agree.pool hk, Draft.pool]

theorem SameOn.mint (h : SameOn K d e) (ht : K (.ticker t)) :
    SameResult K (d.mint t a x) (e.mint t a x) := by
  rw [Draft.mint, Draft.mint, h.agree.token ht]
  split
  · exact .error _
  · split
    · split
      · exact (h.setToken _ _).credit ht
      · exact .error _
    · exact .error _

theorem SameOn.createPool {y : Amount} (h : SameOn K d e) (hk : K (.pool k))
    (ha : K (.ticker k.a)) (hb : K (.ticker k.b)) (hs : K (.ticker k.shareTicker)) :
    SameResult K (d.createPool k a x y) (e.createPool k a x y) := by
  rw [Draft.createPool, Draft.createPool, h.agree.pool hk]
  split
  · exact .error _
  · refine (h.move ha).bind fun _ _ h => (h.move hb).bind fun _ _ h =>
      (h.credit hs).bind fun _ _ h => ?_
    exact .ok (h.setPool _ _)

theorem SameOn.addLiquidity {y : Amount} (h : SameOn K d e) (hk : K (.pool k))
    (ha : K (.ticker k.a)) (hb : K (.ticker k.b)) (hs : K (.ticker k.shareTicker)) :
    SameResult K (d.addLiquidity k a x y) (e.addLiquidity k a x y) := by
  rw [Draft.addLiquidity, Draft.addLiquidity, h.pool hk]
  refine .bind_left fun p => .bind_left fun minted => ?_
  refine (h.move ha).bind fun _ _ h => (h.move hb).bind fun _ _ h =>
    (h.credit hs).bind fun _ _ h => ?_
  refine .bind_left fun _ => .bind_left fun _ => .bind_left fun _ => ?_
  exact .ok (h.setPool _ _)

theorem SameOn.removeLiquidity (h : SameOn K d e) (hk : K (.pool k)) (ha : K (.ticker k.a))
    (hb : K (.ticker k.b)) (hs : K (.ticker k.shareTicker)) :
    SameResult K (d.removeLiquidity k a x) (e.removeLiquidity k a x) := by
  rw [Draft.removeLiquidity, Draft.removeLiquidity, h.pool hk]
  refine .bind_left fun p => .bind_left fun _ => .bind_left fun _ => ?_
  refine (h.debit hs).bind fun _ _ h => (h.move ha).bind fun _ _ h =>
    (h.move hb).bind fun _ _ h => ?_
  refine .bind_left fun _ => .bind_left fun _ => .bind_left fun _ => ?_
  exact .ok (h.setPool _ _)

theorem SameOn.swap {u : Ticker} {y : Amount} {o : Address} (h : SameOn K d e) (hk : K (.pool k))
    (ht : K (.ticker t)) (hu : K (.ticker u)) :
    SameResult K (d.swap k a t u x y o) (e.swap k a t u x y o) := by
  rw [Draft.swap, Draft.swap, h.pool hk]
  refine .bind_left fun p => (h.move ht).bind fun _ _ h => (h.move hu).bind fun _ _ h => ?_
  split
  · exact .bind_left fun _ => .bind_left fun _ => .ok (h.setPool _ _)
  · exact .bind_left fun _ => .bind_left fun _ => .ok (h.setPool _ _)

theorem SameOn.deposit (h : SameOn K d e) (hw : K (.ticker .wrapped)) :
    SameResult K (d.deposit a x) (e.deposit a x) := by
  rw [Draft.deposit, Draft.deposit, h.agree.token hw]
  exact .bind_left fun _ => (h.setToken _ _).credit hw

theorem SameOn.withdraw (h : SameOn K d e) (hw : K (.ticker .wrapped)) :
    SameResult K (d.withdraw a x) (e.withdraw a x) := by
  refine (h.debit hw).bind fun d e h => ?_
  rw [h.agree.token hw]
  split
  · exact .ok (h.setToken _ _)
  · exact .ok h

theorem SameOn.apply (h : SameOn K d e) {a : Approval} (ha : ∀ key ∈ a.keys, K key) :
    SameResult K (d.apply a) (e.apply a) := by
  cases a <;> simp only [Approval.keys, List.forall_mem_cons, List.not_mem_nil, false_imp_iff,
    implies_true, and_true] at ha
  case deploy t max limit decimals deployer =>
    rw [Draft.apply, Draft.apply, Draft.deploy, Draft.deploy, h.agree.token ha]
    split
    · exact .error _
    · exact .ok (h.setToken _ _)
  case mint t recipient total => exact h.mint ha
  case transfer t sender recipients each total =>
    exact (h.debit ha).bind fun _ _ h => h.creditAll ha recipients
  case createPool k holder x y =>
    obtain ⟨ha, hb, hs, hk⟩ := ha
    exact h.createPool hk ha hb hs
  case addLiquidity k holder x y first =>
    obtain ⟨ha, hb, hs, hk⟩ := ha
    exact h.addLiquidity hk ha hb hs
  case removeLiquidity k holder x =>
    obtain ⟨ha, hb, hs, hk⟩ := ha
    exact h.removeLiquidity hk ha hb hs
  case swap k holder tickerIn tickerOut amountIn fee amountOut owner =>
    obtain ⟨ht, hu, hk⟩ := ha
    exact h.swap hk ht hu
  case deposit holder x => exact h.deposit ha
  case withdraw holder x => exact h.withdraw ha

end Draft

namespace Replay

variable {K : LedgerKey → Prop} {l m : Ledger} {j : Journal}

theorem agreeOn (h : Replay l j m) (hj : ∀ v ∈ j, ¬K (.ticker v.ticker)) : l.AgreeOn K m where
  token _ := (h.token? _).symm
  balance {t} ht o := (h.balance? fun v hv hs => hj v hv (by
    rwa [show v.ticker = t from congrArg Slot.ticker hs])).symm
  pool _ := (h.pool? _).symm

end Replay

namespace Ledger.AgreeOn

variable {K : LedgerKey → Prop} {l : Ledger}

theorem setToken_self {t : Ticker} (ht : ¬K (.ticker t)) (r : Token) :
    AgreeOn K l (l.setToken t r) where
  token {u} hu := by
    rw [token?_setToken, if_neg]
    rintro rfl
    exact ht hu
  balance _ _ := rfl
  pool _ := rfl

theorem setPool_self {k : PoolKey} (hk : ¬K (.pool k)) (p : Pool) :
    AgreeOn K l (l.setPool k p) where
  token _ := rfl
  balance _ _ := rfl
  pool {c} hc := by
    rw [pool?_setPool, if_neg]
    rintro rfl
    exact hk hc

end Ledger.AgreeOn

namespace Effect

variable {K : LedgerKey → Prop} {l l' : Ledger} {a : Approval} {j : Journal}

theorem agreeOn (h : Effect l a j l') (ha : ∀ key ∈ a.keys, ¬K key) : l.AgreeOn K l' := by
  cases h <;> simp only [Approval.keys, List.forall_mem_cons, List.not_mem_nil, false_imp_iff,
    implies_true, and_true] at ha
  case deploy => exact .setToken_self ha _
  case mint moves | deposit moves | withdraw moves =>
    exact .trans (.setToken_self ha _) (moves.agreeOn (by simp [ha]))
  case withdrawUnrecorded moves => exact moves.agreeOn (by simp [ha])
  case transfer moves =>
    refine moves.agreeOn fun v hv => ?_
    simp only [List.mem_cons, List.mem_map] at hv
    rcases hv with rfl | ⟨_, -, rfl⟩ <;> exact ha
  case createPool moves | addLiquidity moves =>
    obtain ⟨ha, hb, hs, hk⟩ := ha
    exact .trans (.setPool_self hk _) (moves.agreeOn (by simp [funding, ha, hb, hs]))
  case removeLiquidity moves =>
    obtain ⟨ha, hb, hs, hk⟩ := ha
    exact .trans (.setPool_self hk _) (moves.agreeOn (by simp [redemption, ha, hb, hs]))
  case swapFirst moves | swapSecond moves =>
    obtain ⟨ht, hu, hk⟩ := ha
    exact .trans (.setPool_self hk _) (moves.agreeOn (by simp [exchange, ht, hu]))

end Effect

namespace Store

variable {K : LedgerKey → Prop} {l m : Ledger} {a : Approval}

/-- Ledgers that agree under the keys of an approval answer it alike, and agree afterwards. -/
theorem apply_agreeOn (h : l.AgreeOn K m) (ha : ∀ key ∈ a.keys, K key) :
    (ledger.apply a l).1 = (ledger.apply a m).1 ∧
      (ledger.apply a l).2.AgreeOn K (ledger.apply a m).2 := by
  have hlm : Draft.SameOn K ⟨l, []⟩ ⟨m, []⟩ := ⟨rfl, h⟩
  have hs := hlm.apply ha
  simp only [ledger, Ledger.apply]
  generalize Draft.apply ⟨l, []⟩ a = x at hs ⊢
  generalize Draft.apply ⟨m, []⟩ a = y at hs ⊢
  cases hs with
  | error r => exact ⟨rfl, h⟩
  | ok hs => exact ⟨congrArg Except.ok hs.journal, hs.agree⟩

/-- Under other keys nothing changes. -/
theorem apply_frame (ha : ∀ key ∈ a.keys, ¬K key) : l.AgreeOn K (ledger.apply a l).2 := by
  simp only [ledger]
  cases hl : l.apply a with
  | error r => exact .refl K l
  | ok lj => exact (Ledger.effect_of_apply hl).agreeOn ha

end Store
end TokenLedger
