import TokenLedger.Proofs.Refusal

/-! Solvency of pools. The reserves of a pool are on record twice, with the pool and as balances of
its owner, who may own several pools. As long as nobody sends under an owner's address, the balances
cover all that the pools record. Main statements: this holds in every reachable ledger, where no
removal and no swap then fails for want of reserves. -/
namespace TokenLedger

/-- The address is none of those that hold the reserves of a pool. -/
def Address.IsPlain (o : Address) : Prop := ∀ x y : String, o.text ≠ x ++ "-SWAP-" ++ y

theorem PoolKey.owner_not_plain (k : PoolKey) : ¬k.owner.IsPlain :=
  fun h => h k.a.text k.b.text rfl

/-- What is of one token, of amounts of a pool's first and second token. -/
def PoolKey.part (k : PoolKey) (t : Ticker) (a b : Nat) : Nat :=
  (if k.a = t then a else 0) + (if k.b = t then b else 0)

theorem PoolKey.part_add (k : PoolKey) (t : Ticker) (a b c d : Nat) :
    k.part t (a + c) (b + d) = k.part t a b + k.part t c d := by
  simp only [part]
  split <;> split <;> omega

def Pool.reserveOf (p : Pool) (k : PoolKey) (t : Ticker) : Nat :=
  k.part t p.reserveA.val p.reserveB.val

namespace Ledger

/-- What all pools of an owner record of a token. -/
def reserved (l : Ledger) (t : Ticker) (o : Address) : Nat :=
  Table.total (fun (k : PoolKey) (p : Pool) => if p.owner = o then p.reserveOf k t else 0) l.pools

variable {l : Ledger} {t u : Ticker} {o : Address} {k : PoolKey} {p q : Pool} {r : Token}

@[simp] theorem held_setPool : (l.setPool k q).held t o = l.held t o := rfl

theorem reserved_setPool (h : l.pool? k = some p) (ho : q.owner = p.owner) :
    (l.setPool k q).reserved t o + (if p.owner = o then p.reserveOf k t else 0) =
      l.reserved t o + if p.owner = o then q.reserveOf k t else 0 := by
  have hi := Table.total_insert (fun (k : PoolKey) (p : Pool) =>
    if p.owner = o then p.reserveOf k t else 0) l.pools k q
  have hk : l.pools[k]? = some p := h
  rwa [hk, Option.elim_some, ho] at hi

theorem reserved_setPool_le (h : l.pool? k = some p) (ho : q.owner = p.owner)
    {gain loss n n' : Nat} (hq : q.reserveOf k t + loss = p.reserveOf k t + gain)
    (hn : n' + (if p.owner = o then loss else 0) = n + if p.owner = o then gain else 0)
    (hl : l.reserved t o ≤ n) : (l.setPool k q).reserved t o ≤ n' := by
  have hr := reserved_setPool (t := t) (o := o) h ho
  by_cases he : p.owner = o
  · simp only [if_pos he] at hr hn; omega
  · simp only [if_neg he] at hr hn; omega

theorem reserved_setPool_of_none (h : l.pool? k = none) :
    (l.setPool k q).reserved t o = l.reserved t o + if q.owner = o then q.reserveOf k t else 0 := by
  have hi := Table.total_insert (fun (k : PoolKey) (p : Pool) =>
    if p.owner = o then p.reserveOf k t else 0) l.pools k q
  have hk : l.pools[k]? = none := h
  rwa [hk, Option.elim_none, Nat.add_zero] at hi

theorem reserved_eq_zero (h : ∀ k p, l.pool? k = some p → p.owner ≠ o) : l.reserved t o = 0 :=
  Table.total_eq_zero fun k p hk => if_neg (h k p hk)

theorem reserveOf_le_reserved (h : l.pool? k = some p) :
    p.reserveOf k t ≤ l.reserved t p.owner := by
  have hk : l.pools[k]? = some p := h
  have hle := Table.le_total (f := fun (k : PoolKey) (q : Pool) =>
    if q.owner = p.owner then q.reserveOf k t else 0) hk
  rwa [if_pos rfl] at hle

end Ledger

namespace Replay

variable {l m : Ledger} {j : Journal} {k : PoolKey} {t u v : Ticker} {holder owner o : Address}
  {a b x y : Amount}

theorem reserved (h : Replay l j m) (t : Ticker) (o : Address) :
    m.reserved t o = l.reserved t o := by
  rw [Ledger.reserved, h.pools_eq, Ledger.reserved]

theorem held_le (h : Replay l j m)
    (hd : ∀ v ∈ j, v.direction = .debit → v.slot ≠ ⟨t, o⟩) :
    (l.held t o).val ≤ (m.held t o).val := by
  have hz : j.sum .debit (· = ⟨t, o⟩) = 0 := by
    refine List.sum_eq_zero_iff_forall_eq_nat.2 fun n hn => ?_
    obtain ⟨v, hv, rfl⟩ := List.mem_map.1 hn
    exact if_neg fun ⟨hdir, hs⟩ => hd v hv hdir hs
  have hj := h.held t o
  omega

theorem held_funding (h : Replay l (funding k holder owner a b x) m) (ho : holder ≠ o) :
    (m.held t o).val = (l.held t o).val +
      if owner = o then k.part t a.val b.val else 0 := by
  have hj := h.held t o
  simp only [funding, Journal.sum_cons, Journal.sum_nil, Movement.slot, reduceCtorEq, false_and,
    true_and, if_false, Slot.mk.injEq, ho, and_false] at hj
  by_cases he : owner = o
  · simp only [he, and_true, if_true, PoolKey.part] at hj ⊢; omega
  · simp only [he, and_false, if_false] at hj ⊢; omega

theorem held_redemption (h : Replay l (redemption k holder owner a b x) m) (ho : holder ≠ o) :
    (m.held t o).val + (if owner = o then k.part t a.val b.val else 0) = (l.held t o).val := by
  have hj := h.held t o
  simp only [redemption, Journal.sum_cons, Journal.sum_nil, Movement.slot, reduceCtorEq, false_and,
    true_and, if_false, Slot.mk.injEq, ho, and_false] at hj
  by_cases he : owner = o
  · simp only [he, and_true, if_true, PoolKey.part] at hj ⊢; omega
  · simp only [he, and_false, if_false] at hj ⊢; omega

theorem held_exchange (h : Replay l (exchange u v holder owner x y) m) (ho : holder ≠ o) :
    (m.held t o).val + (if owner = o then (if v = t then y.val else 0) else 0) =
      (l.held t o).val + if owner = o then (if u = t then x.val else 0) else 0 := by
  have hj := h.held t o
  simp only [exchange, Journal.sum_cons, Journal.sum_nil, Movement.slot, reduceCtorEq, false_and,
    true_and, if_false, Slot.mk.injEq, ho, and_false] at hj
  by_cases he : owner = o
  · simp only [he, and_true, if_true] at hj ⊢; omega
  · simp only [he, and_false, if_false] at hj ⊢; omega

end Replay

namespace Effect

variable {l l' : Ledger} {a : Approval} {j : Journal} {t : Ticker} {s o : Address}

/-- Of an address that is not the sender, the balance changes by what its pools' reserves do, or
grows. -/
theorem covered (h : Effect l a j l') (hc : a.Checked l.answer s) (hs : s ≠ o)
    (hl : l.reserved t o ≤ (l.held t o).val) : l'.reserved t o ≤ (l'.held t o).val := by
  cases h with
  | deploy => exact hl
  | mint _ _ _ moves | deposit _ moves =>
    have hle := moves.held_le (t := t) (o := o) (by simp)
    rw [moves.reserved]
    exact Nat.le_trans hl hle
  | transfer moves =>
    obtain ⟨rfl, -⟩ := hc
    have hle := moves.held_le (t := t) (o := o) (by
      simp only [List.mem_cons, List.mem_map]
      rintro v (rfl | ⟨_, -, rfl⟩) hd
      · exact fun he => hs (congrArg Slot.holder he)
      · cases hd)
    rw [moves.reserved]
    exact Nat.le_trans hl hle
  | createPool absent moves =>
    obtain ⟨rfl, -⟩ := hc
    have hh := moves.held_funding (t := t) hs
    rw [moves.reserved, Ledger.reserved_setPool_of_none absent]
    rw [Ledger.held_setPool] at hh
    simp only [Pool.reserveOf]
    omega
  | @addLiquidity k _ x y _ _ p q _ record _ reserveA reserveB _ owner moves =>
    obtain ⟨rfl, -⟩ := hc
    have hq : q.reserveOf k t + 0 = p.reserveOf k t + k.part t x.val y.val := by
      rw [Pool.reserveOf, reserveA, reserveB, PoolKey.part_add, Pool.reserveOf, Nat.add_zero]
    have hh := moves.held_funding (t := t) hs
    rw [moves.reserved]
    refine Ledger.reserved_setPool_le record owner hq ?_ hl
    rwa [ite_self, Nat.add_zero]
  | @removeLiquidity k _ _ x y p q _ record _ _ _ reserveA reserveB _ owner moves =>
    obtain ⟨rfl, -⟩ := hc
    have hq : q.reserveOf k t + k.part t x.val y.val = p.reserveOf k t + 0 := by
      rw [Nat.add_zero, Pool.reserveOf, ← PoolKey.part_add, reserveA, reserveB, Pool.reserveOf]
    have hh := moves.held_redemption (t := t) hs
    rw [moves.reserved]
    refine Ledger.reserved_setPool_le record owner hq ?_ hl
    rwa [ite_self, Nat.add_zero]
  | @swapFirst k _ _ out x _ y p q _ record reserveA reserveB _ kept moves =>
    obtain ⟨rfl, hab, hdir, ⟨p', hp', rfl, -⟩, -⟩ := hc
    obtain rfl : p = p' := Option.some.inj (record.symm.trans hp')
    obtain rfl : out = k.b := hdir.elim And.right fun hd => absurd hd.1 hab
    have hq : q.reserveOf k t + k.part t 0 y.val = p.reserveOf k t + k.part t x.val 0 := by
      rw [Pool.reserveOf, Pool.reserveOf, ← PoolKey.part_add, ← PoolKey.part_add, reserveA,
        reserveB, Nat.add_zero, Nat.add_zero]
    simp only [PoolKey.part, ite_self, Nat.zero_add, Nat.add_zero] at hq
    rw [moves.reserved]
    exact Ledger.reserved_setPool_le record kept hq (moves.held_exchange hs) hl
  | @swapSecond k _ _ tin out x _ y p q _ record other reserveB reserveA _ kept moves =>
    obtain ⟨rfl, hab, hdir, ⟨p', hp', rfl, -⟩, -⟩ := hc
    obtain rfl : p = p' := Option.some.inj (record.symm.trans hp')
    obtain ⟨rfl, rfl⟩ := hdir.resolve_left fun hd => other hd.1
    have hq : q.reserveOf k t + k.part t y.val 0 = p.reserveOf k t + k.part t 0 x.val := by
      rw [Pool.reserveOf, Pool.reserveOf, ← PoolKey.part_add, ← PoolKey.part_add, reserveA,
        reserveB, Nat.add_zero, Nat.add_zero]
    simp only [PoolKey.part, ite_self, Nat.zero_add, Nat.add_zero] at hq
    rw [moves.reserved]
    exact Ledger.reserved_setPool_le record kept hq (moves.held_exchange hs) hl
  | withdraw _ moves | withdrawUnrecorded _ moves =>
    obtain rfl := hc
    have hle := moves.held_le (t := t) (o := o) (by simp [Movement.slot, hs])
    rw [moves.reserved]
    exact Nat.le_trans hl hle

end Effect

namespace Reachable

variable {l : Ledger}

theorem reserved_le_held (h : Reachable (·.sender.IsPlain) l) (t : Ticker) (o : Address) :
    l.reserved t o ≤ (l.held t o).val := by
  by_cases ho : o.IsPlain
  · have hz : l.reserved t o = 0 := Ledger.reserved_eq_zero fun k p hp he => by
      rw [(h.pool_formed hp).1] at he
      exact k.owner_not_plain (he ▸ ho)
    rw [hz]
    exact Nat.zero_le _
  · refine h.invariant (I := fun l => l.reserved t o ≤ (l.held t o).val) ?_
      fun {_ _ _ _ e} he hl hc hef => ?_
    · have hz : Ledger.empty.reserved t o = 0 := Table.total_empty _
      rw [hz]
      exact Nat.zero_le _
    · exact hef.covered hc (fun hs => ho (hs ▸ he)) hl

end Reachable

theorem Draft.removeLiquidity_ne_insufficient {l : Ledger} {k : PoolKey} {p : Pool}
    {holder : Address} {x : Amount} (hp : l.pool? k = some p) (hab : k.a ≠ k.b) (hpos : 0 < x.val)
    (hx : x ≤ p.liquidity) (hs : x ≤ l.held k.shareTicker holder)
    (ha : p.reserveA ≤ l.held k.a p.owner) (hb : p.reserveB ≤ l.held k.b p.owner) (u : Ticker)
    (o : Address) (y z : Amount) :
    removeLiquidity ⟨l, []⟩ k holder x ≠ .error (.insufficient u o y z) := by
  intro h
  rcases removeLiquidity_eq_error (d := ⟨l, []⟩) hp hab hpos hx hs h with
    ⟨_, hr⟩ | ⟨t, out, hout, hshort⟩
  · cases hr
  · rcases hout.le hx with ⟨rfl, hle⟩ | ⟨rfl, hle⟩
    · exact hshort.false (Nat.le_trans hle ha)
    · exact hshort.false (Nat.le_trans hle hb)

theorem Pool.reservesFor_snd (p : Pool) {x y : Ticker} (h : x ≠ y) :
    (p.reservesFor (.ofPair x y) x).2.val = p.reserveOf (.ofPair x y) y := by
  rcases PoolKey.ofPair_eq_or x y with he | he
  · simp [he, reservesFor, reserveOf, PoolKey.part, h]
  · simp [he, reservesFor, reserveOf, PoolKey.part, h]

open Inquiry in
theorem PairOperation.swap_reason {op : PairOperation} {l : Ledger} {r : Rejection}
    (hab : op.sides.tickerA ≠ op.sides.tickerB)
    (hl : ∀ p, l.pool? op.poolKey = some p →
      p.reserveOf op.poolKey op.sides.tickerB ≤ (l.held op.sides.tickerB p.owner).val)
    (h : op.swap.on l.answer = .error r) : r.reason ≠ .insufficientReserves := by
  rcases on_bind_eq_error.1 h with h | ⟨p, hp, h⟩
  · rcases on_bind_eq_error.1 h with h | ⟨p?, -, h⟩
    · cases h
    · cases p? <;> cases h
      exact (by decide : Reason.poolNotFound ≠ .insufficientReserves)
  have hpool : l.pool? op.poolKey = some p := existingPool_on.1 hp
  dsimp only at h
  rw [on_ite] at h
  split at h
  · cases h; exact (by decide : Reason.emptyReserves ≠ .insufficientReserves)
  next hz =>
  split at h
  · cases h; exact (by decide : Reason.emptyReserves ≠ .insufficientReserves)
  next q hq =>
  rw [on_ite] at h
  split at h
  · cases h; exact (by decide : Reason.slippageExceeded ≠ .insufficientReserves)
  rcases on_bind_eq_error.1 h with h | ⟨_, -, h⟩
  · rcases (requireBalance_on_eq_error h).2 with hr | hr <;> rw [hr] <;> decide
  rcases on_bind_eq_error.1 h with h | ⟨_, -, h⟩
  · -- The quote stays within the reserve, which is not zero, so that the owner has a record.
    refine absurd ?_ (requireBalance_on_eq_error h).1
    have hle := hl p hpool
    rw [poolKey, ← Pool.reservesFor_snd p hab, ← poolKey] at hle
    have hout := quote?_out_le hq
    have hpos : 0 < (p.reservesFor op.poolKey op.sides.tickerA).2.val :=
      Amount.pos_iff_ne_zero.2 fun h0 => hz (.inr h0)
    rw [Amount.le_def] at hout
    unfold Ledger.held at hle
    cases hb : l.balance? op.sides.tickerB p.owner with
    | none =>
      rw [hb, Option.getD_none, Amount.val_zero] at hle
      omega
    | some held =>
      rw [hb, Option.getD_some] at hle
      exact ⟨held, hb, Nat.le_trans hout hle⟩
  · cases h

namespace Reachable

variable {l : Ledger}

theorem remove_not_insufficient (h : Reachable (·.sender.IsPlain) l) {rules : Rules}
    {op : PairOperation} (hk : op.kind = .remove) (t : Ticker) (o : Address) (y z : Amount) :
    (Store.ledger.process rules (.pair op) l).1 ≠ .unapplied (.insufficient t o y z) := by
  intro hout
  obtain ⟨a, hv, ha⟩ := Store.unapplied_by_ledger_iff.1 hout
  have hremove : op.verdict.on l.answer = .ok a := hv
  simp only [PairOperation.verdict, Inquiry.rejectFor, Inquiry.on_guard_eq_ok, hk] at hremove
  obtain ⟨hx, p, hp, hle, hc, rfl⟩ := PairOperation.remove_on.1 hremove.2
  have hpool : l.pool? op.poolKey = some p := hp
  have hab := (h.pool_formed hpool).2
  have hres (t : Ticker) : p.reserveOf op.poolKey t ≤ (l.held t p.owner).val :=
    Nat.le_trans (Ledger.reserveOf_le_reserved hpool) (h.reserved_le_held t p.owner)
  have hA := hres op.poolKey.a
  have hB := hres op.poolKey.b
  simp only [Pool.reserveOf, PoolKey.part, if_pos, if_neg hab, if_neg hab.symm, Nat.add_zero,
    Nat.zero_add] at hA hB
  have hne := Draft.removeLiquidity_ne_insufficient hpool hab hx hle
    (Ledger.le_held_of_covers hc) hA hB t o y z
  unfold Ledger.apply at ha
  cases hd : (Draft.mk l []).apply (.removeLiquidity op.poolKey op.holder op.liquidity) with
  | ok d => rw [hd] at ha; cases ha
  | error r => rw [hd] at ha; cases ha; exact hne hd

theorem swap_not_insufficient (h : Reachable (·.sender.IsPlain) l) {rules : Rules}
    {op : PairOperation} (hk : op.kind = .swap) {r : Rejection}
    (hr : (Store.ledger.process rules (.pair op) l).1 = .rejected r) :
    r.reason ≠ .insufficientReserves := by
  have hv : op.verdict.on l.answer = .error r := Store.rejected_by_ledger_iff.1 hr
  simp only [PairOperation.verdict, Inquiry.on_ite, hk] at hv
  split at hv
  · cases hv
    exact (by decide : Reason.identicalTickers ≠ .insufficientReserves)
  · next hab =>
    refine PairOperation.swap_reason hab (fun p hp => ?_) hv
    exact Nat.le_trans (Ledger.reserveOf_le_reserved hp) (h.reserved_le_held _ p.owner)

/-- Every owner holds the reserves of all its pools, no removal that is accepted is refused for
want of a balance, and no swap is rejected for want of reserves. -/
theorem pools_solvent (h : Reachable (·.sender.IsPlain) l) :
    (∀ t o, l.reserved t o ≤ (l.held t o).val) ∧
    (∀ rules op, op.kind = .remove → ∀ t o y z,
      (Store.ledger.process rules (.pair op) l).1 ≠ .unapplied (.insufficient t o y z)) ∧
    (∀ rules op, op.kind = .swap → ∀ r,
      (Store.ledger.process rules (.pair op) l).1 = .rejected r →
        r.reason ≠ .insufficientReserves) :=
  ⟨h.reserved_le_held, fun _ _ hk => h.remove_not_insufficient hk,
    fun _ _ hk _ => h.swap_not_insufficient hk⟩

/-- One pool of two tokens, after a swap of its maker. -/
theorem pools_solvent_swapped :
    let by_ (i : Inscription) : Envelope := ⟨⟨1, 0⟩, ⟨"DA"⟩, "", 1, i⟩
    let l := Ledger.empty.afterAll ⟨true⟩
      [by_ (.deploy ⟨"AA", "5000", none, none, none, none⟩), by_ (.mint ⟨"AA", "2000"⟩),
       by_ (.deploy ⟨"BB", "5000", none, none, none, none⟩), by_ (.mint ⟨"BB", "1000"⟩),
       by_ (.create ⟨"AA", "BB", "1000", "1000", "0", "0"⟩),
       by_ (.swap ⟨"AA", "BB", "500", "0", "0"⟩)]
    let o := (PoolKey.ofPair (.ofText "AA") (.ofText "BB")).owner
    l.reserved (.ofText "AA") o = 1500 ∧ 1500 ≤ (l.held (.ofText "AA") o).val := by
  intro by_ l o
  have hplain : Address.IsPlain ⟨"DA"⟩ := by
    intro x y h
    have hlen := congrArg String.length h
    simp only [String.length_append] at hlen
    have h2 : "DA".length = 2 := rfl
    have h6 : "-SWAP-".length = 6 := rfl
    omega
  have hl : Reachable (·.sender.IsPlain) l := Reachable.empty.afterAll _ fun e he => by
    simp only [List.mem_cons, List.not_mem_nil, or_false] at he
    rcases he with rfl | rfl | rfl | rfl | rfl | rfl <;> exact hplain
  have hr : l.reserved (.ofText "AA") o = 1500 := by decide +kernel
  exact ⟨hr, by rw [← hr]; exact (pools_solvent hl).1 _ _⟩

end Reachable
end TokenLedger
