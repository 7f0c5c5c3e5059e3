import TokenLedger.Proofs.Reachable

/-! Conservation of supply. All that circulates of a token was minted, or was handed out by the
pools of which it is the liquidity token, and no ticker is of both kinds: a liquidity token's name
is longer than any name that may be deployed. Main statement: this holds in every reachable
ledger. -/
namespace TokenLedger

namespace Ledger

/-- What is recorded as minted of a token. -/
def minted (l : Ledger) (t : Ticker) : Nat := (l.token? t).elim 0 fun r => r.supply.minted.val

/-- What the pools with a liquidity token have outstanding of it. -/
def issued (l : Ledger) (t : Ticker) : Nat :=
  Table.total (fun k p => if k.shareTicker = t then p.liquidity.val else 0) l.pools

/-- A ticker of which there may be balances. -/
def Knows (l : Ledger) (t : Ticker) : Prop :=
  t = .wrapped ∨ l.token? t ≠ none ∨ ∃ k, l.pool? k ≠ none ∧ k.shareTicker = t

variable {l m : Ledger} {t u : Ticker} {k : PoolKey} {p q : Pool} {r : Token}

@[simp] theorem circulating_setToken : (l.setToken u r).circulating t = l.circulating t := rfl
@[simp] theorem circulating_setPool : (l.setPool k q).circulating t = l.circulating t := rfl
@[simp] theorem issued_setToken : (l.setToken u r).issued t = l.issued t := rfl
@[simp] theorem minted_setPool : (l.setPool k q).minted t = l.minted t := rfl

theorem minted_setToken :
    (l.setToken u r).minted t = if u = t then r.supply.minted.val else l.minted t := by
  simp only [minted, token?_setToken]
  split <;> rfl

theorem minted_of_token? (h : l.token? t = some r) : l.minted t = r.supply.minted.val := by
  rw [minted, h, Option.elim_some]

theorem minted_of_none (h : l.token? t = none) : l.minted t = 0 := by
  rw [minted, h, Option.elim_none]

theorem issued_setPool (h : l.pool? k = some p) :
    (l.setPool k q).issued t + (if k.shareTicker = t then p.liquidity.val else 0) =
      l.issued t + if k.shareTicker = t then q.liquidity.val else 0 := by
  have hi := Table.total_insert
    (fun (k : PoolKey) (p : Pool) => if k.shareTicker = t then p.liquidity.val else 0) l.pools k q
  have hk : l.pools[k]? = some p := h
  rwa [hk, Option.elim_some] at hi

theorem issued_setPool_of_none (h : l.pool? k = none) :
    (l.setPool k q).issued t = l.issued t + if k.shareTicker = t then q.liquidity.val else 0 := by
  have hi := Table.total_insert
    (fun (k : PoolKey) (p : Pool) => if k.shareTicker = t then p.liquidity.val else 0) l.pools k q
  have hk : l.pools[k]? = none := h
  rwa [hk, Option.elim_none, Nat.add_zero] at hi

theorem issued_eq_zero (h : ∀ k, l.pool? k ≠ none → k.shareTicker ≠ t) : l.issued t = 0 := by
  refine Table.total_eq_zero fun k p hk => if_neg (h k ?_)
  rw [show l.pool? k = some p from hk]
  exact Option.some_ne_none p

end Ledger

namespace Replay

variable {l m : Ledger} {j : Journal} {k : PoolKey} {t u v : Ticker} {holder owner : Address}
  {a b x y : Amount}

theorem minted (h : Replay l j m) (t : Ticker) : m.minted t = l.minted t := by
  rw [Ledger.minted, h.token?, Ledger.minted]

theorem issued (h : Replay l j m) (t : Ticker) : m.issued t = l.issued t := by
  rw [Ledger.issued, h.pools_eq, Ledger.issued]

theorem circulating_credit (h : Replay l [⟨u, holder, .credit, x⟩] m) :
    m.circulating t = l.circulating t + if u = t then x.val else 0 := by
  have hj := h.circulating t
  simpa [Movement.slot] using hj

theorem circulating_debit (h : Replay l [⟨u, holder, .debit, x⟩] m) :
    m.circulating t + (if u = t then x.val else 0) = l.circulating t := by
  have hj := h.circulating t
  simpa [Movement.slot] using hj

theorem circulating_fan {recipients : List Address} (hx : x.val = y.val * recipients.length)
    (h : Replay l (⟨u, holder, .debit, x⟩ :: recipients.map fun o => ⟨u, o, .credit, y⟩) m) :
    m.circulating t = l.circulating t := by
  have hj := h.circulating t
  simp only [Journal.sum_cons, Movement.slot, reduceCtorEq, false_and, true_and, if_false,
    Journal.sum_credits, Journal.sum_debit_credits] at hj
  by_cases hu : u = t
  · have hall : (recipients.countP fun _ => decide (u = t)) = recipients.length := by simp [hu]
    rw [if_pos hu, hx, hall, Nat.mul_comm recipients.length] at hj
    omega
  · have hnone : (recipients.countP fun _ => decide (u = t)) = 0 := by simp [hu]
    rw [if_neg hu, hnone] at hj
    omega

theorem circulating_funding (h : Replay l (funding k holder owner a b x) m) :
    m.circulating t = l.circulating t + if k.shareTicker = t then x.val else 0 := by
  have hj := h.circulating t
  simp only [funding, Journal.sum_cons, Journal.sum_nil, Movement.slot, reduceCtorEq, false_and,
    true_and, if_false] at hj
  omega

theorem circulating_redemption (h : Replay l (redemption k holder owner a b x) m) :
    m.circulating t + (if k.shareTicker = t then x.val else 0) = l.circulating t := by
  have hj := h.circulating t
  simp only [redemption, Journal.sum_cons, Journal.sum_nil, Movement.slot, reduceCtorEq, false_and,
    true_and, if_false] at hj
  omega

theorem circulating_exchange (h : Replay l (exchange u v holder owner x y) m) :
    m.circulating t = l.circulating t := by
  have hj := h.circulating t
  simp only [exchange, Journal.sum_cons, Journal.sum_nil, Movement.slot, reduceCtorEq, false_and,
    true_and, if_false] at hj
  omega

end Replay

namespace Effect

variable {l l' : Ledger} {a : Approval} {j : Journal} {t : Ticker} {s : Address} {k : PoolKey}

theorem knows (h : Effect l a j l') (hk : l.Knows t) : l'.Knows t := by
  rcases hk with hw | ht | ⟨k, hk, rfl⟩
  · exact .inl hw
  · exact .inr (.inl (h.token?_ne_none ht))
  · exact .inr (.inr ⟨k, h.pool?_ne_none_iff.2 (.inl hk), rfl⟩)

theorem balanced (h : Effect l a j l') (hc : a.Checked l.answer s)
    (hw : l.circulating .wrapped = l.minted .wrapped) (t : Ticker) :
    l'.circulating t + l.minted t + l.issued t = l.circulating t + l'.minted t + l'.issued t := by
  cases h with
  | deploy absent =>
    simp only [Ledger.circulating_setToken, Ledger.issued_setToken, Ledger.minted_setToken]
    split
    · next hu => rw [← hu, Ledger.minted_of_none absent]; rfl
    · rfl
  | mint record sum _ moves =>
    have hr := Ledger.minted_of_token? record
    rw [moves.circulating_credit, moves.minted, moves.issued, Ledger.minted_setToken,
      Ledger.circulating_setToken, Ledger.issued_setToken, Token.minted_withMinted]
    split
    · next hu => subst hu; omega
    · omega
  | transfer moves =>
    obtain ⟨-, -, -, htotal, -⟩ := hc
    rw [moves.circulating_fan htotal, moves.minted, moves.issued]
  | createPool absent moves =>
    rw [moves.circulating_funding, moves.minted, moves.issued, Ledger.issued_setPool_of_none absent,
      Ledger.circulating_setPool, Ledger.minted_setPool]
    dsimp only
    omega
  | @addLiquidity k _ _ _ _ _ p q _ record _ _ _ liquidity _ moves =>
    have hi := Ledger.issued_setPool (t := t) (q := q) record
    rw [moves.circulating_funding, moves.minted, moves.issued, Ledger.circulating_setPool,
      Ledger.minted_setPool]
    by_cases ht : k.shareTicker = t
    · simp only [if_pos ht] at hi ⊢; omega
    · simp only [if_neg ht] at hi ⊢; omega
  | @removeLiquidity k _ _ _ _ p q _ record _ _ _ _ _ liquidity _ moves =>
    have hi := Ledger.issued_setPool (t := t) (q := q) record
    have hj := moves.circulating_redemption (t := t)
    rw [moves.minted, moves.issued, Ledger.minted_setPool]
    rw [Ledger.circulating_setPool] at hj
    by_cases ht : k.shareTicker = t
    · simp only [if_pos ht] at hi hj; omega
    · simp only [if_neg ht] at hi hj; omega
  | @swapFirst k _ _ _ _ _ _ p q _ record _ _ liquidity _ moves
  | @swapSecond k _ _ _ _ _ _ _ p q _ record _ _ _ liquidity _ moves =>
    have hi := Ledger.issued_setPool (t := t) (q := q) record
    rw [moves.circulating_exchange, moves.minted, moves.issued, Ledger.circulating_setPool,
      Ledger.minted_setPool]
    rw [liquidity] at hi
    omega
  | @deposit holder x minted l' sum moves =>
    have hm : ((l.token? .wrapped).getD .wrapped).supply.minted.val = l.minted .wrapped := by
      cases h : l.token? .wrapped <;> simp [Ledger.minted, h, Token.wrapped]
    rw [moves.circulating_credit, moves.minted, moves.issued, Ledger.minted_setToken,
      Ledger.circulating_setToken, Ledger.issued_setToken, Token.minted_withMinted]
    split
    · next hu => subst hu; omega
    · omega
  | @withdraw holder x r l' record moves =>
    have hr := Ledger.minted_of_token? record
    have hj := moves.circulating_debit (t := t)
    rw [moves.minted, moves.issued, Ledger.minted_setToken, Ledger.issued_setToken,
      Token.minted_withMinted]
    rw [Ledger.circulating_setToken] at hj
    split
    · next hu =>
      subst hu
      rw [if_pos rfl] at hj
      rw [Amount.val_monus]
      omega
    · next hu => rw [if_neg hu] at hj; omega
  | @withdrawUnrecorded holder x l' absent moves =>
    have hj := moves.circulating_debit (t := t)
    have hz := Ledger.minted_of_none absent
    rw [moves.minted, moves.issued]
    split at hj
    · next hu => subst hu; omega
    · omega

end Effect

namespace Ticker

theorem size_joined (a b : Ticker) : (joined a b).size = a.size + 6 + b.size := by
  simp only [size, text_joined, String.utf8ByteSize_append]
  rfl

theorem joined_ne_wrapped (a b : Ticker) : joined a b ≠ .wrapped := by
  intro h
  have hs : 'S' ∈ (joined a b).text.toList := by simp [String.toList_append]
  rw [h] at hs
  revert hs
  decide

end Ticker

/-- A record that there may be of a token: of the bridge's, or of one that was deployed. -/
def Token.Fits (r : Token) (t : Ticker) : Prop :=
  (t = .wrapped ∧ r.supply.max = .max ∨ t.HasValidSize) ∧ r.supply.minted ≤ r.supply.max

/-- What every run keeps. -/
structure Sound (l : Ledger) : Prop where
  fits : ∀ {t r}, l.token? t = some r → r.Fits t
  recorded : ∀ {t o}, l.balance? t o ≠ none → l.Knows t
  sides : ∀ {k}, l.pool? k ≠ none → l.Knows k.a ∧ l.Knows k.b
  balanced : ∀ t, l.circulating t = l.minted t + l.issued t

namespace Sound

variable {l l' : Ledger} {a : Approval} {j : Journal} {t : Ticker} {o s : Address} {k : PoolKey}
  {r : Token} {n : Nat}

theorem two_le_size (hl : Sound l) (ht : l.Knows t) : 2 ≤ t.size := by
  rcases ht with rfl | ht | ⟨k, -, rfl⟩
  · decide
  · obtain ⟨r, hr⟩ := Option.ne_none_iff_exists'.1 ht
    rcases (hl.fits hr).1 with ⟨rfl, -⟩ | hs
    · decide
    · exact hs.1
  · have hk := Ticker.size_joined k.a k.b
    rw [PoolKey.shareTicker]
    omega

/-- No ticker is both recorded and the liquidity token of a pool. -/
theorem shareTicker_ne (hl : Sound l) (hk : l.pool? k ≠ none) (hr : l.token? t = some r) :
    k.shareTicker ≠ t := by
  intro he
  obtain ⟨ha, hb⟩ := hl.sides hk
  have hsize := Ticker.size_joined k.a k.b
  have hsa := hl.two_le_size ha
  have hsb := hl.two_le_size hb
  rcases (hl.fits hr).1 with ⟨rfl, -⟩ | ⟨-, h8⟩
  · exact Ticker.joined_ne_wrapped _ _ he
  · rw [← he, PoolKey.shareTicker] at h8
    omega

theorem circulating_of_token? (hl : Sound l) (hr : l.token? t = some r) :
    l.circulating t = r.supply.minted.val := by
  have hz : l.issued t = 0 := Ledger.issued_eq_zero fun k hk => hl.shareTicker_ne hk hr
  rw [hl.balanced, hz, Ledger.minted_of_token? hr, Nat.add_zero]

theorem circulating_of_none (hl : Sound l) (ht : l.token? t = none) :
    l.circulating t = l.issued t := by
  rw [hl.balanced, Ledger.minted_of_none ht, Nat.zero_add]

theorem circulating_wrapped (hl : Sound l) : l.circulating .wrapped = l.minted .wrapped := by
  have hz : l.issued .wrapped = 0 :=
    Ledger.issued_eq_zero fun k _ => Ticker.joined_ne_wrapped k.a k.b
  rw [hl.balanced, hz, Nat.add_zero]

theorem knows_of_covers (hl : Sound l) (hc : Inquiry.Covers l.answer t o n) : l.Knows t := by
  obtain ⟨held, hh, -⟩ := hc
  have hb : l.balance? t o = some held := hh
  exact hl.recorded (by rw [hb]; exact Option.some_ne_none held)

theorem empty : Sound .empty where
  fits h := by simp [Ledger.token?, Ledger.empty] at h
  recorded h := by simp [Ledger.balance?, Ledger.empty] at h
  sides h := by simp [Ledger.pool?, Ledger.empty] at h
  balanced t := by
    have hc : Ledger.empty.circulating t = 0 := by
      rw [Ledger.circulating_eq_sumOver]; exact Table.total_empty _
    have hi : Ledger.empty.issued t = 0 := Table.total_empty _
    rw [hc, hi, Ledger.minted_of_none (by simp [Ledger.token?, Ledger.empty])]

theorem effect_fits (hl : Sound l) (hc : a.Checked l.answer s) (h : Effect l a j l')
    (hr : l'.token? t = some r) : r.Fits t := by
  cases h with
  | deploy absent =>
    rw [Ledger.token?_setToken] at hr
    split at hr
    · next hu => cases hr; exact ⟨.inr (hu ▸ hc.2.1), Nat.zero_le _⟩
    · exact hl.fits hr
  | mint record sum capped moves =>
    rw [moves.token?, Ledger.token?_setToken] at hr
    split at hr
    · next hu =>
      cases hr
      subst hu
      exact ⟨(hl.fits record).1, capped⟩
    · exact hl.fits hr
  | transfer moves | withdrawUnrecorded _ moves =>
    rw [moves.token?] at hr
    exact hl.fits hr
  | createPool _ moves | addLiquidity _ _ _ _ _ _ moves | removeLiquidity _ _ _ _ _ _ _ _ moves
  | swapFirst _ _ _ _ _ moves | swapSecond _ _ _ _ _ _ moves =>
    rw [moves.token?, Ledger.token?_setPool] at hr
    exact hl.fits hr
  | deposit sum moves =>
    rw [moves.token?, Ledger.token?_setToken] at hr
    split at hr
    · next hu =>
      cases hr
      have hmax : ((l.token? .wrapped).getD .wrapped).supply.max = .max := by
        cases hw : l.token? .wrapped with
        | none => rfl
        | some r =>
          have hf := (hl.fits hw).1.resolve_right (by decide)
          exact hf.2
      exact ⟨.inl ⟨hu.symm, hmax⟩, by rw [Token.max_withMinted, hmax]; exact Amount.le_max _⟩
    · exact hl.fits hr
  | withdraw record moves =>
    rw [moves.token?, Ledger.token?_setToken] at hr
    split at hr
    · next hu =>
      cases hr
      subst hu
      obtain ⟨hf, hle⟩ := hl.fits record
      refine ⟨hf, Nat.le_trans ?_ hle⟩
      rw [Token.minted_withMinted, Amount.val_monus]
      exact Nat.sub_le _ _
    · exact hl.fits hr

theorem knows_of_mem (hl : Sound l) (hc : a.Checked l.answer s) (h : Effect l a j l')
    {v : Movement} (hv : v ∈ j) : l'.Knows v.ticker := by
  have paid {t o n} (ht : Inquiry.Covers l.answer t o n) : l'.Knows t :=
    h.knows (hl.knows_of_covers ht)
  have shares {k p} (hk : l.pool? k = some p) : l'.Knows k.shareTicker :=
    h.knows (.inr (.inr ⟨k, by rw [hk]; exact Option.some_ne_none p, rfl⟩))
  have sides {k p} (hk : l.pool? k = some p) : l.Knows k.a ∧ l.Knows k.b :=
    hl.sides (by rw [hk]; exact Option.some_ne_none p)
  cases id h with
  | deploy => cases hv
  | mint record =>
    obtain rfl := List.mem_singleton.1 hv
    exact h.knows (.inr (.inl (by rw [record]; exact Option.some_ne_none _)))
  | transfer =>
    obtain ⟨-, -, -, -, hcov⟩ := hc
    rcases List.mem_cons.1 hv with rfl | hv
    · exact paid hcov
    · obtain ⟨_, -, rfl⟩ := List.mem_map.1 hv
      exact paid hcov
  | createPool =>
    obtain ⟨-, -, -, -, -, ha, hb⟩ := hc
    have hp := h.pool?_ne_none_iff.2 (.inr ⟨_, _, _, rfl⟩)
    simp only [funding, List.mem_cons, List.not_mem_nil, or_false] at hv
    rcases hv with rfl | rfl | rfl | rfl | rfl
    · exact paid ha
    · exact paid ha
    · exact paid hb
    · exact paid hb
    · exact .inr (.inr ⟨_, hp, rfl⟩)
  | addLiquidity record =>
    obtain ⟨-, -, -, ha, hb⟩ := hc
    simp only [funding, List.mem_cons, List.not_mem_nil, or_false] at hv
    rcases hv with rfl | rfl | rfl | rfl | rfl
    · exact paid ha
    · exact paid ha
    · exact paid hb
    · exact paid hb
    · exact shares record
  | removeLiquidity record =>
    obtain ⟨ha, hb⟩ := sides record
    simp only [redemption, List.mem_cons, List.not_mem_nil, or_false] at hv
    rcases hv with rfl | rfl | rfl | rfl | rfl
    · exact shares record
    · exact h.knows ha
    · exact h.knows ha
    · exact h.knows hb
    · exact h.knows hb
  | swapFirst | swapSecond =>
    obtain ⟨-, -, -, -, hin, hout⟩ := hc
    simp only [exchange, List.mem_cons, List.not_mem_nil, or_false] at hv
    rcases hv with rfl | rfl | rfl | rfl
    · exact paid hin
    · exact paid hin
    · exact paid hout
    · exact paid hout
  | deposit | withdraw | withdrawUnrecorded =>
    obtain rfl := List.mem_singleton.1 hv
    exact .inl rfl

theorem effect (hl : Sound l) (hc : a.Checked l.answer s) (h : Effect l a j l') : Sound l' where
  fits := hl.effect_fits hc h
  recorded {t o} hb := by
    rcases h.balance?_ne_none_iff.1 hb with hb | ⟨v, hv, ht⟩
    · exact h.knows (hl.recorded hb)
    · have hk := hl.knows_of_mem hc h hv
      have he : v.ticker = t := congrArg Slot.ticker ht
      rwa [he] at hk
  sides {k} hk := by
    rcases h.pool?_ne_none_iff.1 hk with hk | ⟨holder, x, y, rfl⟩
    · obtain ⟨ha, hb⟩ := hl.sides hk
      exact ⟨h.knows ha, h.knows hb⟩
    · obtain ⟨-, -, -, -, -, ha, hb⟩ := hc
      exact ⟨h.knows (hl.knows_of_covers ha), h.knows (hl.knows_of_covers hb)⟩
  balanced t := by
    have hb := h.balanced hc hl.circulating_wrapped t
    have ht := hl.balanced t
    omega

end Sound

namespace Reachable

variable {allowed : Envelope → Prop} {l : Ledger}

theorem sound (h : Reachable allowed l) : Sound l :=
  h.invariant .empty fun _ hl hc he => hl.effect hc he

/-- A withdrawal takes off the minted sum all that it takes from its holder. -/
theorem withdraw_exact (hl : Sound l) {l' : Ledger} {j : Journal} {o : Address} {x : Amount}
    {r : Token} (hr : l.token? .wrapped = some r) (h : Effect l (.withdraw o x) j l') :
    ∃ r', l'.token? .wrapped = some r' ∧ r'.supply.minted.val + x.val = r.supply.minted.val := by
  cases h with
  | @withdraw _ _ r' _ record moves =>
    obtain rfl : r' = r := Option.some.inj (record.symm.trans hr)
    refine ⟨_, by rw [moves.token?, Ledger.token?_setToken, if_pos rfl], ?_⟩
    have hj := moves.circulating_debit (t := .wrapped)
    have hc := hl.circulating_of_token? hr
    rw [if_pos rfl, Ledger.circulating_setToken, hc] at hj
    rw [Token.minted_withMinted, Amount.val_monus]
    omega
  | withdrawUnrecorded absent => rw [absent] at hr; cases hr

/-- What circulates of a recorded token was minted, within its maximum, and is no pool's; what
circulates of another is what pools have outstanding, and of one that may be deployed nothing was
ever recorded. A withdrawal never takes more off the minted sum than there is. -/
theorem supply_conserved (h : Reachable allowed l) :
    (∀ t r, l.token? t = some r → l.circulating t = r.supply.minted.val ∧
      r.supply.minted ≤ r.supply.max ∧ ∀ k, l.pool? k ≠ none → k.shareTicker ≠ t) ∧
    (∀ t, l.token? t = none → l.circulating t = l.issued t) ∧
    (∀ t o, t.HasValidSize → l.token? t = none → l.balance? t o = none) ∧
    (∀ o x l' j r, l.apply (.withdraw o x) = .ok (l', j) → l.token? .wrapped = some r →
      ∃ r', l'.token? .wrapped = some r' ∧
        r'.supply.minted.val + x.val = r.supply.minted.val) := by
  have hl := h.sound
  refine ⟨fun t r hr => ?_, fun t ht => hl.circulating_of_none ht, fun t o hs ht => ?_, ?_⟩
  · exact ⟨hl.circulating_of_token? hr, (hl.fits hr).2, fun k hk => hl.shareTicker_ne hk hr⟩
  · cases hb : l.balance? t o with
    | none => rfl
    | some x =>
      rcases hl.recorded (by rw [hb]; exact Option.some_ne_none x) with rfl | hn | ⟨k, hk, rfl⟩
      · exact absurd hs (by decide)
      · exact absurd ht hn
      · -- The name of a liquidity token is too long to be deployed.
        obtain ⟨ha, hb⟩ := hl.sides hk
        have hsize := Ticker.size_joined k.a k.b
        have hsa := hl.two_le_size ha
        have hsb := hl.two_le_size hb
        have h8 := hs.2
        rw [PoolKey.shareTicker] at h8
        omega
  · intro o x l' j r hap hr
    exact withdraw_exact hl hr (Ledger.effect_of_apply hap)

/-- A first deposit over the bridge and a withdrawal of a part of it. -/
theorem supply_conserved_bridge :
    let deposit : Envelope := ⟨⟨1, 0⟩, ⟨"DA"⟩, "", 1, .deposit ⟨"WDOGE(WRAPPED-DOGE)", "7"⟩⟩
    let withdraw : Envelope := ⟨⟨1, 1⟩, ⟨"DA"⟩, "", 1, .withdraw ⟨"WDOGE(WRAPPED-DOGE)", "3"⟩⟩
    let l := (Ledger.empty.after ⟨true⟩ deposit).after ⟨true⟩ withdraw
    (l.token? .wrapped).map (fun r => r.supply.minted.val) = some 4 ∧ l.circulating .wrapped = 4 := by
  intro deposit withdraw l
  have hl : Reachable (fun _ => True) l := (empty.after _ trivial).after _ trivial
  have hm : (l.token? .wrapped).map (fun r => r.supply.minted.val) = some 4 := by decide +kernel
  obtain ⟨r, hr, h4⟩ := Option.map_eq_some_iff.1 hm
  exact ⟨hm, by rw [(supply_conserved hl).1 _ _ hr |>.1, h4]⟩

end Reachable
end TokenLedger
