import Mathlib.Order.Bounds.Defs
import Mathlib.Tactic.Ring
import TokenLedger.Pool

/-! What the roundings of prices leave in a pool. Products of numbers of two records stand for the
comparison of their quotients. Main statements: a quote does not lower the product of the reserves,
and neither a deposit nor a removal lowers what a liquidity token stands for. -/
namespace TokenLedger

theorem quotient_lt_reserve (net : Nat) {reserveIn reserveOut : Nat} (hin : 0 < reserveIn)
    (hout : 0 < reserveOut) : net * reserveOut / (reserveIn + net) < reserveOut := by
  refine Nat.div_lt_of_lt_mul ?_
  exact Nat.mul_lt_mul_of_pos_right (Nat.lt_add_of_pos_left hin) hout

/-- What is given joins the one reserve whole, what is received leaves the other rounded down. -/
theorem product_le_of_quotient {net given reserveIn reserveOut out rest : Nat} (hnet : net ≤ given)
    (hout : out = net * reserveOut / (reserveIn + net)) (hrest : rest + out = reserveOut) :
    reserveIn * reserveOut ≤ (reserveIn + given) * rest := by
  have hfloor : out * (reserveIn + net) ≤ net * reserveOut := hout ▸ Nat.div_mul_le_self _ _
  have hsplit : (reserveIn + net) * rest + out * (reserveIn + net) =
      reserveIn * reserveOut + net * reserveOut := by
    rw [← hrest]
    ring
  calc reserveIn * reserveOut ≤ (reserveIn + net) * rest := by omega
    _ ≤ (reserveIn + given) * rest := Nat.mul_le_mul_right _ (Nat.add_le_add_left hnet _)

theorem quote?_eq_some {given reserveIn reserveOut : Amount} {q : Quote}
    (h : quote? given reserveIn reserveOut = some q) : q.fee = swapFee given ∧
      q.net.val = given.val - (swapFee given).val ∧
      q.out.val = q.net.val * reserveOut.val / (reserveIn.val + q.net.val) := by
  simp only [quote?] at h
  split at h
  · cases h
  · cases h
    exact ⟨rfl, rfl, rfl⟩

theorem quote?_eq_none_iff {given reserveIn reserveOut : Amount} :
    quote? given reserveIn reserveOut = none ↔
      reserveIn.val + (given.monus (swapFee given)).val = 0 := by
  simp only [quote?]
  split
  · next h => simp only [h]
  · next h => simp only [reduceCtorEq, h]

theorem quote?_of_pos {given reserveIn reserveOut : Amount} (h : 0 < reserveIn.val) :
    ∃ q, quote? given reserveIn reserveOut = some q := by
  simp only [quote?]
  rw [if_neg (by omega)]
  exact ⟨_, rfl⟩

theorem product_le_of_quote {given reserveIn reserveOut : Amount} {q : Quote} {rest : Nat}
    (h : quote? given reserveIn reserveOut = some q) (hin : 0 < reserveIn.val)
    (hout : 0 < reserveOut.val) (hrest : rest + q.out.val = reserveOut.val) : 0 < rest ∧
      reserveIn.val * reserveOut.val ≤ (reserveIn.val + given.val) * rest := by
  obtain ⟨-, hnet, hq⟩ := quote?_eq_some h
  have hlt := quotient_lt_reserve q.net.val hin hout
  exact ⟨by omega, product_le_of_quotient (hnet ▸ Nat.sub_le _ _) hq hrest⟩

theorem planAdd?_of_pos {x y ra rb : Amount} {m n : Bound} (ha : 0 < ra.val) (hb : 0 < rb.val) :
    planAdd? x y m n ra rb = some (
      if n.val ≤ x.val * rb.val / ra.val then .keepA x (x.val * rb.val / ra.val)
      else if y.val * ra.val / rb.val < m.val then
        .slippage (y.val * ra.val / rb.val) (x.val * rb.val / ra.val)
      else .keepB (y.val * ra.val / rb.val) y) := by
  have hzero : ¬(ra = .zero ∨ rb = .zero) := by
    rintro (rfl | rfl)
    · exact Nat.lt_irrefl 0 ha
    · exact Nat.lt_irrefl 0 hb
  have hx : counterAmount? x ra rb = some (x.val * rb.val / ra.val) :=
    if_neg (Nat.pos_iff_ne_zero.1 ha)
  have hy : counterAmount? y rb ra = some (y.val * ra.val / rb.val) :=
    if_neg (Nat.pos_iff_ne_zero.1 hb)
  rw [planAdd?, if_neg hzero, hx, hy]
  simp only [Option.bind_eq_bind, Option.bind_some]
  split
  · rfl
  · split <;> rfl

theorem planAdd?_eq_keepA_iff {x y ra rb : Amount} {m n : Bound} {c : Nat} (ha : 0 < ra.val)
    (hb : 0 < rb.val) : planAdd? x y m n ra rb = some (.keepA x c) ↔
      x.val * rb.val / ra.val = c ∧ n.val ≤ c := by
  rw [planAdd?_of_pos ha hb]
  split
  · next hn =>
    simp only [Option.some.injEq, AddPlan.keepA.injEq, true_and]
    constructor
    · rintro rfl; exact ⟨rfl, hn⟩
    · exact And.left
  · split
    all_goals
      simp only [Option.some.injEq, reduceCtorEq, false_iff, not_and]
      omega

theorem planAdd?_eq_keepB_iff {x y ra rb : Amount} {m n : Bound} {c : Nat} (ha : 0 < ra.val)
    (hb : 0 < rb.val) : planAdd? x y m n ra rb = some (.keepB c y) ↔
      x.val * rb.val / ra.val < n.val ∧ y.val * ra.val / rb.val = c ∧ m.val ≤ c := by
  rw [planAdd?_of_pos ha hb]
  split
  · simp only [Option.some.injEq, reduceCtorEq, false_iff, not_and]
    omega
  · split
    · simp only [Option.some.injEq, reduceCtorEq, false_iff, not_and]
      omega
    · next hn hm =>
      simp only [Option.some.injEq, AddPlan.keepB.injEq, and_true]
      constructor
      · rintro rfl; exact ⟨Nat.lt_of_not_le hn, rfl, Nat.le_of_not_lt hm⟩
      · exact fun h => h.2.1

theorem planAdd?_of_zero {x y ra rb : Amount} {m n : Bound} (h : ra.val = 0 ∨ rb.val = 0) :
    planAdd? x y m n ra rb = none := by
  have hzero : ra = .zero ∨ rb = .zero := h.imp (fun h => Amount.ext h) fun h => Amount.ext h
  rw [planAdd?, if_pos hzero]
  rfl

namespace Pool

/-- The product of the reserves. -/
def depth (p : Pool) : Nat := p.reserveA.val * p.reserveB.val

/-- Every liquidity token stands for no less of either reserve than before. -/
structure Undiluted (p q : Pool) : Prop where
  reserveA : p.reserveA.val * q.liquidity.val ≤ q.reserveA.val * p.liquidity.val
  reserveB : p.reserveB.val * q.liquidity.val ≤ q.reserveB.val * p.liquidity.val

variable {p q : Pool} {a b x outA outB minted : Amount}

theorem sharesFor_eq_ok_iff (hl : p.liquidity ≠ .zero) : sharesFor p a b = .ok minted ↔
    0 < p.reserveA.val ∧ 0 < p.reserveB.val ∧
      minted.val = min (a.val * p.liquidity.val / p.reserveA.val)
        (b.val * p.liquidity.val / p.reserveB.val) := by
  rw [sharesFor, if_neg hl, Amount.mulDiv?, Amount.mulDiv?]
  by_cases ha : p.reserveA.val = 0
  · simp [ha]
  · by_cases hb : p.reserveB.val = 0
    · simp [ha, hb]
    · simp only [if_neg ha, if_neg hb, Nat.pos_of_ne_zero ha, Nat.pos_of_ne_zero hb, true_and]
      rw [← Amount.product, ← Amount.product, ← Amount.ofNat?_eq_some_iff]
      cases Amount.ofNat? _ <;> simp

/-- The smaller of two floored shares is the greatest number within both. -/
theorem isGreatest_min_div {n n' r r' : Nat} (hr : 0 < r) (hr' : 0 < r') :
    IsGreatest {m | m * r ≤ n ∧ m * r' ≤ n'} (min (n / r) (n' / r')) := by
  refine ⟨⟨?_, ?_⟩, fun m hm => ?_⟩
  · exact (Nat.le_div_iff_mul_le hr).1 (Nat.min_le_left _ _)
  · exact (Nat.le_div_iff_mul_le hr').1 (Nat.min_le_right _ _)
  · exact Nat.le_min.2 ⟨(Nat.le_div_iff_mul_le hr).2 hm.1, (Nat.le_div_iff_mul_le hr').2 hm.2⟩

theorem isGreatest_sharesFor (hl : p.liquidity ≠ .zero) (h : sharesFor p a b = .ok minted) :
    IsGreatest {m | m * p.reserveA.val ≤ a.val * p.liquidity.val ∧
      m * p.reserveB.val ≤ b.val * p.liquidity.val} minted.val := by
  obtain ⟨hpa, hpb, hm⟩ := (sharesFor_eq_ok_iff hl).1 h
  rw [hm]
  exact isGreatest_min_div hpa hpb

theorem undiluted_of_shares (hl : p.liquidity ≠ .zero) (h : sharesFor p a b = .ok minted)
    (ha : q.reserveA.val = p.reserveA.val + a.val) (hb : q.reserveB.val = p.reserveB.val + b.val)
    (hq : q.liquidity.val = p.liquidity.val + minted.val) : p.Undiluted q := by
  obtain ⟨hma, hmb⟩ := (isGreatest_sharesFor hl h).1
  constructor
  · rw [hq, ha, Nat.mul_add, Nat.add_mul, Nat.mul_comm _ minted.val]
    exact Nat.add_le_add_left hma _
  · rw [hq, hb, Nat.mul_add, Nat.add_mul, Nat.mul_comm _ minted.val]
    exact Nat.add_le_add_left hmb _

theorem reserve_le_of_payout {x l l' r r' out : Nat} (hout : out = x * r / l) (hr : r' + out = r)
    (hl : l' + x = l) : r * l' ≤ r' * l := by
  have hfloor : out * l ≤ x * r := hout ▸ Nat.div_mul_le_self _ _
  have hsplit : r * l' + x * r = r' * l + out * l := by
    rw [← Nat.add_mul, hr, ← hl]
    ring
  omega

theorem undiluted_of_payout (ha : outA.val = x.product p.reserveA / p.liquidity.val)
    (hb : outB.val = x.product p.reserveB / p.liquidity.val)
    (hqa : q.reserveA.val + outA.val = p.reserveA.val)
    (hqb : q.reserveB.val + outB.val = p.reserveB.val)
    (hq : q.liquidity.val + x.val = p.liquidity.val) : p.Undiluted q :=
  ⟨reserve_le_of_payout ha hqa hq, reserve_le_of_payout hb hqb hq⟩

theorem Undiluted.depth_le (h : p.Undiluted q) : p.depth * (q.liquidity.val * q.liquidity.val) ≤
    q.depth * (p.liquidity.val * p.liquidity.val) := by
  have hab := Nat.mul_le_mul h.reserveA h.reserveB
  calc p.depth * (q.liquidity.val * q.liquidity.val)
      = p.reserveA.val * q.liquidity.val * (p.reserveB.val * q.liquidity.val) := by
        rw [depth]
        ring
    _ ≤ q.reserveA.val * p.liquidity.val * (q.reserveB.val * p.liquidity.val) := hab
    _ = q.depth * (p.liquidity.val * p.liquidity.val) := by
        rw [depth]
        ring

end Pool
end TokenLedger
