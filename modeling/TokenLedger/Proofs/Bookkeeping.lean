import TokenLedger.Proofs.Effect

/-! Books. An approval writes at most one record of a token or of a pool, and all else that it does
to a ledger is moving balances, which its journal lists. Main statement: a journal is an exact and
complete record of the balances, and at no point of it is one below zero or above the ceiling. -/
namespace TokenLedger

namespace Approval

def ticker? : Approval → Option Ticker
  | deploy t .. | mint t .. | transfer t .. => some t
  | deposit .. | withdraw .. => some .wrapped
  | createPool .. | addLiquidity .. | removeLiquidity .. | swap .. => none

def poolKey? : Approval → Option PoolKey
  | createPool k .. | addLiquidity k .. | removeLiquidity k .. | swap k .. => some k
  | deploy .. | mint .. | transfer .. | deposit .. | withdraw .. => none

end Approval

namespace Journal

/-- What a journal adds to the balance at a slot, less what it takes away. -/
def net (s : Slot) (j : Journal) : Int := (j.sum .credit (· = s) : Int) - j.sum .debit (· = s)

end Journal

namespace Ledger

/-- The second ledger has the balances of the first, and other records at most where the approval
may write. -/
structure Rewritten (a : Approval) (l m : Ledger) : Prop where
  balance? : ∀ t o, m.balance? t o = l.balance? t o
  token? : ∀ t, a.ticker? ≠ some t → m.token? t = l.token? t
  pool? : ∀ k, a.poolKey? ≠ some k → m.pool? k = l.pool? k

variable {a : Approval} {l m : Ledger}

theorem Rewritten.refl (a : Approval) (l : Ledger) : Rewritten a l l :=
  ⟨fun _ _ => rfl, fun _ _ => rfl, fun _ _ => rfl⟩

theorem Rewritten.setToken {t : Ticker} (ht : a.ticker? = some t) (r : Token) :
    Rewritten a l (l.setToken t r) where
  balance? _ _ := rfl
  token? u hu := by
    rw [token?_setToken, if_neg]
    rintro rfl
    exact hu ht
  pool? _ _ := rfl

theorem Rewritten.setPool {k : PoolKey} (hk : a.poolKey? = some k) (p : Pool) :
    Rewritten a l (l.setPool k p) where
  balance? _ _ := rfl
  token? _ _ := rfl
  pool? c hc := by
    rw [pool?_setPool, if_neg]
    rintro rfl
    exact hc hk

end Ledger

theorem Effect.rewritten {l l' : Ledger} {a : Approval} {j : Journal} (h : Effect l a j l') :
    ∃ m, l.Rewritten a m ∧ Replay m j l' := by
  cases h with
  | deploy => exact ⟨_, .setToken rfl _, .nil⟩
  | mint _ _ _ moves | deposit _ moves | withdraw _ moves => exact ⟨_, .setToken rfl _, moves⟩
  | transfer moves | withdrawUnrecorded _ moves => exact ⟨_, .refl _ _, moves⟩
  | createPool _ moves | addLiquidity _ _ _ _ _ _ moves | removeLiquidity _ _ _ _ _ _ _ _ moves
  | swapFirst _ _ _ _ _ moves | swapSecond _ _ _ _ _ _ moves => exact ⟨_, .setPool rfl _, moves⟩

namespace Replay

variable {l m : Ledger} {i j : Journal}

theorem held_eq (h : Replay l j m) (t : Ticker) (o : Address) :
    ((m.held t o).val : Int) = (l.held t o).val + j.net ⟨t, o⟩ := by
  have hs := h.held t o
  rw [Journal.net]
  omega

/-- No balance leaves its range on the way. -/
theorem held_of_prefix (h : Replay l j m) (hi : i <+: j) (t : Ticker) (o : Address) :
    0 ≤ ((l.held t o).val : Int) + i.net ⟨t, o⟩ ∧
      ((l.held t o).val : Int) + i.net ⟨t, o⟩ < Amount.limit := by
  obtain ⟨n, hn⟩ := h.exists_of_prefix hi
  have hlt := (n.held t o).val_lt
  rw [← hn.held_eq]
  omega

end Replay

namespace Ledger

/-- The journal records exactly what an approval does to the balances of a ledger, and all else
stays but the records that the approval is for. -/
structure Booked (l : Ledger) (a : Approval) (j : Journal) (l' : Ledger) : Prop where
  balance : ∀ t o, ((l'.held t o).val : Int) = (l.held t o).val + j.net ⟨t, o⟩
  /-- At every point of the journal every balance is an amount. -/
  inRange : ∀ i : Journal, i <+: j → ∀ t o, 0 ≤ ((l.held t o).val : Int) + i.net ⟨t, o⟩ ∧
    ((l.held t o).val : Int) + i.net ⟨t, o⟩ < Amount.limit
  untouched : ∀ t o, (∀ v ∈ j, v.slot ≠ ⟨t, o⟩) → l'.balance? t o = l.balance? t o
  recorded : ∀ t o, l'.balance? t o ≠ none ↔ l.balance? t o ≠ none ∨ ∃ v ∈ j, v.slot = ⟨t, o⟩
  token : ∀ t, a.ticker? ≠ some t → l'.token? t = l.token? t
  pool : ∀ k, a.poolKey? ≠ some k → l'.pool? k = l.pool? k

variable {l l' : Ledger} {a : Approval} {j : Journal}

/-- Whatever an approval, validated or not, does to a ledger is in its journal. -/
theorem apply_booked (h : l.apply a = .ok (l', j)) : l.Booked a j l' := by
  have he := effect_of_apply h
  obtain ⟨m, hm, hj⟩ := he.rewritten
  have hheld (t : Ticker) (o : Address) : m.held t o = l.held t o := by
    rw [held, hm.balance?, held]
  constructor
  case balance => exact fun t o => hheld t o ▸ hj.held_eq t o
  case inRange => exact fun i hi t o => hheld t o ▸ hj.held_of_prefix hi t o
  case untouched => exact fun t o hn => (hj.balance? hn).trans (hm.balance? t o)
  case recorded => exact fun t o => he.balance?_ne_none_iff
  case token => exact fun t ht => (hj.token? t).trans (hm.token? t ht)
  case pool => exact fun k hk => (hj.pool? k).trans (hm.pool? k hk)

/-- Twelve of the fifteen that a sender hands out come back to it, for a total of five. -/
theorem apply_booked_returned :
    let aa := Ticker.ofText "AA"
    let da : Address := ⟨"DA"⟩
    let l := Ledger.empty.setBalance aa da (.ofUInt64 5)
    let a : Approval := .transfer aa da [da, ⟨"DB"⟩, da] (.ofUInt64 6) (.ofUInt64 5)
    ∃ l' j, l.apply a = .ok (l', j) ∧ l.Booked a j l' ∧ j.length = 4 ∧ j.net ⟨aa, da⟩ = 7 ∧
      (l'.held aa da).val = 12 := by
  intro aa da l a
  have hv : (l.apply a).toOption.map (fun x =>
      (x.2.length, Journal.net ⟨aa, da⟩ x.2, (x.1.held aa da).val)) = some (4, 7, 12) := by
    decide +kernel
  cases h : l.apply a with
  | error r => simp [h, Except.toOption] at hv
  | ok x =>
    simp only [h, Except.toOption, Option.map_some, Option.some.injEq, Prod.mk.injEq] at hv
    exact ⟨x.1, x.2, rfl, apply_booked h, hv⟩

end Ledger
end TokenLedger
