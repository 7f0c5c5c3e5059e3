import Mathlib.Algebra.GroupWithZero.Nat
import Std.Data.ExtTreeMap
import TokenLedger.Ledger

/-! Entries under keys, and the balances that journals account for. Where no key repeats a list
finds each of its entries, and a write to one key of a table changes a sum over its entries by what
it changes there. Main statements: whatever slots are summed over, what a journal credits there less
what it debits is the change of the sum, and each movement in turn changes one balance by its
amount, exactly, while the tables of tokens and pools stay. -/
namespace TokenLedger

theorem lookup_eq_some_iff {κ γ : Type} [DecidableEq κ] {xs : List (κ × γ)}
    (hn : (xs.map Prod.fst).Nodup) {k : κ} {x : γ} : xs.lookup k = some x ↔ (k, x) ∈ xs := by
  induction xs with
  | nil => simp
  | cons y ys ih =>
    rw [List.map_cons, List.nodup_cons] at hn
    rw [List.lookup_cons]
    by_cases hk : k = y.1
    · subst hk
      have hnot : (y.1, x) ∉ ys := fun hmem => hn.1 (List.mem_map.2 ⟨_, hmem, rfl⟩)
      simp only [beq_self_eq_true, List.mem_cons, hnot, or_false, Option.some.injEq, Prod.ext_iff,
        true_and, eq_comm]
    · have hne : (k, x) ≠ y := fun he => hk (congrArg Prod.fst he)
      simp only [beq_false_of_ne hk, ih hn.2, List.mem_cons, hne, false_or]

namespace Table

open Std

variable {α β : Type} [Ord α] [TransOrd α] [LawfulEqOrd α]

/-- The sum of a quantity over all entries. -/
def total (f : α → β → Nat) (m : ExtTreeMap α β) : Nat :=
  (m.toList.map fun e => f e.1 e.2).sum

omit [LawfulEqOrd α] in
@[simp] theorem total_empty (f : α → β → Nat) : total f (∅ : ExtTreeMap α β) = 0 := by
  rw [total, ExtTreeMap.toList_eq_nil_iff.2 rfl, List.map_nil, List.sum_nil]

theorem nodup_toList (m : ExtTreeMap α β) : m.toList.Nodup := by
  refine m.distinct_keys_toList.imp fun {a b} hab he => hab ?_
  rw [he, ReflOrd.compare_self]

theorem mem_toList_iff {m : ExtTreeMap α β} {e : α × β} : e ∈ m.toList ↔ m[e.1]? = some e.2 :=
  ExtTreeMap.mem_toList_iff_getElem?_eq_some

theorem toList_perm_cons_erase {m : ExtTreeMap α β} {k : α} {v : β} (h : m[k]? = some v) :
    m.toList.Perm ((k, v) :: (m.erase k).toList) := by
  have hk : (k, v) ∉ (m.erase k).toList := by simp [mem_toList_iff]
  have hn : ((k, v) :: (m.erase k).toList).Nodup := List.nodup_cons.2 ⟨hk, nodup_toList _⟩
  refine (List.perm_ext_iff_of_nodup (nodup_toList m) hn).2 fun e => ?_
  obtain ⟨a, b⟩ := e
  simp only [List.mem_cons, mem_toList_iff, ExtTreeMap.getElem?_erase,
    LawfulEqOrd.compare_eq_iff_eq, Prod.mk.injEq]
  by_cases hka : k = a
  · subst hka
    simp [h, eq_comm]
  · simp [hka, Ne.symm hka]

theorem total_of_getElem? {f : α → β → Nat} {m : ExtTreeMap α β} {k : α} {v : β}
    (h : m[k]? = some v) : total f m = f k v + total f (m.erase k) := by
  simp only [total, ((toList_perm_cons_erase h).map _).sum_nat, List.map_cons, List.sum_cons]

theorem erase_eq_self {m : ExtTreeMap α β} {k : α} (h : m[k]? = none) : m.erase k = m := by
  refine ExtTreeMap.ext_getElem? fun a => ?_
  rw [ExtTreeMap.getElem?_erase]
  split
  · next hk => rw [← LawfulEqOrd.eq_of_compare hk, h]
  · rfl

theorem erase_insert (m : ExtTreeMap α β) (k : α) (v : β) : (m.insert k v).erase k = m.erase k := by
  refine ExtTreeMap.ext_getElem? fun a => ?_
  simp only [ExtTreeMap.getElem?_erase, ExtTreeMap.getElem?_insert]
  split <;> rfl

theorem total_insert (f : α → β → Nat) (m : ExtTreeMap α β) (k : α) (v : β) :
    total f (m.insert k v) + (m[k]?).elim 0 (f k) = total f m + f k v := by
  have hnew : total f (m.insert k v) = f k v + total f (m.erase k) := by
    rw [total_of_getElem? ExtTreeMap.getElem?_insert_self, erase_insert]
  cases h : m[k]? with
  | none => simp only [hnew, erase_eq_self h, Option.elim_none]; omega
  | some w => simp only [hnew, total_of_getElem? h, Option.elim_some]; omega

theorem le_total {f : α → β → Nat} {m : ExtTreeMap α β} {k : α} {v : β} (h : m[k]? = some v) :
    f k v ≤ total f m := by
  rw [total_of_getElem? h]
  exact Nat.le_add_right _ _

theorem total_eq_zero {f : α → β → Nat} {m : ExtTreeMap α β}
    (h : ∀ k v, m[k]? = some v → f k v = 0) : total f m = 0 := by
  refine List.sum_eq_zero_iff_forall_eq_nat.2 fun x hx => ?_
  obtain ⟨e, he, rfl⟩ := List.mem_map.1 hx
  exact h e.1 e.2 (mem_toList_iff.1 he)

end Table

def Movement.slot (m : Movement) : Slot := ⟨m.ticker, m.holder⟩

namespace Journal

/-- All that is moved in one direction at slots with a property. -/
def sum (d : Direction) (P : Slot → Prop) [DecidablePred P] (j : Journal) : Nat :=
  (j.map fun m => if m.direction = d ∧ P m.slot then m.amount.val else 0).sum

variable {d : Direction} {P : Slot → Prop} [DecidablePred P]

@[simp] theorem sum_nil : sum d P [] = 0 := rfl

@[simp] theorem sum_cons (m : Movement) (j : Journal) :
    sum d P (m :: j) = (if m.direction = d ∧ P m.slot then m.amount.val else 0) + sum d P j := by
  simp [sum]

@[simp] theorem sum_append (j i : Journal) : sum d P (j ++ i) = sum d P j + sum d P i := by
  simp [sum, List.sum_append]

theorem sum_credits (t : Ticker) (x : Amount) (as : List Address) :
    sum .credit P (as.map fun a => ⟨t, a, .credit, x⟩) =
      (as.countP fun a => P ⟨t, a⟩) * x.val := by
  induction as with
  | nil => simp
  | cons a as ih =>
    simp only [List.map_cons, sum_cons, ih, List.countP_cons, Movement.slot, true_and,
      decide_eq_true_eq, Nat.add_mul]
    split <;> omega

theorem sum_debit_credits (t : Ticker) (x : Amount) (as : List Address) :
    sum .debit P (as.map fun a => ⟨t, a, .credit, x⟩) = 0 := by
  induction as with
  | nil => rfl
  | cons a as ih => simp [ih]

end Journal

namespace Ledger

/-- The sum of the balances at slots with a property. -/
def sumOver (P : Slot → Prop) [DecidablePred P] (l : Ledger) : Nat :=
  Table.total (fun s x => if P s then x.val else 0) l.balances

variable {P : Slot → Prop} [DecidablePred P] {l l' : Ledger} {t : Ticker} {a : Address}

theorem circulating_eq_sumOver (l : Ledger) (t : Ticker) :
    l.circulating t = l.sumOver (·.ticker = t) := by
  simp only [circulating, holders, sumOver, Table.total]
  induction l.balances.toList with
  | nil => rfl
  | cons b bs ih =>
    by_cases hb : b.1.ticker = t <;> simp_all

theorem held_eq_getElem? (l : Ledger) (t : Ticker) (a : Address) :
    l.held t a = (l.balances[(⟨t, a⟩ : Slot)]?).getD .zero := rfl

theorem sumOver_setBalance (x : Amount) :
    (l.setBalance t a x).sumOver P + (if P ⟨t, a⟩ then (l.held t a).val else 0) =
      l.sumOver P + if P ⟨t, a⟩ then x.val else 0 := by
  have h := Table.total_insert (fun s x => if P s then Amount.val x else 0) l.balances ⟨t, a⟩ x
  rw [held_eq_getElem?]
  cases hb : l.balances[(⟨t, a⟩ : Slot)]? with
  | none => simpa [sumOver, setBalance, hb] using h
  | some y => simpa [sumOver, setBalance, hb] using h

theorem held_eq_sumOver (l : Ledger) (t : Ticker) (a : Address) :
    (l.held t a).val = l.sumOver (· = ⟨t, a⟩) := by
  have h := sumOver_setBalance (l := l) (P := (· = ⟨t, a⟩)) (t := t) (a := a) .zero
  have h0 : (l.setBalance t a .zero).sumOver (· = ⟨t, a⟩) = 0 := by
    refine Table.total_eq_zero fun s x hs => ?_
    split
    · next he =>
      have hx : some Amount.zero = some x := by
        rw [← hs, he, setBalance, Std.ExtTreeMap.getElem?_insert_self]
      rw [← Option.some.inj hx]; rfl
    · rfl
  simp only [if_pos, h0, Amount.val_zero] at h
  omega

end Ledger

/-- The second ledger is the first after the movements of a journal. -/
inductive Replay (l : Ledger) : Journal → Ledger → Prop
  | nil : Replay l [] l
  | credit {j : Journal} {m : Ledger} {t : Ticker} {a : Address} {x y : Amount}
      (before : Replay l j m) (sum : y.val = (m.held t a).val + x.val) :
      Replay l (j ++ [⟨t, a, .credit, x⟩]) (m.setBalance t a y)
  | debit {j : Journal} {m : Ledger} {t : Ticker} {a : Address} {x y : Amount}
      (before : Replay l j m) (sum : y.val + x.val = (m.held t a).val) :
      Replay l (j ++ [⟨t, a, .debit, x⟩]) (m.setBalance t a y)

namespace Replay

variable {l m n : Ledger} {i j : Journal}

theorem append (h : Replay l i m) (h' : Replay m j n) : Replay l (i ++ j) n := by
  induction h' with
  | nil => simpa using h
  | credit _ sum ih => rw [← List.append_assoc]; exact ih.credit sum
  | debit _ sum ih => rw [← List.append_assoc]; exact ih.debit sum

theorem token? (h : Replay l j m) (t : Ticker) : m.token? t = l.token? t := by
  induction h with
  | nil => rfl
  | credit _ _ ih => rw [Ledger.token?_setBalance, ih]
  | debit _ _ ih => rw [Ledger.token?_setBalance, ih]

theorem pool? (h : Replay l j m) (k : PoolKey) : m.pool? k = l.pool? k := by
  induction h with
  | nil => rfl
  | credit _ _ ih => rw [Ledger.pool?_setBalance, ih]
  | debit _ _ ih => rw [Ledger.pool?_setBalance, ih]

theorem pool?_written {k : PoolKey} {p : Pool} (h : Replay (l.setPool k p) j m) :
    m.pool? k = some p := by
  rw [h.pool?, Ledger.pool?_setPool, if_pos rfl]

theorem pools_eq (h : Replay l j m) : m.pools = l.pools := by
  induction h with
  | nil => rfl
  | credit _ _ ih => exact ih
  | debit _ _ ih => exact ih

/-- A record of a pool may be written before the movements as well as after them. -/
theorem setPool (h : Replay l j m) (k : PoolKey) (p : Pool) :
    Replay (l.setPool k p) j (m.setPool k p) := by
  induction h with
  | nil => exact .nil
  | credit _ sum ih => exact .credit ih sum
  | debit _ sum ih => exact .debit ih sum

theorem setToken (h : Replay l j m) (t : Ticker) (r : Token) :
    Replay (l.setToken t r) j (m.setToken t r) := by
  induction h with
  | nil => exact .nil
  | credit _ sum ih => exact .credit ih sum
  | debit _ sum ih => exact .debit ih sum

theorem sumOver (h : Replay l j m) (P : Slot → Prop) [DecidablePred P] :
    m.sumOver P + j.sum .debit P = l.sumOver P + j.sum .credit P := by
  induction h with
  | nil => rfl
  | @credit j m t a x y _ sum ih =>
    have hs := Ledger.sumOver_setBalance (l := m) (P := P) (t := t) (a := a) y
    simp only [Journal.sum_append, Journal.sum_cons, Journal.sum_nil, Movement.slot, true_and,
      reduceCtorEq, false_and, if_false]
    by_cases hp : P ⟨t, a⟩
    · simp only [if_pos hp] at hs ⊢
      omega
    · simp only [if_neg hp] at hs ⊢
      omega
  | @debit j m t a x y _ sum ih =>
    have hs := Ledger.sumOver_setBalance (l := m) (P := P) (t := t) (a := a) y
    simp only [Journal.sum_append, Journal.sum_cons, Journal.sum_nil, Movement.slot, true_and,
      reduceCtorEq, false_and, if_false]
    by_cases hp : P ⟨t, a⟩
    · simp only [if_pos hp] at hs ⊢
      omega
    · simp only [if_neg hp] at hs ⊢
      omega

theorem circulating (h : Replay l j m) (t : Ticker) :
    m.circulating t + j.sum .debit (·.ticker = t) =
      l.circulating t + j.sum .credit (·.ticker = t) := by
  rw [Ledger.circulating_eq_sumOver, Ledger.circulating_eq_sumOver, h.sumOver]

theorem held (h : Replay l j m) (t : Ticker) (a : Address) :
    (m.held t a).val + j.sum .debit (· = ⟨t, a⟩) =
      (l.held t a).val + j.sum .credit (· = ⟨t, a⟩) := by
  rw [Ledger.held_eq_sumOver, Ledger.held_eq_sumOver, h.sumOver]

theorem balance? (h : Replay l j m) {t : Ticker} {a : Address} (hn : ∀ v ∈ j, v.slot ≠ ⟨t, a⟩) :
    m.balance? t a = l.balance? t a := by
  induction h with
  | nil => rfl
  | credit _ _ ih | debit _ _ ih =>
    have hs := hn _ (List.mem_append_right _ List.mem_cons_self)
    rw [Ledger.balance?_setBalance, if_neg fun he => hs (Slot.ext he.1 he.2)]
    exact ih fun v hv => hn v (List.mem_append_left _ hv)

/-- The records of balances are those that there were and those that movements name. -/
theorem balance?_ne_none_iff (h : Replay l j m) {t : Ticker} {a : Address} :
    m.balance? t a ≠ none ↔ l.balance? t a ≠ none ∨ ∃ v ∈ j, v.slot = ⟨t, a⟩ := by
  induction h with
  | nil => simp
  | @credit j m u b x y _ _ ih | @debit j m u b x y _ _ ih =>
    simp only [Ledger.balance?_setBalance, List.mem_append, List.mem_singleton, or_and_right,
      exists_or, exists_eq_left, ← or_assoc, ← ih]
    by_cases hs : u = t ∧ b = a
    · simp [hs, Movement.slot]
    · simp [hs, Movement.slot]

theorem exists_of_prefix (h : Replay l j m) (hi : i <+: j) : ∃ n, Replay l i n := by
  induction h with
  | nil => exact ⟨l, List.prefix_nil.1 hi ▸ .nil⟩
  | credit before sum ih =>
    rcases List.prefix_concat_iff.1 hi with rfl | hi
    · exact ⟨_, before.credit sum⟩
    · exact ih hi
  | debit before sum ih =>
    rcases List.prefix_concat_iff.1 hi with rfl | hi
    · exact ⟨_, before.debit sum⟩
    · exact ih hi

end Replay
end TokenLedger
