import Mathlib.Data.List.Induction
import Mathlib.Data.Nat.Digits.Defs
import TokenLedger.Proofs.RoundTrip

/-! Decimal texts as numerals of any length. Main statement: amounts and minimums are read from
exactly the same texts, each as the number that its digits denote, where a number past all amounts
is an error and one past all minimums the greatest of these. -/
namespace TokenLedger
namespace Decimal

/-- The number that digits stand for, of which the last one counts the units. -/
def value (ds : List Char) : Nat := Nat.ofDigits 10 (ds.reverse.map fun c => c.toNat - '0'.toNat)

/-- A text and the number that it denotes. Digits may follow one plus sign, and no text at all is
zero. -/
inductive Denotes : String → Nat → Prop
  | empty : Denotes "" 0
  | digits {sign ds : List Char} (optional : sign = [] ∨ sign = ['+']) (nonempty : ds ≠ [])
      (isDigit : ∀ c ∈ ds, c.isDigit = true) : Denotes (String.ofList (sign ++ ds)) (value ds)

theorem value_concat (ds : List Char) (c : Char) :
    value (ds ++ [c]) = 10 * value ds + (c.toNat - '0'.toNat) := by
  rw [value, List.reverse_append, List.reverse_singleton, List.singleton_append, List.map_cons,
    Nat.ofDigits_cons, Nat.add_comm]
  rfl

/-- Digits are read from the left, and come to what they stand for by their places. -/
theorem ofDigitChars_eq_value (ds : List Char) : Nat.ofDigitChars 10 ds 0 = value ds := by
  induction ds using List.reverseRecOn with
  | nil => rfl
  | append_singleton ds c ih =>
    rw [Nat.ofDigitChars_append, ih, Nat.ofDigitChars_cons, Nat.ofDigitChars_nil, value_concat]

theorem digits?_eq_some_iff {raw : String} {ds : List Char} : digits? raw = some ds ↔
    ds ≠ [] ∧ (∀ c ∈ ds, c.isDigit = true) ∧
      ∃ sign, (sign = [] ∨ sign = ['+']) ∧ raw.toList = sign ++ ds := by
  constructor
  · intro h
    simp only [digits?] at h
    split at h
    · next hd =>
      obtain rfl := Option.some.inj h
      simp only [Bool.and_eq_true, Bool.not_eq_true', List.isEmpty_eq_false_iff, List.all_eq_true]
        at hd
      refine ⟨hd.1, hd.2, ?_⟩
      unfold dropPlus
      split
      · next rest he => exact ⟨['+'], .inr rfl, he⟩
      · exact ⟨[], .inl rfl, rfl⟩
    · cases h
  · rintro ⟨hne, hds, sign, hsign, hraw⟩
    have hdrop : dropPlus raw.toList = ds := by
      rcases hsign with rfl | rfl
      · rw [hraw, List.nil_append, dropPlus_of_isDigit hds]
      · rw [hraw]
        rfl
    simp only [digits?, hdrop]
    rw [if_pos (by simpa using ⟨hne, hds⟩)]

theorem ofList_ne_empty {sign ds : List Char} (h : ds ≠ []) : String.ofList (sign ++ ds) ≠ "" := by
  intro he
  have hnil := congrArg String.toList he
  rw [String.toList_ofList] at hnil
  exact h (List.append_eq_nil_iff.1 hnil).2

theorem nat?_eq_some_iff {raw : String} {v : Nat} :
    nat? raw = some v ↔ raw ≠ "" ∧ Denotes raw v := by
  rw [nat?, Option.map_eq_some_iff]
  constructor
  · rintro ⟨ds, hds, rfl⟩
    obtain ⟨hne, hdigit, sign, hsign, hraw⟩ := digits?_eq_some_iff.1 hds
    obtain rfl : raw = String.ofList (sign ++ ds) := by rw [← hraw, String.ofList_toList]
    exact ⟨ofList_ne_empty hne, ofDigitChars_eq_value ds ▸ .digits hsign hne hdigit⟩
  · rintro ⟨hne, h⟩
    cases h with
    | empty => exact absurd rfl hne
    | @digits sign ds hsign hds hdigit =>
      refine ⟨ds, digits?_eq_some_iff.2 ⟨hds, hdigit, sign, hsign, ?_⟩, ofDigitChars_eq_value ds⟩
      rw [String.toList_ofList]

theorem nat?_eq_none_iff {raw : String} (h : raw ≠ "") : nat? raw = none ↔ ¬∃ v, Denotes raw v := by
  rw [Option.eq_none_iff_forall_ne_some, not_exists]
  refine forall_congr' fun v => not_congr ?_
  rw [nat?_eq_some_iff, and_iff_right h]

theorem eq_zero_of_denotes_empty {v : Nat} (h : Denotes "" v) : v = 0 := by
  generalize hraw : "" = raw at h
  cases h with
  | empty => rfl
  | digits _ hds _ => exact absurd hraw.symm (ofList_ne_empty hds)

theorem denotes_zeros (zeros n : Nat) :
    Denotes (String.ofList (List.replicate zeros '0') ++ toString n) n := by
  have hvalue : value (List.replicate zeros '0' ++ Nat.toDigits 10 n) = n := by
    rw [← ofDigitChars_eq_value, Nat.ofDigitChars_append, Nat.ofDigitChars_replicate_zero,
      Nat.mul_zero, Nat.ofDigitChars_ten_toDigits]
  have hdigit : ∀ c ∈ List.replicate zeros '0' ++ Nat.toDigits 10 n, c.isDigit = true := by
    intro c hc
    rcases List.mem_append.1 hc with hc | hc
    · rw [List.eq_of_mem_replicate hc]
      rfl
    · exact Json.isDigit_toDigits n c hc
  have hne : List.replicate zeros '0' ++ Nat.toDigits 10 n ≠ [] := fun h =>
    Nat.toDigits_ne_nil (List.append_eq_nil_iff.1 h).2
  have hdenotes := Denotes.digits (.inl rfl) hne hdigit
  rwa [hvalue, List.nil_append, String.ofList_append, ← Nat.toString_eq_ofList_toDigits]
    at hdenotes

end Decimal

open Decimal

variable {raw : String} {v : Nat}

theorem Amount.ofDecimal_of_denotes (h : Denotes raw v) :
    Amount.ofDecimal raw = (Amount.ofNat? v).elim (.error (.amountOverflow raw)) .ok := by
  by_cases hraw : raw = ""
  · subst hraw
    obtain rfl := eq_zero_of_denotes_empty h
    rfl
  · rw [ofDecimal, if_neg hraw, nat?_eq_some_iff.2 ⟨hraw, h⟩]
    dsimp only
    cases Amount.ofNat? v <;> rfl

theorem Bound.ofDecimal_of_denotes (h : Denotes raw v) :
    Bound.ofDecimal raw = .ok (.saturate v) := by
  by_cases hraw : raw = ""
  · subst hraw
    obtain rfl := eq_zero_of_denotes_empty h
    rfl
  · rw [ofDecimal, if_neg hraw, nat?_eq_some_iff.2 ⟨hraw, h⟩]

theorem ofDecimal_of_not_denotes (h : ¬∃ v, Denotes raw v) :
    Amount.ofDecimal raw = .error (.invalidAmount raw) ∧
      Bound.ofDecimal raw = .error (.invalidAmount raw) := by
  have hraw : raw ≠ "" := fun he => h ⟨0, he ▸ .empty⟩
  have hnone := (nat?_eq_none_iff hraw).2 h
  constructor
  · rw [Amount.ofDecimal, if_neg hraw, hnone]
  · rw [Bound.ofDecimal, if_neg hraw, hnone]

theorem Amount.ofDecimal_eq_ok_iff {a : Amount} :
    Amount.ofDecimal raw = .ok a ↔ Denotes raw a.val := by
  constructor
  · intro h
    by_cases hv : ∃ v, Denotes raw v
    · obtain ⟨v, hv⟩ := hv
      rw [ofDecimal_of_denotes hv] at h
      cases hn : ofNat? v with
      | none =>
        rw [hn] at h
        cases h
      | some b =>
        rw [hn] at h
        obtain rfl := Except.ok.inj h
        rwa [ofNat?_eq_some_iff.1 hn]
    · rw [(ofDecimal_of_not_denotes hv).1] at h
      cases h
  · intro h
    rw [ofDecimal_of_denotes h, ofNat?_val, Option.elim_some]

theorem Amount.ofDecimal_overflow (h : Denotes raw v) (hv : limit ≤ v) :
    Amount.ofDecimal raw = .error (.amountOverflow raw) := by
  rw [ofDecimal_of_denotes h, ofNat?_eq_none_iff.2 hv, Option.elim_none]

theorem Decimal.eq_invalid_iff {α : Type} {x : Except DecimalError α} {r : String}
    (hno : (¬∃ v, Denotes raw v) → x = .error (.invalidAmount raw))
    (hyes : ∀ v, Denotes raw v → x ≠ .error (.invalidAmount r)) :
    x = .error (.invalidAmount r) ↔ r = raw ∧ ¬∃ v, Denotes raw v := by
  constructor
  · intro hx
    have hv : ¬∃ v, Denotes raw v := fun ⟨v, hv⟩ => hyes v hv hx
    rw [hno hv] at hx
    cases hx
    exact ⟨rfl, hv⟩
  · rintro ⟨rfl, hv⟩
    exact hno hv

theorem Amount.ofDecimal_eq_invalid_iff {r : String} :
    Amount.ofDecimal raw = .error (.invalidAmount r) ↔ r = raw ∧ ¬∃ v, Denotes raw v := by
  refine eq_invalid_iff (fun h => (ofDecimal_of_not_denotes h).1) fun v hv => ?_
  rw [ofDecimal_of_denotes hv]
  cases Amount.ofNat? v <;> exact fun h => by cases h

theorem Bound.ofDecimal_eq_invalid_iff {r : String} :
    Bound.ofDecimal raw = .error (.invalidAmount r) ↔ r = raw ∧ ¬∃ v, Denotes raw v := by
  refine eq_invalid_iff (fun h => (ofDecimal_of_not_denotes h).2) fun v hv => ?_
  rw [ofDecimal_of_denotes hv]
  exact fun h => by cases h

theorem Bound.limit_eq : limit = 2 ^ 512 := by
  rw [show 512 = 256 + 256 from rfl, pow_add]
  rfl

theorem Bound.ofDecimal_denoted (h : Denotes raw v) :
    ∃ b, Bound.ofDecimal raw = .ok b ∧ b.val = min v (2 ^ 512 - 1) := by
  rw [← limit_eq]
  exact ⟨_, ofDecimal_of_denotes h, val_saturate v⟩

theorem Amount.val_saturate_val (a : Amount) : (Bound.saturate a.val).val = a.val := by
  have hlt : a.val < Bound.limit :=
    Nat.lt_of_lt_of_le a.val_lt (Nat.le_mul_of_pos_left _ (by decide))
  rw [Bound.val_saturate]
  exact Nat.min_eq_left (Nat.le_sub_one_of_lt hlt)

/-- Amounts and minimums are invalid where a text denotes no number. Otherwise the amount is the
number, and overflows from 2 ^ 256 on, and the minimum is the number up to 2 ^ 512 - 1. Hence an
amount is read back from its decimal text, whatever zeros stand before it, and a text of an amount
is the same number as a minimum. -/
theorem Decimal.readings_denoted (raw : String) :
    (∀ r, Amount.ofDecimal raw = .error (.invalidAmount r) ↔ r = raw ∧ ¬∃ v, Denotes raw v) ∧
    (∀ r, Bound.ofDecimal raw = .error (.invalidAmount r) ↔ r = raw ∧ ¬∃ v, Denotes raw v) ∧
    (∀ v, Denotes raw v →
      (v < 2 ^ 256 → ∃ a, Amount.ofDecimal raw = .ok a ∧ a.val = v) ∧
      (2 ^ 256 ≤ v → Amount.ofDecimal raw = .error (.amountOverflow raw)) ∧
      ∃ b, Bound.ofDecimal raw = .ok b ∧ b.val = min v (2 ^ 512 - 1)) ∧
    (∀ a : Amount, Amount.ofDecimal (toString a) = .ok a ∧
      ∀ zeros, Amount.ofDecimal (String.ofList (List.replicate zeros '0') ++ toString a) = .ok a) ∧
    ∀ a, Amount.ofDecimal raw = .ok a → ∃ b, Bound.ofDecimal raw = .ok b ∧ b.val = a.val := by
  refine ⟨fun _ => Amount.ofDecimal_eq_invalid_iff, fun _ => Bound.ofDecimal_eq_invalid_iff,
    fun v h => ⟨fun hv => ?_, Amount.ofDecimal_overflow h, Bound.ofDecimal_denoted h⟩,
    fun a => ⟨a.ofDecimal_toString, fun zeros => ?_⟩, fun a h => ?_⟩
  · exact ⟨⟨v, hv⟩, Amount.ofDecimal_eq_ok_iff.2 h, rfl⟩
  · exact Amount.ofDecimal_eq_ok_iff.2 (denotes_zeros zeros a.val)
  · have hread := Bound.ofDecimal_of_denotes (Amount.ofDecimal_eq_ok_iff.1 h)
    exact ⟨_, hread, a.val_saturate_val⟩

end TokenLedger
