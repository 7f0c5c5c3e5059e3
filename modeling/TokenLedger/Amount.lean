import TokenLedger.Text.Quoted

/-! Ledger quantities, the exact arithmetic on them, and their decimal texts. A quantity has 256
bits and a minimum that a caller sets has twice as many; products and quotients are taken over the
natural numbers. A decimal text has ASCII digits after at most one plus sign, with any number of
leading zeros, and an empty one is zero. -/
namespace TokenLedger

/-- The least number that is too large for an amount. -/
def Amount.limit : Nat := Nat.pow 2 256

def Bound.limit : Nat := Amount.limit * Amount.limit

/-- A balance, supply, reserve or liquidity. -/
structure Amount where
  val : Nat
  val_lt : val < Amount.limit
  deriving DecidableEq

/-- A minimum that an amount is compared with. -/
structure Bound where
  val : Nat
  val_lt : val < Bound.limit
  deriving DecidableEq

/-- The floor of the square root, found from the `k` leading digits in base four. -/
def rootDigits : Nat → Nat → Nat
  | 0, _ => 0
  | k + 1, n =>
    let r := 2 * rootDigits k (n / 4)
    if (r + 1) * (r + 1) ≤ n then r + 1 else r

def floorRoot (n : Nat) : Nat := rootDigits (n.log2 / 2 + 1) n

theorem rootDigits_bounds {k n : Nat} (h : n < Nat.pow 4 k) :
    rootDigits k n * rootDigits k n ≤ n ∧ n < (rootDigits k n + 1) * (rootDigits k n + 1) := by
  induction k generalizing n with
  | zero => have : n = 0 := Nat.lt_one_iff.1 h
            simp [this, rootDigits]
  | succ k ih =>
    have hk : n / 4 < Nat.pow 4 k := by have : n < Nat.pow 4 k * 4 := h; omega
    obtain ⟨hl, hu⟩ := ih hk
    have hd := Nat.div_add_mod n 4
    have hm := Nat.mod_lt n (by decide : 0 < 4)
    simp only [rootDigits]
    generalize rootDigits k (n / 4) = s at hl hu ⊢
    split <;> rename_i hr <;> constructor <;> grind

theorem floorRoot_bounds (n : Nat) :
    floorRoot n * floorRoot n ≤ n ∧ n < (floorRoot n + 1) * (floorRoot n + 1) := by
  apply rootDigits_bounds
  have h : n < 2 ^ (n.log2 + 1) := Nat.lt_log2_self
  have : 2 ^ (n.log2 + 1) ≤ 2 ^ (2 * (n.log2 / 2 + 1)) :=
    Nat.pow_le_pow_right (by decide) (by omega)
  rw [Nat.pow_mul] at this
  exact Nat.lt_of_lt_of_le h this

namespace Amount

instance : LE Amount := ⟨fun a b => a.val ≤ b.val⟩
instance : LT Amount := ⟨fun a b => a.val < b.val⟩
instance (a b : Amount) : Decidable (a ≤ b) := inferInstanceAs (Decidable (a.val ≤ b.val))
instance (a b : Amount) : Decidable (a < b) := inferInstanceAs (Decidable (a.val < b.val))
instance : ToString Amount := ⟨fun a => toString a.val⟩

theorem le_def {a b : Amount} : a ≤ b ↔ a.val ≤ b.val := .rfl
theorem lt_def {a b : Amount} : a < b ↔ a.val < b.val := .rfl

@[ext] theorem ext {a b : Amount} (h : a.val = b.val) : a = b := by
  cases a; cases b; simp_all

def zero : Amount := ⟨0, by decide⟩
def max : Amount := ⟨limit - 1, by decide⟩

@[simp] theorem val_zero : zero.val = 0 := rfl
@[simp] theorem val_max : max.val = limit - 1 := rfl

theorem pos_iff_ne_zero {a : Amount} : 0 < a.val ↔ a ≠ zero := by
  rw [Nat.pos_iff_ne_zero, ne_eq, ne_eq, Amount.ext_iff, val_zero]

instance : Inhabited Amount := ⟨zero⟩

theorem le_max (a : Amount) : a ≤ max := by have := a.val_lt; simp only [le_def, val_max]; omega

def ofNat? (n : Nat) : Option Amount := if h : n < limit then some ⟨n, h⟩ else none

theorem ofNat?_eq_some_iff {n : Nat} {a : Amount} : ofNat? n = some a ↔ a.val = n := by
  unfold ofNat?
  split
  · rw [Option.some.injEq]; exact ⟨fun h => h ▸ rfl, fun h => Amount.ext h.symm⟩
  · have := a.val_lt
    exact ⟨fun h => (by cases h), fun h => by omega⟩

@[simp] theorem ofNat?_val (a : Amount) : ofNat? a.val = some a := ofNat?_eq_some_iff.2 rfl

theorem ofNat?_eq_none_iff {n : Nat} : ofNat? n = none ↔ limit ≤ n := by
  unfold ofNat?; split <;> simp <;> omega

def ofUInt64 (n : UInt64) : Amount :=
  ⟨n.toNat, Nat.lt_of_lt_of_le n.toNat_lt (by decide)⟩

def add? (a b : Amount) : Option Amount := ofNat? (a.val + b.val)

def sub? (a b : Amount) : Option Amount := if b ≤ a then ofNat? (a.val - b.val) else none

/-- The difference, or zero where it would be negative. -/
def monus (a b : Amount) : Amount := ⟨a.val - b.val, by have := a.val_lt; omega⟩

@[simp] theorem val_monus (a b : Amount) : (a.monus b).val = a.val - b.val := rfl

theorem add?_eq_some_iff {a b c : Amount} : a.add? b = some c ↔ c.val = a.val + b.val :=
  ofNat?_eq_some_iff

theorem add?_eq_none_iff {a b : Amount} : a.add? b = none ↔ limit ≤ a.val + b.val :=
  ofNat?_eq_none_iff

theorem sub?_eq_some_iff {a b c : Amount} : a.sub? b = some c ↔ c.val + b.val = a.val := by
  unfold sub?
  split <;> rename_i h <;> rw [le_def] at h
  · rw [ofNat?_eq_some_iff]; omega
  · exact ⟨fun h => (by cases h), fun h => by omega⟩

theorem sub?_eq_none_iff {a b : Amount} : a.sub? b = none ↔ a < b := by
  unfold sub?
  split <;> rename_i h <;> rw [le_def] at h
  · rw [ofNat?_eq_none_iff, lt_def]; have := a.val_lt; omega
  · simp only [lt_def, true_iff]; omega

/-- The product over the natural numbers. -/
def product (a b : Amount) : Nat := a.val * b.val

/-- The floor of `a * b / c`, undefined for a divisor of zero. -/
def mulDiv? (a b c : Amount) : Option Nat := if c.val = 0 then none else some (a.product b / c.val)

theorem product_lt (a b : Amount) : a.product b < Bound.limit :=
  Nat.mul_lt_mul'' a.val_lt b.val_lt

theorem floorRoot_product_lt (a b : Amount) : floorRoot (a.product b) < limit := by
  have h := (floorRoot_bounds (a.product b)).1
  have hp := a.product_lt b
  refine Nat.lt_of_not_le fun hc => ?_
  have : Bound.limit ≤ _ := Nat.mul_le_mul hc hc
  omega

def sqrtProduct (a b : Amount) : Amount := ⟨floorRoot (a.product b), floorRoot_product_lt a b⟩

@[simp] theorem val_sqrtProduct (a b : Amount) :
    (a.sqrtProduct b).val = floorRoot (a.product b) := rfl

end Amount

namespace Bound

instance : ToString Bound := ⟨fun b => toString b.val⟩

@[ext] theorem ext {a b : Bound} (h : a.val = b.val) : a = b := by
  cases a; cases b; simp_all

def zero : Bound := ⟨0, by decide⟩
def max : Bound := ⟨limit - 1, by decide⟩

@[simp] theorem val_zero : zero.val = 0 := rfl

/-- The number itself, or the greatest bound where the number lies above it. -/
def saturate (n : Nat) : Bound := if h : n < limit then ⟨n, h⟩ else max

theorem val_saturate (n : Nat) : (saturate n).val = min n (limit - 1) := by
  unfold saturate
  split
  · simp only; omega
  · simp only [max]; omega

end Bound

inductive DecimalError
  | invalidAmount (raw : String)
  | amountOverflow (raw : String)
  | invalidDecimals (raw : String)
  deriving DecidableEq

def DecimalError.message : DecimalError → String
  | invalidAmount raw => "invalid amount: " ++ Text.quote raw
  | amountOverflow raw => "amount exceeds numeric ceiling: " ++ raw
  | invalidDecimals raw => "invalid decimals: " ++ Text.quote raw

namespace Decimal

def dropPlus : List Char → List Char
  | '+' :: rest => rest
  | cs => cs

theorem dropPlus_of_isDigit {cs : List Char} (h : ∀ c ∈ cs, c.isDigit = true) :
    dropPlus cs = cs := by
  unfold dropPlus
  split
  · next rest => exact absurd (h '+' List.mem_cons_self) (by decide)
  · rfl

def digits? (raw : String) : Option (List Char) :=
  let ds := dropPlus raw.toList
  if !ds.isEmpty && ds.all Char.isDigit then some ds else none

def nat? (raw : String) : Option Nat := (digits? raw).map fun ds => Nat.ofDigitChars 10 ds 0

end Decimal

/-- The amount that a decimal text denotes. -/
def Amount.ofDecimal (raw : String) : Except DecimalError Amount :=
  if raw = "" then .ok .zero
  else match Decimal.nat? raw with
    | none => .error (.invalidAmount raw)
    | some n => match Amount.ofNat? n with
      | none => .error (.amountOverflow raw)
      | some a => .ok a

/-- The minimum that a decimal text denotes; numbers past the greatest bound read as that bound. -/
def Bound.ofDecimal (raw : String) : Except DecimalError Bound :=
  if raw = "" then .ok .zero
  else match Decimal.nat? raw with
    | none => .error (.invalidAmount raw)
    | some n => .ok (.saturate n)

/-- The decimal places a token asks for; none and the empty text ask for zero. -/
def decimalsOfText : Option String → Except DecimalError UInt8
  | none => .ok 0
  | some raw =>
    if raw = "" then .ok 0
    else match Decimal.nat? raw with
      | none => .error (.invalidDecimals raw)
      | some n => if n < 256 then .ok n.toUInt8 else .error (.invalidDecimals raw)

def defaultDecimals : UInt8 := 8

/-- Zero places stand for the default. -/
def decimalsOrDefault (d : UInt8) : UInt8 := if d = 0 then defaultDecimals else d

/-- A 64-bit word from its decimal text; here an empty text denotes nothing. -/
def wordOfText? (raw : String) : Option UInt64 :=
  match Decimal.nat? raw with
  | none => none
  | some n => if n < UInt64.size then some n.toUInt64 else none
end TokenLedger
