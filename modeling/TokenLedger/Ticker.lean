import TokenLedger.Text.Upper

/-! Tickers, which are upper-case texts, and addresses, which are any texts. Both compare by code
point, like every type that a list of texts tells the values of apart. Main statement: the normal
form that a ticker carries is the one that reading it again gives. -/
namespace TokenLedger

class Keyed (α : Type) where
  key : α → List String
  key_injective : ∀ {a b : α}, key a = key b → a = b

namespace Keyed

variable {α : Type} [Keyed α]

instance (priority := low) : Ord α := ⟨compareOn key⟩

instance (priority := low) : Std.TransOrd α :=
  inferInstanceAs (Std.TransCmp (compareOn (key : α → List String)))

instance (priority := low) : Std.LawfulEqOrd α where
  eq_of_compare h :=
    key_injective (Std.LawfulEqOrd.eq_of_compare (h : compare (key _) (key _) = .eq))

end Keyed

/-- A token's name in upper case. -/
structure Ticker where
  text : String
  normal : Text.upper text = text
  deriving DecidableEq

structure Address where
  text : String
  deriving DecidableEq

namespace Ticker

instance : ToString Ticker := ⟨text⟩

@[ext] theorem ext {a b : Ticker} (h : a.text = b.text) : a = b := by
  cases a; cases b; simp_all

instance : Keyed Ticker where
  key t := [t.text]
  key_injective h := ext (List.head_eq_of_cons_eq h)

def ofText (raw : String) : Ticker := ⟨Text.upper raw, Text.upper_upper raw⟩

@[simp] theorem text_ofText (raw : String) : (ofText raw).text = Text.upper raw := rfl

@[simp] theorem ofText_text (t : Ticker) : ofText t.text = t := ext t.normal

theorem length_text_ofText (raw : String) : (ofText raw).text.length = raw.length :=
  Text.length_upper raw

def size (t : Ticker) : Nat := t.text.utf8ByteSize

/-- The lengths that a deployed ticker may have. -/
def HasValidSize (t : Ticker) : Prop := 2 ≤ t.size ∧ t.size ≤ 8

instance (t : Ticker) : Decidable t.HasValidSize := by unfold HasValidSize; infer_instance

def wrapped : Ticker := ⟨"WDOGE(WRAPPED-DOGE)", by decide⟩

/-- Two tickers around a fixed text. -/
def joined (a b : Ticker) : Ticker :=
  ⟨a.text ++ "-SWAP-" ++ b.text, by
    rw [Text.upper_append, Text.upper_append, a.normal, b.normal]; rfl⟩

@[simp] theorem text_joined (a b : Ticker) : (joined a b).text = a.text ++ "-SWAP-" ++ b.text := rfl

end Ticker

namespace Address

instance : ToString Address := ⟨text⟩

@[ext] theorem ext {a b : Address} (h : a.text = b.text) : a = b := by
  cases a; cases b; simp_all

instance : Keyed Address where
  key a := [a.text]
  key_injective h := ext (List.head_eq_of_cons_eq h)

end Address
end TokenLedger
