import Mathlib.Data.List.TakeWhile
import TokenLedger.Json.Record

/-! How values are spelled. A value without doubles and without signs is written as a sequence of
tokens, which the lexer finds again one by one: a numeral or a word ends where the next mark stands,
and an escaped character comes back as itself. Main statements: the tokens of the text of a value
are those of the value, and no control character stands in the text. -/
namespace TokenLedger
namespace Json

namespace Value

mutual

/-- All numbers of the value are natural ones that fit a word of 64 bits. -/
def IsWhole : Value → Prop
  | .number (.natural n) => n < UInt64.size
  | .number _ => False
  | .array vs => AllWhole vs
  | .object ms => MembersWhole ms
  | _ => True

def AllWhole : List Value → Prop
  | [] => True
  | v :: vs => v.IsWhole ∧ AllWhole vs

def MembersWhole : List (String × Value) → Prop
  | [] => True
  | (_, v) :: ms => v.IsWhole ∧ MembersWhole ms

end

def numeral (n : Nat) : Numeral := ⟨false, Nat.toDigits 10 n, [], none⟩

mutual

def tokens : Value → List Token
  | .null => [.null]
  | .bool b => [.bool b]
  | .number (.natural n) => [.number (numeral n)]
  | .number _ => [.junk]
  | .string s => [.string (some s)]
  | .array [] => [.openArray, .closeArray]
  | .array (v :: vs) => .openArray :: v.tokens ++ itemTokens vs
  | .object [] => [.openObject, .closeObject]
  | .object ((k, v) :: ms) =>
    .openObject :: .string (some k) :: .colon :: v.tokens ++ memberTokens ms

def itemTokens : List Value → List Token
  | [] => [.closeArray]
  | v :: vs => .comma :: v.tokens ++ itemTokens vs

def memberTokens : List (String × Value) → List Token
  | [] => [.closeObject]
  | (k, v) :: ms => .comma :: .string (some k) :: .colon :: v.tokens ++ memberTokens ms

end

end Value

theorem isDigit_toDigits (n : Nat) : ∀ c ∈ Nat.toDigits 10 n, c.isDigit = true :=
  fun _ hc => Nat.isDigit_of_mem_toDigits (by decide) (by decide) hc

namespace Lexer

open Value

/-- What has been read of the characters after some tokens. -/
def after (ts : List Token) (cs : List Char) : Lexer := cs.foldl push ⟨.between, ts⟩

/-- The last token ends here at the latest: with the text, or before a mark. -/
structure Settled (l : Lexer) (ts : List Token) : Prop where
  finish : l.finish = ts
  push : ∀ c, c.isAlpha = false → isNumeralChar c = false → l.push c = start ts c

theorem settled_between (ts : List Token) : Settled ⟨.between, ts⟩ ts := ⟨rfl, fun _ _ _ => rfl⟩

theorem Settled.comma {l : Lexer} {ts : List Token} (h : l.Settled ts) :
    l.push ',' = ⟨.between, .comma :: ts⟩ :=
  h.push ',' (by decide) (by decide)

theorem Settled.closeArray {l : Lexer} {ts : List Token} (h : l.Settled ts) :
    l.push ']' = ⟨.between, .closeArray :: ts⟩ :=
  h.push ']' (by decide) (by decide)

theorem Settled.closeObject {l : Lexer} {ts : List Token} (h : l.Settled ts) :
    l.push '\x7d' = ⟨.between, .closeObject :: ts⟩ :=
  h.push '\x7d' (by decide) (by decide)

theorem hexValue?_digitChar {d : Nat} (h : d < 16) : hexValue? (Nat.digitChar d) = some d := by
  revert d
  decide

theorem foldl_escapeChar {s : Scanned} (hs : s.half = none) (ts : List Token) (c : Char) :
    (escapeChar c).foldl push ⟨.text s, ts⟩ = ⟨.text (s.put c), ts⟩ := by
  unfold escapeChar
  split
  · next h => subst h; rfl
  split
  · next h => subst h; rfl
  have named {n : Nat} {d : Char} (hc : c.toNat = n) (hd : d.toNat = n) : c = d :=
    Char.toNat_inj.1 (hc.trans hd.symm)
  split
  · next h => rw [named (d := '\x08') h rfl]; rfl
  split
  · next h => rw [named (d := '\t') h rfl]; rfl
  split
  · next h => rw [named (d := '\n') h rfl]; rfl
  split
  · next h => rw [named (d := '\x0c') h rfl]; rfl
  split
  · next h => rw [named (d := '\r') h rfl]; rfl
  split
  · next hlow =>
    have hhigh := hexValue?_digitChar (d := c.toNat / 16) (by omega)
    have hrest := hexValue?_digitChar (d := c.toNat % 16) (by omega)
    have hunit : s.putUnit c.toNat = s.put c := by
      have hfirst : Scanned.isFirstHalf c.toNat = false := by
        simp only [Scanned.isFirstHalf, Bool.and_eq_false_iff, decide_eq_false_iff_not]
        omega
      have hsecond : Scanned.isSecondHalf c.toNat = false := by
        simp only [Scanned.isSecondHalf, Bool.and_eq_false_iff, decide_eq_false_iff_not]
        omega
      simp [Scanned.putUnit, hs, hfirst, hsecond, Char.ofNat_toNat]
    have hzero : hexValue? '0' = some 0 := rfl
    have hsum : 16 * (c.toNat / 16) + c.toNat % 16 = c.toNat := Nat.div_add_mod _ _
    simp [push, hzero, hhigh, hrest, hsum, hunit]
  · next hq hb _ _ _ _ _ hlow => simp [push, hq, hb, hlow]

theorem foldl_escapeChars {s : Scanned} (hs : s.half = none) (ts : List Token) (cs : List Char) :
    (cs.flatMap escapeChar).foldl push ⟨.text s, ts⟩ =
      ⟨.text ⟨cs.reverse ++ s.chars, s.sound, none⟩, ts⟩ := by
  induction cs generalizing s with
  | nil => cases s; simp_all
  | cons c cs ih =>
    rw [List.flatMap_cons, List.foldl_append, foldl_escapeChar hs, ih (s := s.put c) rfl]
    simp [Scanned.put, hs]

theorem after_stringChars (ts : List Token) (s : String) :
    after ts (stringChars s) = ⟨.between, .string (some s) :: ts⟩ := by
  have hopen : push ⟨.between, ts⟩ '"' = ⟨.text .empty, ts⟩ := rfl
  rw [after, stringChars, List.cons_append, List.foldl_cons, hopen, List.foldl_append,
    foldl_escapeChars rfl]
  simp [push, Scanned.text?, Scanned.empty]

theorem head?_toDigits (n : Nat) (h : (Nat.toDigits 10 n).head? = some '0') :
    Nat.toDigits 10 n = ['0'] := by
  induction n using Nat.strongRecOn with
  | _ n ih =>
    rw [Nat.toDigits_eq_if (by decide)] at h ⊢
    split
    · next hn =>
      rw [if_pos hn] at h
      exact congrArg (fun c => [c]) (Option.some.inj h)
    · next hn =>
      rw [if_neg hn] at h
      obtain ⟨d, ds, hd⟩ := List.exists_cons_of_ne_nil (Nat.toDigits_ne_nil (b := 10) (n := n / 10))
      have hlead : (Nat.toDigits 10 (n / 10)).head? = some '0' := by
        rw [hd] at h ⊢
        exact h
      have hzero := ih (n / 10) (by omega) hlead
      have hval := congrArg (Nat.ofDigitChars 10 · 0) hzero
      simp only [Nat.ofDigitChars_ten_toDigits] at hval
      have : Nat.ofDigitChars 10 ['0'] 0 = 0 := rfl
      omega

theorem read?_toDigits (n : Nat) : Numeral.read? (Nat.toDigits 10 n) = some (numeral n) := by
  have hdigits := isDigit_toDigits n
  have htake : (Nat.toDigits 10 n).takeWhile Char.isDigit = Nat.toDigits 10 n :=
    List.takeWhile_eq_self_iff.2 hdigits
  have hdrop : (Nat.toDigits 10 n).dropWhile Char.isDigit = [] :=
    List.dropWhile_eq_nil_iff.2 hdigits
  have hunsigned : Numeral.unsigned? false (Nat.toDigits 10 n) = some (numeral n) := by
    have hlead : ¬(Nat.toDigits 10 n = [] ∨
        (Nat.toDigits 10 n).head? = some '0' ∧ (Nat.toDigits 10 n).length ≠ 1) := by
      rintro (h | ⟨h, hlen⟩)
      · exact Nat.toDigits_ne_nil h
      · exact hlen (by rw [head?_toDigits n h]; rfl)
    simp only [Numeral.unsigned?, htake, hdrop]
    rw [if_neg hlead]
    rfl
  unfold Numeral.read?
  split
  · next rest h =>
    have := hdigits '-' (h ▸ List.mem_cons_self)
    exact absurd this (by decide)
  · exact hunsigned

theorem settled_word (ts : List Token) (letters : List Char) :
    Settled ⟨.word letters, ts⟩ (wordToken letters.reverse :: ts) where
  finish := rfl
  push c hc _ := by simp [Lexer.push, hc]

theorem settled_numeral (ts : List Token) (n : Nat) :
    Settled ⟨.numeral (Nat.toDigits 10 n).reverse, ts⟩ (.number (numeral n) :: ts) := by
  have htoken : numeralToken (Nat.toDigits 10 n) = .number (numeral n) := by
    rw [numeralToken, read?_toDigits]
  constructor
  · simp [finish, htoken]
  · intro c _ hc
    simp [Lexer.push, hc, htoken]

theorem start_digit (ts : List Token) {c : Char} (hc : c.isDigit = true) :
    start ts c = ⟨.numeral [c], ts⟩ := by
  have hne {d : Char} (hd : d.isDigit = false) : c ≠ d := fun h => by
    rw [h, hd] at hc
    cases hc
  have hmark : mark? c = none := by
    simp only [mark?, hne (d := '\x7b') rfl, hne (d := '\x7d') rfl, hne (d := '[') rfl,
      hne (d := ']') rfl, hne (d := ',') rfl, hne (d := ':') rfl, if_false]
  have hspace : isSpace c = false := by
    simp [isSpace, hne (d := ' ') rfl, hne (d := '\t') rfl, hne (d := '\n') rfl,
      hne (d := '\r') rfl]
  simp [start, hmark, hspace, hc, hne (d := '"') rfl]

theorem foldl_digits (ts : List Token) (cs acc : List Char) (hcs : ∀ c ∈ cs, c.isDigit = true) :
    cs.foldl push ⟨.numeral acc, ts⟩ = ⟨.numeral (cs.reverse ++ acc), ts⟩ := by
  induction cs generalizing acc with
  | nil => rfl
  | cons c cs ih =>
    have hc : isNumeralChar c = true := by simp [isNumeralChar, hcs c List.mem_cons_self]
    rw [List.foldl_cons]
    simp only [push, hc, if_true]
    rw [ih _ fun d hd => hcs d (List.mem_cons_of_mem _ hd)]
    simp

theorem after_toDigits (ts : List Token) (n : Nat) :
    after ts (Nat.toDigits 10 n) = ⟨.numeral (Nat.toDigits 10 n).reverse, ts⟩ := by
  have hdigits := isDigit_toDigits n
  obtain ⟨d, ds, hd⟩ := List.exists_cons_of_ne_nil (Nat.toDigits_ne_nil (b := 10) (n := n))
  rw [hd] at hdigits ⊢
  have hstart : push ⟨.between, ts⟩ d = ⟨.numeral [d], ts⟩ :=
    start_digit ts (hdigits d List.mem_cons_self)
  rw [after, List.foldl_cons, hstart,
    foldl_digits ts ds _ fun c hc => hdigits c (List.mem_cons_of_mem _ hc)]
  simp

theorem after_append (ts : List Token) (cs ds : List Char) :
    after ts (cs ++ ds) = ds.foldl push (after ts cs) := List.foldl_append

theorem after_key (ts : List Token) (k : String) (cs : List Char) :
    after ts (stringChars k ++ ':' :: cs) = after (.colon :: .string (some k) :: ts) cs := by
  rw [after_append, after_stringChars]
  rfl

mutual

theorem settled_value : ∀ v : Value, v.IsWhole → ∀ ts,
    Settled (after ts v.chars) (v.tokens.reverse ++ ts)
  | .null, _, ts => settled_word ts ['l', 'l', 'u', 'n']
  | .bool true, _, ts => settled_word ts ['e', 'u', 'r', 't']
  | .bool false, _, ts => settled_word ts ['e', 's', 'l', 'a', 'f']
  | .number (.natural n), _, ts => by
    change Settled (after ts (Nat.toDigits 10 n)) _
    rw [after_toDigits]
    exact settled_numeral ts n
  | .number (.negative _), h, _ | .number (.double _ _), h, _ => h.elim
  | .string s, _, ts => by
    rw [chars, after_stringChars]
    exact settled_between _
  | .array [], _, ts => settled_between _
  | .array (v :: vs), h, ts => by
    change Settled (after (.openArray :: ts) (v.chars ++ itemChars vs)) _
    rw [after_append, foldl_itemChars vs h.2 (settled_value v h.1 _)]
    simpa [Value.tokens] using settled_between _
  | .object [], _, ts => settled_between _
  | .object ((k, v) :: ms), h, ts => by
    change Settled (after (.openObject :: ts) (stringChars k ++ ':' :: v.chars ++ memberChars ms)) _
    rw [after_append, after_key, foldl_memberChars ms h.2 (settled_value v h.1 _)]
    simpa [Value.tokens] using settled_between _

theorem foldl_itemChars : ∀ vs : List Value, AllWhole vs → ∀ {l : Lexer} {ts : List Token},
    l.Settled ts → (itemChars vs).foldl push l = ⟨.between, (itemTokens vs).reverse ++ ts⟩
  | [], _, l, ts, hl => hl.closeArray
  | v :: vs, h, l, ts, hl => by
    change (v.chars ++ itemChars vs).foldl push (l.push ',') = _
    rw [hl.comma, ← after, after_append, foldl_itemChars vs h.2 (settled_value v h.1 _)]
    simp [itemTokens]

theorem foldl_memberChars : ∀ ms : List (String × Value), MembersWhole ms →
    ∀ {l : Lexer} {ts : List Token}, l.Settled ts →
      (memberChars ms).foldl push l = ⟨.between, (memberTokens ms).reverse ++ ts⟩
  | [], _, l, ts, hl => hl.closeObject
  | (k, v) :: ms, h, l, ts, hl => by
    change (stringChars k ++ ':' :: v.chars ++ memberChars ms).foldl push (l.push ',') = _
    rw [hl.comma, ← after, after_append, after_key,
      foldl_memberChars ms h.2 (settled_value v h.1 _)]
    simp [memberTokens]

end

end Lexer

/-- The text of a value has the tokens of the value. -/
theorem tokens_chars {v : Value} (h : v.IsWhole) : tokens v.chars = v.tokens := by
  have hv := (Lexer.settled_value v h []).finish
  rw [tokens, ← Lexer.after, hv, List.append_nil, List.reverse_reverse]

namespace Value

theorem printable_toDigits (n : Nat) : ∀ c ∈ Nat.toDigits 10 n, 0x20 ≤ c.toNat := by
  intro c hc
  have hdigit := Char.isDigit_iff_toNat.1 (isDigit_toDigits n c hc)
  exact Nat.le_trans (by decide) hdigit.1

theorem printable_digitChar {d : Nat} (h : d < 16) : 0x20 ≤ (Nat.digitChar d).toNat := by
  revert d
  decide

theorem printable_escapeChar (c : Char) : ∀ d ∈ escapeChar c, 0x20 ≤ d.toNat := by
  unfold escapeChar
  split; · simp
  split; · simp
  split; · simp
  split; · simp
  split; · simp
  split; · simp
  split; · simp
  split
  · have hhigh := printable_digitChar (d := c.toNat / 16) (by omega)
    have hlow := printable_digitChar (d := c.toNat % 16) (by omega)
    simp only [List.forall_mem_cons]
    exact ⟨by decide, by decide, by decide, by decide, hhigh, hlow, List.forall_mem_nil _⟩
  · next h => simpa using h

theorem printable_stringChars (s : String) : ∀ c ∈ stringChars s, 0x20 ≤ c.toNat := by
  simp only [stringChars, List.cons_append, List.forall_mem_cons, List.forall_mem_append,
    List.forall_mem_flatMap]
  exact ⟨by decide, fun c _ => printable_escapeChar c, by simp⟩

mutual

theorem printable_chars : ∀ v : Value, v.IsWhole → ∀ c ∈ v.chars, 0x20 ≤ c.toNat
  | .null, _ | .bool true, _ | .bool false, _ | .array [], _ | .object [], _ => by simp [chars]
  | .number (.natural n), _ => printable_toDigits n
  | .number (.negative _), h | .number (.double _ _), h => h.elim
  | .string s, _ => printable_stringChars s
  | .array (v :: vs), h => by
    simp only [chars, List.cons_append, List.forall_mem_cons, List.forall_mem_append]
    exact ⟨by decide, printable_chars v h.1, printable_itemChars vs h.2⟩
  | .object ((k, v) :: ms), h => by
    simp only [chars, List.cons_append, List.forall_mem_cons, List.forall_mem_append]
    exact ⟨by decide, ⟨printable_stringChars k, by decide, printable_chars v h.1⟩,
      printable_memberChars ms h.2⟩

theorem printable_itemChars : ∀ vs : List Value, AllWhole vs → ∀ c ∈ itemChars vs, 0x20 ≤ c.toNat
  | [], _ => by simp [itemChars]
  | v :: vs, h => by
    simp only [itemChars, List.cons_append, List.forall_mem_cons, List.forall_mem_append]
    exact ⟨by decide, printable_chars v h.1, printable_itemChars vs h.2⟩

theorem printable_memberChars : ∀ ms : List (String × Value), MembersWhole ms →
    ∀ c ∈ memberChars ms, 0x20 ≤ c.toNat
  | [], _ => by simp [memberChars]
  | (k, v) :: ms, h => by
    simp only [memberChars, List.cons_append, List.forall_mem_cons, List.forall_mem_append]
    exact ⟨by decide, ⟨printable_stringChars k, by decide, printable_chars v h.1⟩,
      printable_memberChars ms h.2⟩

end

end Value
end Json
end TokenLedger
