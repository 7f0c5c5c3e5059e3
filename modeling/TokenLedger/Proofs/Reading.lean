import TokenLedger.Proofs.Journal
import TokenLedger.Proofs.Lexing
import TokenLedger.Proofs.Verdict

/-! Reading what was written. The tokens of a value lead the reader to the tree of the value, and
the tree to the value again, with the members of each object in the order of their names. Main
statement: a text that a value is written as is read as that value. -/
namespace TokenLedger
namespace Json

namespace Value

mutual

def tree : Value → Tree
  | .null => .null
  | .bool b => .bool b
  | .number (.natural n) => .number (numeral n)
  | .number _ => .fault
  | .string s => .string (some s)
  | .array vs => .array (trees vs)
  | .object ms => .object (memberTrees ms)

def trees : List Value → List Tree
  | [] => []
  | v :: vs => v.tree :: trees vs

def memberTrees : List (String × Value) → List (Option String × Tree)
  | [] => []
  | (k, v) :: ms => (some k, v.tree) :: memberTrees ms

end

mutual

/-- How many containers lie within each other. -/
def depth : Value → Nat
  | .array vs => itemsDepth vs + 1
  | .object ms => membersDepth ms + 1
  | _ => 0

def itemsDepth : List Value → Nat
  | [] => 0
  | v :: vs => max v.depth (itemsDepth vs)

def membersDepth : List (String × Value) → Nat
  | [] => 0
  | (_, v) :: ms => max v.depth (membersDepth ms)

end

mutual

/-- The value with the members of each object in order. -/
def sorted : Value → Value
  | .array vs => .array (sortedItems vs)
  | .object ms => .object (sortMembers (sortedMembers ms))
  | v => v

def sortedItems : List Value → List Value
  | [] => []
  | v :: vs => v.sorted :: sortedItems vs

def sortedMembers : List (String × Value) → List (String × Value)
  | [] => []
  | (k, v) :: ms => (k, v.sorted) :: sortedMembers ms

end

theorem trees_eq_map (vs : List Value) : trees vs = vs.map tree := by
  induction vs with
  | nil => rfl
  | cons v vs ih => rw [trees, ih, List.map_cons]

end Value

namespace Reader

open Value

theorem foldl_firstItem (v : Value) (outer : List Frame) :
    v.tokens.foldl push (.firstItem outer) = v.tokens.foldl push (.value (.items [] :: outer)) := by
  cases v with
  | null | bool b | string s => rfl
  | number n => cases n <;> rfl
  | array vs => cases vs <;> rfl
  | object ms => cases ms <;> rfl

mutual

theorem foldl_tokens : ∀ v : Value, v.IsWhole → ∀ outer,
    v.tokens.foldl push (.value outer) = .after v.tree outer
  | .null, _, _ | .bool _, _, _ | .string _, _, _ | .number (.natural _), _, _ => rfl
  | .number (.negative _), h, _ | .number (.double _ _), h, _ => h.elim
  | .array [], _, _ | .object [], _, _ => rfl
  | .array (v :: vs), h, outer => by
    change (v.tokens ++ itemTokens vs).foldl push (.firstItem outer) = _
    rw [List.foldl_append, foldl_firstItem, foldl_tokens v h.1, foldl_itemTokens vs h.2]
    rfl
  | .object ((k, v) :: ms), h, outer => by
    change (v.tokens ++ memberTokens ms).foldl push (.value (.member [] (some k) :: outer)) = _
    rw [List.foldl_append, foldl_tokens v h.1, foldl_memberTokens ms h.2]
    rfl

theorem foldl_itemTokens : ∀ vs : List Value, AllWhole vs → ∀ t done outer,
    (itemTokens vs).foldl push (.after t (.items done :: outer)) =
      .after (.array (done.reverse ++ t :: trees vs)) outer
  | [], _, t, done, outer => by simp [itemTokens, push, trees]
  | v :: vs, h, t, done, outer => by
    change (v.tokens ++ itemTokens vs).foldl push (.value (.items (t :: done) :: outer)) = _
    rw [List.foldl_append, foldl_tokens v h.1, foldl_itemTokens vs h.2]
    simp [trees]

theorem foldl_memberTokens : ∀ ms : List (String × Value), MembersWhole ms →
    ∀ t k done outer, (memberTokens ms).foldl push (.after t (.member done k :: outer)) =
      .after (.object (done.reverse ++ (k, t) :: memberTrees ms)) outer
  | [], _, t, k, done, outer => by simp [memberTokens, push, memberTrees]
  | (k', v) :: ms, h, t, k, done, outer => by
    change (v.tokens ++ memberTokens ms).foldl push
      (.value (.member ((k, t) :: done) (some k') :: outer)) = _
    rw [List.foldl_append, foldl_tokens v h.1, foldl_memberTokens ms h.2]
    simp [memberTrees]

end

end Reader

namespace Value

variable {v : Value} {name : String}

theorem read_render (h : v.IsWhole) : read v.render = ⟨v.tree, true⟩ := by
  rw [read, render, String.toList_ofList, readList, tokens_chars h, Reader.foldl_tokens v h]
  rfl

theorem value?_numeral {n : Nat} (h : n < UInt64.size) :
    (numeral n).value? = some (.natural n) := by
  have hpart : (numeral n).wholePart = n := Nat.ofDigitChars_ten_toDigits
  have hwhole : (numeral n).isWhole = true := rfl
  rw [Numeral.value?, if_pos ⟨hwhole, rfl, by rwa [hpart]⟩, hpart]

mutual

theorem ofTree?_tree : ∀ v : Value, v.IsWhole → ∀ {d}, v.depth ≤ d →
    ofTree? d v.tree = some v.sorted
  | .null, _, d, _ | .bool _, _, d, _ | .string _, _, d, _ => by cases d <;> rfl
  | .number (.natural n), h, d, _ => by
    cases d <;> simp [ofTree?, tree, sorted, value?_numeral h]
  | .number (.negative _), h, _, _ | .number (.double _ _), h, _, _ => h.elim
  | .array vs, h, 0, hd => by simp [depth] at hd
  | .object ms, h, 0, hd => by simp [depth] at hd
  | .array vs, h, d + 1, hd => by
    rw [tree, ofTree?, ofItems?_trees vs h (Nat.le_of_succ_le_succ hd)]
    rfl
  | .object ms, h, d + 1, hd => by
    rw [tree, ofTree?, ofMembers?_memberTrees ms h (Nat.le_of_succ_le_succ hd)]
    rfl

theorem ofItems?_trees : ∀ vs : List Value, AllWhole vs → ∀ {d}, itemsDepth vs ≤ d →
    ofItems? d (trees vs) = some (sortedItems vs)
  | [], _, _, _ => rfl
  | v :: vs, h, d, hd => by
    obtain ⟨hv, hvs⟩ := Nat.max_le.1 hd
    rw [trees, ofItems?, ofTree?_tree v h.1 hv, ofItems?_trees vs h.2 hvs]
    rfl

theorem ofMembers?_memberTrees : ∀ ms : List (String × Value), MembersWhole ms →
    ∀ {d}, membersDepth ms ≤ d → ofMembers? d (memberTrees ms) = some (sortedMembers ms)
  | [], _, _, _ => rfl
  | (k, v) :: ms, h, d, hd => by
    obtain ⟨hv, hms⟩ := Nat.max_le.1 hd
    rw [memberTrees, ofMembers?, Option.bind_some, ofTree?_tree v h.1 hv,
      ofMembers?_memberTrees ms h.2 hms]
    rfl

end

/-- The text of a value is read as the value. -/
theorem value?_render (h : v.IsWhole) (hd : v.depth ≤ 127) :
    (read v.render).value? = some v.sorted := by
  rw [read_render h, Reading.value?, if_pos rfl, ofTree?_tree v h hd]

theorem decode_render {α : Type} {d : Decoder α} {a : α} (h : v.IsWhole) (hd : d v.tree = .ok a) :
    (read v.render).decode d = .ok a := by
  rw [read_render h, Reading.decode, bind_of_ok hd]
  rfl

theorem get?_object_eq_some_iff {members : List (String × Value)}
    (hd : (members.map Prod.fst).Nodup) :
    (object members).get? name = some v ↔ (name, v) ∈ members :=
  lookup_eq_some_iff hd

theorem getElem?_foldl_insert {ms : List (String × Value)} (hd : (ms.map Prod.fst).Nodup)
    (m : Std.ExtTreeMap String Value) (name : String) :
    (ms.foldl (fun m kv => m.insert kv.1 kv.2) m)[name]? = (ms.lookup name).or m[name]? := by
  induction ms generalizing m with
  | nil => rfl
  | cons kv ms ih =>
    obtain ⟨k, w⟩ := kv
    obtain ⟨hk, hms⟩ := List.nodup_cons.1 hd
    rw [List.foldl_cons, ih hms, List.lookup_cons, Std.ExtTreeMap.getElem?_insert]
    by_cases hn : name = k
    · subst hn
      have hrest : ms.lookup name = none := by
        refine Option.eq_none_iff_forall_ne_some.2 fun x hx => hk ?_
        exact List.mem_map.2 ⟨_, (lookup_eq_some_iff hms).1 hx, rfl⟩
      simp [hrest]
    · have hbeq : (name == k) = false := beq_false_of_ne hn
      have hcompare : compare k name ≠ .eq := fun h => hn (Std.LawfulEqOrd.eq_of_compare h).symm
      simp [hbeq, hcompare]

theorem get?_sortMembers {ms : List (String × Value)} (hd : (ms.map Prod.fst).Nodup)
    (name : String) : (object (sortMembers ms)).get? name = (object ms).get? name := by
  have hsorted : ((sortMembers ms).map Prod.fst).Nodup := by
    rw [sortMembers, Std.ExtTreeMap.map_fst_toList_eq_keys]
    exact Std.ExtTreeMap.nodup_keys
  refine Option.ext fun x => ?_
  rw [get?_object_eq_some_iff hsorted, sortMembers, Std.ExtTreeMap.mem_toList_iff_getElem?_eq_some,
    getElem?_foldl_insert hd]
  simp [get?]

end Value
end Json
end TokenLedger
