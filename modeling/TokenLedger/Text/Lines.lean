/-! White space by the Unicode property White_Space, texts without it at their ends, and the lines
of a byte sequence. A line feed ends a line, a carriage return right before it belongs to the line
end, and a last line may lack its line end. Main statement: a text is what trimming leaves of it,
which has no white space at its ends, between two texts of white space alone. -/
namespace TokenLedger

namespace Text

def blankRanges : List (Nat × Nat) :=
  [(0x09, 0x0d), (0x20, 0x20), (0x85, 0x85), (0xa0, 0xa0), (0x1680, 0x1680), (0x2000, 0x200a),
   (0x2028, 0x2029), (0x202f, 0x202f), (0x205f, 0x205f), (0x3000, 0x3000)]

def isBlank (c : Char) : Bool :=
  blankRanges.any fun r => r.1 ≤ c.toNat && c.toNat ≤ r.2

/-- The characters without the white space at either end. -/
def trimList (cs : List Char) : List Char :=
  ((cs.dropWhile isBlank).reverse.dropWhile isBlank).reverse

def trim (s : String) : String := String.ofList (trimList s.toList)

@[simp] theorem toList_trim (s : String) : (trim s).toList = trimList s.toList := by
  simp [trim]

section

variable {cs before after : List Char}

theorem trimList_blank_append (h : ∀ c ∈ before, isBlank c = true) :
    trimList (before ++ cs) = trimList cs := by
  rw [trimList, trimList, List.dropWhile_append_of_pos h]

theorem trimList_append_blank (h : ∀ c ∈ after, isBlank c = true) :
    trimList (cs ++ after) = trimList cs := by
  rw [trimList, trimList, List.dropWhile_append]
  cases hd : cs.dropWhile isBlank with
  | nil =>
    have hafter : (after ++ []).dropWhile isBlank = [] := List.dropWhile_append_of_pos h
    rw [List.append_nil] at hafter
    simp [hafter]
  | cons d ds =>
    have hreverse : ∀ c ∈ after.reverse, isBlank c = true := fun c hc => h c (List.mem_reverse.1 hc)
    simp [List.dropWhile_append_of_pos hreverse]

theorem dropWhile_eq_self (h : ∀ c ∈ cs.head?, isBlank c = false) :
    cs.dropWhile isBlank = cs := by
  cases cs with
  | nil => rfl
  | cons c cs => exact List.dropWhile_cons_of_neg (by simp [h c rfl])

theorem isBlank_of_head?_dropWhile {c : Char} (h : (cs.dropWhile isBlank).head? = some c) :
    isBlank c = false := by
  have hhead := List.head?_dropWhile_not isBlank cs
  rwa [h] at hhead

theorem isBlank_of_mem_takeWhile {c : Char} (h : c ∈ cs.takeWhile isBlank) : isBlank c = true :=
  List.all_eq_true.1 List.all_takeWhile c h

theorem exists_trimList_append (cs : List Char) : ∃ after, (∀ c ∈ after, isBlank c = true) ∧
    trimList cs ++ after = cs.dropWhile isBlank := by
  refine ⟨((cs.dropWhile isBlank).reverse.takeWhile isBlank).reverse, fun c hc => ?_, ?_⟩
  · exact isBlank_of_mem_takeWhile (List.mem_reverse.1 hc)
  · rw [trimList, ← List.reverse_append, List.takeWhile_append_dropWhile, List.reverse_reverse]

end

/-- White space alone. -/
def Blank (s : String) : Prop := ∀ c ∈ s.toList, isBlank c = true

/-- No white space at either end. -/
structure Trimmed (s : String) : Prop where
  first : ∀ c ∈ s.toList.head?, isBlank c = false
  last : ∀ c ∈ s.toList.getLast?, isBlank c = false

instance (s : String) : Decidable (Blank s) :=
  decidable_of_iff (s.toList.all isBlank = true) List.all_eq_true

theorem trimmed_iff {s : String} : Trimmed s ↔
    s.toList.head?.all (!isBlank ·) = true ∧ s.toList.getLast?.all (!isBlank ·) = true := by
  simp only [Option.all_eq_true, Bool.not_eq_true']
  exact ⟨fun h => ⟨h.first, h.last⟩, fun h => ⟨h.1, h.2⟩⟩

instance (s : String) : Decidable (Trimmed s) := decidable_of_iff' _ trimmed_iff

theorem trim_of_trimmed {s : String} (h : Trimmed s) : trim s = s := by
  have hfirst := dropWhile_eq_self h.first
  have hlast : s.toList.reverse.dropWhile isBlank = s.toList.reverse :=
    dropWhile_eq_self fun c hc => h.last c (List.head?_reverse ▸ hc)
  rw [← String.toList_inj, toList_trim, trimList, hfirst, hlast, List.reverse_reverse]

theorem trim_surrounded {s before after : String} (hs : Trimmed s) (hbefore : Blank before)
    (hafter : Blank after) : trim (before ++ s ++ after) = s := by
  have hsame : trim (before ++ s ++ after) = trim s := by
    rw [← String.toList_inj, toList_trim, toList_trim, String.toList_append, String.toList_append,
      trimList_append_blank hafter, trimList_blank_append hbefore]
  rw [hsame, trim_of_trimmed hs]

/-- Nothing but white space is taken off. -/
theorem exists_surrounding (s : String) :
    ∃ before after, Blank before ∧ Blank after ∧ s = before ++ trim s ++ after := by
  obtain ⟨after, hafter, hrest⟩ := exists_trimList_append s.toList
  refine ⟨String.ofList (s.toList.takeWhile isBlank), String.ofList after, fun c hc => ?_,
    fun c hc => ?_, ?_⟩
  · rw [String.toList_ofList] at hc
    exact isBlank_of_mem_takeWhile hc
  · rw [String.toList_ofList] at hc
    exact hafter c hc
  · rw [← String.toList_inj, String.toList_append, String.toList_append, toList_trim,
      String.toList_ofList, String.toList_ofList, List.append_assoc, hrest,
      List.takeWhile_append_dropWhile]

theorem trimmed_trim (s : String) : Trimmed (trim s) where
  first c hc := by
    obtain ⟨after, -, hrest⟩ := exists_trimList_append s.toList
    have hhead : (s.toList.dropWhile isBlank).head? = some c := by
      rw [← hrest, List.head?_append, ← toList_trim, hc, Option.some_or]
    exact isBlank_of_head?_dropWhile hhead
  last c hc := by
    rw [toList_trim, trimList, List.getLast?_reverse] at hc
    exact isBlank_of_head?_dropWhile hc

theorem trim_eq_empty_iff {s : String} : trim s = "" ↔ Blank s := by
  constructor
  · intro h
    obtain ⟨before, after, hbefore, hafter, hs⟩ := exists_surrounding s
    rw [h, String.append_empty] at hs
    rw [hs, Blank, String.toList_append]
    exact fun c hc => (List.mem_append.1 hc).elim (hbefore c) (hafter c)
  · intro h
    rw [← String.toList_inj, toList_trim, ← List.append_nil s.toList, trimList_blank_append h]
    rfl

end Text

namespace Text

/-- The bytes before the line feed that ends them. -/
def dropReturn (line : List UInt8) : List UInt8 :=
  if line.getLast? = some 0x0d then line.dropLast else line

def byteLines (bytes : List UInt8) : List (List UInt8) :=
  let pieces := bytes.splitOn 0x0a
  let rest := pieces.getLastD []
  pieces.dropLast.map dropReturn ++ if rest = [] then [] else [rest]

def lines (bytes : ByteArray) : List (Option String) :=
  (byteLines bytes.data.toList).map fun line => String.fromUTF8? ⟨line.toArray⟩

end Text
end TokenLedger
