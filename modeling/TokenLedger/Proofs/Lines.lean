import TokenLedger.Text.Lines

/-! Lines of texts. No byte of a character beyond the first 128 is a line feed or a carriage return,
so that what is done to bytes is done to characters. Main statements: lines joined by line feeds are
read as these lines, without carriage returns at their ends; and what is read of any text are the
parts between its line feeds, up to white space. -/
namespace TokenLedger
namespace Text

def bytes (s : String) : List UInt8 := s.toUTF8.data.toList

theorem bytes_eq_flatMap (s : String) : bytes s = s.toList.flatMap String.utf8EncodeChar := by
  rw [bytes, String.toUTF8_eq_toByteArray, ← String.utf8Encode_toList, List.utf8Encode,
    List.toList_data_toByteArray]

theorem bytes_append (s t : String) : bytes (s ++ t) = bytes s ++ bytes t := by
  rw [bytes_eq_flatMap, bytes_eq_flatMap, bytes_eq_flatMap, String.toList_append,
    List.flatMap_append]

theorem bytes_eq_nil_iff {s : String} : bytes s = [] ↔ s = "" := by
  rw [bytes_eq_flatMap, List.flatMap_eq_nil_iff]
  refine ⟨fun h => ?_, fun h => by rw [h]; simp⟩
  refine String.toList_inj.1 (List.eq_nil_iff_forall_not_mem.2 fun c hc => ?_)
  exact String.utf8EncodeChar_ne_nil (h c hc)

theorem fromUTF8?_bytes (s : String) : String.fromUTF8? ⟨(bytes s).toArray⟩ = some s :=
  dif_pos s.isValidUTF8

theorem toNat_of_mem_utf8EncodeChar {c : Char} {b : UInt8} (h : b ∈ String.utf8EncodeChar c)
    (hb : b.toNat < 128) : c.toNat = b.toNat := by
  have hc : c.val.toNat = c.toNat := rfl
  simp only [String.utf8EncodeChar, hc] at h
  split at h
  · next hle =>
    rw [List.mem_singleton.1 h, UInt8.toNat_ofNat']
    omega
  split at h
  · simp only [List.mem_cons, List.not_mem_nil, or_false] at h
    rcases h with rfl | rfl <;> rw [UInt8.toNat_ofNat'] at hb <;> omega
  split at h
  · simp only [List.mem_cons, List.not_mem_nil, or_false] at h
    rcases h with rfl | rfl | rfl <;> rw [UInt8.toNat_ofNat'] at hb <;> omega
  · simp only [List.mem_cons, List.not_mem_nil, or_false] at h
    rcases h with rfl | rfl | rfl | rfl <;> rw [UInt8.toNat_ofNat'] at hb <;> omega

theorem lineFeed_not_mem_bytes {s : String} (h : '\n' ∉ s.toList) : 0x0a ∉ bytes s := by
  rw [bytes_eq_flatMap, List.mem_flatMap]
  rintro ⟨c, hc, hb⟩
  have hn : c = '\n' := Char.toNat_inj.1 (toNat_of_mem_utf8EncodeChar hb (by decide))
  exact h (hn ▸ hc)

/-- The line without the carriage return that belongs to its end. -/
def withoutReturn (line : String) : String :=
  if line.toList.getLast? = some '\r' then String.ofList line.toList.dropLast else line

theorem withoutReturn_subset (line : String) : (withoutReturn line).toList ⊆ line.toList := by
  rw [withoutReturn]
  split
  · rw [String.toList_ofList]
    exact List.dropLast_subset _
  · exact List.Subset.refl _

theorem trim_withoutReturn (line : String) : trim (withoutReturn line) = trim line := by
  rw [withoutReturn]
  split
  · next h =>
    obtain ⟨cs, hcs⟩ := List.getLast?_eq_some_iff.1 h
    rw [← String.toList_inj, toList_trim, toList_trim, hcs, List.dropLast_concat,
      String.toList_ofList, trimList_append_blank (List.forall_mem_singleton.2 (by decide))]
  · rfl

theorem dropReturn_bytes (line : String) :
    dropReturn (bytes line) = bytes (withoutReturn line) := by
  rcases List.eq_nil_or_concat line.toList with h | ⟨cs, c, h⟩
  · have hline : line = "" := String.toList_inj.1 h
    rw [hline]
    rfl
  have hbytes : bytes line = cs.flatMap String.utf8EncodeChar ++ String.utf8EncodeChar c := by
    rw [bytes_eq_flatMap, h]
    simp
  by_cases hc : c = '\r'
  · subst hc
    have hlast : String.utf8EncodeChar '\r' = [0x0d] := by decide
    rw [dropReturn, withoutReturn, hbytes, hlast, h]
    simp [bytes_eq_flatMap]
  · have hlast : (bytes line).getLast? ≠ some 0x0d := by
      have hb := List.getLast?_eq_some_getLast (String.utf8EncodeChar_ne_nil (c := c))
      rw [hbytes, List.getLast?_append, hb, Option.some_or, ← hb]
      intro hb
      exact hc (Char.toNat_inj.1
        (toNat_of_mem_utf8EncodeChar (List.mem_of_getLast? hb) (by decide)))
    have hlast' : line.toList.getLast? ≠ some '\r' := by
      rw [h]
      simpa using hc
    rw [dropReturn, withoutReturn, if_neg hlast, if_neg hlast']

/-- The lines that are read of lines with line feeds between them. -/
def terminated : List String → List String
  | [] => []
  | [last] => if last = "" then [] else [last]
  | line :: next :: rest => withoutReturn line :: terminated (next :: rest)

theorem bytes_intercalate (lines : List String) :
    bytes (String.intercalate "\n" lines) = [0x0a].intercalate (lines.map bytes) := by
  induction lines with
  | nil => rfl
  | cons line rest ih =>
    cases rest with
    | nil => simp
    | cons next rest =>
      have hfeed : bytes "\n" = [0x0a] := by decide
      rw [String.intercalate_cons_cons, bytes_append, bytes_append, ih, hfeed, List.map_cons,
        List.map_cons, List.map_cons, List.intercalate_cons_cons]

theorem dropLast_map_bytes (line : String) (rest : List String) :
    let pieces := (line :: rest).map bytes
    pieces.dropLast.map dropReturn ++
        (if pieces.getLastD [] = [] then [] else [pieces.getLastD []]) =
      (terminated (line :: rest)).map bytes := by
  induction rest generalizing line with
  | nil =>
    by_cases h : line = ""
    · subst h
      rfl
    · have hb : bytes line ≠ [] := fun he => h (bytes_eq_nil_iff.1 he)
      simp [terminated, h, hb]
  | cons next rest ih =>
    have hnext := ih next
    dsimp only at hnext ⊢
    rw [terminated, List.map_cons (l := terminated _), ← hnext, ← dropReturn_bytes]
    rfl

theorem byteLines_intercalate {lines : List String} (h : ∀ line ∈ lines, '\n' ∉ line.toList) :
    byteLines (bytes (String.intercalate "\n" lines)) = (terminated lines).map bytes := by
  cases lines with
  | nil => decide
  | cons line rest =>
    have hsplit : (bytes (String.intercalate "\n" (line :: rest))).splitOn 0x0a =
        (line :: rest).map bytes := by
      rw [bytes_intercalate]
      refine List.splitOn_intercalate _ (fun l hl => ?_) (List.cons_ne_nil _ _)
      obtain ⟨x, hx, rfl⟩ := List.mem_map.1 hl
      exact lineFeed_not_mem_bytes (h x hx)
    rw [byteLines, hsplit]
    exact dropLast_map_bytes line rest

theorem lines_intercalate {lines : List String} (h : ∀ line ∈ lines, '\n' ∉ line.toList) :
    Text.lines (String.intercalate "\n" lines).toUTF8 = (terminated lines).map some := by
  rw [Text.lines, ← bytes, byteLines_intercalate h, List.map_map]
  exact List.map_congr_left fun line _ => fromUTF8?_bytes line

/-- The lines that are not blank, without white space at their ends. -/
def nonblank (lines : List String) : List String := (lines.map trim).filter (· ≠ "")

theorem nonblank_nil : nonblank [] = [] := rfl

theorem nonblank_cons (line : String) (lines : List String) : nonblank (line :: lines) =
    if trim line = "" then nonblank lines else trim line :: nonblank lines := by
  rw [nonblank, List.map_cons, List.filter_cons]
  by_cases h : trim line = ""
  · simp [h, nonblank]
  · simp [h, nonblank]

theorem nonblank_terminated (lines : List String) :
    nonblank (terminated lines) = nonblank lines := by
  induction lines with
  | nil => rfl
  | cons line rest ih =>
    cases rest with
    | nil =>
      by_cases h : line = ""
      · subst h
        rfl
      · rw [terminated, if_neg h]
    | cons next rest => rw [terminated, nonblank_cons, nonblank_cons, ih, trim_withoutReturn]

/-- The parts of a text between its separators. -/
def parts (sep : Char) (text : String) : List String := (text.toList.splitOn sep).map String.ofList

theorem intercalate_parts (sep : Char) (text : String) :
    String.intercalate (String.singleton sep) (parts sep text) = text := by
  have hparts : (parts sep text).map String.toList = text.toList.splitOn sep := by
    simp [parts, Function.comp_def]
  rw [← String.toList_inj, String.toList_intercalate, String.toList_singleton, hparts,
    List.intercalate_splitOn]

theorem not_mem_of_mem_splitOn {x : Char} {cs piece : List Char} (h : piece ∈ cs.splitOn x) :
    x ∉ piece := by
  induction cs generalizing piece with
  | nil =>
    rw [List.splitOn_nil, List.mem_singleton] at h
    simp [h]
  | cons c cs ih =>
    rw [List.splitOn, List.splitOnP_cons_eq_if_modifyHead, ← List.splitOn] at h
    split at h
    · rcases List.mem_cons.1 h with rfl | h
      · exact List.not_mem_nil
      · exact ih h
    · next hc =>
      obtain ⟨first, rest, hsplit⟩ := List.exists_cons_of_ne_nil (List.splitOn_ne_nil x cs)
      rw [hsplit] at h ih
      rcases List.mem_cons.1 h with rfl | h
      · rw [List.mem_cons]
        rintro (rfl | hmem)
        · exact hc BEq.rfl
        · exact ih List.mem_cons_self hmem
      · exact ih (List.mem_cons_of_mem _ h)

theorem not_mem_of_mem_parts {sep : Char} {text part : String} (h : part ∈ parts sep text) :
    sep ∉ part.toList := by
  obtain ⟨cs, hcs, rfl⟩ := List.mem_map.1 h
  rw [String.toList_ofList]
  exact not_mem_of_mem_splitOn hcs

theorem parts_intercalate {sep : Char} {items : List String}
    (h : ∀ item ∈ items, sep ∉ item.toList) (hne : items ≠ []) :
    parts sep (String.intercalate (String.singleton sep) items) = items := by
  have hsplit : ([sep].intercalate (items.map String.toList)).splitOn sep =
      items.map String.toList := by
    refine List.splitOn_intercalate _ (fun cs hcs => ?_) (mt List.map_eq_nil_iff.1 hne)
    obtain ⟨item, hitem, rfl⟩ := List.mem_map.1 hcs
    exact h item hitem
  rw [parts, String.toList_intercalate, String.toList_singleton, hsplit]
  simp [Function.comp_def]

/-- The parts of a text between its line feeds. -/
def pieces (text : String) : List String := (text.toList.splitOn '\n').map String.ofList

theorem intercalate_pieces (text : String) : String.intercalate "\n" (pieces text) = text :=
  intercalate_parts '\n' text

theorem lineFeed_not_mem_pieces {text piece : String} (h : piece ∈ pieces text) :
    '\n' ∉ piece.toList :=
  not_mem_of_mem_parts h

theorem pieces_intercalate {lines : List String} (h : ∀ line ∈ lines, '\n' ∉ line.toList)
    (hne : lines ≠ []) : pieces (String.intercalate "\n" lines) = lines :=
  parts_intercalate h hne

/-- What is read of a text are the parts between its line feeds, up to their ends. -/
theorem lines_toUTF8 (text : String) :
    ∃ lines, Text.lines text.toUTF8 = lines.map some ∧ nonblank lines = nonblank (pieces text) := by
  refine ⟨terminated (pieces text), ?_, nonblank_terminated _⟩
  rw [← lines_intercalate fun _ => lineFeed_not_mem_pieces, intercalate_pieces]

end Text
end TokenLedger
