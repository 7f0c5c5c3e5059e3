import TokenLedger.Envelope
import TokenLedger.Proofs.Lines

/-! Texts that list addresses. Main statement: the recipients of an envelope are the addresses that
its text lists, in their order and as often as they stand there, whatever white space is around them
and whatever blank items are between them. Every one of them can be listed, and the text with
nothing but commas between them lists the same. -/
namespace TokenLedger

/-- An address that a list can hold: some text, without commas and without white space at its
ends. -/
structure Address.Listable (a : Address) : Prop where
  nonempty : a.text ≠ ""
  comma : ',' ∉ a.text.toList
  trimmed : Text.Trimmed a.text

instance (a : Address) : Decidable a.Listable :=
  decidable_of_iff (a.text ≠ "" ∧ ',' ∉ a.text.toList ∧ Text.Trimmed a.text)
    ⟨fun h => ⟨h.1, h.2.1, h.2.2⟩, fun h => ⟨h.nonempty, h.comma, h.trimmed⟩⟩

/-- Items of a list with the addresses that they hold. An item is white space and holds none, or it
holds one between two texts of white space. -/
inductive Itemized : List String → List Address → Prop
  | nil : Itemized [] []
  | blank {item : String} {items : List String} {as : List Address} (white : Text.Blank item)
      (rest : Itemized items as) : Itemized (item :: items) as
  | address {before after : String} {a : Address} {items : List String} {as : List Address}
      (listable : a.Listable) (leading : Text.Blank before) (trailing : Text.Blank after)
      (rest : Itemized items as) : Itemized ((before ++ a.text ++ after) :: items) (a :: as)

/-- A text that consists of items with commas between them. -/
def Lists (text : String) (as : List Address) : Prop :=
  ∃ items, Itemized items as ∧ text = String.intercalate "," items

open Text

theorem Text.Blank.comma {s : String} (h : Blank s) : ',' ∉ s.toList := fun hc =>
  absurd (h ',' hc) (by decide)

theorem Address.listable_trim {item : String} (h : ',' ∉ item.toList) (hne : trim item ≠ "") :
    (⟨trim item⟩ : Address).Listable where
  nonempty := hne
  comma hc := by
    obtain ⟨before, after, -, -, hitem⟩ := exists_surrounding item
    rw [hitem, String.toList_append, String.toList_append] at h
    exact h (List.mem_append_left _ (List.mem_append_right _ hc))
  trimmed := trimmed_trim item

namespace Itemized

variable {items : List String} {as : List Address}

theorem listable (h : Itemized items as) : ∀ a ∈ as, a.Listable := by
  induction h with
  | nil => exact List.forall_mem_nil _
  | blank _ _ ih => exact ih
  | address ha _ _ _ ih => exact List.forall_mem_cons.2 ⟨ha, ih⟩

theorem comma (h : Itemized items as) : ∀ item ∈ items, ',' ∉ item.toList := by
  induction h with
  | nil => exact List.forall_mem_nil _
  | blank hblank _ ih => exact List.forall_mem_cons.2 ⟨hblank.comma, ih⟩
  | address ha hbefore hafter _ ih =>
    refine List.forall_mem_cons.2 ⟨?_, ih⟩
    simp only [String.toList_append, List.mem_append, not_or]
    exact ⟨⟨hbefore.comma, ha.comma⟩, hafter.comma⟩

theorem nonblank_eq (h : Itemized items as) : (nonblank items).map Address.mk = as := by
  induction h with
  | nil => rfl
  | blank hblank _ ih => rw [nonblank_cons, if_pos (trim_eq_empty_iff.2 hblank), ih]
  | address ha hbefore hafter _ ih =>
    rw [nonblank_cons, trim_surrounded ha.trimmed hbefore hafter, if_neg ha.nonempty, List.map_cons,
      ih]

theorem of_comma {items : List String} (h : ∀ item ∈ items, ',' ∉ item.toList) :
    Itemized items ((nonblank items).map Address.mk) := by
  induction items with
  | nil => exact .nil
  | cons item items ih =>
    obtain ⟨hitem, hitems⟩ := List.forall_mem_cons.1 h
    rw [nonblank_cons]
    by_cases hempty : trim item = ""
    · rw [if_pos hempty]
      exact .blank (trim_eq_empty_iff.1 hempty) (ih hitems)
    · obtain ⟨before, after, hbefore, hafter, hsurrounded⟩ := exists_surrounding item
      have hrest := Itemized.address (Address.listable_trim hitem hempty) hbefore hafter (ih hitems)
      rw [if_neg hempty, List.map_cons]
      rwa [← hsurrounded] at hrest

theorem map_text (h : ∀ a ∈ as, a.Listable) : Itemized (as.map Address.text) as := by
  induction as with
  | nil => exact .nil
  | cons a as ih =>
    obtain ⟨ha, has⟩ := List.forall_mem_cons.1 h
    have hempty : Blank "" := fun c hc => absurd hc List.not_mem_nil
    have hitem := Itemized.address ha hempty hempty (ih has)
    rwa [String.empty_append, String.append_empty] at hitem

end Itemized

theorem recipientsOf_eq (text : String) :
    recipientsOf text = (nonblank (parts ',' text)).map Address.mk := by
  rw [recipientsOf, parts]
  induction text.toList.splitOn ',' with
  | nil => rfl
  | cons cs rest ih =>
    have htrim : trim (String.ofList cs) = String.ofList (trimList cs) := by
      rw [trim, String.toList_ofList]
    rw [List.map_cons, List.map_cons, nonblank_cons, htrim, List.filter_cons]
    by_cases hempty : trimList cs = []
    · simpa [hempty] using ih
    · simpa [hempty] using ih

theorem lists_recipientsOf (text : String) : Lists text (recipientsOf text) := by
  refine ⟨parts ',' text, ?_, (intercalate_parts ',' text).symm⟩
  rw [recipientsOf_eq]
  exact .of_comma fun item => not_mem_of_mem_parts

theorem recipientsOf_eq_iff {text : String} {as : List Address} :
    recipientsOf text = as ↔ Lists text as := by
  constructor
  · rintro rfl
    exact lists_recipientsOf text
  · rintro ⟨items, hitems, rfl⟩
    by_cases hnil : items = []
    · subst hnil
      cases hitems
      rfl
    · have hparts : parts ',' (String.intercalate "," items) = items :=
        parts_intercalate hitems.comma hnil
      rw [recipientsOf_eq, hparts, hitems.nonblank_eq]

/-- The recipients are what the text lists, and it lists nothing else. Each of them can be listed,
and when they are joined by commas, that text has the same recipients. -/
theorem Enveloped.recipients_listed {ι : Type} (e : Enveloped ι) :
    (∀ as, e.recipients = as ↔ Lists e.receivers as) ∧
    (∀ a ∈ e.recipients, a.Listable) ∧
    Enveloped.recipients { e with
      receivers := String.intercalate "," (e.recipients.map Address.text) } = e.recipients := by
  obtain ⟨items, hitems, -⟩ := lists_recipientsOf e.receivers
  refine ⟨fun as => recipientsOf_eq_iff, hitems.listable, recipientsOf_eq_iff.2 ?_⟩
  exact ⟨_, .map_text hitems.listable, rfl⟩

/-- An address that stands twice among blank items is a recipient twice, and again once the text is
written without them. -/
theorem Enveloped.recipients_listed_twice :
    let e : Envelope :=
      ⟨⟨1, 0⟩, ⟨"s"⟩, " a,\u3000,,b c\t,\u2003a ", 1, .transfer ⟨"FOO", "100"⟩⟩
    Lists e.receivers [⟨"a"⟩, ⟨"b c"⟩, ⟨"a"⟩] ∧ e.recipients = [⟨"a"⟩, ⟨"b c"⟩, ⟨"a"⟩] ∧
      (⟨"b c"⟩ ∈ e.recipients ∧ (⟨"b c"⟩ : Address).Listable) ∧
      Enveloped.recipients { e with receivers := "a,b c,a" } = e.recipients := by
  intro e
  have ha : (⟨"a"⟩ : Address).Listable := by decide
  have hb : (⟨"b c"⟩ : Address).Listable := by decide
  have hlists : Lists e.receivers [⟨"a"⟩, ⟨"b c"⟩, ⟨"a"⟩] := by
    refine ⟨[" " ++ "a" ++ "", "\u3000", "", "" ++ "b c" ++ "\t", "\u2003" ++ "a" ++ " "], ?_, ?_⟩
    · exact .address ha (by decide) (by decide) <| .blank (by decide) <| .blank (by decide) <|
        .address hb (by decide) (by decide) <| .address ha (by decide) (by decide) .nil
    · decide
  have h := Enveloped.recipients_listed e
  have hrecipients := (h.1 _).2 hlists
  have hmem : ⟨"b c"⟩ ∈ e.recipients := by
    rw [hrecipients]
    decide
  refine ⟨hlists, hrecipients, ⟨hmem, h.2.1 _ hmem⟩, ?_⟩
  rw [← h.2.2, hrecipients]
  rfl

end TokenLedger
