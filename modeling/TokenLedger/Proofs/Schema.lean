import Mathlib.Data.List.Find
import Mathlib.Tactic.Tauto
import TokenLedger.Proofs.Coverage
import TokenLedger.Proofs.Reading

/-! The documents that are inscriptions. The schema, the tags that documents are read and written
by, the routes and the names of kinds and of inscriptions are tables of their own: they agree. What
each member of a body must be is written out here without the table that the decoder reads. Main
statement: the decoder accepts exactly these documents, sees nothing but the members of the body
that the tags name, and the tags name the kind of the operation and of its approval. -/
namespace TokenLedger

def IsSupported (protocol name : String) : Prop :=
  ∃ names, (protocol, names) ∈ supportedOperations ∧ name ∈ names

theorem isSupported_eq_true_iff {p n : String} : isSupported p n = true ↔ IsSupported p n := by
  simp [isSupported, IsSupported]

namespace Kind

variable {p n : String} {k : Kind}

theorem isSupported (k : Kind) : IsSupported k.protocol k.name := by
  cases k <;> simp [IsSupported, supportedOperations, protocol, name]

theorem tags_eq (k : Kind) : k.tags = (k.protocol, k.name) := by cases k <;> rfl

theorem tags_ne_empty (k : Kind) : k.protocol ≠ "" ∧ k.name ≠ "" := by
  cases k <;> decide

/-- The tags of documents are those of the kinds, no two of which share them. -/
theorem ofTags?_eq_some_iff : ofTags? p n = some k ↔ k.protocol = p ∧ k.name = n := by
  constructor
  · intro h
    have hn := List.find?_some h
    have hp := (List.mem_filter.1 (List.mem_of_find?_eq_some h)).2
    simpa [tags_eq] using And.intro hp hn
  · rintro ⟨rfl, rfl⟩
    cases k <;> decide

/-- The routes are those of the kinds. -/
theorem route_eq_ok_iff : route p n = .ok k ↔ k.protocol = p ∧ k.name = n := by
  constructor
  · intro h
    unfold route at h
    split at h <;> cases h <;> exact ⟨rfl, rfl⟩
  · rintro ⟨rfl, rfl⟩
    cases k <;> rfl

end Kind

/-- The schema has the pairs of the kinds. -/
theorem isSupported_iff {p n : String} :
    IsSupported p n ↔ ∃ k : Kind, k.protocol = p ∧ k.name = n := by
  constructor
  · rintro ⟨names, hp, hn⟩
    simp only [supportedOperations, List.mem_cons, Prod.mk.injEq, List.not_mem_nil,
      or_false] at hp
    rcases hp with ⟨rfl, rfl⟩ | ⟨rfl, rfl⟩ | ⟨rfl, rfl⟩
    all_goals
      simp only [List.mem_cons, List.not_mem_nil, or_false] at hn
      rcases hn with rfl | rfl | rfl | rfl
    all_goals exact ⟨_, Kind.ofTags?_eq_some_iff.1 rfl⟩
  · rintro ⟨k, rfl, rfl⟩
    exact k.isSupported

namespace Json.Value

variable {v : Value} {name s : String}

def IsText (v : Value) (name s : String) : Prop := v.get? name = some (.string s)

/-- The member is a string, or there is none, or `null`. -/
def MayBeText (v : Value) (name : String) : Option String → Prop
  | some s => v.get? name = some (.string s)
  | none => v.get? name = none ∨ v.get? name = some .null

/-- The member is a string, or there is none and the string is empty. -/
def IsTextOrEmpty (v : Value) (name s : String) : Prop :=
  v.get? name = some (.string s) ∨ v.get? name = none ∧ s = ""

theorem string?_eq_some_iff : v.string? = some s ↔ v = .string s := by
  cases v <;> simp [string?]

theorem text_of_isText (h : v.IsText name s) : v.text name = s := by
  rw [text, h]
  rfl

theorem isText_of_text (h : v.text name ≠ "") : v.IsText name (v.text name) := by
  unfold text at *
  cases hb : (v.get? name).bind string? with
  | none => exact absurd (by rw [hb]; rfl) h
  | some s =>
    obtain ⟨w, hw, hs⟩ := Option.bind_eq_some_iff.1 hb
    rw [IsText, hw, string?_eq_some_iff.1 hs]
    rfl

end Json.Value

open Json Json.Value

/-- What a member may be, by its presence. -/
def Presence.Allows : Presence → Option Value → Prop
  | required, m => ∃ s, m = some (.string s)
  | optional, m => m = none ∨ m = some .null ∨ ∃ s, m = some (.string s)
  | defaulted, m => m = none ∨ ∃ s, m = some (.string s)

theorem Presence.allows_iff {p : Presence} {m : Option Value} :
    p.Allows m ↔ p.fault? m = none ∧ (p = required → m ≠ none) := by
  cases m with
  | none => cases p <;> simp [Allows, fault?]
  | some v =>
    cases v <;> cases p <;> simp [Allows, fault?, found?]

namespace Inscription

variable {v w : Value} {k : Kind} {i : Inscription}

/-- The document has the body of an inscription. -/
def Describes (v : Value) : Inscription → Prop
  | deploy b => v.IsText "tick" b.tick ∧ v.IsText "max" b.max ∧ v.MayBeText "lim" b.lim ∧
      v.MayBeText "dec" b.dec ∧ v.MayBeText "burn" b.burn ∧ v.MayBeText "func" b.func
  | mint b | transfer b | deposit b | withdraw b => v.IsText "tick" b.tick ∧ v.IsText "amt" b.amt
  | create b | add b => v.IsText "tick0" b.tick0 ∧ v.IsText "tick1" b.tick1 ∧
      v.IsText "amt0" b.amt0 ∧ v.IsText "amt1" b.amt1 ∧ v.IsTextOrEmpty "amt0_min" b.amt0Min ∧
      v.IsTextOrEmpty "amt1_min" b.amt1Min
  | remove b => v.IsText "tick0" b.tick0 ∧ v.IsText "tick1" b.tick1 ∧
      v.IsText "liquidity" b.liquidity
  | swap b => v.IsText "tick0" b.tick0 ∧ v.IsText "tick1" b.tick1 ∧ v.IsText "amt0" b.amt0 ∧
      v.IsTextOrEmpty "amt1" b.amt1 ∧ v.IsTextOrEmpty "amt1_min" b.amt1Min

theorem isText_iff {name s : String} :
    v.IsText name s ↔ Presence.required.Allows (v.get? name) ∧ v.text name = s := by
  constructor
  · intro h
    exact ⟨⟨s, h⟩, text_of_isText h⟩
  · rintro ⟨⟨t, ht⟩, rfl⟩
    rw [text_of_isText ht]
    exact ht

theorem mayBeText_iff {name : String} {s : Option String} :
    v.MayBeText name s ↔ Presence.optional.Allows (v.get? name) ∧ v.text? name = s := by
  unfold text? Presence.Allows
  cases hm : v.get? name with
  | none => cases s <;> simp [MayBeText, hm]
  | some m => cases m <;> cases s <;> simp [MayBeText, hm, string?, eq_comm]

theorem isTextOrEmpty_iff {name s : String} :
    v.IsTextOrEmpty name s ↔ Presence.defaulted.Allows (v.get? name) ∧ v.text name = s := by
  unfold text IsTextOrEmpty Presence.Allows
  cases hm : v.get? name with
  | none => simp [eq_comm]
  | some m => cases m <;> simp [string?, eq_comm]

theorem describes_iff : Describes v i ↔
    (∀ f ∈ i.kind.fields, f.2.Allows (v.get? f.1)) ∧ build v i.kind = i := by
  cases i with
  | deploy b | mint b | transfer b | create b | add b | remove b | swap b | deposit b
  | withdraw b =>
    cases b
    simp only [Describes, isText_iff, mayBeText_iff, isTextOrEmpty_iff, kind, Kind.fields, build,
      List.forall_mem_cons, List.not_mem_nil, false_imp_iff, implies_true, and_true, deploy.injEq,
      mint.injEq, transfer.injEq, create.injEq, add.injEq, remove.injEq, swap.injEq, deposit.injEq,
      withdraw.injEq, DeployBody.mk.injEq, AmountBody.mk.injEq, PairBody.mk.injEq,
      RemoveBody.mk.injEq, SwapBody.mk.injEq]
    tauto

theorem kind_build (v : Value) (k : Kind) : (build v k).kind = k := by
  cases k <;> rfl

theorem wrongType?_eq_none_iff :
    wrongType? k v = none ↔ ∀ f ∈ k.fields, f.2.fault? (v.get? f.1) = none := by
  simp [wrongType?]

theorem missing?_eq_none_iff :
    missing? k v = none ↔ ∀ f ∈ k.fields, f.2 = .required → v.get? f.1 ≠ none := by
  simp [missing?]

theorem ofBody_eq_ok_iff : ofBody k v = .ok i ↔ i.kind = k ∧ Describes v i := by
  have hallows : (∀ f ∈ k.fields, f.2.Allows (v.get? f.1)) ↔
      wrongType? k v = none ∧ missing? k v = none := by
    rw [wrongType?_eq_none_iff, missing?_eq_none_iff, ← forall₂_and]
    exact forall₂_congr fun f _ => Presence.allows_iff
  have hbody : ofBody k v = .ok i ↔
      (∀ f ∈ k.fields, f.2.Allows (v.get? f.1)) ∧ build v k = i := by
    rw [hallows, ofBody]
    cases wrongType? k v with
    | some found => simp
    | none => cases missing? k v <;> simp
  rw [hbody, describes_iff]
  constructor
  · rintro ⟨h, rfl⟩
    rw [kind_build]
    exact ⟨rfl, h, rfl⟩
  · rintro ⟨rfl, h⟩
    exact h

theorem exists_tags (h : IsSupported (v.text "p") (v.text "op")) :
    ∃ k : Kind, v.IsText "p" k.protocol ∧ v.IsText "op" k.name := by
  obtain ⟨k, hp, hn⟩ := isSupported_iff.1 h
  obtain ⟨hp₀, hn₀⟩ := k.tags_ne_empty
  rw [hp] at hp₀
  rw [hn] at hn₀
  exact ⟨k, hp ▸ isText_of_text hp₀, hn ▸ isText_of_text hn₀⟩

theorem ofValue_of_tags (hp : v.IsText "p" k.protocol) (hn : v.IsText "op" k.name) :
    ofValue v = ofBody k v := by
  unfold ofValue
  dsimp only
  rw [text_of_isText hp, text_of_isText hn, if_pos (isSupported_eq_true_iff.2 k.isSupported),
    Kind.ofTags?_eq_some_iff.2 ⟨rfl, rfl⟩]

theorem ofValue_of_not_isSupported (h : ¬IsSupported (v.text "p") (v.text "op")) :
    ofValue v = .error (.unsupported (v.text "p") (v.text "op")) :=
  if_neg (mt isSupported_eq_true_iff.1 h)

theorem ofValue_ne_unknownVariant (v : Value) (name : String) :
    ofValue v ≠ .error (.unknownVariant name) := by
  by_cases hs : IsSupported (v.text "p") (v.text "op")
  · obtain ⟨k, hp, hn⟩ := exists_tags hs
    rw [ofValue_of_tags hp hn, ofBody]
    cases wrongType? k v with
    | some found => simp
    | none => cases missing? k v <;> simp
  · rw [ofValue_of_not_isSupported hs]
    simp

theorem ofValue_eq_ok_iff : ofValue v = .ok i ↔
    v.IsText "p" i.kind.protocol ∧ v.IsText "op" i.kind.name ∧ Describes v i := by
  constructor
  · intro h
    by_cases hs : IsSupported (v.text "p") (v.text "op")
    · obtain ⟨k, hp, hn⟩ := exists_tags hs
      rw [ofValue_of_tags hp hn] at h
      obtain ⟨rfl, hd⟩ := ofBody_eq_ok_iff.1 h
      exact ⟨hp, hn, hd⟩
    · rw [ofValue_of_not_isSupported hs] at h
      cases h
  · rintro ⟨hp, hn, hd⟩
    rw [ofValue_of_tags hp hn]
    exact ofBody_eq_ok_iff.2 ⟨rfl, hd⟩

theorem exists_ofBody_eq_ok_iff :
    (∃ i, ofBody k v = .ok i) ↔ ∀ f ∈ k.fields, f.2.Allows (v.get? f.1) := by
  simp only [ofBody_eq_ok_iff, describes_iff]
  constructor
  · rintro ⟨i, rfl, h, -⟩
    exact h
  · intro h
    refine ⟨build v k, kind_build v k, ?_⟩
    rw [kind_build]
    exact ⟨h, rfl⟩

/-- What the members of a document must be for a kind of inscription. -/
def Fits (v : Value) : Kind → Prop
  | .deploy => (∀ name ∈ ["tick", "max"], Presence.required.Allows (v.get? name)) ∧
      ∀ name ∈ ["lim", "dec", "burn", "func"], Presence.optional.Allows (v.get? name)
  | .mint | .transfer | .deposit | .withdraw =>
    ∀ name ∈ ["tick", "amt"], Presence.required.Allows (v.get? name)
  | .create | .add =>
    (∀ name ∈ ["tick0", "tick1", "amt0", "amt1"], Presence.required.Allows (v.get? name)) ∧
      ∀ name ∈ ["amt0_min", "amt1_min"], Presence.defaulted.Allows (v.get? name)
  | .remove => ∀ name ∈ ["tick0", "tick1", "liquidity"], Presence.required.Allows (v.get? name)
  | .swap => (∀ name ∈ ["tick0", "tick1", "amt0"], Presence.required.Allows (v.get? name)) ∧
      ∀ name ∈ ["amt1", "amt1_min"], Presence.defaulted.Allows (v.get? name)

theorem fits_iff : Fits v k ↔ ∀ f ∈ k.fields, f.2.Allows (v.get? f.1) := by
  cases k <;> simp [Fits, Kind.fields, and_assoc]

theorem ofValue_eq_unsupported_iff : (∃ p n, ofValue v = .error (.unsupported p n)) ↔
    ¬∃ p n, v.IsText "p" p ∧ v.IsText "op" n ∧ IsSupported p n := by
  constructor
  · rintro ⟨p, n, h⟩ ⟨p', n', hp, hn, hs⟩
    obtain ⟨k, rfl, rfl⟩ := isSupported_iff.1 hs
    rw [ofValue_of_tags hp hn, ofBody] at h
    split at h
    · cases h
    · split at h <;> cases h
  · intro h
    refine ⟨_, _, ofValue_of_not_isSupported fun hs => h ?_⟩
    obtain ⟨k, hp, hn⟩ := exists_tags hs
    exact ⟨_, _, hp, hn, k.isSupported⟩

theorem malformed_of_not_fits (hp : v.IsText "p" k.protocol) (hn : v.IsText "op" k.name)
    (h : ¬Fits v k) : ∃ e, ofValue v = .error e ∧ e.reason = .malformedInscription := by
  rw [fits_iff, ← exists_ofBody_eq_ok_iff] at h
  rw [ofValue_of_tags hp hn]
  unfold ofBody at h ⊢
  split
  · exact ⟨_, rfl, rfl⟩
  · split
    · exact ⟨_, rfl, rfl⟩
    · simp_all

/-- Two documents have the same members under the tags and under the names of a body. -/
def Alike (k : Kind) (v w : Value) : Prop :=
  ∀ name ∈ "p" :: "op" :: k.fields.map Prod.fst, v.get? name = w.get? name

theorem build_congr (h : ∀ f ∈ k.fields, v.get? f.1 = w.get? f.1) : build v k = build w k := by
  cases k <;> simp_all [Kind.fields, build, text, text?]

theorem ofBody_congr (h : ∀ f ∈ k.fields, v.get? f.1 = w.get? f.1) : ofBody k v = ofBody k w := by
  have hwrong : wrongType? k v = wrongType? k w := by
    have hmap (u : Value) : wrongType? k u = ((k.fields.mergeSort fun x y => x.1 ≤ y.1).map
        fun f => f.2.fault? (u.get? f.1)).findSome? id := by
      rw [List.findSome?_map]
      rfl
    rw [hmap, hmap, List.map_congr_left fun f hf => ?_]
    rw [h f (List.mem_mergeSort.1 hf)]
  have hmissing : missing? k v = missing? k w := by
    refine congrArg (Option.map Prod.fst) (List.find?_congr fun f hf => ?_)
    rw [h f hf]
  rw [ofBody, ofBody, hwrong, hmissing, build_congr h]

theorem ofValue_congr (hp : v.IsText "p" k.protocol) (hn : v.IsText "op" k.name)
    (h : Alike k v w) : ofValue w = ofValue v := by
  obtain ⟨h₁, h₂, hfields⟩ : _ ∧ _ ∧ _ := by simpa only [Alike, List.forall_mem_cons] using h
  have hbody : ∀ f ∈ k.fields, v.get? f.1 = w.get? f.1 :=
    fun f hf => hfields _ (List.mem_map_of_mem hf)
  rw [ofValue_of_tags hp hn, ofValue_of_tags (h₁.symm.trans hp) (h₂.symm.trans hn),
    ofBody_congr hbody]

theorem alike_of_members {ms ns : List (String × Value)} (hms : (ms.map Prod.fst).Nodup)
    (hns : (ns.map Prod.fst).Nodup)
    (h : ∀ name ∈ "p" :: "op" :: k.fields.map Prod.fst, ∀ x, (name, x) ∈ ms ↔ (name, x) ∈ ns) :
    Alike k (.object ms) (.object ns) := by
  intro name hname
  refine Option.ext fun x => ?_
  rw [get?_object_eq_some_iff hms, get?_object_eq_some_iff hns, h name hname]

/-- The decoder refuses a document for its tags exactly if they are no supported pair, and else
accepts it exactly if it fits their kind. It reads no other member, in whatever order they stand,
and finds the tags, the kind of the operation and that of the approval to be the same. -/
theorem decodes_schema (v : Value) :
    ((∃ p n, ofValue v = .error (.unsupported p n)) ↔
      ¬∃ p n, v.IsText "p" p ∧ v.IsText "op" n ∧ IsSupported p n) ∧
    (∀ k, v.IsText "p" k.protocol → v.IsText "op" k.name →
      ((∃ i, ofValue v = .ok i) ↔ Fits v k) ∧
      (¬Fits v k → ∃ e, ofValue v = .error e ∧ e.reason = .malformedInscription) ∧
      (∀ w, Alike k v w → ofValue w = ofValue v) ∧
      ∀ ms ns, v = .object ms → (ms.map Prod.fst).Nodup → (ns.map Prod.fst).Nodup →
        (∀ name ∈ "p" :: "op" :: k.fields.map Prod.fst, ∀ x, (name, x) ∈ ms ↔ (name, x) ∈ ns) →
        ofValue (.object ns) = ofValue v) ∧
    (∀ i, ofValue v = .ok i → v.IsText "p" i.protocol ∧ v.IsText "op" i.op ∧ Describes v i ∧
      i.protocol = i.kind.protocol ∧ i.op = i.kind.name ∧
      Kind.route i.protocol i.op = .ok i.kind) ∧
    (∀ p n, (∃ k, Kind.route p n = .ok k) ↔ IsSupported p n) ∧
    ∀ (e : Envelope) (op : Operation), ofValue v = .ok e.inscription →
      Operation.ofEnvelope e = .ok op → Kind.route (v.text "p") (v.text "op") = .ok op.kind ∧
        ∀ (σ : Type) (store : Store σ) (rules : Rules) (s : σ) (a : Approval),
          (store.validate rules op s).1 = .ok a → a.kind = op.kind := by
  refine ⟨ofValue_eq_unsupported_iff, fun k hp hn => ⟨?_, malformed_of_not_fits hp hn,
    fun w => ofValue_congr hp hn, ?_⟩, fun i hi => ?_, fun p n => ?_, fun e op hi hop => ?_⟩
  · rw [ofValue_of_tags hp hn, fits_iff, exists_ofBody_eq_ok_iff]
  · rintro ms ns rfl hms hns h
    exact ofValue_congr hp hn (alike_of_members hms hns h)
  · obtain ⟨hp, hn, hd⟩ := ofValue_eq_ok_iff.1 hi
    rw [protocol_eq, op_eq]
    exact ⟨hp, hn, hd, rfl, rfl, Kind.route_eq_ok_iff.2 ⟨rfl, rfl⟩⟩
  · simp only [Kind.route_eq_ok_iff, isSupported_iff]
  · obtain ⟨hp, hn, -⟩ := ofValue_eq_ok_iff.1 hi
    rw [text_of_isText hp, text_of_isText hn, Operation.kind_of_ofEnvelope hop]
    refine ⟨Kind.route_eq_ok_iff.2 ⟨rfl, rfl⟩, fun _ _ _ _ _ ha => ?_⟩
    rw [Operation.kind_of_validate ha, Operation.kind_of_ofEnvelope hop]

/-- A swap with a member that nobody reads and without its minimum, and one without a ticker. -/
theorem decodes_schema_swap :
    let doc (tick : Value) : Value := .object [("amt0", .string "5"), ("note", .null),
      ("op", .string "swap"), ("p", .string "pair-v1"), ("tick0", .string "A"), ("tick1", tick)]
    (∃ i, ofValue (doc (.string "B")) = .ok i) ∧
      ∃ e, ofValue (doc .null) = .error e ∧ e.reason = .malformedInscription := by
  intro doc
  have tags (tick : Value) : (doc tick).IsText "p" Kind.swap.protocol ∧
      (doc tick).IsText "op" Kind.swap.name := ⟨rfl, rfl⟩
  constructor
  · refine ((decodes_schema _).2.1 .swap (tags _).1 (tags _).2).1.2 ?_
    simp [Fits, doc, Presence.Allows, get?, List.lookup_cons]
  · refine ((decodes_schema _).2.1 .swap (tags _).1 (tags _).2).2.1 ?_
    simp [Fits, doc, Presence.Allows, get?, List.lookup_cons]

end Inscription
end TokenLedger
