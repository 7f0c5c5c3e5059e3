/-! Upper case, one character for one character, by the Unicode case mapping. A character whose
upper case has several characters (such as the sharp s) is its own upper case here, so a text keeps
its number of characters. Main statement: taking the upper case twice changes nothing more. -/
namespace TokenLedger
namespace Text

/-- `count` code points, `step` apart from `first` on, whose upper cases lie `step` apart from
`target` on. -/
structure CaseRun where
  first : Nat
  count : Nat
  step : Nat
  target : Nat
  deriving DecidableEq

namespace CaseRun

def last (r : CaseRun) : Nat := r.first + (r.count - 1) * r.step

def Covers (r : CaseRun) (n : Nat) : Prop :=
  r.first ≤ n ∧ n ≤ r.last ∧ (n - r.first) % r.step = 0

instance (r : CaseRun) (n : Nat) : Decidable (r.Covers n) := by unfold Covers; infer_instance

def image (r : CaseRun) (n : Nat) : Nat := r.target + (n - r.first)

end CaseRun

/-- Every code point whose upper case is a single other one. -/
def caseRuns : List CaseRun :=
  [⟨0x61, 26, 1, 0x41⟩, ⟨0xb5, 1, 1, 0x39c⟩, ⟨0xe0, 23, 1, 0xc0⟩, ⟨0xf8, 7, 1, 0xd8⟩,
   ⟨0xff, 1, 1, 0x178⟩, ⟨0x101, 24, 2, 0x100⟩, ⟨0x131, 1, 1, 0x49⟩, ⟨0x133, 3, 2, 0x132⟩,
   ⟨0x13a, 8, 2, 0x139⟩, ⟨0x14b, 23, 2, 0x14a⟩, ⟨0x17a, 3, 2, 0x179⟩, ⟨0x17f, 1, 1, 0x53⟩,
   ⟨0x180, 1, 1, 0x243⟩, ⟨0x183, 2, 2, 0x182⟩, ⟨0x188, 1, 1, 0x187⟩, ⟨0x18c, 1, 1, 0x18b⟩,
   ⟨0x192, 1, 1, 0x191⟩, ⟨0x195, 1, 1, 0x1f6⟩, ⟨0x199, 1, 1, 0x198⟩, ⟨0x19a, 1, 1, 0x23d⟩,
   ⟨0x19b, 1, 1, 0xa7dc⟩, ⟨0x19e, 1, 1, 0x220⟩, ⟨0x1a1, 3, 2, 0x1a0⟩, ⟨0x1a8, 1, 1, 0x1a7⟩,
   ⟨0x1ad, 1, 1, 0x1ac⟩, ⟨0x1b0, 1, 1, 0x1af⟩, ⟨0x1b4, 2, 2, 0x1b3⟩, ⟨0x1b9, 1, 1, 0x1b8⟩,
   ⟨0x1bd, 1, 1, 0x1bc⟩, ⟨0x1bf, 1, 1, 0x1f7⟩, ⟨0x1c5, 1, 1, 0x1c4⟩, ⟨0x1c6, 1, 1, 0x1c4⟩,
   ⟨0x1c8, 1, 1, 0x1c7⟩, ⟨0x1c9, 1, 1, 0x1c7⟩, ⟨0x1cb, 1, 1, 0x1ca⟩, ⟨0x1cc, 1, 1, 0x1ca⟩,
   ⟨0x1ce, 8, 2, 0x1cd⟩, ⟨0x1dd, 1, 1, 0x18e⟩, ⟨0x1df, 9, 2, 0x1de⟩, ⟨0x1f2, 1, 1, 0x1f1⟩,
   ⟨0x1f3, 1, 1, 0x1f1⟩, ⟨0x1f5, 1, 1, 0x1f4⟩, ⟨0x1f9, 20, 2, 0x1f8⟩, ⟨0x223, 9, 2, 0x222⟩,
   ⟨0x23c, 1, 1, 0x23b⟩, ⟨0x23f, 2, 1, 0x2c7e⟩, ⟨0x242, 1, 1, 0x241⟩, ⟨0x247, 5, 2, 0x246⟩,
   ⟨0x250, 1, 1, 0x2c6f⟩, ⟨0x251, 1, 1, 0x2c6d⟩, ⟨0x252, 1, 1, 0x2c70⟩, ⟨0x253, 1, 1, 0x181⟩,
   ⟨0x254, 1, 1, 0x186⟩, ⟨0x256, 2, 1, 0x189⟩, ⟨0x259, 1, 1, 0x18f⟩, ⟨0x25b, 1, 1, 0x190⟩,
   ⟨0x25c, 1, 1, 0xa7ab⟩, ⟨0x260, 1, 1, 0x193⟩, ⟨0x261, 1, 1, 0xa7ac⟩, ⟨0x263, 1, 1, 0x194⟩,
   ⟨0x264, 1, 1, 0xa7cb⟩, ⟨0x265, 1, 1, 0xa78d⟩, ⟨0x266, 1, 1, 0xa7aa⟩, ⟨0x268, 1, 1, 0x197⟩,
   ⟨0x269, 1, 1, 0x196⟩, ⟨0x26a, 1, 1, 0xa7ae⟩, ⟨0x26b, 1, 1, 0x2c62⟩, ⟨0x26c, 1, 1, 0xa7ad⟩,
   ⟨0x26f, 1, 1, 0x19c⟩, ⟨0x271, 1, 1, 0x2c6e⟩, ⟨0x272, 1, 1, 0x19d⟩, ⟨0x275, 1, 1, 0x19f⟩,
   ⟨0x27d, 1, 1, 0x2c64⟩, ⟨0x280, 1, 1, 0x1a6⟩, ⟨0x282, 1, 1, 0xa7c5⟩, ⟨0x283, 1, 1, 0x1a9⟩,
   ⟨0x287, 1, 1, 0xa7b1⟩, ⟨0x288, 1, 1, 0x1ae⟩, ⟨0x289, 1, 1, 0x244⟩, ⟨0x28a, 2, 1, 0x1b1⟩,
   ⟨0x28c, 1, 1, 0x245⟩, ⟨0x292, 1, 1, 0x1b7⟩, ⟨0x29d, 1, 1, 0xa7b2⟩, ⟨0x29e, 1, 1, 0xa7b0⟩,
   ⟨0x345, 1, 1, 0x399⟩, ⟨0x371, 2, 2, 0x370⟩, ⟨0x377, 1, 1, 0x376⟩, ⟨0x37b, 3, 1, 0x3fd⟩,
   ⟨0x3ac, 1, 1, 0x386⟩, ⟨0x3ad, 3, 1, 0x388⟩, ⟨0x3b1, 17, 1, 0x391⟩, ⟨0x3c2, 1, 1, 0x3a3⟩,
   ⟨0x3c3, 9, 1, 0x3a3⟩, ⟨0x3cc, 1, 1, 0x38c⟩, ⟨0x3cd, 2, 1, 0x38e⟩, ⟨0x3d0, 1, 1, 0x392⟩,
   ⟨0x3d1, 1, 1, 0x398⟩, ⟨0x3d5, 1, 1, 0x3a6⟩, ⟨0x3d6, 1, 1, 0x3a0⟩, ⟨0x3d7, 1, 1, 0x3cf⟩,
   ⟨0x3d9, 12, 2, 0x3d8⟩, ⟨0x3f0, 1, 1, 0x39a⟩, ⟨0x3f1, 1, 1, 0x3a1⟩, ⟨0x3f2, 1, 1, 0x3f9⟩,
   ⟨0x3f3, 1, 1, 0x37f⟩, ⟨0x3f5, 1, 1, 0x395⟩, ⟨0x3f8, 1, 1, 0x3f7⟩, ⟨0x3fb, 1, 1, 0x3fa⟩,
   ⟨0x430, 32, 1, 0x410⟩, ⟨0x450, 16, 1, 0x400⟩, ⟨0x461, 17, 2, 0x460⟩, ⟨0x48b, 27, 2, 0x48a⟩,
   ⟨0x4c2, 7, 2, 0x4c1⟩, ⟨0x4cf, 1, 1, 0x4c0⟩, ⟨0x4d1, 48, 2, 0x4d0⟩, ⟨0x561, 38, 1, 0x531⟩,
   ⟨0x10d0, 43, 1, 0x1c90⟩, ⟨0x10fd, 3, 1, 0x1cbd⟩, ⟨0x13f8, 6, 1, 0x13f0⟩, ⟨0x1c80, 1, 1, 0x412⟩,
   ⟨0x1c81, 1, 1, 0x414⟩, ⟨0x1c82, 1, 1, 0x41e⟩, ⟨0x1c83, 2, 1, 0x421⟩, ⟨0x1c85, 1, 1, 0x422⟩,
   ⟨0x1c86, 1, 1, 0x42a⟩, ⟨0x1c87, 1, 1, 0x462⟩, ⟨0x1c88, 1, 1, 0xa64a⟩, ⟨0x1c8a, 1, 1, 0x1c89⟩,
   ⟨0x1d79, 1, 1, 0xa77d⟩, ⟨0x1d7d, 1, 1, 0x2c63⟩, ⟨0x1d8e, 1, 1, 0xa7c6⟩, ⟨0x1e01, 75, 2, 0x1e00⟩,
   ⟨0x1e9b, 1, 1, 0x1e60⟩, ⟨0x1ea1, 48, 2, 0x1ea0⟩, ⟨0x1f00, 8, 1, 0x1f08⟩, ⟨0x1f10, 6, 1, 0x1f18⟩,
   ⟨0x1f20, 8, 1, 0x1f28⟩, ⟨0x1f30, 8, 1, 0x1f38⟩, ⟨0x1f40, 6, 1, 0x1f48⟩, ⟨0x1f51, 4, 2, 0x1f59⟩,
   ⟨0x1f60, 8, 1, 0x1f68⟩, ⟨0x1f70, 2, 1, 0x1fba⟩, ⟨0x1f72, 4, 1, 0x1fc8⟩, ⟨0x1f76, 2, 1, 0x1fda⟩,
   ⟨0x1f78, 2, 1, 0x1ff8⟩, ⟨0x1f7a, 2, 1, 0x1fea⟩, ⟨0x1f7c, 2, 1, 0x1ffa⟩, ⟨0x1fb0, 2, 1, 0x1fb8⟩,
   ⟨0x1fbe, 1, 1, 0x399⟩, ⟨0x1fd0, 2, 1, 0x1fd8⟩, ⟨0x1fe0, 2, 1, 0x1fe8⟩, ⟨0x1fe5, 1, 1, 0x1fec⟩,
   ⟨0x214e, 1, 1, 0x2132⟩, ⟨0x2170, 16, 1, 0x2160⟩, ⟨0x2184, 1, 1, 0x2183⟩, ⟨0x24d0, 26, 1, 0x24b6⟩,
   ⟨0x2c30, 48, 1, 0x2c00⟩, ⟨0x2c61, 1, 1, 0x2c60⟩, ⟨0x2c65, 1, 1, 0x23a⟩, ⟨0x2c66, 1, 1, 0x23e⟩,
   ⟨0x2c68, 3, 2, 0x2c67⟩, ⟨0x2c73, 1, 1, 0x2c72⟩, ⟨0x2c76, 1, 1, 0x2c75⟩, ⟨0x2c81, 50, 2, 0x2c80⟩,
   ⟨0x2cec, 2, 2, 0x2ceb⟩, ⟨0x2cf3, 1, 1, 0x2cf2⟩, ⟨0x2d00, 38, 1, 0x10a0⟩, ⟨0x2d27, 1, 1, 0x10c7⟩,
   ⟨0x2d2d, 1, 1, 0x10cd⟩, ⟨0xa641, 23, 2, 0xa640⟩, ⟨0xa681, 14, 2, 0xa680⟩, ⟨0xa723, 7, 2, 0xa722⟩,
   ⟨0xa733, 31, 2, 0xa732⟩, ⟨0xa77a, 2, 2, 0xa779⟩, ⟨0xa77f, 5, 2, 0xa77e⟩, ⟨0xa78c, 1, 1, 0xa78b⟩,
   ⟨0xa791, 2, 2, 0xa790⟩, ⟨0xa794, 1, 1, 0xa7c4⟩, ⟨0xa797, 10, 2, 0xa796⟩, ⟨0xa7b5, 8, 2, 0xa7b4⟩,
   ⟨0xa7c8, 2, 2, 0xa7c7⟩, ⟨0xa7cd, 8, 2, 0xa7cc⟩, ⟨0xa7f6, 1, 1, 0xa7f5⟩, ⟨0xab53, 1, 1, 0xa7b3⟩,
   ⟨0xab70, 80, 1, 0x13a0⟩, ⟨0xff41, 26, 1, 0xff21⟩, ⟨0x10428, 40, 1, 0x10400⟩,
   ⟨0x104d8, 36, 1, 0x104b0⟩, ⟨0x10597, 11, 1, 0x10570⟩, ⟨0x105a3, 15, 1, 0x1057c⟩,
   ⟨0x105b3, 7, 1, 0x1058c⟩, ⟨0x105bb, 2, 1, 0x10594⟩, ⟨0x10cc0, 51, 1, 0x10c80⟩,
   ⟨0x10d70, 22, 1, 0x10d50⟩, ⟨0x118c0, 32, 1, 0x118a0⟩, ⟨0x16e60, 32, 1, 0x16e40⟩,
   ⟨0x16ebb, 25, 1, 0x16ea0⟩, ⟨0x1e922, 34, 1, 0x1e900⟩]

def upperChar (c : Char) : Char :=
  match caseRuns.find? (fun r => r.Covers c.toNat) with
  | some r => Char.ofNat (r.image c.toNat)
  | none => c

def upper (s : String) : String := String.ofList (s.toList.map upperChar)

@[simp] theorem toList_upper (s : String) : (upper s).toList = s.toList.map upperChar := by
  simp [upper]

theorem length_upper (s : String) : (upper s).length = s.length := by
  rw [← String.length_toList, toList_upper, List.length_map, String.length_toList]

theorem upper_append (s t : String) : upper (s ++ t) = upper s ++ upper t := by
  simp [upper]

namespace CaseRun

def lastImage (r : CaseRun) : Nat := r.target + (r.count - 1) * r.step

/-- The images of a run are characters. -/
def Proper (r : CaseRun) : Prop :=
  0 < r.count ∧ 0 < r.step ∧
    (r.lastImage < 0xd800 ∨ 0xdfff < r.target ∧ r.lastImage < 0x110000)

instance (r : CaseRun) : Decidable r.Proper := by unfold Proper; infer_instance

/-- No image of `r` lies in `q`; the ends of the two runs mostly settle it. -/
def avoids (r q : CaseRun) : Bool :=
  r.lastImage.blt q.first || q.last.blt r.target || (List.range r.count).all fun k =>
    !(q.first.ble (r.target + k * r.step) && (r.target + k * r.step).ble q.last &&
      (r.target + k * r.step - q.first) % q.step == 0)

theorem Covers.exists_image {r : CaseRun} {n : Nat} (hr : r.Proper) (h : r.Covers n) :
    ∃ k < r.count, r.image n = r.target + k * r.step := by
  obtain ⟨hc, hs, -⟩ := hr
  obtain ⟨hf, hl, hm⟩ := h
  refine ⟨(n - r.first) / r.step, ?_, ?_⟩
  · have : n - r.first ≤ (r.count - 1) * r.step := by unfold last at hl; omega
    have := Nat.div_le_of_le_mul (Nat.mul_comm _ _ ▸ this)
    omega
  · rw [image, Nat.div_mul_cancel (Nat.dvd_of_mod_eq_zero hm)]

theorem image_le_lastImage {r : CaseRun} {k : Nat} (hk : k < r.count) :
    r.target + k * r.step ≤ r.lastImage :=
  Nat.add_le_add_left (Nat.mul_le_mul_right _ (by omega)) _

theorem Proper.isValidChar {r : CaseRun} {n : Nat} (hr : r.Proper) (h : r.Covers n) :
    (r.image n).isValidChar := by
  obtain ⟨k, hk, he⟩ := h.exists_image hr
  have := image_le_lastImage (r := r) hk
  have := hr.2.2
  rw [he, Nat.isValidChar]
  omega

theorem not_covers_image {r q : CaseRun} {n : Nat} (hr : r.Proper) (hq : r.avoids q = true)
    (h : r.Covers n) : ¬ q.Covers (r.image n) := by
  obtain ⟨k, hk, he⟩ := h.exists_image hr
  have hle := image_le_lastImage (r := r) hk
  rw [he]
  rintro ⟨h1, h2, h3⟩
  simp only [avoids, Bool.or_eq_true, Nat.blt_eq, List.all_eq_true, List.mem_range,
    Bool.not_eq_true', Bool.and_eq_false_iff] at hq
  rcases hq with (hq | hq) | hq
  · omega
  · have : r.target ≤ r.target + k * r.step := Nat.le_add_right _ _
    omega
  · rcases hq k hk with (hq | hq) | hq
    · exact absurd (Nat.ble_eq_true_of_le h1) (by rw [hq]; decide)
    · exact absurd (Nat.ble_eq_true_of_le h2) (by rw [hq]; decide)
    · simp [h3] at hq

end CaseRun

theorem proper_of_mem_caseRuns : ∀ r ∈ caseRuns, r.Proper := by decide +kernel

theorem avoids_of_mem_caseRuns {r q : CaseRun} (hr : r ∈ caseRuns) (hq : q ∈ caseRuns) :
    r.avoids q = true := by
  have h : caseRuns.all (fun r => caseRuns.all r.avoids) = true := by decide +kernel
  exact List.all_eq_true.1 (List.all_eq_true.1 h r hr) q hq

theorem upperChar_upperChar (c : Char) : upperChar (upperChar c) = upperChar c := by
  cases h : caseRuns.find? (fun r => r.Covers c.toNat) with
  | none => simp [upperChar, h]
  | some r =>
    have hc : r.Covers c.toNat := by simpa using List.find?_some h
    have hm := List.mem_of_find?_eq_some h
    have hr := proper_of_mem_caseRuns r hm
    have hn : (Char.ofNat (r.image c.toNat)).toNat = r.image c.toNat := by
      rw [Char.ofNat, dif_pos (hr.isValidChar hc)]; rfl
    have hf : caseRuns.find? (fun q => q.Covers (r.image c.toNat)) = none :=
      List.find?_eq_none.2 fun q hq => by
        simpa using CaseRun.not_covers_image hr (avoids_of_mem_caseRuns hm hq) hc
    have hu : upperChar c = Char.ofNat (r.image c.toNat) := by simp [upperChar, h]
    rw [hu, upperChar, hn, hf]

@[simp] theorem upper_upper (s : String) : upper (upper s) = upper s := by
  simp only [upper, String.toList_ofList, List.map_map]
  exact congrArg _ (List.map_congr_left fun c _ => upperChar_upperChar c)

end Text
end TokenLedger
