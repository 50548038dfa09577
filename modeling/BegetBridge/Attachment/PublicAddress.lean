import BegetBridge.Attachment.Spelling

/-!
# Public addresses

Whether an attachment may be fetched from an address depends on the address alone, and not on how it is
written: it is a version 4 address outside the blocked ranges, it holds such an address, or it is global
and not reserved.

## Main definitions

* `Address`, `Denotes`: the addresses and their texts
* `Address.Public`: the addresses that may be fetched from

## Main results

* `ipv4InRange_eq`: the masks select ranges
* `address_classified`: the texts of an address are read as the address, and judged by it
-/

namespace BegetBridge.Attachment

/-! ## Ranges -/

/-- The number `n` begins as `base` does, in its first `bits` of 32 bits. -/
def InRange (n base bits : Nat) : Prop := n / 2 ^ (32 - bits) = base / 2 ^ (32 - bits)

instance (n base bits : Nat) : Decidable (InRange n base bits) := by
  unfold InRange
  infer_instance

/-- Four octets. -/
def octets (a b c d : Nat) : Nat := ((a * 256 + b) * 256 + c) * 256 + d

/-- The ranges of version 4 that are not fetched from. -/
def blockedRanges : List (Nat × Nat) :=
  [(octets 0 0 0 0, 8), (octets 10 0 0 0, 8), (octets 100 64 0 0, 10), (octets 127 0 0 0, 8),
    (octets 169 254 0 0, 16), (octets 172 16 0 0, 12), (octets 192 0 0 0, 24), (octets 192 0 2 0, 24),
    (octets 192 88 99 0, 24), (octets 192 168 0 0, 16), (octets 198 18 0 0, 15), (octets 198 51 100 0, 24),
    (octets 203 0 113 0, 24), (octets 224 0 0 0, 4), (octets 240 0 0 0, 4)]

/-- A version 4 address outside the blocked ranges. -/
def PublicNumber (n : Nat) : Prop := ∀ range ∈ blockedRanges, ¬InRange n range.1 range.2

/-- The documentation blocks, the Teredo block and the two ORCHID blocks, by their first two words. -/
def reservedRanges : List (Nat × Nat) :=
  [(0x20010db8, 32), (0x3fff0000, 20), (0x20010000, 32), (0x20010010, 28), (0x20010020, 28)]

/-- An address, as a number of 32 bits or as eight words. -/
inductive Address
  | v4 (value : BitVec 32)
  | v6 (words : List Nat)

/-- The text denotes the address. -/
inductive Denotes : List Char → Address → Prop
  | v4 {text : List Char} {value : BitVec 32} (h : Dotted text value) : Denotes text (.v4 value)
  | v6 {text : List Char} {words : List Nat} (h : Zoned text words) : Denotes text (.v6 words)

/-- The parser of its version reads the address from the text. -/
def Address.ReadFrom (text : List Char) : Address → Prop
  | .v4 value => parseIpv4 text = some value
  | .v6 words => parseIpv6 text = some words

/-- The words hold a version 4 address. -/
def Mapped (words : List Nat) : Prop := (∀ i < 5, words.getD i 0 = 0) ∧ words.getD 5 0 = 0xffff

instance (words : List Nat) : Decidable (Mapped words) := by
  unfold Mapped
  infer_instance

/-- The addresses that attachments may be fetched from. -/
def Address.Public : Address → Prop
  | .v4 value => PublicNumber value.toNat
  | .v6 words =>
    let pair (i : Nat) : Nat := words.getD i 0 * 65536 + words.getD (i + 1) 0
    if Mapped words then PublicNumber (pair 6)
    else if words.getD 0 0 = 0x2002 then PublicNumber (pair 1)
    else InRange (pair 0) 0x20000000 3 ∧ ∀ range ∈ reservedRanges, ¬InRange (pair 0) range.1 range.2

/-! ## Masks -/

theorem and_shifted_iff (x y : BitVec 32) (k : Nat) :
    x &&& (0xffffffff#32 <<< k) = y &&& (0xffffffff#32 <<< k) ↔ x.toNat / 2 ^ k = y.toNat / 2 ^ k := by
  have hshift : x >>> k = y >>> k ↔ x.toNat / 2 ^ k = y.toNat / 2 ^ k := by
    rw [← BitVec.toNat_inj, BitVec.toNat_ushiftRight, BitVec.toNat_ushiftRight, Nat.shiftRight_eq_div_pow,
      Nat.shiftRight_eq_div_pow]
  rw [show 0xffffffff#32 = BitVec.allOnes 32 by decide, ← hshift]
  constructor
  · intro h
    refine BitVec.eq_of_getLsbD_eq fun i hi => ?_
    have hbit := congrArg (fun z => z.getLsbD (k + i)) h
    by_cases hlt : k + i < 32
    · simpa only [BitVec.getLsbD_and, BitVec.getLsbD_shiftLeft, BitVec.getLsbD_ushiftRight,
        BitVec.getLsbD_allOnes, hlt, decide_true, Bool.true_and, Nat.add_sub_cancel_left, hi, Bool.and_true,
        Nat.not_lt.mpr (Nat.le_add_right k i), decide_false, Bool.not_false] using hbit
    · -- nothing is left there
      simp only [BitVec.getLsbD_ushiftRight, BitVec.getLsbD_of_ge _ _ (Nat.le_of_not_lt hlt)]
  · intro h
    refine BitVec.eq_of_getLsbD_eq fun i hi => ?_
    have hbit := congrArg (fun z => z.getLsbD (i - k)) h
    simp only [BitVec.getLsbD_and, BitVec.getLsbD_shiftLeft, BitVec.getLsbD_ushiftRight] at hbit ⊢
    by_cases hlt : i < k
    · simp [hlt]
    · rw [Nat.add_sub_cancel' (Nat.le_of_not_lt hlt)] at hbit
      rw [hbit]

/-- A mask of the first bits of a word. -/
theorem and_high {w k : Nat} (hw : w < 65536) (hk : k ≤ 16) : w &&& (2 ^ 16 - 2 ^ k) = w / 2 ^ k * 2 ^ k := by
  have hmask : 2 ^ 16 - 2 ^ k = (2 ^ (16 - k) - 1) <<< k := by
    rw [Nat.shiftLeft_eq, Nat.sub_mul, ← pow_add, Nat.sub_add_cancel hk, one_mul]
  rw [hmask, ← Nat.shiftLeft_eq, ← Nat.shiftRight_eq_div_pow]
  refine Nat.eq_of_testBit_eq fun i => ?_
  rw [Nat.testBit_and, Nat.testBit_shiftLeft, Nat.testBit_shiftLeft, Nat.testBit_two_pow_sub_one,
    Nat.testBit_shiftRight]
  by_cases hlt : k ≤ i
  · by_cases hi : i < 16
    · have hin : i - k < 16 - k := by omega
      simp [hlt, hin, Nat.add_sub_cancel' hlt]
    · have hzero : w.testBit i = false :=
        Nat.testBit_lt_two_pow (hw.trans_le (Nat.pow_le_pow_right (by decide : 0 < 2) (Nat.le_of_not_lt hi)))
      simp [hlt, hzero, Nat.add_sub_cancel' hlt]
  · simp [hlt]

/-! ## Version 4 -/

/-- **The masks select ranges.** -/
theorem ipv4InRange_eq (value : BitVec 32) (base : List Char) (bits : Nat) :
    ipv4InRange value base bits = decide (InRange value.toNat ((parseIpv4 base).getD 0).toNat bits) := by
  have hmask : (if bits == 0 then 0 else 0xffffffff#32 <<< (32 - bits)) = 0xffffffff#32 <<< (32 - bits) := by
    split
    · rename_i h
      rw [beq_iff_eq.mp h]
      decide
    · rfl
  rw [ipv4InRange, hmask, Bool.beq_eq_decide_eq, decide_eq_decide, and_shifted_iff, InRange]

/-- The table of the source is the table of the ranges. -/
theorem blocked_eq : blocked.map (fun range => (((parseIpv4 range.1.toList).getD 0).toNat, range.2)) =
    blockedRanges := by
  decide +kernel

theorem isPublicIpv4_iff {text : List Char} {value : BitVec 32} (h : Dotted text value) :
    isPublicIpv4 text = true ↔ PublicNumber value.toNat := by
  rw [isPublicIpv4, parseIpv4_of_dotted h, PublicNumber, ← blocked_eq]
  simp only [Bool.not_eq_true', List.any_eq_false, ipv4InRange_eq, decide_eq_true_eq, List.forall_mem_map]

/-! ## Version 6 -/

theorem embeddedIpv4_dotted {high low : Nat} (hhigh : high ≤ 0xffff) (hlow : low ≤ 0xffff) :
    Dotted (embeddedIpv4 high low) (.ofNat 32 (high * 65536 + low)) := by
  have hsplit : ∀ n, n >>> 8 = n / 256 ∧ n &&& 0xff = n % 256 := fun n =>
    ⟨Nat.shiftRight_eq_div_pow n 8, Nat.and_two_pow_sub_one_eq_mod n 8⟩
  have hvalue : ((high / 256 * 256 + high % 256) * 256 + low / 256) * 256 + low % 256 =
      high * 65536 + low := by omega
  rw [embeddedIpv4, (hsplit high).1, (hsplit high).2, (hsplit low).1, (hsplit low).2, ← hvalue]
  simp only [List.append_assoc, List.cons_append]
  exact .octets (by omega) (Nat.mod_lt _ (by decide)) (by omega) (Nat.mod_lt _ (by decide))

theorem isPublicIpv4_embedded {high low : Nat} (hhigh : high ≤ 0xffff) (hlow : low ≤ 0xffff) :
    isPublicIpv4 (embeddedIpv4 high low) = true ↔ PublicNumber (high * 65536 + low) := by
  rw [isPublicIpv4_iff (embeddedIpv4_dotted hhigh hlow), BitVec.toNat_ofNat, Nat.mod_eq_of_lt (by omega)]

theorem Words.eight {text : List Char} {words : List Nat} (h : Words true text words) :
    words.length = 8 ∧ ∀ n ∈ words, n ≤ 0xffff := by
  rcases h.tail with ⟨hwords, -⟩ | ⟨pre, q, v, -, -, hab⟩
  · obtain ⟨_, _, -, -, -, -, -, -, hlength, hle⟩ := hwords.halves
    exact ⟨hlength, hle⟩
  · have hlt := v.isLt
    have hwords := hab _ _ (hextet_toDigits (by omega)) (hextet_toDigits (Nat.mod_lt _ (by decide)))
    obtain ⟨_, _, -, -, -, -, -, -, hlength, hle⟩ := hwords.halves
    exact ⟨hlength, hle⟩

theorem Zoned.eight {text : List Char} {words : List Nat} (h : Zoned text words) :
    words.length = 8 ∧ ∀ n ∈ words, n ≤ 0xffff := by
  cases h with
  | plain h => exact h.eight
  | zone h => exact h.eight

theorem forall_lt_five {P : Nat → Prop} : (∀ i < 5, P i) ↔ P 0 ∧ P 1 ∧ P 2 ∧ P 3 ∧ P 4 := by
  constructor
  · intro h
    exact ⟨h 0 (by decide), h 1 (by decide), h 2 (by decide), h 3 (by decide), h 4 (by decide)⟩
  · rintro ⟨h0, h1, h2, h3, h4⟩ i hi
    match i, hi with
    | 0, _ => exact h0
    | 1, _ => exact h1
    | 2, _ => exact h2
    | 3, _ => exact h3
    | 4, _ => exact h4

theorem mapped_iff {words : List Nat} (hlength : words.length = 8) :
    ((words.take 5).all (· == 0) && words.getD 5 0 == 0xffff) = true ↔ Mapped words := by
  obtain ⟨a, b, c, d, e, rest, rfl⟩ : ∃ a b c d e rest, words = a :: b :: c :: d :: e :: rest := by
    match words, hlength with
    | a :: b :: c :: d :: e :: rest, _ => exact ⟨a, b, c, d, e, rest, rfl⟩
  rw [Mapped, forall_lt_five]
  simp [and_assoc]

/-- The masks of the words select ranges. -/
theorem global_iff {w₀ w₁ : Nat} (h₀ : w₀ ≤ 0xffff) (h₁ : w₁ ≤ 0xffff) :
    (w₀ &&& 0xe000 == 0x2000 && !(w₀ == 0x2001 && w₁ == 0x0db8) && !(w₀ == 0x3fff && w₁ &&& 0xf000 == 0) &&
        !(w₀ == 0x2001 && w₁ == 0) && !(w₀ == 0x2001 && w₁ &&& 0xfff0 == 0x0010) &&
        !(w₀ == 0x2001 && w₁ &&& 0xfff0 == 0x0020)) = true ↔
      InRange (w₀ * 65536 + w₁) 0x20000000 3 ∧
        ∀ range ∈ reservedRanges, ¬InRange (w₀ * 65536 + w₁) range.1 range.2 := by
  rw [show w₀ &&& 0xe000 = w₀ / 8192 * 8192 from and_high (k := 13) (by omega) (by decide),
    show w₁ &&& 0xf000 = w₁ / 4096 * 4096 from and_high (k := 12) (by omega) (by decide),
    show w₁ &&& 0xfff0 = w₁ / 16 * 16 from and_high (k := 4) (by omega) (by decide)]
  simp only [Bool.and_eq_true, Bool.not_eq_true', Bool.and_eq_false_iff, beq_iff_eq, beq_eq_false_iff_ne,
    reservedRanges, List.forall_mem_cons, List.not_mem_nil, false_imp_iff, implies_true, and_true, InRange,
    Nat.reduceSub, Nat.reducePow, Nat.reduceDiv]
  omega

theorem isPublicIpv6_iff {text : List Char} {words : List Nat} (h : Zoned text words) :
    isPublicIpv6 text = true ↔ (Address.v6 words).Public := by
  obtain ⟨hlength, hle⟩ := h.eight
  have hword : ∀ i, words.getD i 0 ≤ 0xffff := by
    intro i
    rcases lt_or_ge i words.length with hi | hi
    · rw [List.getD_eq_getElem _ _ hi]
      exact hle _ (List.getElem_mem hi)
    · rw [List.getD_eq_default _ _ hi]
      exact Nat.zero_le _
  rw [isPublicIpv6, parseIpv6_of_zoned h]
  dsimp only
  rw [Address.Public]
  dsimp only
  by_cases hm : Mapped words
  · rw [if_pos ((mapped_iff hlength).mpr hm), if_pos hm]
    exact isPublicIpv4_embedded (hword 6) (hword 7)
  · rw [if_neg fun h => hm ((mapped_iff hlength).mp h), if_neg hm]
    by_cases h₂ : words.getD 0 0 = 0x2002
    · rw [if_pos (beq_iff_eq.mpr h₂), if_pos h₂]
      exact isPublicIpv4_embedded (hword 1) (hword 2)
    · rw [if_neg fun h => h₂ (beq_iff_eq.mp h), if_neg h₂]
      exact global_iff (hword 0) (hword 1)

/-- **What an address is classified by**: the texts that are accepted are those that denote an address,
an address is read as what it is, and the verdict is a property of it, whichever of its texts is given. -/
theorem address_classified (text : String) :
    (isIP text.toList ≠ 0 ↔ ∃ address, Denotes text.toList address) ∧
    ∀ address, Denotes text.toList address → address.ReadFrom text.toList ∧
      (isPublicAttachmentAddress text = true ↔ address.Public) ∧
      ∀ text' : String, Denotes text'.toList address →
        isPublicAttachmentAddress text' = isPublicAttachmentAddress text := by
  have hread : ∀ address, Denotes text.toList address → address.ReadFrom text.toList := by
    intro address h
    cases h with
    | v4 h => exact parseIpv4_of_dotted h
    | v6 h => exact parseIpv6_of_zoned h
  have hverdict : ∀ (text : String) address, Denotes text.toList address →
      (isPublicAttachmentAddress text = true ↔ address.Public) := by
    intro text address h
    rw [isPublicAttachmentAddress]
    cases h with
    | v4 h =>
      rw [isIP_eq_four.mpr ⟨_, h⟩]
      exact isPublicIpv4_iff h
    | v6 h =>
      rw [isIP_eq_six.mpr ⟨_, h⟩]
      exact isPublicIpv6_iff h
  refine ⟨⟨fun h => ?_, ?_⟩, fun address h => ⟨hread address h, hverdict text address h, fun text' h' => ?_⟩⟩
  · by_cases h₄ : isIP text.toList = 4
    · obtain ⟨value, hv⟩ := isIP_eq_four.mp h₄
      exact ⟨_, .v4 hv⟩
    · have h₆ : isIP text.toList = 6 := by
        rw [isIP] at h h₄ ⊢
        split_ifs at h h₄ ⊢ <;> first | rfl | exact absurd rfl h | exact absurd rfl h₄
      obtain ⟨words, hw⟩ := isIP_eq_six.mp h₆
      exact ⟨_, .v6 hw⟩
  · rintro ⟨address, h⟩
    cases h with
    | v4 h =>
      rw [isIP_eq_four.mpr ⟨_, h⟩]
      decide
    | v6 h =>
      rw [isIP_eq_six.mpr ⟨_, h⟩]
      decide
  · rw [Bool.eq_iff_iff, hverdict text' address h', hverdict text address h]

/-- The loopback address is not public in either spelling. -/
example : isPublicAttachmentAddress "127.0.0.1" = false ∧ isPublicAttachmentAddress "::ffff:7f00:1" = false := by
  decide +kernel

/-- A mapped address, with a zone. -/
theorem address_classified_mapped : ∃ address, Denotes "0::FfFf:1.2.3.4%eth0".toList address ∧
    address.ReadFrom "0::FfFf:1.2.3.4%eth0".toList ∧ address.Public := by
  obtain ⟨haccepted, hclassified⟩ := address_classified "0::FfFf:1.2.3.4%eth0"
  obtain ⟨address, h⟩ := haccepted.mp (by decide +kernel)
  obtain ⟨hread, hpublic, -⟩ := hclassified address h
  exact ⟨address, h, hread, hpublic.mp (by decide +kernel)⟩

end BegetBridge.Attachment
