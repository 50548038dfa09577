import BegetBridge.Attachment.Address

/-!
# The spellings of an address

Which texts denote an address, and which address: a version 4 address is four decimal octets, a version 6
address is eight hexadecimal words with a gap for a run of zero words, and with four octets for the last
two words. `net.isIP` accepts these texts, and the two parsers read what they denote.

## Main definitions

* `Dotted`: the texts of a version 4 address
* `Hextet`, `Pieces`, `Words`, `Zoned`: the texts of a version 6 address

## Main results

* `isIP_eq_four`, `parseIpv4_eq_some`: the texts of version 4 and the number they are read as
* `isIP_eq_six`, `parseIpv6_of_zoned`: the texts of version 6 and the words they are read as
-/

namespace BegetBridge.Attachment

/-! ## Digits -/

/-- A hexadecimal digit in either case. -/
def HexDigit (c : Char) (d : Nat) : Prop := d < 16 ∧ (c = d.digitChar ∨ c = d.digitChar.toUpper)

theorem char_eq_ofNat (c : Char) : ∃ n, c.toNat = n ∧ c = Char.ofNat n :=
  ⟨c.toNat, rfl, (Char.ofNat_toNat c).symm⟩

theorem digit_of_isDigit {c : Char} (h : c.isDigit = true) :
    ∃ d < 10, c = Nat.digitChar d ∧ digitValue c = d := by
  obtain ⟨n, hn, rfl⟩ := char_eq_ofNat c
  simp only [Char.isDigit, Bool.and_eq_true, decide_eq_true_eq] at h
  obtain ⟨hlow, hhigh⟩ := h
  have hlow : 48 ≤ (Char.ofNat n).toNat := hlow
  have hhigh : (Char.ofNat n).toNat ≤ 57 := hhigh
  rw [hn] at hlow hhigh
  interval_cases n <;> decide

theorem HexDigit.facts {c : Char} {d : Nat} (h : HexDigit c d) :
    isHexDigit c = true ∧ digitValue c = d ∧ HexDigit c.toLower d ∧ c ≠ ':' ∧ c ≠ '.' ∧ c ≠ '%' := by
  obtain ⟨hd, rfl | rfl⟩ := h
  · unfold HexDigit
    interval_cases d <;> decide
  · unfold HexDigit
    interval_cases d <;> decide

theorem hexDigit_of_isHexDigit {c : Char} (h : isHexDigit c = true) : HexDigit c (digitValue c) := by
  rcases Bool.or_eq_true_iff.mp h with hdigit | hletter
  · obtain ⟨d, hd, rfl, hvalue⟩ := digit_of_isDigit hdigit
    rw [hvalue]
    exact ⟨by omega, .inl rfl⟩
  · rw [Bool.and_eq_true, decide_eq_true_eq, decide_eq_true_eq] at hletter
    obtain ⟨n, hn, rfl⟩ := char_eq_ofNat c
    unfold HexDigit
    by_cases hupper : 65 ≤ (Char.ofNat n).toNat ∧ (Char.ofNat n).toNat ≤ 90
    · -- a letter in upper case
      rw [hn] at hupper
      obtain ⟨hlow, hhigh⟩ := hupper
      revert hletter
      interval_cases n <;> decide
    · have hsame : (Char.ofNat n).toLower = Char.ofNat n := dif_neg hupper
      rw [hsame] at hletter
      have hlow : 97 ≤ (Char.ofNat n).toNat := hletter.1
      have hhigh : (Char.ofNat n).toNat ≤ 102 := hletter.2
      rw [hn] at hlow hhigh
      interval_cases n <;> decide

/-! ## Numerals -/

theorem ofDigits_append (base : Nat) (text : List Char) (c : Char) :
    ofDigits base (text ++ [c]) = ofDigits base text * base + digitValue c := by
  simp [ofDigits]

/-- Digits without a zero in front are the numeral of their value. -/
theorem toDigits_ofDigits {text : List Char} (hne : text ≠ []) (hdigits : ∀ c ∈ text, c.isDigit = true)
    (hzero : text.length = 1 ∨ text.head? ≠ some '0') : Nat.toDigits 10 (ofDigits 10 text) = text := by
  induction text using List.reverseRecOn with
  | nil => exact absurd rfl hne
  | append_singleton text c ih =>
    obtain ⟨d, hd, hc, hvalue⟩ :=
      digit_of_isDigit (hdigits c (List.mem_append_right _ (List.mem_singleton.mpr rfl)))
    rw [ofDigits_append, hvalue]
    rcases text with _ | ⟨b, text⟩
    · rw [show ofDigits 10 [] = 0 from rfl, Nat.zero_mul, Nat.zero_add, Nat.toDigits_of_lt_base hd, ← hc]
      rfl
    · have hhead : (b :: text).head? ≠ some '0' := by
        rcases hzero with hlength | hhead
        · simp at hlength
        · exact hhead
      have hnumeral := ih (List.cons_ne_nil _ _) (fun c hc => hdigits c (List.mem_append_left _ hc))
        (.inr hhead)
      have hpos : 0 < ofDigits 10 (b :: text) := by
        refine Nat.pos_of_ne_zero fun hnone => hhead ?_
        rw [← hnumeral, hnone]
        rfl
      rw [Nat.mul_comm, ← Nat.toDigits_append_toDigits (by decide) hpos hd, hnumeral,
        Nat.toDigits_of_lt_base hd, hc]

/-- The octets. -/
theorem octetText_toDigits : ∀ n < 256, octetText (Nat.toDigits 10 n) = true ∧
    ofDigits 10 (Nat.toDigits 10 n) = n := by
  decide +kernel

theorem octetText_iff {text : List Char} :
    octetText text = true ↔ ∃ n < 256, text = Nat.toDigits 10 n := by
  constructor
  · intro h
    simp only [octetText, Bool.and_eq_true, Bool.not_eq_true', List.isEmpty_eq_false_iff, List.all_eq_true,
      Bool.or_eq_true, beq_iff_eq, bne_iff_ne, decide_eq_true_eq] at h
    obtain ⟨⟨⟨hne, hdigits⟩, hzero⟩, hle⟩ := h
    exact ⟨ofDigits 10 text, Nat.lt_succ_of_le hle, (toDigits_ofDigits hne hdigits hzero).symm⟩
  · rintro ⟨n, hn, rfl⟩
    exact (octetText_toDigits n hn).1

example : octetText "256".toList = false := by decide +kernel

/-! ## Version 4 -/

/-- Four octets, in decimal digits without zeros in front. -/
inductive Dotted : List Char → BitVec 32 → Prop
  | octets {a b c d : Nat} (ha : a < 256) (hb : b < 256) (hc : c < 256) (hd : d < 256) :
    Dotted (Nat.toDigits 10 a ++ '.' :: (Nat.toDigits 10 b ++ '.' :: (Nat.toDigits 10 c ++ '.' ::
      Nat.toDigits 10 d))) (.ofNat 32 (((a * 256 + b) * 256 + c) * 256 + d))

theorem isDigit_of_mem_toDigits {n : Nat} {c : Char} (h : c ∈ Nat.toDigits 10 n) : c.isDigit = true :=
  Nat.isDigit_of_mem_toDigits (by decide) (by decide) h

theorem Dotted.digit_or_dot {text : List Char} {v : BitVec 32} (h : Dotted text v) {c : Char}
    (hc : c ∈ text) : c.isDigit = true ∨ c = '.' := by
  cases h with
  | octets =>
    simp only [List.mem_append, List.mem_cons] at hc
    rcases hc with h | h | h | h | h | h | h
    all_goals first | exact .inr h | exact .inl (isDigit_of_mem_toDigits h)

theorem Dotted.notMem {text : List Char} {v : BitVec 32} (h : Dotted text v) {c : Char}
    (hc : (c.isDigit || c == '.') = false) : c ∉ text := by
  intro hmem
  rcases h.digit_or_dot hmem with hdigit | rfl
  · rw [hdigit] at hc
    exact absurd hc nofun
  · exact absurd hc nofun

theorem Dotted.splitOn {text : List Char} {v : BitVec 32} (h : Dotted text v) :
    ∃ a b c d : Nat, a < 256 ∧ b < 256 ∧ c < 256 ∧ d < 256 ∧
      v = .ofNat 32 (((a * 256 + b) * 256 + c) * 256 + d) ∧ text.splitOn '.' =
        [Nat.toDigits 10 a, Nat.toDigits 10 b, Nat.toDigits 10 c, Nat.toDigits 10 d] := by
  cases h with
  | @octets a b c d ha hb hc hd =>
    have hdot : ∀ {n : Nat}, '.' ∉ Nat.toDigits 10 n := fun h =>
      absurd (isDigit_of_mem_toDigits h) (by decide)
    refine ⟨a, b, c, d, ha, hb, hc, hd, rfl, ?_⟩
    rw [List.splitOn_append_cons_self_of_not_mem hdot, List.splitOn_append_cons_self_of_not_mem hdot,
      List.splitOn_append_cons_self_of_not_mem hdot, List.splitOn_eq_singleton hdot]

theorem isIPv4_iff {text : List Char} : isIPv4 text = true ↔ ∃ v, Dotted text v := by
  constructor
  · intro h
    simp only [isIPv4, Bool.and_eq_true, beq_iff_eq] at h
    obtain ⟨hlength, hoctets⟩ := h
    obtain ⟨p, q, r, s, hsplit⟩ := List.length_eq_four.mp hlength
    have hjoin : ['.'].intercalate (text.splitOn '.') = text := List.intercalate_splitOn '.'
    rw [hsplit] at hoctets hjoin
    simp only [List.all_cons, List.all_nil, Bool.and_true, Bool.and_eq_true] at hoctets
    obtain ⟨a, ha, rfl⟩ := octetText_iff.mp hoctets.1
    obtain ⟨b, hb, rfl⟩ := octetText_iff.mp hoctets.2.1
    obtain ⟨c, hc, rfl⟩ := octetText_iff.mp hoctets.2.2.1
    obtain ⟨d, hd, rfl⟩ := octetText_iff.mp hoctets.2.2.2
    have hdotted := Dotted.octets ha hb hc hd
    rw [← hjoin]
    exact ⟨_, by simpa [List.intercalate] using hdotted⟩
  · rintro ⟨v, h⟩
    obtain ⟨a, b, c, d, ha, hb, hc, hd, -, hsplit⟩ := h.splitOn
    rw [isIPv4, hsplit]
    simp [(octetText_toDigits a ha).1, (octetText_toDigits b hb).1, (octetText_toDigits c hc).1,
      (octetText_toDigits d hd).1]

theorem isIP_eq_four {text : List Char} : isIP text = 4 ↔ ∃ v, Dotted text v := by
  rw [← isIPv4_iff, isIP]
  split
  · simpa
  · rename_i h
    split <;> simp [h]

/-- Another octet. -/
theorem shift_or_octet {n d : Nat} (hn : n < 2 ^ 24) (hd : d < 256) :
    (BitVec.ofNat 32 n <<< 8) ||| BitVec.ofNat 32 d = BitVec.ofNat 32 (n * 256 + d) := by
  refine BitVec.eq_of_toNat_eq ?_
  rw [BitVec.toNat_or, BitVec.toNat_shiftLeft, BitVec.toNat_ofNat, BitVec.toNat_ofNat, BitVec.toNat_ofNat,
    Nat.mod_eq_of_lt (show n < 2 ^ 32 by omega), Nat.mod_eq_of_lt (show d < 2 ^ 32 by omega),
    Nat.mod_eq_of_lt (show n * 256 + d < 2 ^ 32 by omega),
    Nat.mod_eq_of_lt (show n <<< 8 < 2 ^ 32 by rw [Nat.shiftLeft_eq]; omega),
    ← Nat.shiftLeft_add_eq_or_of_lt (show d < 2 ^ 8 from hd), Nat.shiftLeft_eq]

/-- **The version 4 parser** reads the number that the text denotes. -/
theorem parseIpv4_of_dotted {text : List Char} {v : BitVec 32} (h : Dotted text v) :
    parseIpv4 text = some v := by
  have hfamily : isIP text = 4 := isIP_eq_four.mpr ⟨v, h⟩
  obtain ⟨a, b, c, d, ha, hb, hc, hd, rfl, hsplit⟩ := h.splitOn
  rw [parseIpv4, hfamily, if_neg (by decide), hsplit]
  simp only [List.map_cons, List.map_nil, (octetText_toDigits a ha).2, (octetText_toDigits b hb).2,
    (octetText_toDigits c hc).2, (octetText_toDigits d hd).2, List.foldl_cons, List.foldl_nil]
  rw [show (0 : BitVec 32) = BitVec.ofNat 32 0 from rfl, shift_or_octet (by omega) ha,
    shift_or_octet (by omega) hb, shift_or_octet (by omega) hc, shift_or_octet (by omega) hd, Nat.zero_mul,
    Nat.zero_add]

theorem parseIpv4_eq_some {text : List Char} {v : BitVec 32} : parseIpv4 text = some v ↔ Dotted text v := by
  refine ⟨fun h => ?_, parseIpv4_of_dotted⟩
  by_cases hfamily : isIP text = 4
  · obtain ⟨v', hv'⟩ := isIP_eq_four.mp hfamily
    obtain rfl := Option.some.inj (h.symm.trans (parseIpv4_of_dotted hv'))
    exact hv'
  · rw [parseIpv4, if_pos (bne_iff_ne.mpr hfamily)] at h
    exact absurd h nofun

/-! ## Version 6 -/

/-- Hexadecimal digits, with the value of their number. -/
inductive Numeral : List Char → Nat → Prop
  | digit {c : Char} {d : Nat} (h : HexDigit c d) : Numeral [c] d
  | snoc {text : List Char} {n : Nat} {c : Char} {d : Nat} (hs : Numeral text n) (h : HexDigit c d) :
    Numeral (text ++ [c]) (n * 16 + d)

/-- One to four hexadecimal digits. -/
def Hextet (text : List Char) (n : Nat) : Prop := Numeral text n ∧ text.length ≤ 4

/-- The pieces between the colons, and the words they stand for. Four octets may stand for the last two
words. -/
inductive Pieces (octets : Bool) : List (List Char) → List Nat → Prop
  | last {p : List Char} {n : Nat} (h : Hextet p n) : Pieces octets [p] [n]
  | quad {p : List Char} {v : BitVec 32} (hoctets : octets = true) (h : Dotted p v) :
    Pieces octets [p] [v.toNat / 65536, v.toNat % 65536]
  | cons {p : List Char} {n : Nat} {ps : List (List Char)} {ns : List Nat} (h : Hextet p n)
    (hs : Pieces octets ps ns) : Pieces octets (p :: ps) (n :: ns)

/-- Words with colons between them, on one side of a gap. -/
inductive Side (octets : Bool) : List Char → List Nat → Prop
  | none : Side octets [] []
  | some {ps : List (List Char)} {ns : List Nat} (h : Pieces octets ps ns) :
    Side octets ([':'].intercalate ps) ns

/-- Eight words, or fewer around a gap that stands for the others. -/
inductive Words (octets : Bool) : List Char → List Nat → Prop
  | whole {text : List Char} {ns : List Nat} (h : Side octets text ns) (hlength : ns.length = 8) :
    Words octets text ns
  | gap {left right : List Char} {ms ns : List Nat} (hleft : Side false left ms)
    (hright : Side octets right ns) (hlength : ms.length + ns.length ≤ 7) :
    Words octets (left ++ ':' :: ':' :: right)
      (ms ++ List.replicate (8 - ms.length - ns.length) 0 ++ ns)

/-- With or without a zone. -/
inductive Zoned : List Char → List Nat → Prop
  | plain {text : List Char} {ns : List Nat} (h : Words true text ns) : Zoned text ns
  | zone {text zone : List Char} {ns : List Nat} (h : Words true text ns) (hne : zone ≠ [])
    (hzone : ∀ c ∈ zone, zoneChar c = true) : Zoned (text ++ '%' :: zone) ns

/-! ## Words -/

theorem numeral_iff {text : List Char} {n : Nat} :
    Numeral text n ↔ text ≠ [] ∧ (∀ c ∈ text, isHexDigit c = true) ∧ ofDigits 16 text = n := by
  constructor
  · intro h
    induction h with
    | digit h =>
      refine ⟨List.cons_ne_nil _ _, fun c hc => ?_, ?_⟩
      · rw [List.mem_singleton.mp hc]
        exact h.facts.1
      · simp [ofDigits, h.facts.2.1]
    | snoc _ h ih =>
      refine ⟨by simp, fun c hc => ?_, by rw [ofDigits_append, ih.2.2, h.facts.2.1]⟩
      rcases List.mem_append.mp hc with hc | hc
      · exact ih.2.1 c hc
      · rw [List.mem_singleton.mp hc]
        exact h.facts.1
  · rintro ⟨hne, hdigits, rfl⟩
    induction text using List.reverseRecOn with
    | nil => exact absurd rfl hne
    | append_singleton text c ih =>
      have hc := hexDigit_of_isHexDigit (hdigits c (List.mem_append_right _ (List.mem_singleton.mpr rfl)))
      rcases text with _ | ⟨b, text⟩
      · have hvalue : ofDigits 16 ([] ++ [c]) = digitValue c := by simp [ofDigits]
        rw [hvalue]
        exact .digit hc
      · rw [ofDigits_append]
        exact .snoc (ih (List.cons_ne_nil _ _) fun c hc => hdigits c (List.mem_append_left _ hc)) hc

theorem Numeral.lt {text : List Char} {n : Nat} (h : Numeral text n) : n < 16 ^ text.length := by
  induction h with
  | digit h => exact h.1
  | snoc _ h ih =>
    have hd := h.1
    rw [List.length_append, List.length_singleton, pow_succ]
    omega

theorem Hextet.lt {text : List Char} {n : Nat} (h : Hextet text n) : n < 65536 :=
  h.1.lt.trans_le (Nat.pow_le_pow_right (by decide) h.2)

theorem hextetText_iff {text : List Char} : hextetText text = true ↔ ∃ n, Hextet text n := by
  simp only [hextetText, Bool.and_eq_true, Bool.not_eq_true', List.isEmpty_eq_false_iff,
    decide_eq_true_eq, List.all_eq_true]
  constructor
  · rintro ⟨⟨hne, hlength⟩, hdigits⟩
    exact ⟨_, numeral_iff.mpr ⟨hne, hdigits, rfl⟩, hlength⟩
  · rintro ⟨n, h, hlength⟩
    obtain ⟨hne, hdigits, -⟩ := numeral_iff.mp h
    exact ⟨⟨hne, hlength⟩, hdigits⟩

theorem Hextet.ofDigits {text : List Char} {n : Nat} (h : Hextet text n) : ofDigits 16 text = n :=
  (numeral_iff.mp h.1).2.2

/-- What a word is written without. -/
theorem Hextet.notMem {text : List Char} {n : Nat} (h : Hextet text n) :
    text ≠ [] ∧ ':' ∉ text ∧ '.' ∉ text ∧ '%' ∉ text := by
  obtain ⟨hne, hdigits, -⟩ := numeral_iff.mp h.1
  exact ⟨hne, fun hc => absurd (hdigits _ hc) (by decide), fun hc => absurd (hdigits _ hc) (by decide),
    fun hc => absurd (hdigits _ hc) (by decide)⟩

theorem Hextet.toLower {text : List Char} {n : Nat} (h : Hextet text n) :
    Hextet (text.map Char.toLower) n := by
  refine ⟨?_, by rw [List.length_map]; exact h.2⟩
  obtain ⟨h, -⟩ := h
  induction h with
  | digit h => exact .digit h.facts.2.2.1
  | snoc _ h ih =>
    rw [List.map_append]
    exact .snoc ih h.facts.2.2.1

section Pieces

variable {octets : Bool} {p : List Char} {ps : List (List Char)} {ns : List Nat}

theorem Pieces.ne_nil (h : Pieces octets ps ns) : ps ≠ [] := by
  cases h <;> exact List.cons_ne_nil _ _

theorem Dotted.not_hextet {v : BitVec 32} (h : Dotted p v) : hextetText p = false := by
  refine Bool.eq_false_iff.mpr fun hword => ?_
  obtain ⟨n, hn⟩ := hextetText_iff.mp hword
  have hdot : '.' ∈ p := by cases h; simp
  exact hn.notMem.2.2.1 hdot

/-- No piece is empty, and none has a colon or a zone in it. -/
theorem Pieces.notMem (h : Pieces octets ps ns) : ∀ p ∈ ps, p ≠ [] ∧ ':' ∉ p ∧ '%' ∉ p := by
  have hdotted : ∀ {p : List Char} {v : BitVec 32}, Dotted p v → p ≠ [] ∧ ':' ∉ p ∧ '%' ∉ p := by
    intro p v h
    exact ⟨by cases h; simp, h.notMem (by decide), h.notMem (by decide)⟩
  induction h with
  | last h => exact List.forall_mem_singleton.mpr ⟨h.notMem.1, h.notMem.2.1, h.notMem.2.2.2⟩
  | quad _ h => exact List.forall_mem_singleton.mpr (hdotted h)
  | cons h _ ih => exact List.forall_mem_cons.mpr ⟨⟨h.notMem.1, h.notMem.2.1, h.notMem.2.2.2⟩, ih⟩

theorem intercalate_cons (p : List Char) (hne : ps ≠ []) :
    [':'].intercalate (p :: ps) = p ++ ':' :: [':'].intercalate ps := by
  obtain ⟨q, qs, rfl⟩ := List.exists_cons_of_ne_nil hne
  simp [List.intercalate]

/-- A text of pieces does not begin with a colon. -/
theorem Pieces.head (h : Pieces octets ps ns) :
    ∃ c text, c ≠ ':' ∧ [':'].intercalate ps = c :: text := by
  obtain ⟨p, qs, rfl⟩ := List.exists_cons_of_ne_nil h.ne_nil
  obtain ⟨hne, hcolon, -⟩ := h.notMem p List.mem_cons_self
  obtain ⟨c, cs, rfl⟩ := List.exists_cons_of_ne_nil hne
  refine ⟨c, ?_⟩
  have hc : c ≠ ':' := fun heq => hcolon (heq ▸ List.mem_cons_self)
  by_cases hqs : qs = []
  · subst hqs
    exact ⟨cs, hc, by simp [List.intercalate]⟩
  · rw [intercalate_cons _ hqs]
    exact ⟨_, hc, List.cons_append⟩

theorem Pieces.groups_eq (h : Pieces octets ps ns) : groups ([':'].intercalate ps) = ps := by
  obtain ⟨c, text, -, hhead⟩ := h.head
  have hne : ([':'].intercalate ps).isEmpty = false := by rw [hhead]; rfl
  rw [groups, hne, if_neg Bool.false_ne_true]
  exact List.splitOn_intercalate ':' (fun p hp => (h.notMem p hp).2.1) h.ne_nil

/-- How the number of the words is counted. -/
theorem Pieces.count (h : Pieces octets ps ns) : ∃ last, ps.getLast? = some last ∧
    ps.dropLast.all hextetText = true ∧ (hextetText last = true ∧ ns.length = ps.length ∨
      hextetText last = false ∧ (octets && isIPv4 last) = true ∧ ns.length = ps.length + 1) := by
  induction h with
  | @last p n h => exact ⟨p, rfl, rfl, .inl ⟨hextetText_iff.mpr ⟨n, h⟩, rfl⟩⟩
  | @quad p v hoctets h =>
    exact ⟨p, rfl, rfl, .inr ⟨h.not_hextet, by rw [hoctets, isIPv4_iff.mpr ⟨v, h⟩]; rfl, rfl⟩⟩
  | @cons p n ps ns h hs ih =>
    obtain ⟨last, hlast, hall, hcount⟩ := ih
    obtain ⟨q, qs, rfl⟩ := List.exists_cons_of_ne_nil hs.ne_nil
    refine ⟨last, by rw [List.getLast?_cons_cons]; exact hlast, ?_, ?_⟩
    · rw [List.dropLast_cons_cons, List.all_cons, hextetText_iff.mpr ⟨n, h⟩, hall]
      rfl
    · rcases hcount with ⟨hword, hcount⟩ | ⟨hword, hquad, hcount⟩
      · exact .inl ⟨hword, congrArg (· + 1) hcount⟩
      · exact .inr ⟨hword, hquad, congrArg (· + 1) hcount⟩

theorem exists_pieces {last : List Char} (hlast : ps.getLast? = some last)
    (hall : ps.dropLast.all hextetText = true)
    (hform : hextetText last = true ∨ (octets && isIPv4 last) = true) : ∃ ns, Pieces octets ps ns := by
  induction ps with
  | nil => exact absurd hlast nofun
  | cons p ps ih =>
    rcases ps with _ | ⟨q, qs⟩
    · obtain rfl : p = last := Option.some.inj hlast
      rcases hform with hword | hquad
      · obtain ⟨n, hn⟩ := hextetText_iff.mp hword
        exact ⟨_, .last hn⟩
      · obtain ⟨hoctets, hquad⟩ := Bool.and_eq_true_iff.mp hquad
        obtain ⟨v, hv⟩ := isIPv4_iff.mp hquad
        exact ⟨_, .quad hoctets hv⟩
    · rw [List.dropLast_cons_cons, List.all_cons, Bool.and_eq_true] at hall
      rw [List.getLast?_cons_cons] at hlast
      obtain ⟨n, hn⟩ := hextetText_iff.mp hall.1
      obtain ⟨ns, hns⟩ := ih hlast hall.2
      exact ⟨_, .cons hn hns⟩

theorem wordCount_eq_some {text : List Char} {k : Nat} :
    wordCount octets text = some k ↔ ∃ ns, Side octets text ns ∧ ns.length = k := by
  constructor
  · intro h
    rw [wordCount] at h
    by_cases htext : text = []
    · subst htext
      obtain rfl : 0 = k := Option.some.inj h
      exact ⟨[], .none, rfl⟩
    · have hgroups : groups text = text.splitOn ':' := by
        rw [groups, List.isEmpty_eq_false_iff.mpr htext]
        rfl
      have hjoin : [':'].intercalate (groups text) = text := by
        rw [hgroups]
        exact List.intercalate_splitOn ':'
      rcases hlast : (groups text).getLast? with _ | last
      · rw [List.getLast?_eq_none_iff, hgroups] at hlast
        exact absurd hlast (List.splitOn_ne_nil _ _)
      · rw [hlast] at h
        dsimp only at h
        split_ifs at h with hall hword hquad
        · obtain ⟨ns, hns⟩ := @exists_pieces octets _ _ hlast hall (.inl hword)
          obtain ⟨last', hlast', -, hcount⟩ := hns.count
          obtain rfl := Option.some.inj (hlast.symm.trans hlast')
          refine ⟨ns, hjoin ▸ .some hns, ?_⟩
          rcases hcount with ⟨-, hcount⟩ | ⟨hno, -⟩
          · exact hcount.trans (Option.some.inj h)
          · exact absurd (hword.symm.trans hno) nofun
        · obtain ⟨ns, hns⟩ := exists_pieces hlast hall (.inr hquad)
          obtain ⟨last', hlast', -, hcount⟩ := hns.count
          obtain rfl := Option.some.inj (hlast.symm.trans hlast')
          refine ⟨ns, hjoin ▸ .some hns, ?_⟩
          rcases hcount with ⟨hyes, -⟩ | ⟨-, -, hcount⟩
          · exact absurd hyes hword
          · exact hcount.trans (Option.some.inj h)
  · rintro ⟨ns, h, rfl⟩
    cases h with
    | none => rfl
    | some h =>
      obtain ⟨last, hlast, hall, hcount⟩ := h.count
      rw [wordCount, h.groups_eq, hlast]
      dsimp only
      rw [if_pos hall]
      rcases hcount with ⟨hword, hcount⟩ | ⟨hword, hquad, hcount⟩
      · rw [if_pos hword, hcount]
      · rw [hword, if_neg Bool.false_ne_true, if_pos hquad, hcount]

end Pieces

/-! ## The gap -/

theorem splitGap_ne_nil (text : List Char) : splitGap text ≠ [] := by
  fun_cases splitGap text <;> simp_all

/-- A character that does not begin a gap. -/
theorem splitGap_cons {c : Char} {text : List Char} (h : c ≠ ':' ∨ text.head? ≠ some ':') :
    splitGap (c :: text) = (splitGap text).modifyHead (c :: ·) := by
  rw [splitGap.eq_def]
  split
  · exact absurd ‹_› (List.cons_ne_nil _ _)
  · rename_i heq
    obtain ⟨rfl, rfl⟩ := List.cons.inj heq
    rcases h with h | h
    · exact absurd rfl h
    · exact absurd rfl h
  · rename_i heq
    obtain ⟨rfl, rfl⟩ := List.cons.inj heq
    rcases hsplit : splitGap text with _ | ⟨piece, pieces⟩
    · exact absurd hsplit (splitGap_ne_nil _)
    · rfl

theorem splitGap_piece {p text : List Char} (hp : ':' ∉ p) :
    splitGap (p ++ text) = (splitGap text).modifyHead (p ++ ·) := by
  induction p with
  | nil => rcases hsplit : splitGap text with _ | ⟨piece, pieces⟩ <;> simp [hsplit]
  | cons c p ih =>
    have hc : c ≠ ':' := fun heq => hp (heq ▸ List.mem_cons_self)
    rw [List.cons_append, splitGap_cons (.inl hc), ih fun h => hp (List.mem_cons_of_mem _ h),
      List.modifyHead_modifyHead]
    rfl

theorem Pieces.splitGap_append {octets : Bool} {ps : List (List Char)} {ns : List Nat}
    (h : Pieces octets ps ns) (rest : List Char) : splitGap ([':'].intercalate ps ++ rest) =
      (splitGap rest).modifyHead ([':'].intercalate ps ++ ·) := by
  have hsingle : ∀ p : List Char, [':'].intercalate [p] = p := fun p => by simp [List.intercalate]
  have hcolon := fun p hp => (h.notMem p hp).2.1
  induction h with
  | @last p =>
    rw [hsingle]
    exact splitGap_piece (hcolon p List.mem_cons_self)
  | @quad p =>
    rw [hsingle]
    exact splitGap_piece (hcolon p List.mem_cons_self)
  | @cons p n ps ns h hs ih =>
    obtain ⟨c, text, hc, hhead⟩ := hs.head
    -- the colon between two pieces begins no gap
    have hno : ([':'].intercalate ps ++ rest).head? ≠ some ':' := by
      rw [hhead]
      exact fun heq => hc (Option.some.inj heq)
    rw [intercalate_cons _ hs.ne_nil, List.append_assoc, List.cons_append,
      splitGap_piece (hcolon p List.mem_cons_self), splitGap_cons (.inr hno),
      ih fun q hq => hcolon q (List.mem_cons_of_mem _ hq), List.modifyHead_modifyHead,
      List.modifyHead_modifyHead]
    congr 1
    funext piece
    simp

section Side

variable {octets : Bool} {text rest : List Char} {ns : List Nat}

theorem Side.splitGap_self (h : Side octets text ns) : splitGap text = [text] := by
  cases h with
  | none => rfl
  | some h => simpa [splitGap] using h.splitGap_append []

theorem Side.splitGap_gap (h : Side octets text ns) :
    splitGap (text ++ ':' :: ':' :: rest) = text :: splitGap rest := by
  cases h with
  | none => rfl
  | some h => simpa [splitGap] using h.splitGap_append (':' :: ':' :: rest)

theorem Side.groups_pieces (h : Side octets text ns) : groups text = [] ∧ ns = [] ∨ Pieces octets (groups text) ns := by
  cases h with
  | none => exact .inl ⟨rfl, rfl⟩
  | some h =>
    rw [h.groups_eq]
    exact .inr h

theorem splitGap_join (text : List Char) : [':', ':'].intercalate (splitGap text) = text := by
  fun_induction splitGap text with
  | case1 => rfl
  | case2 text ih =>
    obtain ⟨piece, pieces, hsplit⟩ := List.exists_cons_of_ne_nil (splitGap_ne_nil text)
    rw [hsplit] at ih ⊢
    rw [← ih]
    simp [List.intercalate]
  | case3 c text _ hsplit => exact absurd hsplit (splitGap_ne_nil _)
  | case4 c text _ piece pieces hsplit ih =>
    rw [hsplit] at ih
    rw [← ih]
    rcases pieces with _ | ⟨q, qs⟩ <;> simp [List.intercalate]

end Side

theorem isWords_iff {text : List Char} : isWords text = true ↔ ∃ ns, Words true text ns := by
  have hjoin := splitGap_join text
  constructor
  · intro h
    rw [isWords] at h
    split at h
    · rename_i whole hsplit
      obtain rfl : whole = text := by
        rw [hsplit] at hjoin
        simpa [List.intercalate] using hjoin
      obtain ⟨ns, hns, hlength⟩ := wordCount_eq_some.mp (beq_iff_eq.mp h)
      exact ⟨ns, .whole hns hlength⟩
    · rename_i left right hsplit
      obtain rfl : left ++ ':' :: ':' :: right = text := by
        rw [hsplit] at hjoin
        simpa [List.intercalate] using hjoin
      split at h
      · rename_i m n hm hn
        obtain ⟨ms, hms, rfl⟩ := wordCount_eq_some.mp hm
        obtain ⟨ns, hns, rfl⟩ := wordCount_eq_some.mp hn
        exact ⟨_, .gap hms hns (of_decide_eq_true h)⟩
      · exact absurd h nofun
    · exact absurd h nofun
  · rintro ⟨ns, h⟩
    cases h with
    | whole h hlength =>
      rw [isWords, h.splitGap_self]
      exact beq_iff_eq.mpr (wordCount_eq_some.mpr ⟨ns, h, hlength⟩)
    | gap hleft hright hlength =>
      rw [isWords, hleft.splitGap_gap, hright.splitGap_self]
      dsimp only
      rw [wordCount_eq_some.mpr ⟨_, hleft, rfl⟩, wordCount_eq_some.mpr ⟨_, hright, rfl⟩]
      exact decide_eq_true hlength

section Words

variable {octets : Bool} {p text : List Char} {ps : List (List Char)} {ns : List Nat} {c : Char}

theorem mem_intercalate (hc : c ∈ [':'].intercalate ps) : c = ':' ∨ ∃ p ∈ ps, c ∈ p := by
  induction ps with
  | nil => simp [List.intercalate] at hc
  | cons p ps ih =>
    by_cases hps : ps = []
    · subst hps
      exact .inr ⟨p, List.mem_cons_self, by simpa [List.intercalate] using hc⟩
    · rw [intercalate_cons _ hps, List.mem_append, List.mem_cons] at hc
      rcases hc with hc | rfl | hc
      · exact .inr ⟨p, List.mem_cons_self, hc⟩
      · exact .inl rfl
      · rcases ih hc with hc | ⟨q, hq, hc⟩
        · exact .inl hc
        · exact .inr ⟨q, List.mem_cons_of_mem _ hq, hc⟩

theorem Side.percent (h : Side octets text ns) : '%' ∉ text := by
  cases h with
  | none => exact List.not_mem_nil
  | some h =>
    intro hc
    rcases mem_intercalate hc with hc | ⟨p, hp, hc⟩
    · exact absurd hc (by decide)
    · exact (h.notMem p hp).2.2 hc

theorem Words.percent (h : Words octets text ns) : '%' ∉ text := by
  cases h with
  | whole h => exact h.percent
  | gap hleft hright =>
    simp only [List.mem_append, List.mem_cons]
    rintro (hc | hc | hc | hc)
    · exact hleft.percent hc
    · exact absurd hc (by decide)
    · exact absurd hc (by decide)
    · exact hright.percent hc

/-- A text of words has a colon in it: it is no address of version 4. -/
theorem Words.colon (h : Words octets text ns) : ':' ∈ text := by
  cases h with
  | whole h hlength =>
    cases h with
    | none => exact absurd hlength (by decide)
    | some h =>
      cases h with
      | last => simp at hlength
      | quad => simp at hlength
      | cons _ hs =>
        rw [intercalate_cons _ hs.ne_nil]
        exact List.mem_append_right _ List.mem_cons_self
  | gap => exact List.mem_append_right _ List.mem_cons_self

theorem isIPv6_iff : isIPv6 text = true ↔ ∃ ns, Zoned text ns := by
  have hjoin : ['%'].intercalate (text.splitOn '%') = text := List.intercalate_splitOn '%'
  constructor
  · intro h
    rw [isIPv6] at h
    split at h
    · rename_i words hsplit
      obtain rfl : words = text := by
        rw [hsplit] at hjoin
        simpa [List.intercalate] using hjoin
      obtain ⟨ns, hns⟩ := isWords_iff.mp h
      exact ⟨ns, .plain hns⟩
    · rename_i words zone hsplit
      obtain rfl : words ++ '%' :: zone = text := by
        rw [hsplit] at hjoin
        simpa [List.intercalate] using hjoin
      simp only [Bool.and_eq_true, Bool.not_eq_true', List.isEmpty_eq_false_iff, List.all_eq_true] at h
      obtain ⟨ns, hns⟩ := isWords_iff.mp h.1.1
      exact ⟨ns, .zone hns h.1.2 h.2⟩
    · exact absurd h nofun
  · rintro ⟨ns, h⟩
    cases h with
    | plain h =>
      rw [isIPv6, List.splitOn_eq_singleton h.percent]
      exact isWords_iff.mpr ⟨ns, h⟩
    | @zone words zone _ h hne hzone =>
      have hpercent : '%' ∉ zone := fun hc => absurd (hzone _ hc) (by decide)
      rw [isIPv6, List.splitOn_append_cons_self_of_not_mem h.percent, List.splitOn_eq_singleton hpercent]
      simp only [Bool.and_eq_true, Bool.not_eq_true', List.isEmpty_eq_false_iff, List.all_eq_true]
      exact ⟨⟨isWords_iff.mpr ⟨ns, h⟩, hne⟩, hzone⟩

theorem Zoned.not_dotted (h : Zoned text ns) : isIPv4 text = false := by
  refine Bool.eq_false_iff.mpr fun hdotted => ?_
  obtain ⟨v, hv⟩ := isIPv4_iff.mp hdotted
  refine hv.notMem (c := ':') (by decide) ?_
  cases h with
  | plain h => exact h.colon
  | zone h => exact List.mem_append_left _ h.colon

theorem isIP_eq_six : isIP text = 6 ↔ ∃ ns, Zoned text ns := by
  rw [← isIPv6_iff, isIP]
  constructor
  · intro h
    by_contra hno
    rw [if_neg hno] at h
    split at h <;> exact absurd h (by decide)
  · intro h₆
    obtain ⟨ns, hns⟩ := isIPv6_iff.mp h₆
    rw [hns.not_dotted, h₆]
    rfl

/-! ### Upper and lower case -/

theorem Dotted.toLower {v : BitVec 32} (h : Dotted p v) : p.map Char.toLower = p := by
  conv_rhs => rw [← List.map_id p]
  refine List.map_congr_left fun c hc => ?_
  rcases h.digit_or_dot hc with hdigit | rfl
  · obtain ⟨d, hd, rfl, -⟩ := digit_of_isDigit hdigit
    interval_cases d <;> decide
  · decide

theorem Pieces.toLower (h : Pieces octets ps ns) : Pieces octets (ps.map (List.map Char.toLower)) ns := by
  induction h with
  | last h => exact .last h.toLower
  | quad hoctets h =>
    rw [List.map_singleton, h.toLower]
    exact .quad hoctets h
  | cons h _ ih => exact .cons h.toLower ih

theorem intercalate_toLower (ps : List (List Char)) : ([':'].intercalate ps).map Char.toLower =
    [':'].intercalate (ps.map (List.map Char.toLower)) := by
  induction ps with
  | nil => rfl
  | cons p ps ih =>
    by_cases hps : ps = []
    · subst hps
      simp [List.intercalate]
    · rw [intercalate_cons _ hps, List.map_append, List.map_cons, ih, List.map_cons,
        intercalate_cons _ (by simpa using hps)]
      rfl

theorem Side.toLower (h : Side octets text ns) : Side octets (text.map Char.toLower) ns := by
  cases h with
  | none => exact .none
  | @some ps _ h =>
    rw [intercalate_toLower]
    exact .some h.toLower

theorem Words.toLower (h : Words octets text ns) : Words octets (text.map Char.toLower) ns := by
  cases h with
  | whole h hlength => exact .whole h.toLower hlength
  | gap hleft hright hlength =>
    rw [List.map_append, List.map_cons, List.map_cons]
    exact .gap hleft.toLower hright.toLower hlength

/-! ### Octets at the end -/

theorem intercalate_append {ps qs : List (List Char)} (hps : ps ≠ []) (hqs : qs ≠ []) :
    [':'].intercalate (ps ++ qs) = [':'].intercalate ps ++ ':' :: [':'].intercalate qs := by
  induction ps with
  | nil => exact absurd rfl hps
  | cons p ps ih =>
    by_cases hnil : ps = []
    · subst hnil
      rw [List.singleton_append, intercalate_cons _ hqs]
      simp [List.intercalate]
    · rw [List.cons_append, intercalate_cons _ (by simp [hnil]), intercalate_cons _ hnil, ih hnil,
        List.append_assoc, List.cons_append]

/-- The last two words may be written as octets, or as words. -/
theorem Pieces.tail (h : Pieces true ps ns) : Pieces false ps ns ∨ ∃ init q v, ps = init ++ [q] ∧
    Dotted q v ∧ ∀ a b, Hextet a (v.toNat / 65536) → Hextet b (v.toNat % 65536) →
      Pieces false (init ++ [a, b]) ns := by
  induction h with
  | last h => exact .inl (.last h)
  | quad _ h => exact .inr ⟨[], _, _, rfl, h, fun a b ha hb => .cons ha (.last hb)⟩
  | @cons p n ps ns h _ ih =>
    rcases ih with hplain | ⟨init, q, v, rfl, hq, hab⟩
    · exact .inl (.cons h hplain)
    · exact .inr ⟨p :: init, q, v, rfl, hq, fun a b ha hb => .cons h (hab a b ha hb)⟩

theorem Pieces.plain (h : Pieces false ps ns) : ps.map (ofDigits 16) = ns ∧
    (∀ n ∈ ns, n ≤ 0xffff) ∧ ∀ p ∈ ps, '.' ∉ p := by
  induction h with
  | last h =>
    exact ⟨congrArg (fun n => [n]) h.ofDigits, List.forall_mem_singleton.mpr (Nat.le_of_lt_succ h.lt),
      List.forall_mem_singleton.mpr h.notMem.2.2.1⟩
  | quad hoctets => exact absurd hoctets Bool.false_ne_true
  | cons h _ ih =>
    exact ⟨congrArg₂ List.cons h.ofDigits ih.1, List.forall_mem_cons.mpr ⟨Nat.le_of_lt_succ h.lt, ih.2.1⟩,
      List.forall_mem_cons.mpr ⟨h.notMem.2.2.1, ih.2.2⟩⟩

theorem Side.plain (h : Side false text ns) : (groups text).map (ofDigits 16) = ns ∧
    (∀ n ∈ ns, n ≤ 0xffff) ∧ '.' ∉ text := by
  cases h with
  | none => exact ⟨rfl, fun _ h => absurd h List.not_mem_nil, List.not_mem_nil⟩
  | some h =>
    rw [h.groups_eq]
    refine ⟨h.plain.1, h.plain.2.1, fun hc => ?_⟩
    rcases mem_intercalate hc with hc | ⟨p, hp, hc⟩
    · exact absurd hc (by decide)
    · exact h.plain.2.2 p hp hc

theorem Side.tail (h : Side true text ns) : Side false text ns ∨ ∃ pre q v, text = pre ++ q ∧
    Dotted q v ∧ (pre = [] ∧ ns.length ≤ 2 ∨ ∃ init, pre = init ++ [':']) ∧
    ∀ a b, Hextet a (v.toNat / 65536) → Hextet b (v.toNat % 65536) →
      Side false (pre ++ a ++ ':' :: b) ns := by
  cases h with
  | none => exact .inl .none
  | some h =>
    rcases h.tail with hplain | ⟨init, q, v, rfl, hq, hab⟩
    · exact .inl (.some hplain)
    · have hsingle : ∀ p : List Char, [':'].intercalate [p] = p := fun p => by simp [List.intercalate]
      have hpair : ∀ a b : List Char, [':'].intercalate [a, b] = a ++ ':' :: b := fun a b => by
        simp [List.intercalate]
      by_cases hinit : init = []
      · subst hinit
        refine .inr ⟨[], q, v, hsingle q, hq, .inl ⟨rfl, ?_⟩, fun a b ha hb => ?_⟩
        · obtain ⟨_, -, -, hcount⟩ := h.count
          simp only [List.nil_append, List.length_singleton] at hcount
          omega
        · rw [List.nil_append, ← hpair]
          exact .some (hab a b ha hb)
      · refine .inr ⟨[':'].intercalate init ++ [':'], q, v, ?_, hq, .inr ⟨_, rfl⟩, fun a b ha hb => ?_⟩
        · rw [intercalate_append hinit (List.cons_ne_nil _ _), hsingle, List.append_assoc]
          rfl
        · have hside := Side.some (hab a b ha hb)
          rw [intercalate_append hinit (List.cons_ne_nil _ _), hpair] at hside
          simpa using hside

theorem Words.tail (h : Words true text ns) : Words false text ns ∧ '.' ∉ text ∨
    ∃ pre q v, text = pre ++ ':' :: q ∧ Dotted q v ∧
      ∀ a b, Hextet a (v.toNat / 65536) → Hextet b (v.toNat % 65536) →
        Words false (pre ++ ':' :: a ++ ':' :: b) ns := by
  cases h with
  | whole h hlength =>
    rcases h.tail with hplain | ⟨pre, q, v, rfl, hq, ⟨-, hshort⟩ | ⟨init, rfl⟩, hab⟩
    · exact .inl ⟨.whole hplain hlength, hplain.plain.2.2⟩
    · omega
    · refine .inr ⟨init, q, v, by simp, hq, fun a b ha hb => ?_⟩
      simpa using Words.whole (hab a b ha hb) hlength
  | @gap left right ms ns hleft hright hlength =>
    rcases hright.tail with hplain | ⟨pre, q, v, rfl, hq, hpre, hab⟩
    · refine .inl ⟨.gap hleft hplain hlength, ?_⟩
      simp only [List.mem_append, List.mem_cons]
      rintro (hc | hc | hc | hc)
      · exact hleft.plain.2.2 hc
      · exact absurd hc (by decide)
      · exact absurd hc (by decide)
      · exact hplain.plain.2.2 hc
    · have hgap : ∀ a b, Hextet a (v.toNat / 65536) → Hextet b (v.toNat % 65536) → Words false _ _ :=
        fun a b ha hb => .gap hleft (hab a b ha hb) hlength
      rcases hpre with ⟨rfl, -⟩ | ⟨init, rfl⟩
      · refine .inr ⟨left ++ [':'], q, v, by simp, hq, fun a b ha hb => ?_⟩
        simpa using hgap a b ha hb
      · refine .inr ⟨left ++ ':' :: ':' :: init, q, v, by simp, hq, fun a b ha hb => ?_⟩
        simpa using hgap a b ha hb

end Words

/-! ### The parser -/

section Parser

variable {text : List Char} {ns : List Nat}

theorem atLastColon_append {pre q : List Char} (hq : ':' ∉ q) : atLastColon (pre ++ ':' :: q) = (pre, q) := by
  have hafter : ((pre ++ ':' :: q).reverse.takeWhile (· != ':')).reverse = q := by
    have hall : ∀ c ∈ q.reverse, (c != ':') = true := fun c hc =>
      bne_iff_ne.mpr fun heq => hq (heq ▸ List.mem_reverse.mp hc)
    rw [List.reverse_append, List.reverse_cons, List.append_assoc, List.takeWhile_append_of_pos hall]
    simp
  rw [atLastColon]
  simp only [hafter]
  rw [Prod.mk.injEq]
  refine ⟨?_, rfl⟩
  rw [List.length_append, List.length_cons, show pre.length + (q.length + 1) - q.length - 1 = pre.length by
    omega, List.take_left]

/-- The word that a number below 65536 is written as. -/
theorem hextet_toDigits {n : Nat} (hn : n < 65536) : Hextet (Nat.toDigits 16 n) n := by
  refine ⟨?_, (Nat.length_toDigits_le_iff (by decide) (by decide)).mpr hn⟩
  clear hn
  induction n using Nat.strongRecOn with
  | _ n ih =>
    by_cases hlt : n < 16
    · rw [Nat.toDigits_of_lt_base hlt]
      exact .digit ⟨hlt, .inl rfl⟩
    · rw [Nat.toDigits_of_base_le (by decide) (Nat.le_of_not_lt hlt)]
      have hsnoc := Numeral.snoc (ih (n / 16) (by omega)) ⟨Nat.mod_lt n (by decide), .inl rfl⟩
      rwa [Nat.div_add_mod'] at hsnoc

/-- The two halves of a text of words, and the words that they make with the gap. -/
theorem Words.halves (h : Words false text ns) : ∃ left right : List (List Char),
    groups ((splitGap text).headD []) = left ∧ groups (((splitGap text).drop 1).headD []) = right ∧
    (splitGap text).length ≤ 2 ∧ left.length + right.length ≤ 8 ∧
    ((splitGap text).length = 1 → left.length + right.length = 8) ∧
    (left ++ List.replicate (8 - left.length - right.length) ['0'] ++ right).map (ofDigits 16) = ns ∧
    ns.length = 8 ∧ ∀ n ∈ ns, n ≤ 0xffff := by
  cases h with
  | whole h hlength =>
    obtain ⟨hwords, hle, -⟩ := h.plain
    have hgroups : (groups text).length = 8 := by rw [← hlength, ← hwords, List.length_map]
    refine ⟨groups text, [], by rw [h.splitGap_self]; rfl, by rw [h.splitGap_self]; rfl, ?_, ?_, ?_, ?_,
      hlength, hle⟩
    · simp [h.splitGap_self]
    · rw [hgroups]
      decide
    · exact fun _ => by rw [hgroups]; rfl
    · rw [hgroups]
      simpa using hwords
  | @gap left right ms ns hleft hright hlength =>
    obtain ⟨hms, hmsle, -⟩ := hleft.plain
    obtain ⟨hns, hnsle, -⟩ := hright.plain
    have hm : (groups left).length = ms.length := by rw [← hms, List.length_map]
    have hn : (groups right).length = ns.length := by rw [← hns, List.length_map]
    have hsplit : splitGap (left ++ ':' :: ':' :: right) = [left, right] := by
      rw [hleft.splitGap_gap, hright.splitGap_self]
    have hzero : ofDigits 16 ['0'] = 0 := by decide
    refine ⟨groups left, groups right, by rw [hsplit]; rfl, by rw [hsplit]; rfl, by simp [hsplit], ?_,
      ?_, ?_, ?_, ?_⟩
    · omega
    · rw [hsplit]
      exact fun h => absurd h (by simp)
    · rw [List.map_append, List.map_append, hms, hns, List.map_replicate, hzero, hm, hn]
    · simp only [List.length_append, List.length_replicate]
      omega
    · intro n hmem
      simp only [List.mem_append, List.mem_replicate] at hmem
      rcases hmem with (hmem | ⟨-, rfl⟩) | hmem
      · exact hmsle n hmem
      · exact Nat.zero_le _
      · exact hnsle n hmem

/-- **The version 6 parser** reads the words that the text denotes. -/
theorem parseIpv6_of_zoned (h : Zoned text ns) : parseIpv6 text = some ns := by
  -- without the zone and in lower case, the words are the same
  obtain ⟨value, hvalue, hwords⟩ : ∃ value, ((text.map Char.toLower).splitOn '%').headD [] = value ∧
      Words true value ns := by
    cases h with
    | plain h => exact ⟨_, by rw [List.splitOn_eq_singleton h.toLower.percent]; rfl, h.toLower⟩
    | zone h =>
      refine ⟨_, ?_, h.toLower⟩
      rw [List.map_append, List.map_cons, show Char.toLower '%' = '%' by decide,
        List.splitOn_append_cons_self_of_not_mem h.toLower.percent]
      rfl
  have hfamily : isIP value = 6 := isIP_eq_six.mpr ⟨ns, .plain hwords⟩
  -- the octets at the end are written as words
  obtain ⟨plain, hplain, hwords⟩ : ∃ plain, (if value.contains '.' then
      (parseIpv4 (atLastColon value).2).map fun ipv4 =>
        (atLastColon value).1 ++ ':' :: Nat.toDigits 16 (ipv4.toNat >>> 16) ++
          ':' :: Nat.toDigits 16 (ipv4.toNat &&& 0xffff)
      else some value) = some plain ∧ Words false plain ns := by
    rcases hwords.tail with ⟨hwords, hdot⟩ | ⟨pre, q, v, rfl, hq, hab⟩
    · exact ⟨value, by rw [if_neg (by simpa using hdot)], hwords⟩
    · have hdot : (pre ++ ':' :: q).contains '.' = true := by
        have hmem : '.' ∈ q := by cases hq; simp
        simp [hmem]
      have hhigh : v.toNat >>> 16 = v.toNat / 65536 := Nat.shiftRight_eq_div_pow _ 16
      have hlow : v.toNat &&& 0xffff = v.toNat % 65536 := Nat.and_two_pow_sub_one_eq_mod _ 16
      refine ⟨_, ?_, hab _ _ (hextet_toDigits ?_) (hextet_toDigits (Nat.mod_lt _ (by decide)))⟩
      · rw [if_pos hdot, atLastColon_append (hq.notMem (by decide)), parseIpv4_of_dotted hq,
          Option.map_some, hhigh, hlow]
      · have hlt := v.isLt
        omega
  obtain ⟨left, right, hleft, hright, hhalves, hcount, hwhole, hread, hlength, hle⟩ := hwords.halves
  have hall : ns.all (· ≤ 0xffff) = true := List.all_eq_true.mpr fun n hn => decide_eq_true (hle n hn)
  rw [parseIpv6]
  simp only [hvalue, hfamily]
  rw [if_neg (by decide), hplain, Option.bind_some, hleft, hright, if_neg ?_, hread, hlength, hall]
  · rfl
  · simp only [Bool.or_eq_true, Bool.and_eq_true, decide_eq_true_eq, beq_iff_eq, bne_iff_ne, not_or]
    exact ⟨⟨by omega, by omega⟩, fun h => h.2 (hwhole h.1)⟩

/-- A text denotes one address of version 6. -/
theorem Zoned.unique {ms : List Nat} (h : Zoned text ms) (h' : Zoned text ns) : ms = ns :=
  Option.some.inj ((parseIpv6_of_zoned h).symm.trans (parseIpv6_of_zoned h'))

end Parser

end BegetBridge.Attachment
