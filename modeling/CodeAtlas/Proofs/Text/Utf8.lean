import CodeAtlas.Text.Utf8
import Mathlib.Data.List.Basic

/-!
# Bytes and texts

Bytes are decoded as a text exactly if they are the bytes of that text. Between the decoder and the
encoding of characters stands the table of the well-formed sequences: one to four bytes spell a
number. The sequences of the table are those of the characters, and the decoder takes them one by
one and nothing else.

Main results:

- Theorem `Spells.encodeChar_eq`: what spells a number is the sequence of that character.
- Theorem `spells_encodeChar`: the sequence of a character spells its number.
- Theorem `Spells.mem_iff`: a byte below 128 stands for itself and is in no longer sequence.
- Theorem `decode_eq_ok_iff`: decoding inverts encoding, and accepts nothing else.
-/

namespace CodeAtlas.Text.Utf8

/-! ## The table of sequences -/

/-- The range of the bytes behind the first one of a sequence. -/
def Continues (b : UInt8) : Prop := 0x80 ≤ b.toNat ∧ b.toNat ≤ 0xBF

/-- A sequence of bytes spells a number. Behind four first bytes the second one is bounded: behind
`0xE0` and `0xF0` so that no number is spelled in two ways, behind `0xED` so that none is a
surrogate, and behind `0xF4` so that none is too large. -/
inductive Spells : List UInt8 → Nat → Prop where
  | one {b : UInt8} (hb : b.toNat < 0x80) : Spells [b] b.toNat
  | two {b c : UInt8} (hb : 0xC2 ≤ b.toNat ∧ b.toNat ≤ 0xDF) (hc : Continues c) :
      Spells [b, c] (b.toNat % 32 * 64 + payload c)
  | three {b c d : UInt8} (hb : 0xE0 ≤ b.toNat ∧ b.toNat ≤ 0xEF) (hc : Continues c)
      (hlow : b.toNat = 0xE0 → 0xA0 ≤ c.toNat) (hhigh : b.toNat = 0xED → c.toNat ≤ 0x9F)
      (hd : Continues d) :
      Spells [b, c, d] ((b.toNat % 16 * 64 + payload c) * 64 + payload d)
  | four {b c d e : UInt8} (hb : 0xF0 ≤ b.toNat ∧ b.toNat ≤ 0xF4) (hc : Continues c)
      (hlow : b.toNat = 0xF0 → 0x90 ≤ c.toNat) (hhigh : b.toNat = 0xF4 → c.toNat ≤ 0x8F)
      (hd : Continues d) (he : Continues e) :
      Spells [b, c, d, e] (((b.toNat % 8 * 64 + payload c) * 64 + payload d) * 64 + payload e)

variable {seq bytes : List UInt8} {n : Nat} {text : List Char}

/-! ## Sequences of characters -/

theorem ofNat_eq_iff {b : UInt8} (h : n < 256) : UInt8.ofNat n = b ↔ n = b.toNat := by
  rw [← UInt8.toNat_inj, UInt8.toNat_ofNat_of_lt' h]

theorem toNat_ofNat_of_isValidChar (h : n.isValidChar) : (Char.ofNat n).toNat = n := by
  rw [Char.ofNat, dif_pos h]
  rfl

/-- What is spelled is the number of a character. -/
theorem Spells.isValidChar (h : Spells seq n) : n.isValidChar := by
  cases h <;>
  · simp only [Nat.isValidChar, Continues, payload] at *
    omega

/-- What spells a number is the sequence of that character. -/
theorem Spells.encodeChar_eq (h : Spells seq n) : String.utf8EncodeChar (Char.ofNat n) = seq := by
  rw [String.utf8EncodeChar, Char.toNat_val, toNat_ofNat_of_isValidChar h.isValidChar]
  cases h with
  | one hb => rw [if_pos (by omega), UInt8.ofNat_toNat]
  | two hb hc =>
    unfold Continues at hc
    rw [payload, if_neg (by omega), if_pos (by omega)]
    simp only [List.cons.injEq, and_true]
    rw [ofNat_eq_iff (by omega), ofNat_eq_iff (by omega)]
    omega
  | three hb hc hlow hhigh hd =>
    unfold Continues at hc hd
    rw [payload, payload, if_neg (by omega), if_neg (by omega), if_pos (by omega)]
    simp only [List.cons.injEq, and_true]
    rw [ofNat_eq_iff (by omega), ofNat_eq_iff (by omega), ofNat_eq_iff (by omega)]
    omega
  | four hb hc hlow hhigh hd he =>
    unfold Continues at hc hd he
    rw [payload, payload, payload, if_neg (by omega), if_neg (by omega), if_neg (by omega)]
    simp only [List.cons.injEq, and_true]
    rw [ofNat_eq_iff (by omega), ofNat_eq_iff (by omega), ofNat_eq_iff (by omega),
      ofNat_eq_iff (by omega)]
    omega

theorem continues_ofNat (n : Nat) : Continues (UInt8.ofNat (n % 0x40 + 0x80)) := by
  rw [Continues, UInt8.toNat_ofNat']
  omega

theorem payload_ofNat (n : Nat) : payload (UInt8.ofNat (n % 0x40 + 0x80)) = n % 0x40 := by
  rw [payload, UInt8.toNat_ofNat']
  omega

/-- The sequence of a character spells its number. -/
theorem spells_encodeChar (c : Char) : Spells (String.utf8EncodeChar c) c.toNat := by
  have hvalid : c.toNat < 0xD800 ∨ 0xDFFF < c.toNat ∧ c.toNat < 0x110000 := c.valid
  rw [String.utf8EncodeChar, Char.toNat_val]
  generalize c.toNat = n at hvalid
  split
  · have hbyte : (UInt8.ofNat n).toNat = n := UInt8.toNat_ofNat_of_lt' (show _ < 256 by omega)
    have hspells := Spells.one (b := UInt8.ofNat n) (by omega)
    rwa [hbyte] at hspells
  split
  · have hfirst : (UInt8.ofNat (n / 64 % 0x20 + 0xC0)).toNat = n / 64 % 0x20 + 0xC0 :=
      UInt8.toNat_ofNat_of_lt' (show _ < 256 by omega)
    have hspells := Spells.two (b := UInt8.ofNat (n / 64 % 0x20 + 0xC0)) (by omega)
      (continues_ofNat n)
    have hnumber : (n / 64 % 0x20 + 0xC0) % 32 * 64 + n % 0x40 = n := by omega
    rwa [payload_ofNat, hfirst, hnumber] at hspells
  split
  · have hfirst : (UInt8.ofNat (n / 4096 % 0x10 + 0xE0)).toNat = n / 4096 % 0x10 + 0xE0 :=
      UInt8.toNat_ofNat_of_lt' (show _ < 256 by omega)
    have hsecond : (UInt8.ofNat (n / 64 % 0x40 + 0x80)).toNat = n / 64 % 0x40 + 0x80 :=
      UInt8.toNat_ofNat_of_lt' (show _ < 256 by omega)
    have hspells := Spells.three (b := UInt8.ofNat (n / 4096 % 0x10 + 0xE0)) (by omega)
      (continues_ofNat (n / 64)) (by omega) (by omega) (continues_ofNat n)
    have hnumber : ((n / 4096 % 0x10 + 0xE0) % 16 * 64 + n / 64 % 0x40) * 64 + n % 0x40 = n := by
      omega
    rwa [payload_ofNat, payload_ofNat, hfirst, hnumber] at hspells
  · have hfirst : (UInt8.ofNat (n / 262144 % 0x08 + 0xF0)).toNat = n / 262144 % 0x08 + 0xF0 :=
      UInt8.toNat_ofNat_of_lt' (show _ < 256 by omega)
    have hsecond : (UInt8.ofNat (n / 4096 % 0x40 + 0x80)).toNat = n / 4096 % 0x40 + 0x80 :=
      UInt8.toNat_ofNat_of_lt' (show _ < 256 by omega)
    have hspells := Spells.four (b := UInt8.ofNat (n / 262144 % 0x08 + 0xF0)) (by omega)
      (continues_ofNat (n / 4096)) (by omega) (by omega) (continues_ofNat (n / 64))
      (continues_ofNat n)
    have hnumber : (((n / 262144 % 0x08 + 0xF0) % 8 * 64 + n / 4096 % 0x40) * 64 +
        n / 64 % 0x40) * 64 + n % 0x40 = n := by
      omega
    rwa [payload_ofNat, payload_ofNat, payload_ofNat, hfirst, hnumber] at hspells

/-- A byte below 128 stands for itself and is in no longer sequence. -/
theorem Spells.mem_iff (h : Spells seq n) {a : UInt8} (ha : a.toNat < 0x80) :
    a ∈ seq ↔ a.toNat = n := by
  cases h with
  | one hb => rw [List.mem_singleton, UInt8.toNat_inj]
  | two hb hc =>
    simp only [List.mem_cons, List.not_mem_nil, or_false, ← UInt8.toNat_inj, Continues] at hc ⊢
    omega
  | three hb hc hlow hhigh hd =>
    simp only [List.mem_cons, List.not_mem_nil, or_false, ← UInt8.toNat_inj, Continues, payload]
      at hc hd ⊢
    omega
  | four hb hc hlow hhigh hd he =>
    simp only [List.mem_cons, List.not_mem_nil, or_false, ← UInt8.toNat_inj, Continues, payload]
      at hc hd he ⊢
    omega

theorem mem_encodeChar_iff {a : UInt8} (ha : a.toNat < 0x80) {c : Char} :
    a ∈ String.utf8EncodeChar c ↔ Char.ofNat a.toNat = c := by
  rw [(spells_encodeChar c).mem_iff ha, ← Char.toNat_inj,
    toNat_ofNat_of_isValidChar (Spells.one ha).isValidChar]

/-! ## Texts -/

theorem toList_loop_eq (array : ByteArray) (i : Nat) (taken : List UInt8) :
    ByteArray.toList.loop array i taken = taken.reverse ++ array.data.toList.drop i := by
  fun_induction ByteArray.toList.loop array i taken with
  | case1 i taken hlt ih =>
    have hi : i < array.data.toList.length := hlt
    have hbyte : array.get! i = array.data.toList[i] := getElem!_pos array.data i hlt
    rw [ih, List.drop_eq_getElem_cons hi, List.reverse_cons, hbyte, List.append_assoc,
      List.singleton_append]
  | case2 i taken hle =>
    have hi : array.data.toList.length ≤ i := Nat.le_of_not_lt hle
    rw [List.drop_eq_nil_of_le hi, List.append_nil]

/-- The bytes of a text are the sequences of its characters. -/
theorem encode_ofList (text : List Char) :
    encode (String.ofList text) = text.flatMap String.utf8EncodeChar := by
  rw [encode, ByteArray.toList, toList_loop_eq, String.toUTF8_eq_toByteArray,
    String.toByteArray_ofList, List.utf8Encode, List.toList_data_toByteArray]
  rfl

theorem encode_eq_nil_iff {source : String} : encode source = [] ↔ source = "" := by
  obtain ⟨text, rfl⟩ := source.exists_eq_ofList
  rw [encode_ofList, String.ofList_eq_empty_iff]
  cases text with
  | nil => simp
  | cons c text => simp [String.utf8EncodeChar_ne_nil]

theorem encode_append (a b : String) : encode (a ++ b) = encode a ++ encode b := by
  rw [← String.ofList_toList (s := a), ← String.ofList_toList (s := b), ← String.ofList_append,
    encode_ofList, encode_ofList, encode_ofList, List.flatMap_append]

/-- A byte below 128 is in a text exactly if its character is. -/
theorem mem_encode_iff {a : UInt8} (ha : a.toNat < 0x80) :
    a ∈ encode (String.ofList text) ↔ Char.ofNat a.toNat ∈ text := by
  simp [encode_ofList, List.mem_flatMap, mem_encodeChar_iff ha]

/-! ## Decoding -/

theorem between_iff {low high b : UInt8} :
    (low ≤ b && b ≤ high) = true ↔ low.toNat ≤ b.toNat ∧ b.toNat ≤ high.toNat := by
  simp [UInt8.le_iff_toNat_le]

theorem isContinuation_iff {b : UInt8} : isContinuation b = true ↔ Continues b :=
  between_iff

/-- The bound on a second byte from below behind one first byte, and from above behind another. -/
theorem second_iff {lead b lowest highest low high : UInt8} (hne : lowest ≠ highest)
    (hlow : 0x80 ≤ low.toNat) (hhigh : high.toNat ≤ 0xBF) :
    (if lead == lowest then low ≤ b && b ≤ 0xBF
      else if lead == highest then 0x80 ≤ b && b ≤ high
      else isContinuation b) = true ↔
      Continues b ∧ (lead.toNat = lowest.toNat → low.toNat ≤ b.toNat) ∧
        (lead.toNat = highest.toNat → b.toNat ≤ high.toNat) := by
  rw [Ne, ← UInt8.toNat_inj] at hne
  simp only [beq_iff_eq, ← UInt8.toNat_inj, Continues]
  split
  · simp only [between_iff, UInt8.reduceToNat]
    omega
  split
  · simp only [between_iff, UInt8.reduceToNat]
    omega
  · rw [isContinuation_iff, Continues]
    omega

theorem secondOfThree_iff {lead b : UInt8} :
    secondOfThree lead b = true ↔ Continues b ∧
      (lead.toNat = 0xE0 → 0xA0 ≤ b.toNat) ∧ (lead.toNat = 0xED → b.toNat ≤ 0x9F) :=
  second_iff (by decide) (by decide) (by decide)

theorem secondOfFour_iff {lead b : UInt8} :
    secondOfFour lead b = true ↔ Continues b ∧
      (lead.toNat = 0xF0 → 0x90 ≤ b.toNat) ∧ (lead.toNat = 0xF4 → b.toNat ≤ 0x8F) :=
  second_iff (by decide) (by decide) (by decide)

/-- The decoder takes a sequence and goes on with the character that it spells. -/
theorem decodeFrom_append (h : Spells seq n) (done : Nat) (acc : List Char) (rest : List UInt8) :
    decodeFrom done acc (seq ++ rest) =
      decodeFrom (done + seq.length) (Char.ofNat n :: acc) rest := by
  -- The ranges of first bytes are asked in ascending order, so the earlier ones are ruled out.
  have hlater : ∀ {low high b : UInt8}, high.toNat < b.toNat → ¬(low ≤ b && b ≤ high) = true :=
    fun h hb => Nat.not_le.2 h (between_iff.1 hb).2
  rw [decodeFrom.eq_def]
  cases h with
  | one hb => exact if_pos hb
  | @two b c hb hc =>
    have hone : ¬b < 0x80 := Nat.not_lt.2 (show 0x80 ≤ b.toNat by omega)
    have htwo : (0xC2 ≤ b && b ≤ 0xDF) = true := between_iff.2 hb
    simp only [List.cons_append, List.nil_append]
    rw [if_neg hone, if_pos htwo, if_pos (isContinuation_iff.2 hc)]
    rfl
  | @three b c d hb hc hlow hhigh hd =>
    have hone : ¬b < 0x80 := Nat.not_lt.2 (show 0x80 ≤ b.toNat by omega)
    have htwo : ¬(0xC2 ≤ b && b ≤ 0xDF) = true := hlater (show 0xDF < b.toNat by omega)
    have hthree : (0xE0 ≤ b && b ≤ 0xEF) = true := between_iff.2 hb
    simp only [List.cons_append, List.nil_append]
    rw [if_neg hone, if_neg htwo, if_pos hthree, if_pos (secondOfThree_iff.2 ⟨hc, hlow, hhigh⟩),
      if_pos (isContinuation_iff.2 hd)]
    rfl
  | @four b c d e hb hc hlow hhigh hd he =>
    have hone : ¬b < 0x80 := Nat.not_lt.2 (show 0x80 ≤ b.toNat by omega)
    have htwo : ¬(0xC2 ≤ b && b ≤ 0xDF) = true := hlater (show 0xDF < b.toNat by omega)
    have hthree : ¬(0xE0 ≤ b && b ≤ 0xEF) = true := hlater (show 0xEF < b.toNat by omega)
    have hfour : (0xF0 ≤ b && b ≤ 0xF4) = true := between_iff.2 hb
    simp only [List.cons_append, List.nil_append]
    rw [if_neg hone, if_neg htwo, if_neg hthree, if_pos hfour,
      if_pos (secondOfFour_iff.2 ⟨hc, hlow, hhigh⟩), if_pos (isContinuation_iff.2 hd),
      if_pos (isContinuation_iff.2 he)]
    rfl

/-- The bytes of a text are decoded as that text. -/
theorem decodeFrom_flatMap (done : Nat) (acc text : List Char) :
    decodeFrom done acc (text.flatMap String.utf8EncodeChar) = .ok (acc.reverse ++ text) := by
  induction text generalizing done acc with
  | nil => rw [List.flatMap_nil, decodeFrom, List.append_nil]
  | cons c text ih =>
    rw [List.flatMap_cons, decodeFrom_append (spells_encodeChar c), Char.ofNat_toNat, ih,
      List.reverse_cons, List.append_assoc, List.singleton_append]

/-- What is decoded are the bytes of a text. The ways through the decoder that do not fail take one
sequence each. -/
theorem exists_of_decodeFrom {done : Nat} {acc : List Char}
    (h : decodeFrom done acc bytes = .ok text) :
    ∃ rest, text = acc.reverse ++ rest ∧ bytes = rest.flatMap String.utf8EncodeChar := by
  have hcons : ∀ {seq bytes : List UInt8} {n : Nat} {acc : List Char}, Spells seq n →
      (∃ rest, text = (Char.ofNat n :: acc).reverse ++ rest ∧
        bytes = rest.flatMap String.utf8EncodeChar) →
      ∃ rest, text = acc.reverse ++ rest ∧
        seq ++ bytes = rest.flatMap String.utf8EncodeChar := by
    rintro seq _ n acc hseq ⟨rest, htext, rfl⟩
    refine ⟨Char.ofNat n :: rest, ?_, ?_⟩
    · rw [htext, List.reverse_cons, List.append_assoc, List.singleton_append]
    · rw [List.flatMap_cons, hseq.encodeChar_eq]
  fun_induction decodeFrom done acc bytes with
  | case1 done acc => exact ⟨[], by rw [List.append_nil, Except.ok.inj h], rfl⟩
  | case2 done acc b rest hb ih => exact hcons (.one hb) (ih h)
  | case4 done acc b _ hb c rest hc ih =>
    exact hcons (.two (between_iff.1 hb) (isContinuation_iff.1 hc)) (ih h)
  | case8 done acc b _ _ hb c hc d rest hd ih =>
    obtain ⟨hc, hlow, hhigh⟩ := secondOfThree_iff.1 hc
    exact hcons (.three (between_iff.1 hb) hc hlow hhigh (isContinuation_iff.1 hd)) (ih h)
  | case14 done acc b _ _ _ hb c hc d hd e rest he ih =>
    obtain ⟨hc, hlow, hhigh⟩ := secondOfFour_iff.1 hc
    exact hcons (.four (between_iff.1 hb) hc hlow hhigh (isContinuation_iff.1 hd)
      (isContinuation_iff.1 he)) (ih h)
  | _ => cases h

/-- Decoding inverts encoding, and accepts nothing else. -/
theorem decode_eq_ok_iff : decode bytes = .ok text ↔ bytes = encode (String.ofList text) := by
  rw [encode_ofList]
  constructor
  · intro h
    obtain ⟨rest, rfl, hbytes⟩ := exists_of_decodeFrom h
    exact hbytes
  · rintro rfl
    exact decodeFrom_flatMap 0 [] text

theorem decode_encode (source : String) : decode (encode source) = .ok source.toList := by
  rw [decode_eq_ok_iff, String.ofList_toList]

end CodeAtlas.Text.Utf8
