import RunJournal.Proofs.Text.Framing

/-!
# Bytes that are UTF-8

Bytes are UTF-8 if they encode some text. Decoding accepts exactly those (`isOk_decodeUtf8_iff`).
One half is that encoded text is decoded; the other is shown here, that bytes which are decoded are
those of the text that they are decoded to (`encodeUtf8_of_decodeUtf8`).

The end of a line makes no difference: a line is UTF-8 exactly if the bytes before its end are
(`isUtf8_withoutLineEnd_iff`), since a control character is one byte and no part of another.
-/

namespace RunJournal.Text

/-- Bytes that encode a text. -/
def IsUtf8 (bytes : List UInt8) : Prop := bytes.toByteArray.IsValidUTF8

/-- Bytes are UTF-8 when they encode some text. -/
theorem isUtf8_iff {bytes : List UInt8} : IsUtf8 bytes ↔ ∃ cs, encodeUtf8 cs = bytes := by
  constructor
  · rintro ⟨cs, hcs⟩
    exact ⟨cs, (List.toByteArray_inj.mp hcs).symm⟩
  · rintro ⟨cs, rfl⟩
    exact ⟨cs, rfl⟩

/-! ## Leading and following bytes -/

/-- The bytes of each length of a sequence are told by the first of them. -/
theorem sequenceLength_cases {lead : UInt8} {n : Nat} (h : sequenceLength lead = some n) :
    (n = 1 ∧ lead.toNat ≤ 0x7F) ∨ (n = 2 ∧ 0xC2 ≤ lead.toNat ∧ lead.toNat ≤ 0xDF) ∨
      (n = 3 ∧ 0xE0 ≤ lead.toNat ∧ lead.toNat ≤ 0xEF) ∨
      (n = 4 ∧ 0xF0 ≤ lead.toNat ∧ lead.toNat ≤ 0xF4) := by
  simp only [sequenceLength, Bool.and_eq_true, decide_eq_true_eq, UInt8.le_iff_toNat_le,
    UInt8.lt_iff_toNat_lt, UInt8.reduceToNat] at h
  split at h
  · cases h
    omega
  split at h
  · cases h
    omega
  split at h
  · cases h
    omega
  split at h
  · cases h
    omega
  · cases h

theorem toNat_of_isContinuation {b : UInt8} (h : isContinuation b = true) :
    0x80 ≤ b.toNat ∧ b.toNat ≤ 0xBF := by
  simpa only [isContinuation, Bool.and_eq_true, decide_eq_true_eq, UInt8.le_iff_toNat_le,
    UInt8.reduceToNat] using h

/-- The second byte of a sequence continues it, and keeps it from being too short a form, a
surrogate or too great a number. -/
theorem toNat_of_isSecond {lead b : UInt8} (h : isSecond lead b = true) :
    (0x80 ≤ b.toNat ∧ b.toNat ≤ 0xBF) ∧ (lead.toNat = 0xE0 → 0xA0 ≤ b.toNat) ∧
      (lead.toNat = 0xED → b.toNat ≤ 0x9F) ∧ (lead.toNat = 0xF0 → 0x90 ≤ b.toNat) ∧
      (lead.toNat = 0xF4 → b.toNat ≤ 0x8F) := by
  simp only [isSecond, isContinuation, beq_iff_eq, ← UInt8.toNat_inj, UInt8.reduceToNat] at h
  split at h
  · simp only [Bool.and_eq_true, decide_eq_true_eq, UInt8.le_iff_toNat_le, UInt8.reduceToNat] at h
    omega
  split at h
  · simp only [Bool.and_eq_true, decide_eq_true_eq, UInt8.le_iff_toNat_le, UInt8.reduceToNat] at h
    omega
  split at h
  · simp only [Bool.and_eq_true, decide_eq_true_eq, UInt8.le_iff_toNat_le, UInt8.reduceToNat] at h
    omega
  split at h
  · simp only [Bool.and_eq_true, decide_eq_true_eq, UInt8.le_iff_toNat_le, UInt8.reduceToNat] at h
    omega
  · simp only [Bool.and_eq_true, decide_eq_true_eq, UInt8.le_iff_toNat_le, UInt8.reduceToNat] at h
    omega

/-! ## Sequences -/

section Sequences

variable {lead b c d : UInt8}

/-- A number that is no surrogate and not too great is the code point of a character. -/
theorem toNat_charOfNat {n : Nat} (h : n < 0xD800 ∨ (0xDFFF < n ∧ n < 0x110000)) :
    (Char.ofNat n).toNat = n := by
  rw [Char.ofNat, dif_pos h]
  rfl

theorem ofNat_eq_byte {n : Nat} (h : n = b.toNat) : UInt8.ofNat n = b := by
  rw [h, UInt8.ofNat_toNat]

theorem utf8EncodeChar_one (hlead : lead.toNat ≤ 0x7F) :
    String.utf8EncodeChar (Char.ofNat lead.toNat) = [lead] := by
  have hchar : (Char.ofNat lead.toNat).toNat = lead.toNat := toNat_charOfNat (by omega)
  rw [utf8EncodeChar_eq, hchar, if_pos (by omega), UInt8.ofNat_toNat]

/-- Two bytes of the right form are the encoding of the character that they are decoded to. -/
theorem utf8EncodeChar_two (hlead : 0xC2 ≤ lead.toNat ∧ lead.toNat ≤ 0xDF)
    (hb : isSecond lead b = true) :
    String.utf8EncodeChar (Char.ofNat (lead.toNat % 32 * 64 + payload b)) = [lead, b] := by
  have hb := (toNat_of_isSecond hb).1
  have hchar : (Char.ofNat (lead.toNat % 32 * 64 + payload b)).toNat =
      lead.toNat % 32 * 64 + payload b := toNat_charOfNat (by rw [payload]; omega)
  rw [utf8EncodeChar_eq, hchar, payload, if_neg (by omega), if_pos (by omega),
    ofNat_eq_byte (b := lead) (by omega), ofNat_eq_byte (b := b) (by omega)]

theorem utf8EncodeChar_three (hlead : 0xE0 ≤ lead.toNat ∧ lead.toNat ≤ 0xEF)
    (hb : isSecond lead b = true) (hc : isContinuation c = true) :
    String.utf8EncodeChar (Char.ofNat ((lead.toNat % 16 * 64 + payload b) * 64 + payload c)) =
      [lead, b, c] := by
  have hb := toNat_of_isSecond hb
  have hc := toNat_of_isContinuation hc
  have hchar : (Char.ofNat ((lead.toNat % 16 * 64 + payload b) * 64 + payload c)).toNat =
      (lead.toNat % 16 * 64 + payload b) * 64 + payload c :=
    toNat_charOfNat (by rw [payload, payload]; omega)
  rw [utf8EncodeChar_eq, hchar, payload, payload, if_neg (by omega), if_neg (by omega),
    if_pos (by omega), ofNat_eq_byte (b := lead) (by omega), ofNat_eq_byte (b := b) (by omega),
    ofNat_eq_byte (b := c) (by omega)]

theorem utf8EncodeChar_four (hlead : 0xF0 ≤ lead.toNat ∧ lead.toNat ≤ 0xF4)
    (hb : isSecond lead b = true) (hc : isContinuation c = true) (hd : isContinuation d = true) :
    String.utf8EncodeChar (Char.ofNat
        (((lead.toNat % 8 * 64 + payload b) * 64 + payload c) * 64 + payload d)) =
      [lead, b, c, d] := by
  have hb := toNat_of_isSecond hb
  have hc := toNat_of_isContinuation hc
  have hd := toNat_of_isContinuation hd
  have hchar : (Char.ofNat
      (((lead.toNat % 8 * 64 + payload b) * 64 + payload c) * 64 + payload d)).toNat =
      ((lead.toNat % 8 * 64 + payload b) * 64 + payload c) * 64 + payload d :=
    toNat_charOfNat (by rw [payload, payload, payload]; omega)
  rw [utf8EncodeChar_eq, hchar, payload, payload, payload, if_neg (by omega), if_neg (by omega),
    if_neg (by omega), ofNat_eq_byte (b := lead) (by omega), ofNat_eq_byte (b := b) (by omega),
    ofNat_eq_byte (b := c) (by omega), ofNat_eq_byte (b := d) (by omega)]

variable {index : Nat} {done cs : List Char} {rest : List UInt8}

/-- The bytes of a sequence of two that is decoded. -/
theorem exists_of_decodeUtf8From_two (hlead : sequenceLength lead = some 2)
    (h : decodeUtf8From index done (lead :: rest) = .ok cs) :
    ∃ b tail, rest = b :: tail ∧ isSecond lead b = true := by
  rw [decodeUtf8From.eq_def] at h
  simp only [hlead] at h
  cases rest with
  | nil => cases h
  | cons b tail =>
    by_cases hb : isSecond lead b = true
    · exact ⟨b, tail, rfl, hb⟩
    · simp [hb] at h

/-- The bytes of a sequence of three that is decoded. -/
theorem exists_of_decodeUtf8From_three (hlead : sequenceLength lead = some 3)
    (h : decodeUtf8From index done (lead :: rest) = .ok cs) :
    ∃ b c tail, rest = b :: c :: tail ∧ isSecond lead b = true ∧ isContinuation c = true := by
  rw [decodeUtf8From.eq_def] at h
  simp only [hlead] at h
  cases rest with
  | nil => cases h
  | cons b tail =>
    by_cases hb : isSecond lead b = true
    · cases tail with
      | nil => simp [hb] at h
      | cons c tail =>
        by_cases hc : isContinuation c = true
        · exact ⟨b, c, tail, rfl, hb, hc⟩
        · simp [hb, hc] at h
    · simp [hb] at h

/-- The bytes of a sequence of four that is decoded. -/
theorem exists_of_decodeUtf8From_four (hlead : sequenceLength lead = some 4)
    (h : decodeUtf8From index done (lead :: rest) = .ok cs) :
    ∃ b c d tail, rest = b :: c :: d :: tail ∧ isSecond lead b = true ∧ isContinuation c = true ∧
      isContinuation d = true := by
  rw [decodeUtf8From.eq_def] at h
  simp only [hlead] at h
  -- the bytes are looked at one after the other, and the decoder stops at the first that does not
  -- fit
  cases rest with
  | nil => cases h
  | cons b tail =>
    by_cases hb : isSecond lead b = true
    · cases tail with
      | nil => simp [hb] at h
      | cons c tail =>
        by_cases hc : isContinuation c = true
        · cases tail with
          | nil => simp [hb, hc] at h
          | cons d tail =>
            by_cases hd : isContinuation d = true
            · exact ⟨b, c, d, tail, rfl, hb, hc, hd⟩
            · simp [hb, hc, hd] at h
        · simp [hb, hc] at h
    · simp [hb] at h

/-- What is decoded begins with the bytes of a character. -/
theorem decodeUtf8From_cons_eq_ok (h : decodeUtf8From index done (lead :: rest) = .ok cs) :
    ∃ c next rest', lead :: rest = String.utf8EncodeChar c ++ rest' ∧
      decodeUtf8From next (c :: done) rest' = .ok cs := by
  cases hlength : sequenceLength lead with
  | none =>
    rw [decodeUtf8From.eq_def] at h
    simp only [hlength] at h
    cases h
  | some n =>
    -- by the length that the first byte announces; what was decoded is encoded in the same bytes
    rcases sequenceLength_cases hlength with
      ⟨rfl, hlead⟩ | ⟨rfl, hlead⟩ | ⟨rfl, hlead⟩ | ⟨rfl, hlead⟩
    · rw [decodeUtf8From_one _ _ _ hlength] at h
      refine ⟨_, _, rest, ?_, h⟩
      rw [utf8EncodeChar_one hlead, List.singleton_append]
    · obtain ⟨b, tail, rfl, hb⟩ := exists_of_decodeUtf8From_two hlength h
      rw [decodeUtf8From_two _ _ _ hlength hb] at h
      refine ⟨_, _, tail, ?_, h⟩
      rw [utf8EncodeChar_two hlead hb]
      rfl
    · obtain ⟨b, c, tail, rfl, hb, hc⟩ := exists_of_decodeUtf8From_three hlength h
      rw [decodeUtf8From_three _ _ _ hlength hb hc] at h
      refine ⟨_, _, tail, ?_, h⟩
      rw [utf8EncodeChar_three hlead hb hc]
      rfl
    · obtain ⟨b, c, d, tail, rfl, hb, hc, hd⟩ := exists_of_decodeUtf8From_four hlength h
      rw [decodeUtf8From_four _ _ _ hlength hb hc hd] at h
      refine ⟨_, _, tail, ?_, h⟩
      rw [utf8EncodeChar_four hlead hb hc hd]
      rfl

end Sequences

/-- Decoding goes on from characters that were decoded before, and loses none. -/
theorem encodeUtf8_of_decodeUtf8From {index : Nat} {done cs : List Char} {bytes : List UInt8}
    (h : decodeUtf8From index done bytes = .ok cs) :
    ∃ ds, cs = done.reverse ++ ds ∧ encodeUtf8 ds = bytes := by
  -- what is left gets shorter by the bytes of a character
  induction hlength : bytes.length using Nat.strongRecOn generalizing index done bytes with
  | ind length ih =>
    cases bytes with
    | nil =>
      cases h
      exact ⟨[], (List.append_nil _).symm, rfl⟩
    | cons lead rest =>
      obtain ⟨c, next, rest', hbytes, hrest⟩ := decodeUtf8From_cons_eq_ok h
      have hshorter : rest'.length < length := by
        rw [← hlength, hbytes, List.length_append, String.length_utf8EncodeChar]
        exact Nat.lt_add_of_pos_left c.utf8Size_pos
      obtain ⟨ds, rfl, hds⟩ := ih rest'.length hshorter hrest rfl
      refine ⟨c :: ds, ?_, ?_⟩
      · rw [List.reverse_cons, List.append_assoc]
        rfl
      · rw [hbytes, ← hds]
        rfl

/-- **Bytes that are decoded are those of the text that they are decoded to.** -/
theorem encodeUtf8_of_decodeUtf8 {bytes : List UInt8} {cs : List Char}
    (h : decodeUtf8 bytes = .ok cs) : encodeUtf8 cs = bytes := by
  obtain ⟨ds, rfl, hds⟩ := encodeUtf8_of_decodeUtf8From h
  exact hds

/-- Texts with the same bytes are the same. -/
theorem encodeUtf8_injective : Function.Injective encodeUtf8 := by
  intro cs ds h
  have hdecode := decodeUtf8_encodeUtf8 cs
  rw [h, decodeUtf8_encodeUtf8] at hdecode
  exact (Except.ok.inj hdecode).symm

/-- **Decoding accepts exactly the bytes that are UTF-8.** -/
theorem isOk_decodeUtf8_iff {bytes : List UInt8} :
    (decodeUtf8 bytes).isOk = true ↔ IsUtf8 bytes := by
  rw [isUtf8_iff]
  constructor
  · intro h
    cases hdecode : decodeUtf8 bytes with
    | error fault =>
      rw [hdecode] at h
      cases h
    | ok cs => exact ⟨cs, encodeUtf8_of_decodeUtf8 hdecode⟩
  · rintro ⟨cs, rfl⟩
    rw [decodeUtf8_encodeUtf8]
    rfl

instance (bytes : List UInt8) : Decidable (IsUtf8 bytes) :=
  decidable_of_iff _ isOk_decodeUtf8_iff

/-! ## The end of a line -/

/-- A character that ends in a control character is one. -/
theorem utf8EncodeChar_of_getLast? {c : Char} {b : UInt8} (hb : b.toNat < 0x20)
    (hlast : (String.utf8EncodeChar c).getLast? = some b) : String.utf8EncodeChar c = [b] := by
  have hmem := List.mem_of_getLast? hlast
  have hc : c.toNat < 0x20 := by
    refine Nat.lt_of_not_le fun hc => ?_
    have hbyte := not_control_of_mem_utf8EncodeChar hc b hmem
    omega
  rw [utf8EncodeChar_eq, if_pos (by omega)] at hmem ⊢
  rw [List.mem_singleton.mp hmem]

/-- A text whose bytes end in a control character ends in that character. -/
theorem exists_concat_of_getLast?_encodeUtf8 {cs : List Char} {b : UInt8} (hb : b.toNat < 0x20)
    (hlast : (encodeUtf8 cs).getLast? = some b) :
    ∃ ds, cs = ds ++ [Char.ofNat b.toNat] ∧ encodeUtf8 cs = encodeUtf8 ds ++ [b] := by
  rcases List.eq_nil_or_concat cs with rfl | ⟨ds, c, rfl⟩
  · cases hlast
  · have happend : encodeUtf8 (ds ++ [c]) = encodeUtf8 ds ++ String.utf8EncodeChar c := by
      rw [encodeUtf8, List.flatMap_append, List.flatMap_singleton]
      rfl
    have hne : String.utf8EncodeChar c ≠ [] :=
      List.ne_nil_of_length_pos (by rw [String.length_utf8EncodeChar]; exact c.utf8Size_pos)
    rw [List.concat_eq_append] at hlast ⊢
    rw [happend, List.getLast?_append, List.getLast?_eq_some_getLast hne, Option.some_or,
      ← List.getLast?_eq_some_getLast hne] at hlast
    have hbytes := utf8EncodeChar_of_getLast? hb hlast
    have hsame : encodeUtf8 [c] = encodeUtf8 [Char.ofNat b.toNat] := by
      rw [encodeUtf8, encodeUtf8, List.flatMap_singleton, List.flatMap_singleton, hbytes,
        utf8EncodeChar_one (by omega)]
    obtain rfl : c = Char.ofNat b.toNat :=
      List.head_eq_of_cons_eq (encodeUtf8_injective hsame)
    exact ⟨ds, rfl, by rw [happend, hbytes]⟩

/-- A control character at the end is a character of its own. -/
theorem isUtf8_concat_control {bytes : List UInt8} {b : UInt8} (hb : b.toNat < 0x20) :
    IsUtf8 (bytes ++ [b]) ↔ IsUtf8 bytes := by
  rw [isUtf8_iff, isUtf8_iff]
  constructor
  · rintro ⟨cs, hcs⟩
    have hlast : (encodeUtf8 cs).getLast? = some b := by rw [hcs, List.getLast?_concat]
    obtain ⟨ds, -, hds⟩ := exists_concat_of_getLast?_encodeUtf8 hb hlast
    rw [hds] at hcs
    exact ⟨ds, List.append_cancel_right hcs⟩
  · rintro ⟨cs, rfl⟩
    refine ⟨cs ++ [Char.ofNat b.toNat], ?_⟩
    rw [encodeUtf8, List.flatMap_append, List.flatMap_singleton, utf8EncodeChar_one (by omega)]
    rfl

/-- A control character at the end makes no difference to whether bytes are UTF-8. -/
theorem isUtf8_dropLast_control {bytes : List UInt8} {b : UInt8} (hb : b.toNat < 0x20)
    (hlast : bytes.getLast? = some b) : IsUtf8 bytes.dropLast ↔ IsUtf8 bytes := by
  obtain ⟨front, rfl⟩ := List.getLast?_eq_some_iff.mp hlast
  rw [List.dropLast_concat, isUtf8_concat_control hb]

/-- **A line is UTF-8 exactly if the bytes before its end are.** -/
theorem isUtf8_withoutLineEnd_iff {line : List UInt8} :
    IsUtf8 (withoutLineEnd line) ↔ IsUtf8 line := by
  have hreturn (bytes : List UInt8) : IsUtf8 (dropReturn bytes) ↔ IsUtf8 bytes := by
    rw [dropReturn]
    split
    · rename_i hlast
      exact isUtf8_dropLast_control (by decide) hlast
    · exact Iff.rfl
  rw [withoutLineEnd]
  split
  · rename_i hlast
    rw [hreturn, isUtf8_dropLast_control (by decide) hlast]
  · exact Iff.rfl

end RunJournal.Text
