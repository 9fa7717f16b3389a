import RunJournal.Text.Blank
import RunJournal.Text.Line
import RunJournal.Text.Utf8

/-!
# Texts that are sent as lines arrive

A sender writes texts one a line: it puts a line feed between them and encodes the whole. A receiver
splits the bytes into lines, drops the end of each line and decodes what is left. If no text
contains a control character, the receiver gets the texts that were sent (`receive_joined`).

Two facts carry this. Decoding undoes encoding, character by character, for every character there is
(`decodeUtf8_encodeUtf8`); and a byte below U+0020 is never a part of a longer sequence, so a line
feed among the bytes is a line feed in the text (`not_control_of_mem_encodeUtf8`).
-/

namespace RunJournal.Text

/-! ## Bytes of a character -/

/-- A byte below 128 stands for itself. -/
theorem sequenceLength_one : ∀ k < 0x80, sequenceLength (.ofNat k) = some 1 := by decide

/-- A byte that leads a sequence of two; 192 and 193 would spell a number below 128. -/
theorem sequenceLength_two : ∀ k < 32, 2 ≤ k → sequenceLength (.ofNat (k + 192)) = some 2 := by
  decide

theorem sequenceLength_three : ∀ k < 16, sequenceLength (.ofNat (k + 224)) = some 3 := by decide

theorem sequenceLength_four : ∀ k < 5, sequenceLength (.ofNat (k + 240)) = some 4 := by decide

theorem lead_two : ∀ k < 32, (UInt8.ofNat (k + 192)).toNat % 32 = k := by decide

theorem lead_three : ∀ k < 16, (UInt8.ofNat (k + 224)).toNat % 16 = k := by decide

theorem lead_four : ∀ k < 5, (UInt8.ofNat (k + 240)).toNat % 8 = k := by decide

theorem isContinuation_ofNat : ∀ k < 64, isContinuation (.ofNat (k + 128)) = true := by decide

theorem payload_ofNat : ∀ k < 64, payload (.ofNat (k + 128)) = k := by decide

/-- Behind the lead of a sequence of two, any continuation byte may stand. -/
theorem isSecond_two : ∀ k < 32, ∀ j < 64,
    isSecond (.ofNat (k + 192)) (.ofNat (j + 128)) = true := by
  decide +kernel

/-- The second byte is narrowed where the first would allow a shorter form or a surrogate. -/
theorem isSecond_three : ∀ k < 16, ∀ j < 64, (k = 0 → 32 ≤ j) → (k = 13 → j < 32) →
    isSecond (.ofNat (k + 224)) (.ofNat (j + 128)) = true := by
  decide +kernel

/-- The second byte is narrowed where the first would allow a shorter form or too great a number. -/
theorem isSecond_four : ∀ k < 5, ∀ j < 64, (k = 0 → 16 ≤ j) → (k = 4 → j < 16) →
    isSecond (.ofNat (k + 240)) (.ofNat (j + 128)) = true := by
  decide +kernel

/-! ## Sequences -/

section Sequences

variable {lead b c d : UInt8} (index : Nat) (done : List Char) (rest : List UInt8)

/-- A character of one byte is decoded from that byte. -/
theorem decodeUtf8From_one (hlead : sequenceLength lead = some 1) :
    decodeUtf8From index done (lead :: rest) =
      decodeUtf8From (index + 1) (Char.ofNat lead.toNat :: done) rest := by
  rw [decodeUtf8From.eq_def]
  simp only [hlead]

/-- A character of two bytes is decoded from five bits and six. -/
theorem decodeUtf8From_two (hlead : sequenceLength lead = some 2) (hb : isSecond lead b = true) :
    decodeUtf8From index done (lead :: b :: rest) =
      decodeUtf8From (index + 2) (Char.ofNat (lead.toNat % 32 * 64 + payload b) :: done) rest := by
  rw [decodeUtf8From.eq_def]
  simp [hlead, hb]

/-- A character of three bytes is decoded from four bits and twice six. -/
theorem decodeUtf8From_three (hlead : sequenceLength lead = some 3) (hb : isSecond lead b = true)
    (hc : isContinuation c = true) :
    decodeUtf8From index done (lead :: b :: c :: rest) =
      decodeUtf8From (index + 3)
        (Char.ofNat ((lead.toNat % 16 * 64 + payload b) * 64 + payload c) :: done) rest := by
  rw [decodeUtf8From.eq_def]
  simp [hlead, hb, hc]

/-- A character of four bytes is decoded from three bits and three times six. -/
theorem decodeUtf8From_four (hlead : sequenceLength lead = some 4) (hb : isSecond lead b = true)
    (hc : isContinuation c = true) (hd : isContinuation d = true) :
    decodeUtf8From index done (lead :: b :: c :: d :: rest) =
      decodeUtf8From (index + 4)
        (Char.ofNat (((lead.toNat % 8 * 64 + payload b) * 64 + payload c) * 64 + payload d) :: done)
        rest := by
  rw [decodeUtf8From.eq_def]
  simp [hlead, hb, hc, hd]

end Sequences

theorem charOfNat_eq (c : Char) {n : Nat} (h : n = c.toNat) : Char.ofNat n = c := by
  rw [h, Char.ofNat_toNat]

/-- The bytes of a character, by the size of its code point. -/
theorem utf8EncodeChar_eq (c : Char) :
    String.utf8EncodeChar c =
      if c.toNat ≤ 127 then [.ofNat c.toNat]
      else if c.toNat ≤ 2047 then [.ofNat (c.toNat / 64 % 32 + 192), .ofNat (c.toNat % 64 + 128)]
      else if c.toNat ≤ 65535 then
        [.ofNat (c.toNat / 4096 % 16 + 224), .ofNat (c.toNat / 64 % 64 + 128),
          .ofNat (c.toNat % 64 + 128)]
      else
        [.ofNat (c.toNat / 262144 % 8 + 240), .ofNat (c.toNat / 4096 % 64 + 128),
          .ofNat (c.toNat / 64 % 64 + 128), .ofNat (c.toNat % 64 + 128)] :=
  rfl

/-- A character is decoded from its bytes, whatever follows them. -/
theorem decodeUtf8From_encode (c : Char) (index : Nat) (done : List Char) (rest : List UInt8) :
    ∃ next, decodeUtf8From index done (String.utf8EncodeChar c ++ rest) =
      decodeUtf8From next (c :: done) rest := by
  have hvalid : c.toNat < 0xD800 ∨ (0xDFFF < c.toNat ∧ c.toNat < 0x110000) := c.valid
  -- the last byte carries the last six bits, whatever the length
  have htail : c.toNat % 64 < 64 := Nat.mod_lt _ (by decide)
  have hcontinues := isContinuation_ofNat _ htail
  rw [utf8EncodeChar_eq]
  split
  · rename_i hone
    refine ⟨index + 1, ?_⟩
    have hlead := sequenceLength_one _ (Nat.lt_succ_of_le hone)
    have hchar : (UInt8.ofNat c.toNat).toNat = c.toNat :=
      UInt8.toNat_ofNat_of_lt (Nat.lt_of_le_of_lt hone (by decide))
    refine (decodeUtf8From_one index done rest hlead).trans ?_
    rw [charOfNat_eq c hchar]
  split
  · rename_i hone htwo
    refine ⟨index + 2, ?_⟩
    have hfirst : c.toNat / 64 % 32 < 32 := Nat.mod_lt _ (by decide)
    have hlead := sequenceLength_two _ hfirst (by omega)
    have hsecond := isSecond_two _ hfirst _ htail
    refine (decodeUtf8From_two index done rest hlead hsecond).trans ?_
    rw [lead_two _ hfirst, payload_ofNat _ htail, charOfNat_eq c (by omega)]
  split
  · rename_i hone htwo hthree
    refine ⟨index + 3, ?_⟩
    have hfirst : c.toNat / 4096 % 16 < 16 := Nat.mod_lt _ (by decide)
    have hmiddle : c.toNat / 64 % 64 < 64 := Nat.mod_lt _ (by decide)
    have hlead := sequenceLength_three _ hfirst
    have hsecond := isSecond_three _ hfirst _ hmiddle (by omega) (by omega)
    refine (decodeUtf8From_three index done rest hlead hsecond hcontinues).trans ?_
    rw [lead_three _ hfirst, payload_ofNat _ hmiddle, payload_ofNat _ htail,
      charOfNat_eq c (by omega)]
  · rename_i hone htwo hthree
    refine ⟨index + 4, ?_⟩
    have hfirst : c.toNat / 262144 % 8 < 5 := by omega
    have hmiddle : c.toNat / 4096 % 64 < 64 := Nat.mod_lt _ (by decide)
    have hmiddle' : c.toNat / 64 % 64 < 64 := Nat.mod_lt _ (by decide)
    have hlead := sequenceLength_four _ hfirst
    have hsecond := isSecond_four _ hfirst _ hmiddle (by omega) (by omega)
    refine (decodeUtf8From_four index done rest hlead hsecond (isContinuation_ofNat _ hmiddle')
      hcontinues).trans ?_
    rw [lead_four _ hfirst, payload_ofNat _ hmiddle, payload_ofNat _ hmiddle',
      payload_ofNat _ htail, charOfNat_eq c (by omega)]

/-- **Encoded text is decoded.** -/
theorem decodeUtf8_encodeUtf8 (cs : List Char) : decodeUtf8 (encodeUtf8 cs) = .ok cs := by
  have hfrom : ∀ index done,
      decodeUtf8From index done (encodeUtf8 cs) = .ok (done.reverse ++ cs) := by
    induction cs with
    | nil =>
      intro index done
      rw [List.append_nil]
      rfl
    | cons c cs ih =>
      intro index done
      obtain ⟨next, hnext⟩ := decodeUtf8From_encode c index done (encodeUtf8 cs)
      rw [encodeUtf8, List.flatMap_cons]
      refine hnext.trans ?_
      rw [ih, List.reverse_cons, List.append_assoc]
      rfl
  exact hfrom 0 []

/-! ## Visible text -/

/-- A text without control characters. -/
def Visible (cs : List Char) : Prop := ∀ c ∈ cs, 0x20 ≤ c.toNat

instance (cs : List Char) : Decidable (Visible cs) :=
  List.decidableBAll (fun c : Char => 0x20 ≤ c.toNat) cs

@[simp] theorem visible_nil : Visible [] := fun _ hc => absurd hc List.not_mem_nil

@[simp] theorem visible_cons {c : Char} {cs : List Char} :
    Visible (c :: cs) ↔ 0x20 ≤ c.toNat ∧ Visible cs := List.forall_mem_cons

@[simp] theorem visible_append {cs ds : List Char} :
    Visible (cs ++ ds) ↔ Visible cs ∧ Visible ds := List.forall_mem_append

/-- Only a control character has a byte below U+0020. -/
theorem not_control_of_mem_utf8EncodeChar {c : Char} (hc : 0x20 ≤ c.toNat) :
    ∀ b ∈ String.utf8EncodeChar c, 0x20 ≤ b.toNat := by
  have hbyte {n : Nat} (hlow : 0x20 ≤ n) (hhigh : n < 0x100) : 0x20 ≤ (UInt8.ofNat n).toNat := by
    rw [UInt8.toNat_ofNat', Nat.mod_eq_of_lt hhigh]
    exact hlow
  rw [utf8EncodeChar_eq]
  intro b hb
  -- by the number of bytes: one is the character itself, and any others are above 127
  split at hb
  · rw [List.mem_singleton] at hb
    rw [hb]
    exact hbyte hc (by omega)
  split at hb
  · simp only [List.mem_cons, List.not_mem_nil, or_false] at hb
    rcases hb with rfl | rfl
    all_goals exact hbyte (by omega) (by omega)
  split at hb
  · simp only [List.mem_cons, List.not_mem_nil, or_false] at hb
    rcases hb with rfl | rfl | rfl
    all_goals exact hbyte (by omega) (by omega)
  · simp only [List.mem_cons, List.not_mem_nil, or_false] at hb
    rcases hb with rfl | rfl | rfl | rfl
    all_goals exact hbyte (by omega) (by omega)

/-- The bytes of a visible text are no control characters. -/
theorem not_control_of_mem_encodeUtf8 {cs : List Char} (h : Visible cs) :
    ∀ b ∈ encodeUtf8 cs, 0x20 ≤ b.toNat := by
  intro b hb
  obtain ⟨c, hc, hb⟩ := List.mem_flatMap.mp hb
  exact not_control_of_mem_utf8EncodeChar (h c hc) b hb

/-- A visible text does not break its line. -/
theorem lineFeed_notMem_encodeUtf8 {cs : List Char} (h : Visible cs) :
    lineFeed ∉ encodeUtf8 cs := fun hmem =>
  absurd (not_control_of_mem_encodeUtf8 h lineFeed hmem) (by decide)

theorem carriageReturn_notMem_encodeUtf8 {cs : List Char} (h : Visible cs) :
    carriageReturn ∉ encodeUtf8 cs := fun hmem =>
  absurd (not_control_of_mem_encodeUtf8 h carriageReturn hmem) (by decide)

theorem encodeUtf8_ne_nil {cs : List Char} (h : cs ≠ []) : encodeUtf8 cs ≠ [] := by
  obtain ⟨c, cs, rfl⟩ := List.exists_cons_of_ne_nil h
  refine List.ne_nil_of_length_pos ?_
  rw [encodeUtf8, List.flatMap_cons, List.length_append, String.length_utf8EncodeChar]
  exact Nat.add_pos_left c.utf8Size_pos _

/-! ## Lines -/

/-- Bytes without a line feed go to the line that was begun. -/
theorem linesFrom_append {bytes : List UInt8} (h : lineFeed ∉ bytes) (line rest : List UInt8) :
    linesFrom line (bytes ++ rest) = linesFrom (bytes.reverse ++ line) rest := by
  -- the line is gathered from its last byte to its first
  induction bytes generalizing line with
  | nil => rfl
  | cons b bytes ih =>
    obtain ⟨hb, hbytes⟩ := not_or.mp fun hmem => h (List.mem_cons.mpr hmem)
    have hbeq : ¬(b == lineFeed) = true := fun heq => hb (beq_iff_eq.mp heq).symm
    rw [List.cons_append, linesFrom, if_neg hbeq, ih hbytes, List.reverse_cons, List.append_assoc]
    rfl

/-- Bytes without a line feed are one line. -/
theorem lines_eq_singleton {bytes : List UInt8} (h : lineFeed ∉ bytes) (hne : bytes ≠ []) :
    lines bytes = [bytes] := by
  have hlines := linesFrom_append h [] []
  rw [List.append_nil, List.append_nil] at hlines
  rw [lines, hlines, linesFrom, List.isEmpty_reverse, List.reverse_reverse, if_neg]
  rwa [List.isEmpty_iff]

/-- A line ends at the first line feed, and the other lines are those of the rest. -/
theorem lines_append_lineFeed {bytes : List UInt8} (h : lineFeed ∉ bytes) (rest : List UInt8) :
    lines (bytes ++ lineFeed :: rest) = (bytes ++ [lineFeed]) :: lines rest := by
  rw [lines, linesFrom_append h, List.append_nil, linesFrom, if_pos (beq_self_eq_true lineFeed),
    List.reverse_cons, List.reverse_reverse]
  rfl

/-- The line feed is taken off, and no carriage return with it when there is none. -/
theorem withoutLineEnd_append_lineFeed {bytes : List UInt8} (h : carriageReturn ∉ bytes) :
    withoutLineEnd (bytes ++ [lineFeed]) = bytes := by
  have hlast : bytes.getLast? ≠ some carriageReturn := fun hlast =>
    h (List.mem_of_getLast? hlast)
  rw [withoutLineEnd, if_pos List.getLast?_concat, List.dropLast_concat, dropReturn, if_neg hlast]

/-- What a receiver makes of bytes: each line without its end, decoded. -/
def receive (bytes : List UInt8) : List (Except Utf8Fault (List Char)) :=
  (lines bytes).map fun line => decodeUtf8 (withoutLineEnd line)

/-- What a sender makes of texts: one a line. -/
def joined (texts : List (List Char)) : List UInt8 := encodeUtf8 (['\n'].intercalate texts)

/-- Texts that are joined stand on lines of their own. -/
theorem joined_cons_cons (cs ds : List Char) (texts : List (List Char)) :
    joined (cs :: ds :: texts) = encodeUtf8 cs ++ lineFeed :: joined (ds :: texts) := by
  rw [joined, List.intercalate_cons_cons, encodeUtf8, List.flatMap_append, List.flatMap_append,
    List.append_assoc]
  rfl

/-- **Visible texts that are sent as lines arrive.** -/
theorem receive_joined {texts : List (List Char)} (h : ∀ cs ∈ texts, Visible cs ∧ cs ≠ []) :
    receive (joined texts) = texts.map .ok := by
  induction texts with
  | nil => rfl
  | cons cs texts ih =>
    obtain ⟨⟨hcs, hne⟩, htexts⟩ := List.forall_mem_cons.mp h
    have hfeed := lineFeed_notMem_encodeUtf8 hcs
    cases texts with
    | nil =>
      -- the last text has no line feed after it
      have hend : withoutLineEnd (encodeUtf8 cs) = encodeUtf8 cs :=
        withoutLineEnd_of_getLast?_ne fun hlast => hfeed (List.mem_of_getLast? hlast)
      have hline : lines (joined [cs]) = [encodeUtf8 cs] := by
        rw [joined, List.intercalate_singleton]
        exact lines_eq_singleton hfeed (encodeUtf8_ne_nil hne)
      rw [receive, hline, List.map_singleton, hend, decodeUtf8_encodeUtf8]
      rfl
    | cons ds texts =>
      have hrest := ih htexts
      rw [receive] at hrest
      rw [joined_cons_cons, receive, lines_append_lineFeed hfeed, List.map_cons, hrest,
        withoutLineEnd_append_lineFeed (carriageReturn_notMem_encodeUtf8 hcs),
        decodeUtf8_encodeUtf8]
      rfl

/-! ## White space at the ends -/

theorem dropWhile_eq_self {p : Char → Bool} {cs : List Char} (h : ∀ c ∈ cs.head?, p c = false) :
    cs.dropWhile p = cs := by
  cases cs with
  | nil => rfl
  | cons c cs =>
    have hc := h c rfl
    simp [hc]

/-- A text that neither begins nor ends with white space is not trimmed. -/
theorem trim_eq_self {cs : List Char} (hfirst : ∀ c ∈ cs.head?, isBlank c = false)
    (hlast : ∀ c ∈ cs.getLast?, isBlank c = false) : trim cs = cs := by
  rw [← List.head?_reverse] at hlast
  rw [trim, trimEnd, dropWhile_eq_self hfirst, dropWhile_eq_self hlast, List.reverse_reverse]

end RunJournal.Text
