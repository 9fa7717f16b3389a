import Mathlib.Data.List.DropRight
import RunJournal.Json.Printer
import RunJournal.Json.Reader
import RunJournal.Proofs.Text.Digits

/-!
# Tokens are read back

What the printer writes for a number or a text, the reader takes for that same number or text, and
it leaves what follows alone.

A text ends at its closing quote (`readText_escaped`). A numeral has no mark at its end, so it needs
one condition on what follows: it must not go on like a numeral (`EndsNumeral`). The readers of
numerals then do not notice what follows (`readValue_number_append`), and it is enough to know how a
numeral is read that stands alone. For an integer in range that is known (`readsBack_integer`). A
double is written by its shortest decimal and read by one rounded multiplication or division, which
may miss it by the last bit; so `ReadsBack` has to be known of each double that is written.

How a value can begin, and which reader then goes on, is said once (`ValueFound`); the reader of
values is taken apart only there.
-/

namespace RunJournal.Json

/-! ## Readers one after the other -/

section Steps

variable {ε α β : Type}

/-- Two steps succeed when the first does and the second does with its answer. -/
theorem bind_eq_ok_iff {x : Except ε α} {f : α → Except ε β} {b : β} :
    (x >>= f) = .ok b ↔ ∃ a, x = .ok a ∧ f a = .ok b := by
  cases x with
  | error fault => exact ⟨(nomatch ·), fun ⟨_, h, _⟩ => (nomatch h)⟩
  | ok a => exact ⟨fun h => ⟨a, rfl, h⟩, fun ⟨_, ha, h⟩ => by cases ha; exact h⟩

theorem map_eq_ok_iff {x : Except ε α} {f : α → β} {b : β} :
    x.map f = .ok b ↔ ∃ a, x = .ok a ∧ f a = b := by
  cases x with
  | error fault => exact ⟨(nomatch ·), fun ⟨_, h, _⟩ => (nomatch h)⟩
  | ok a =>
    refine ⟨fun h => ⟨a, rfl, Except.ok.inj h⟩, fun ⟨_, ha, h⟩ => ?_⟩
    cases ha
    exact congrArg Except.ok h

end Steps

/-! ## Space and words -/

theorem skipSpace_of_not_isSpace {c : Char} (h : isSpace c = false) (cs : List Char) :
    skipSpace (c :: cs) = c :: cs := by
  simp [skipSpace, h]

/-- A word is read off the front of a text. -/
theorem readWord_append (word rest : List Char) : readWord word (word ++ rest) = .ok rest := by
  induction word with
  | nil => rfl
  | cons c word ih =>
    show (if c = c then readWord word (word ++ rest) else .error .notJson) = _
    rw [if_pos rfl, ih]

/-! ## Numerals -/

/-- A text that does not go on like a numeral. -/
def EndsNumeral (rest : List Char) : Prop :=
  ∀ c ∈ rest.head?, c.isDigit = false ∧ c ≠ '.' ∧ c ≠ 'e' ∧ c ≠ 'E'

theorem endsNumeral_nil : EndsNumeral [] := fun _ h => nomatch h

/-- A numeral ends before a character that cannot go on with it. -/
theorem endsNumeral_cons {c : Char} (h : c.isDigit = false ∧ c ≠ '.' ∧ c ≠ 'e' ∧ c ≠ 'E')
    (rest : List Char) : EndsNumeral (c :: rest) := by
  intro d hd
  cases hd
  exact h

/-- Digits are read as far as they go. -/
theorem readDigits_eq_ok_iff {cs ds more : List Char} :
    readDigits cs = .ok (ds, more) ↔
      ds ≠ [] ∧ cs.takeWhile Char.isDigit = ds ∧ cs.dropWhile Char.isDigit = more := by
  unfold readDigits
  split
  · rename_i hnil
    rw [hnil]
    exact ⟨(nomatch ·), fun ⟨hne, hds, _⟩ => absurd hds.symm hne⟩
  · rename_i hne
    constructor
    · rintro ⟨⟩
      exact ⟨hne, rfl, rfl⟩
    · rintro ⟨-, rfl, rfl⟩
      rfl

section Append

variable {rest : List Char} (hrest : EndsNumeral rest)
include hrest

/-- The digits at the front are the same when what follows begins with none. -/
theorem takeWhile_isDigit_append (cs : List Char) :
    (cs ++ rest).takeWhile Char.isDigit = cs.takeWhile Char.isDigit := by
  induction cs with
  | nil =>
    cases rest with
    | nil => rfl
    | cons c rest => simp [(hrest c rfl).1]
  | cons c cs ih => by_cases hc : c.isDigit <;> simp [hc, ih]

/-- What stands behind the digits is the same, with what follows after it. -/
theorem dropWhile_isDigit_append (cs : List Char) :
    (cs ++ rest).dropWhile Char.isDigit = cs.dropWhile Char.isDigit ++ rest := by
  induction cs with
  | nil =>
    cases rest with
    | nil => rfl
    | cons c rest => simp [(hrest c rfl).1]
  | cons c cs ih => by_cases hc : c.isDigit <;> simp [hc, ih]

/-- Digits are read alike when what follows begins with none. -/
theorem readDigits_append {cs ds more : List Char} (h : readDigits cs = .ok (ds, more)) :
    readDigits (cs ++ rest) = .ok (ds, more ++ rest) := by
  obtain ⟨hne, rfl, rfl⟩ := readDigits_eq_ok_iff.mp h
  exact readDigits_eq_ok_iff.mpr
    ⟨hne, takeWhile_isDigit_append hrest cs, dropWhile_isDigit_append hrest cs⟩

/-- The whole part of a numeral is read alike before anything that ends a numeral. -/
theorem readWhole_append {cs ds more : List Char} (h : readWhole cs = .ok (ds, more)) :
    readWhole (cs ++ rest) = .ok (ds, more ++ rest) := by
  obtain ⟨⟨ds', more'⟩, hdigits, hwhole⟩ := bind_eq_ok_iff.mp h
  refine bind_eq_ok_iff.mpr ⟨_, readDigits_append hrest hdigits, ?_⟩
  dsimp only at hwhole ⊢
  split at hwhole
  · cases hwhole
  · rename_i hzero
    cases hwhole
    rw [if_neg hzero]

/-- A fraction, given or not, is read alike before anything that ends a numeral. -/
theorem readFraction_append {cs more : List Char} {fraction : Option (List Char)}
    (h : readFraction cs = .ok (fraction, more)) :
    readFraction (cs ++ rest) = .ok (fraction, more ++ rest) := by
  unfold readFraction at h
  split at h
  · obtain ⟨⟨ds, more'⟩, hdigits, hfraction⟩ := bind_eq_ok_iff.mp h
    cases hfraction
    exact bind_eq_ok_iff.mpr ⟨_, readDigits_append hrest hdigits, rfl⟩
  · rename_i hpoint
    cases h
    unfold readFraction
    split
    · -- a point that comes next would have been there before, or what follows begins with one
      rename_i heq
      cases cs with
      | nil => exact absurd rfl (hrest '.' (by rw [List.nil_append] at heq; rw [heq]; rfl)).2.1
      | cons c tail =>
        cases heq
        exact absurd rfl (hpoint tail)
    · rfl

theorem readPower_append {cs more : List Char} {power : Bool × List Char}
    (h : readPower cs = .ok (power, more)) :
    readPower (cs ++ rest) = .ok (power, more ++ rest) := by
  unfold readPower at h
  split at h
  · obtain ⟨_, hdigits, hpower⟩ := map_eq_ok_iff.mp h
    cases hpower
    exact map_eq_ok_iff.mpr ⟨_, readDigits_append hrest hdigits, rfl⟩
  · obtain ⟨_, hdigits, hpower⟩ := map_eq_ok_iff.mp h
    cases hpower
    exact map_eq_ok_iff.mpr ⟨_, readDigits_append hrest hdigits, rfl⟩
  · rename_i hminus hplus
    obtain ⟨⟨ds, more'⟩, hdigits, hpower⟩ := map_eq_ok_iff.mp h
    cases hpower
    have happend := readDigits_append hrest hdigits
    -- the first digit is no sign
    cases cs with
    | nil => cases hdigits
    | cons c tail =>
      unfold readPower
      split
      · rename_i heq
        cases heq
        exact absurd rfl (hminus tail)
      · rename_i heq
        cases heq
        exact absurd rfl (hplus tail)
      · exact map_eq_ok_iff.mpr ⟨_, happend, rfl⟩

/-- An exponent, given or not, is read alike before anything that ends a numeral. -/
theorem readExponent_append {cs more : List Char} {exponent : Option (Bool × List Char)}
    (h : readExponent cs = .ok (exponent, more)) :
    readExponent (cs ++ rest) = .ok (exponent, more ++ rest) := by
  unfold readExponent at h
  split at h
  · obtain ⟨_, hpower, hexponent⟩ := map_eq_ok_iff.mp h
    cases hexponent
    exact map_eq_ok_iff.mpr ⟨_, readPower_append hrest hpower, rfl⟩
  · obtain ⟨_, hpower, hexponent⟩ := map_eq_ok_iff.mp h
    cases hexponent
    exact map_eq_ok_iff.mpr ⟨_, readPower_append hrest hpower, rfl⟩
  · rename_i hlower hupper
    cases h
    -- without an exponent, the text ends here or goes on with something else than the letter
    cases cs with
    | nil =>
      show readExponent rest = _
      unfold readExponent
      split
      · exact absurd rfl (hrest 'e' rfl).2.2.1
      · exact absurd rfl (hrest 'E' rfl).2.2.2
      · rfl
    | cons c tail =>
      unfold readExponent
      split
      · rename_i heq
        cases heq
        exact absurd rfl (hlower tail)
      · rename_i heq
        cases heq
        exact absurd rfl (hupper tail)
      · rfl

/-- **A numeral is read without looking at what follows.** -/
theorem readUnsigned_append {negative : Bool} {cs more : List Char} {n : Number}
    (h : readUnsigned negative cs = .ok (n, more)) :
    readUnsigned negative (cs ++ rest) = .ok (n, more ++ rest) := by
  obtain ⟨⟨whole, cs₁⟩, hwhole, h⟩ := bind_eq_ok_iff.mp h
  obtain ⟨⟨fraction, cs₂⟩, hfraction, h⟩ := bind_eq_ok_iff.mp h
  obtain ⟨⟨exponent, cs₃⟩, hexponent, h⟩ := bind_eq_ok_iff.mp h
  refine bind_eq_ok_iff.mpr ⟨_, readWhole_append hrest hwhole, ?_⟩
  refine bind_eq_ok_iff.mpr ⟨_, readFraction_append hrest hfraction, ?_⟩
  refine bind_eq_ok_iff.mpr ⟨_, readExponent_append hrest hexponent, ?_⟩
  dsimp only at h ⊢
  split at h
  · cases h
    rfl
  · cases h

end Append

/-! ## Values that are read whatever follows -/

theorem skipSpace_skipSpace (cs : List Char) : skipSpace (skipSpace cs) = skipSpace cs :=
  List.dropWhile_idempotent _ _

/-- The space in front of a value does not count. -/
theorem readValue_skipSpace (depth : Nat) (cs : List Char) :
    readValue depth (skipSpace cs) = readValue depth cs := by
  cases depth with
  | zero =>
    unfold readValue
    rw [skipSpace_skipSpace]
  | succ depth =>
    unfold readValue
    rw [skipSpace_skipSpace]

theorem isSpace_of_isDigit {c : Char} (h : c.isDigit = true) : isSpace c = false := by
  cases hspace : isSpace c with
  | false => rfl
  | true =>
    simp only [isSpace, Bool.or_eq_true, beq_iff_eq] at hspace
    rcases hspace with ((rfl | rfl) | rfl) | rfl
    all_goals exact absurd h (by decide)

/-- A digit is the beginning of a numeral. -/
theorem readValue_of_isDigit {c : Char} (hc : c.isDigit = true) (depth : Nat) (cs : List Char) :
    readValue depth (c :: cs) =
      (readUnsigned false (c :: cs)).map fun (n, rest) => (.number n, rest) := by
  unfold readValue
  rw [skipSpace_of_not_isSpace (isSpace_of_isDigit hc)]
  split
  case h_1 heq => cases heq
  case h_9 heq =>
    cases heq
    rw [if_pos hc]
  -- every other beginning is no digit
  all_goals
    rename_i heq
    cases heq
    exact absurd hc (by decide)

/-- How a value that was read begins, and what was read behind its beginning. -/
inductive ValueFound : Nat → List Char → Json → List Char → Prop
  | null {depth : Nat} {tail rest : List Char} (h : readWord ['u', 'l', 'l'] tail = .ok rest) :
    ValueFound depth ('n' :: tail) .null rest
  | true {depth : Nat} {tail rest : List Char} (h : readWord ['r', 'u', 'e'] tail = .ok rest) :
    ValueFound depth ('t' :: tail) (.bool true) rest
  | false {depth : Nat} {tail rest : List Char}
    (h : readWord ['a', 'l', 's', 'e'] tail = .ok rest) :
    ValueFound depth ('f' :: tail) (.bool false) rest
  | text {depth : Nat} {tail rest : List Char} {s : String} (h : readText tail = .ok (s, rest)) :
    ValueFound depth ('"' :: tail) (.text s) rest
  | negative {depth : Nat} {tail rest : List Char} {n : Number}
    (h : readUnsigned true tail = .ok (n, rest)) : ValueFound depth ('-' :: tail) (.number n) rest
  | digits {depth : Nat} {c : Char} {tail rest : List Char} {n : Number} (hc : c.isDigit = true)
    (h : readUnsigned false (c :: tail) = .ok (n, rest)) :
    ValueFound depth (c :: tail) (.number n) rest
  | array {depth : Nat} {tail rest : List Char} {items : List Json}
    (h : readItems (readValue depth) (tail.length + 1) true [] tail = .ok (items, rest)) :
    ValueFound (depth + 1) ('[' :: tail) (.array items) rest
  | object {depth : Nat} {tail rest : List Char} {members : List (String × Json)}
    (h : readMembers (readMember (readValue depth)) (tail.length + 1) true [] tail =
      .ok (members, rest)) :
    ValueFound (depth + 1) ('\x7b' :: tail) (.object members.reverse) rest

/-- A value is found by its first character, once the space in front of it is skipped. -/
theorem valueFound_of_readValue {depth : Nat} {cs rest : List Char} {v : Json}
    (h : readValue depth cs = .ok (v, rest)) : ValueFound depth (skipSpace cs) v rest := by
  unfold readValue at h
  split at h
  case h_1 => cases h
  case h_2 hspace =>
    obtain ⟨_, hword, hv⟩ := map_eq_ok_iff.mp h
    cases hv
    exact hspace ▸ .null hword
  case h_3 hspace =>
    obtain ⟨_, hword, hv⟩ := map_eq_ok_iff.mp h
    cases hv
    exact hspace ▸ .true hword
  case h_4 hspace =>
    obtain ⟨_, hword, hv⟩ := map_eq_ok_iff.mp h
    cases hv
    exact hspace ▸ .false hword
  case h_5 hspace =>
    obtain ⟨_, htext, hv⟩ := map_eq_ok_iff.mp h
    cases hv
    exact hspace ▸ .text htext
  case h_6 hspace =>
    obtain ⟨_, hnumeral, hv⟩ := map_eq_ok_iff.mp h
    cases hv
    exact hspace ▸ .negative hnumeral
  case h_7 hspace =>
    split at h
    · cases h
    · obtain ⟨_, hitems, hv⟩ := map_eq_ok_iff.mp h
      cases hv
      exact hspace ▸ .array hitems
  case h_8 hspace =>
    split at h
    · cases h
    · obtain ⟨_, hmembers, hv⟩ := map_eq_ok_iff.mp h
      cases hv
      exact hspace ▸ .object hmembers
  case h_9 hspace =>
    split at h
    · rename_i hc
      obtain ⟨_, hnumeral, hv⟩ := map_eq_ok_iff.mp h
      cases hv
      exact hspace ▸ .digits hc hnumeral
    · cases h

/-- A value is a number exactly when it begins like a numeral. -/
theorem readValue_eq_number_iff {depth : Nat} {cs more : List Char} {n : Number} :
    readValue depth cs = .ok (.number n, more) ↔
      (∃ tail, skipSpace cs = '-' :: tail ∧ readUnsigned true tail = .ok (n, more)) ∨
      (∃ c tail, skipSpace cs = c :: tail ∧ c.isDigit = true ∧
        readUnsigned false (c :: tail) = .ok (n, more)) := by
  constructor
  · intro h
    have hfound := valueFound_of_readValue h
    generalize skipSpace cs = start at hfound ⊢
    cases hfound with
    | negative hnumeral => exact Or.inl ⟨_, rfl, hnumeral⟩
    | digits hc hnumeral => exact Or.inr ⟨_, _, rfl, hc, hnumeral⟩
  · rintro (⟨tail, hspace, hnumeral⟩ | ⟨c, tail, hspace, hc, hnumeral⟩)
    · unfold readValue
      rw [hspace]
      exact map_eq_ok_iff.mpr ⟨_, hnumeral, rfl⟩
    · rw [← readValue_skipSpace, hspace, readValue_of_isDigit hc, hnumeral]
      rfl

/-- Blanks are skipped alike in front of a character, whatever comes later. -/
theorem skipSpace_append_of_cons {cs tail : List Char} {c : Char} (h : skipSpace cs = c :: tail)
    (rest : List Char) : skipSpace (cs ++ rest) = c :: (tail ++ rest) := by
  unfold skipSpace at h ⊢
  rw [List.dropWhile_append, h]
  rfl

/-- **A number is read without looking at what follows.** -/
theorem readValue_number_append {rest : List Char} (hrest : EndsNumeral rest) {depth : Nat}
    {cs more : List Char} {n : Number} (h : readValue depth cs = .ok (.number n, more))
    (depth' : Nat) : readValue depth' (cs ++ rest) = .ok (.number n, more ++ rest) := by
  rcases readValue_eq_number_iff.mp h with ⟨tail, hspace, hnumeral⟩ |
    ⟨c, tail, hspace, hc, hnumeral⟩
  · exact readValue_eq_number_iff.mpr (Or.inl
      ⟨_, skipSpace_append_of_cons hspace rest, readUnsigned_append hrest hnumeral⟩)
  · exact readValue_eq_number_iff.mpr (Or.inr
      ⟨c, _, skipSpace_append_of_cons hspace rest, hc, readUnsigned_append hrest hnumeral⟩)

/-- A number whose text, read as JSON, is the number itself. -/
def ReadsBack (n : Number) : Prop := readValue 0 (printNumber n) = .ok (.number n, [])

/-- Whether a reader gave the number `n` and left nothing. -/
def isNumber (n : Number) : Except Fault (Json × List Char) → Bool
  | .ok (.number m, []) => m == n
  | _ => false

theorem isNumber_iff {n : Number} {x : Except Fault (Json × List Char)} :
    isNumber n x = true ↔ x = .ok (.number n, []) := by
  constructor
  · intro h
    unfold isNumber at h
    split at h
    · rw [beq_iff_eq.mp h]
    · cases h
  · rintro rfl
    exact beq_self_eq_true n

instance (n : Number) : Decidable (ReadsBack n) := decidable_of_iff _ isNumber_iff

/-- A number that reads back is read before anything that ends it. -/
theorem readValue_printNumber {n : Number} (hn : ReadsBack n) {rest : List Char}
    (hrest : EndsNumeral rest) (depth : Nat) :
    readValue depth (printNumber n ++ rest) = .ok (.number n, rest) :=
  readValue_number_append hrest hn depth

/-! ## Integers -/

/-- Zero is the only number that is written with a zero in front. -/
theorem eq_zero_of_head?_digits {n : Nat} (h : (Text.digits n).head? = some '0') : n = 0 := by
  induction n using Nat.strongRecOn with
  | _ n ih =>
    by_cases hn : n < 10
    · rw [Text.digits, Nat.toDigits_of_lt_base hn] at h
      have hchar : ∀ n < 10, Nat.digitChar n = '0' → n = 0 := by decide
      exact hchar n hn (Option.some.inj h)
    · -- the first digit is that of a tenth of the number, which is not zero
      rw [Text.digits, Nat.toDigits_of_base_le (by decide) (by omega),
        List.head?_append_of_ne_nil _ Nat.toDigits_ne_nil] at h
      have htenth := ih (n / 10) (by omega) h
      omega

/-- The digits of a natural number are read as a whole part. -/
theorem readWhole_digits (n : Nat) : readWhole (Text.digits n) = .ok (Text.digits n, []) := by
  have hall : ∀ c ∈ Text.digits n, c.isDigit = true := fun c => Text.isDigit_of_mem_digits
  have hdigits : readDigits (Text.digits n) = .ok (Text.digits n, []) :=
    readDigits_eq_ok_iff.mpr
      ⟨Nat.toDigits_ne_nil, List.takeWhile_eq_self_iff.mpr hall, List.dropWhile_eq_nil_iff.mpr hall⟩
  refine bind_eq_ok_iff.mpr ⟨_, hdigits, ?_⟩
  dsimp only
  split
  -- a zero in front of other digits is refused, but zero alone begins with one
  · rename_i hzero
    rw [Bool.and_eq_true, decide_eq_true_eq, decide_eq_true_eq] at hzero
    rw [eq_zero_of_head?_digits hzero.1] at hzero
    exact absurd hzero.2 (by decide)
  · rfl

/-- Digits without a fraction or an exponent are read as their number. -/
theorem readUnsigned_digits {negative : Bool} {n : Nat} {m : Number}
    (h : Numeral.value ⟨negative, Text.digits n, none, none⟩ = some m) :
    readUnsigned negative (Text.digits n) = .ok (m, []) := by
  refine bind_eq_ok_iff.mpr ⟨_, readWhole_digits n, ?_⟩
  refine bind_eq_ok_iff.mpr ⟨(none, []), rfl, bind_eq_ok_iff.mpr ⟨(none, []), rfl, ?_⟩⟩
  dsimp only
  rw [h]

/-- The integers that are kept exactly. -/
def InRange : Number → Prop
  | .integer i => -(maxNegative : Int) ≤ i ∧ i ≤ maxSignificand
  | .real _ => True

/-- **An integer in range is read back.** -/
theorem readsBack_integer {i : Int} (h : InRange (.integer i)) : ReadsBack (.integer i) := by
  obtain ⟨hlow, hhigh⟩ := h
  refine readValue_eq_number_iff.mpr ?_
  -- a sign is printed only for negative numbers, and each side has its own bound
  cases i with
  | ofNat n =>
    have hvalue : Numeral.value ⟨false, Text.digits n, none, none⟩ = some (.integer n) := by
      have hn : n ≤ maxSignificand := Int.ofNat_le.mp hhigh
      rw [Numeral.value, Text.natOfDigits_digits]
      simp [hn]
    obtain ⟨c, tail, hdigits⟩ := List.exists_cons_of_ne_nil (Nat.toDigits_ne_nil (n := n) (b := 10))
    have hc : c.isDigit = true := Text.isDigit_of_mem_digits (n := n) (by
      rw [Text.digits, hdigits]
      exact List.mem_cons_self)
    have hread := readUnsigned_digits hvalue
    refine Or.inr ⟨c, tail, ?_, hc, ?_⟩
    · show skipSpace (Nat.toDigits 10 n) = _
      rw [hdigits, skipSpace_of_not_isSpace (isSpace_of_isDigit hc)]
    · rw [← hdigits]
      exact hread
  | negSucc n =>
    have hvalue : Numeral.value ⟨true, Text.digits (n + 1), none, none⟩ =
        some (.integer (.negSucc n)) := by
      have hn : n + 1 ≤ maxNegative := by
        rw [Int.negSucc_eq] at hlow
        omega
      have hsmall : n + 1 ≤ maxSignificand := Nat.le_trans hn (by decide)
      rw [Numeral.value, Text.natOfDigits_digits]
      simp [hsmall, Nat.not_lt.mpr hn, Int.negSucc_eq]
    exact Or.inl ⟨Text.digits (n + 1), rfl, readUnsigned_digits hvalue⟩

/-! ## Texts -/

/-- A plain character of a text is read as itself. -/
theorem readTextFrom_of_plain {c : Char} (hslash : c ≠ '\\') (hquote : c ≠ '"')
    (hcontrol : ¬c.toNat < 0x20) (done rest : List Char) :
    readTextFrom none done (c :: rest) = readTextFrom none (c :: done) rest := by
  rw [readTextFrom]
  · rw [if_neg (by decide), if_neg hquote, if_neg hcontrol]
  all_goals
    intros
    exact hslash ‹_›

/-- An escape with a letter is read as what it stands for. -/
theorem readTextFrom_of_letter {letter c : Char} (h : unescape? letter = some c)
    (done rest : List Char) :
    readTextFrom none done ('\\' :: letter :: rest) = readTextFrom none (c :: done) rest := by
  have hunit : letter ≠ 'u' := by
    rintro rfl
    cases h
  rw [readTextFrom]
  · exact fun _ _ _ _ _ hu _ => hunit hu
  · exact hunit
  · exact h

/-- The code unit of a control is written with its two last digits. -/
theorem codeUnit?_hexDigit : ∀ n < 0x20,
    codeUnit? '0' '0' (hexDigit (n / 16)) (hexDigit (n % 16)) = some n := by
  decide

/-- A control character is read back from its four hex digits. -/
theorem readTextFrom_of_control {c : Char} (h : c.toNat < 0x20) (done rest : List Char) :
    readTextFrom none done ('\\' :: 'u' :: '0' :: '0' :: hexDigit (c.toNat / 16) ::
        hexDigit (c.toNat % 16) :: rest) =
      readTextFrom none (c :: done) rest := by
  -- it is far below the surrogates, so it is no half of a pair
  have hlow : isLowSurrogate c.toNat = false := by
    simp only [isLowSurrogate, Bool.and_eq_false_iff, decide_eq_false_iff_not]
    omega
  have hhigh : isHighSurrogate c.toNat = false := by
    simp only [isHighSurrogate, Bool.and_eq_false_iff, decide_eq_false_iff_not]
    omega
  rw [readTextFrom, codeUnit?_hexDigit _ h]
  dsimp only
  rw [hlow, hhigh, if_neg Bool.false_ne_true, if_neg Bool.false_ne_true, Char.ofNat_toNat]

/-- The letters that are written after a backslash. -/
def escapeLetters : List Char := ['"', '\\', 'n', 'r', 't', 'b', 'f']

/-- A character is written as a letter after a backslash, as a code unit, or as it is. -/
theorem escapeChar_cases (c : Char) :
    (∃ letter ∈ escapeLetters, unescape? letter = some c ∧ escapeChar c = ['\\', letter]) ∨
    (c.toNat < 0x20 ∧ escapeChar c =
      ['\\', 'u', '0', '0', hexDigit (c.toNat / 16), hexDigit (c.toNat % 16)]) ∨
    (c ≠ '\\' ∧ c ≠ '"' ∧ ¬c.toNat < 0x20 ∧ escapeChar c = [c]) := by
  -- seven characters have letters; of the others, control characters have digits
  by_cases hletter : c = '"' ∨ c = '\\' ∨ c = '\n' ∨ c = '\r' ∨ c = '\t' ∨ c = '\x08' ∨ c = '\x0c'
  · refine Or.inl ?_
    rcases hletter with rfl | rfl | rfl | rfl | rfl | rfl | rfl
    · exact ⟨'"', by decide, rfl, rfl⟩
    · exact ⟨'\\', by decide, rfl, rfl⟩
    · exact ⟨'n', by decide, rfl, rfl⟩
    · exact ⟨'r', by decide, rfl, rfl⟩
    · exact ⟨'t', by decide, rfl, rfl⟩
    · exact ⟨'b', by decide, rfl, rfl⟩
    · exact ⟨'f', by decide, rfl, rfl⟩
  · refine Or.inr ?_
    simp only [not_or] at hletter
    obtain ⟨hquote, hslash, hfeed, hreturn, htab, hback, hform⟩ := hletter
    unfold escapeChar
    rw [if_neg hquote, if_neg hslash, if_neg hfeed, if_neg hreturn, if_neg htab, if_neg hback,
      if_neg hform]
    by_cases hcontrol : c.toNat < 0x20
    · exact Or.inl ⟨hcontrol, if_pos hcontrol⟩
    · exact Or.inr ⟨hslash, hquote, hcontrol, if_neg hcontrol⟩

/-- A character is read back however it was escaped. -/
theorem readTextFrom_escapeChar (done : List Char) (c : Char) (rest : List Char) :
    readTextFrom none done (escapeChar c ++ rest) = readTextFrom none (c :: done) rest := by
  rcases escapeChar_cases c with ⟨letter, -, hletter, heq⟩ | ⟨hcontrol, heq⟩ |
    ⟨hslash, hquote, hcontrol, heq⟩
  · rw [heq]
    exact readTextFrom_of_letter hletter done rest
  · rw [heq]
    exact readTextFrom_of_control hcontrol done rest
  · rw [heq]
    exact readTextFrom_of_plain hslash hquote hcontrol done rest

/-- **A text is read back**, whatever follows its closing quote. -/
theorem readText_escaped (s : String) (rest : List Char) :
    readText (s.toList.flatMap escapeChar ++ '"' :: rest) = .ok (s, rest) := by
  have hchars : ∀ cs done, readTextFrom none done (cs.flatMap escapeChar ++ '"' :: rest) =
      .ok (String.ofList (done.reverse ++ cs), rest) := by
    intro cs
    induction cs with
    | nil =>
      intro done
      rw [List.append_nil]
      rfl
    | cons c cs ih =>
      intro done
      rw [List.flatMap_cons, List.append_assoc, readTextFrom_escapeChar, ih, List.reverse_cons,
        List.append_assoc]
      rfl
  rw [readText, hchars, List.reverse_nil, List.nil_append, String.ofList_toList]

end RunJournal.Json
