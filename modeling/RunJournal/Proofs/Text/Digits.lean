import Mathlib.Data.List.Basic
import RunJournal.Text.Digits

/-!
# Numbers are told by their digits

Different numbers are written differently (`digits_injective`, `integerDigits_injective`), and what
is written are digits and perhaps a sign in front. A character that is neither thus marks the end of
a number among others, and what is joined by it can be taken apart again.

`Denotes` says which integer a text stands for, if any, and `readInt_eq_some_iff` that it is the one
that is read.
-/

namespace RunJournal.Text

/-- The digits of a number are read back. -/
theorem natOfDigits_digits (n : Nat) : natOfDigits (digits n) = n := by
  have h := Nat.ofDigitChars_toDigits (b := 10) (n := n) (by decide) (by decide)
  rw [Nat.ofDigitChars_eq_foldl] at h
  exact h

theorem isDigit_of_mem_digits {n : Nat} {c : Char} (h : c ∈ digits n) : c.isDigit = true :=
  Nat.isDigit_of_mem_toDigits (by decide) (by decide) h

/-- Numbers with the same digits are the same. -/
theorem digits_injective : Function.Injective digits := by
  intro m n h
  rw [← natOfDigits_digits m, ← natOfDigits_digits n, h]

/-- Integers with the same digits and sign are the same. -/
theorem integerDigits_injective : Function.Injective integerDigits := by
  intro i j h
  -- a sign is no digit, so that it tells a negative number from one that is not
  have hsign : ∀ n : Nat, '-' ∉ digits n := by
    intro n hmem
    cases isDigit_of_mem_digits hmem
  -- by sign, on both sides
  cases i with
  | ofNat m =>
    cases j with
    | ofNat n => exact congrArg Int.ofNat (digits_injective h)
    | negSucc n =>
      refine absurd (?_ : '-' ∈ digits m) (hsign m)
      rw [show digits m = '-' :: digits (n + 1) from h]
      exact List.mem_cons_self
  | negSucc m =>
    cases j with
    | ofNat n =>
      refine absurd (?_ : '-' ∈ digits n) (hsign n)
      rw [← show '-' :: digits (m + 1) = digits n from h]
      exact List.mem_cons_self
    | negSucc n =>
      have hsucc : m + 1 = n + 1 := digits_injective (List.cons.inj h).2
      rw [Nat.succ.inj hsucc]

/-- Nothing stands in an integer but digits and a sign. -/
theorem isDigit_or_eq_of_mem_integerDigits {i : Int} {c : Char} (h : c ∈ integerDigits i) :
    c.isDigit = true ∨ c = '-' := by
  cases i with
  | ofNat n => exact .inl (isDigit_of_mem_digits h)
  | negSucc n =>
    rcases List.mem_cons.mp h with hsign | hmem
    · exact .inr hsign
    · exact .inl (isDigit_of_mem_digits hmem)

theorem notMem_integerDigits {c : Char} (hdigit : c.isDigit = false) (hsign : c ≠ '-') (i : Int) :
    c ∉ integerDigits i := by
  intro hmem
  rcases isDigit_or_eq_of_mem_integerDigits hmem with h | h
  · rw [h] at hdigit
    cases hdigit
  · exact hsign h

theorem intText_injective : Function.Injective intText := by
  intro i j h
  exact integerDigits_injective (String.ofList_injective h)

/-! ## What a text denotes -/

/-- One or more ASCII digits. -/
def IsNumeral (cs : List Char) : Prop := cs ≠ [] ∧ ∀ c ∈ cs, c.isDigit = true

/-- The integer that a text stands for: digits, perhaps with one sign in front. -/
inductive Denotes : List Char → Int → Prop where
  | unsigned {ds : List Char} (h : IsNumeral ds) : Denotes ds (natOfDigits ds)
  | plus {ds : List Char} (h : IsNumeral ds) : Denotes ('+' :: ds) (natOfDigits ds)
  | minus {ds : List Char} (h : IsNumeral ds) : Denotes ('-' :: ds) (-(natOfDigits ds : Int))

/-- A natural number is read from digits and from nothing else. -/
theorem readNat_eq_some_iff {cs : List Char} {n : Nat} :
    readNat cs = some n ↔ IsNumeral cs ∧ n = natOfDigits cs := by
  rw [readNat, Option.ite_none_right_eq_some, Bool.and_eq_true, Bool.not_eq_true',
    ← Bool.not_eq_true, List.isEmpty_iff, List.all_eq_true]
  exact and_congr_right fun _ => Option.some_inj.trans eq_comm

theorem readInt_minus (cs : List Char) :
    readInt ('-' :: cs) = (readNat cs).map fun n : Nat => -(n : Int) := by
  rw [readInt]
  cases readNat cs <;> rfl

/-- **Texts are read as what they denote.** -/
theorem readInt_eq_some_iff {cs : List Char} {i : Int} : readInt cs = some i ↔ Denotes cs i := by
  constructor
  · intro h
    have hread : ∀ {ds : List Char} {f : Nat → Int}, (readNat ds).map f = some i →
        IsNumeral ds ∧ f (natOfDigits ds) = i := by
      intro ds f hmap
      obtain ⟨n, hn, hi⟩ := Option.map_eq_some_iff.mp hmap
      obtain ⟨hds, rfl⟩ := readNat_eq_some_iff.mp hn
      exact ⟨hds, hi⟩
    unfold readInt at h
    split at h
    · obtain ⟨hds, rfl⟩ := hread h
      exact .plus hds
    · rename_i ds
      obtain ⟨hds, rfl⟩ := hread ((readInt_minus ds).symm.trans h)
      exact .minus hds
    · obtain ⟨hds, rfl⟩ := hread h
      exact .unsigned hds
  · intro h
    cases h with
    | plus h => exact Option.map_eq_some_iff.mpr ⟨_, readNat_eq_some_iff.mpr ⟨h, rfl⟩, rfl⟩
    | minus h =>
      rw [readInt_minus]
      exact Option.map_eq_some_iff.mpr ⟨_, readNat_eq_some_iff.mpr ⟨h, rfl⟩, rfl⟩
    | unsigned h =>
      have hread : (readNat cs).map Int.ofNat = some (natOfDigits cs : Int) :=
        Option.map_eq_some_iff.mpr ⟨_, readNat_eq_some_iff.mpr ⟨h, rfl⟩, rfl⟩
      unfold readInt
      split
      · -- a sign is no digit
        exact absurd (h.2 _ List.mem_cons_self) (by decide)
      · exact absurd (h.2 _ List.mem_cons_self) (by decide)
      · exact hread

/-- An integer is read from what denotes it when it is in range. -/
theorem readIntIn_eq_some_iff {low high : Int} {cs : List Char} {i : Int} :
    readIntIn low high cs = some i ↔ Denotes cs i ∧ low ≤ i ∧ i ≤ high := by
  rw [readIntIn, Option.filter_eq_some_iff, readInt_eq_some_iff, Bool.and_eq_true,
    decide_eq_true_iff, decide_eq_true_iff]

end RunJournal.Text
