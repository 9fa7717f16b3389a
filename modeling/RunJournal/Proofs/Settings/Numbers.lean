import Mathlib.Data.List.Induction
import Mathlib.Data.Nat.Digits.Defs
import RunJournal.Proofs.Json.Token
import RunJournal.Proofs.Settings.Resolution
import RunJournal.Proofs.Text.Page

/-!
# The numbers of an identity

Two variables of an environment hold numbers: which workflow run is recorded, and which try of it.
`Text.Spelling` says what such a number may look like, with no regard to how it is read: white
space, perhaps a sign, digits, white space. Its value is the sum of its digits times their powers of
ten, so it is a number of any size, and leading zeros do not count.

A variable is read as the value of its spelling, if it has one and the value fits
(`NumberVariable.reads_exactly`). At the lower end of a range stands a number that has no positive
counterpart in it; whether a number fits is therefore asked of the number with its sign.
-/

namespace RunJournal

namespace Text

/-! ## Spellings -/

/-- What may stand before the digits of a number. -/
inductive Sign where
  | absent
  | plus
  | minus

/-- A sign as text. -/
def Sign.chars : Sign → List Char
  | absent => []
  | plus => ['+']
  | minus => ['-']

/-- The number with this sign. -/
def Sign.apply : Sign → Nat → Int
  | absent, n => n
  | plus, n => n
  | minus, n => -n

/-- A way to write an integer: white space, perhaps a sign, one or more digits, white space. -/
structure Spelling where
  before : List Char
  sign : Sign
  digits : List Char
  after : List Char
  blank_before : ∀ c ∈ before, isBlank c = true
  digits_ne_nil : digits ≠ []
  isDigit_digits : ∀ c ∈ digits, c.isDigit = true
  blank_after : ∀ c ∈ after, isBlank c = true

namespace Spelling

/-- A spelling without the white space around it. -/
def core (s : Spelling) : List Char := s.sign.chars ++ s.digits

/-- A spelling as text. -/
def text (s : Spelling) : List Char := s.before ++ s.core ++ s.after

/-- The integer that is written: each digit counts ten times as much as the one after it. -/
def value (s : Spelling) : Int :=
  s.sign.apply (Nat.ofDigits 10 (s.digits.reverse.map digitValue))

end Spelling

/-- The number of a run of digits is the one of its positional value. -/
theorem natOfDigits_eq_ofDigits (ds : List Char) :
    natOfDigits ds = Nat.ofDigits 10 (ds.reverse.map digitValue) := by
  induction ds using List.reverseRecOn with
  | nil => rfl
  | append_singleton ds d ih =>
    rw [List.reverse_append, List.reverse_singleton, List.singleton_append, List.map_cons,
      Nat.ofDigits_cons, ← ih, natOfDigits, List.foldl_append]
    exact Nat.add_comm _ _

theorem isBlank_of_isDigit {c : Char} (h : c.isDigit = true) : isBlank c = false := by
  simp only [Char.isDigit, Bool.and_eq_true, decide_eq_true_eq, UInt32.le_iff_toNat_le] at h
  have hlow : 48 ≤ c.toNat := h.1
  have hhigh : c.toNat ≤ 57 := h.2
  unfold isBlank
  simp only [Bool.or_eq_false_iff, Bool.and_eq_false_iff, decide_eq_false_iff_not,
    beq_eq_false_iff_ne]
  omega

/-- There is no white space at the ends of a spelling but the one around it. -/
theorem Spelling.trim_text (s : Spelling) : trim s.text = s.core := by
  -- a sign or a digit begins the core and a digit ends it, so trimming stops there
  have hfirst : ∀ c ∈ s.core.head?, isBlank c = false := by
    intro c hc
    unfold core at hc
    cases hsign : s.sign with
    | absent =>
      rw [hsign] at hc
      exact isBlank_of_isDigit (s.isDigit_digits c (List.mem_of_mem_head? hc))
    | plus =>
      rw [hsign] at hc
      cases hc
      rfl
    | minus =>
      rw [hsign] at hc
      cases hc
      rfl
  have hlast : ∀ c ∈ s.core.getLast?, isBlank c = false := by
    intro c hc
    rw [core, List.getLast?_append_of_ne_nil _ s.digits_ne_nil] at hc
    exact isBlank_of_isDigit (s.isDigit_digits c (List.mem_of_getLast? hc))
  rw [text, trim_padded s.blank_before s.blank_after, trim_eq_self hfirst hlast]

/-- A text is its trimmed form with white space around it. -/
theorem exists_padding (cs : List Char) :
    ∃ before after, (∀ c ∈ before, isBlank c = true) ∧ (∀ c ∈ after, isBlank c = true) ∧
      cs = before ++ trim cs ++ after := by
  let rest := cs.dropWhile isBlank
  refine ⟨cs.takeWhile isBlank, (rest.reverse.takeWhile isBlank).reverse,
    fun c hc => List.mem_takeWhile_imp hc,
    fun c hc => List.mem_takeWhile_imp (List.mem_reverse.mp hc), ?_⟩
  have hrest : trim cs ++ (rest.reverse.takeWhile isBlank).reverse = rest := by
    rw [trim, trimEnd, ← List.reverse_append, List.takeWhile_append_dropWhile,
      List.reverse_reverse]
  rw [List.append_assoc, hrest, List.takeWhile_append_dropWhile]

/-- **What is left of a text without white space around it denotes an integer exactly if the text
spells it.** -/
theorem denotes_trim_iff {cs : List Char} {i : Int} :
    Denotes (trim cs) i ↔ ∃ s : Spelling, s.text = cs ∧ s.value = i := by
  constructor
  · intro h
    -- what is trimmed off on both sides are the blanks of the spelling
    obtain ⟨before, after, hbefore, hafter, hcs⟩ := exists_padding cs
    generalize trim cs = core at h hcs
    subst hcs
    cases h with
    | unsigned h =>
      exact ⟨⟨before, .absent, _, after, hbefore, h.1, h.2, hafter⟩, rfl,
        congrArg Int.ofNat (natOfDigits_eq_ofDigits _).symm⟩
    | plus h =>
      exact ⟨⟨before, .plus, _, after, hbefore, h.1, h.2, hafter⟩, rfl,
        congrArg Int.ofNat (natOfDigits_eq_ofDigits _).symm⟩
    | minus h =>
      exact ⟨⟨before, .minus, _, after, hbefore, h.1, h.2, hafter⟩, rfl,
        congrArg (fun n : Nat => -(n : Int)) (natOfDigits_eq_ofDigits _).symm⟩
  · rintro ⟨s, rfl, rfl⟩
    rw [s.trim_text, Spelling.value, ← natOfDigits_eq_ofDigits, Spelling.core]
    have hnumeral : IsNumeral s.digits := ⟨s.digits_ne_nil, s.isDigit_digits⟩
    cases s.sign with
    | absent => exact .unsigned hnumeral
    | plus => exact .plus hnumeral
    | minus => exact .minus hnumeral

/-- The decimal text of an integer, with white space around it, spells the integer. -/
theorem exists_spelling (i : Int) {before after : List Char}
    (hbefore : ∀ c ∈ before, isBlank c = true) (hafter : ∀ c ∈ after, isBlank c = true) :
    ∃ s : Spelling, s.text = before ++ integerDigits i ++ after ∧ s.value = i := by
  have hne : ∀ n : Nat, Text.digits n ≠ [] := fun n => Nat.toDigits_ne_nil
  have hvalue : ∀ n : Nat, Nat.ofDigits 10 ((Text.digits n).reverse.map digitValue) = n := by
    intro n
    rw [← natOfDigits_eq_ofDigits, natOfDigits_digits]
  cases i with
  | ofNat n =>
    exact ⟨⟨before, .absent, Text.digits n, after, hbefore, hne n, fun _ => isDigit_of_mem_digits,
      hafter⟩, rfl, congrArg Int.ofNat (hvalue n)⟩
  | negSucc n =>
    exact ⟨⟨before, .minus, Text.digits (n + 1), after, hbefore, hne _,
      fun _ => isDigit_of_mem_digits, hafter⟩, rfl,
      congrArg (fun n : Nat => -(n : Int)) (hvalue (n + 1))⟩

end Text

/-! ## Variables that hold numbers -/

/-- The numbers of an identity. -/
inductive NumberVariable where
  /-- Which workflow run is recorded. -/
  | run
  /-- Which try of it is recorded. -/
  | attempt

namespace NumberVariable

/-- The variable that holds the number. -/
def name : NumberVariable → String
  | run => "RUNID"
  | attempt => "ATTEMPT_NUMBER"

/-- What an error says about the variable. -/
def expected : NumberVariable → String
  | run => "an integer workflow run id"
  | attempt => "an integer attempt number"

/-- How many bits the number has, one of them for the sign. -/
def bits : NumberVariable → Nat
  | run => 64
  | attempt => 32

/-- The bits are enough for this integer. -/
def Fits (v : NumberVariable) (i : Int) : Prop := -2 ^ (v.bits - 1) ≤ i ∧ i < 2 ^ (v.bits - 1)

instance (v : NumberVariable) (i : Int) : Decidable (v.Fits i) :=
  inferInstanceAs (Decidable (_ ∧ _))

/-- The least and the greatest number that is accepted. -/
def range : NumberVariable → Int × Int
  | run => workflowRange
  | attempt => attemptRange

theorem fits_iff {v : NumberVariable} {i : Int} : v.Fits i ↔ v.range.1 ≤ i ∧ i ≤ v.range.2 := by
  cases v with
  | run =>
    show (-2 ^ 63 : Int) ≤ i ∧ i < 2 ^ 63 ↔ -9223372036854775808 ≤ i ∧ i ≤ 9223372036854775807
    omega
  | attempt =>
    show (-2 ^ 31 : Int) ≤ i ∧ i < 2 ^ 31 ↔ -2147483648 ≤ i ∧ i ≤ 2147483647
    omega

end NumberVariable

/-- The number that an environment gives. -/
def Environment.number (env : Environment) (v : NumberVariable) : Except ConfigError Int :=
  env.requireInt v.name v.expected v.range.1 v.range.2

/-- The number that an identity has. -/
def Identity.number (identity : Identity) : NumberVariable → Int
  | .run => identity.workflowId
  | .attempt => identity.attempt

section Variables

variable {env : Environment} {v : NumberVariable} {value : String}

theorem Environment.number_of_gives (h : env.Gives v.name value) :
    env.number v =
      match Text.readIntIn v.range.1 v.range.2 (Text.trim value.toList) with
      | some i => .ok i
      | none => .error (.invalid v.name value v.expected) := by
  rw [number, requireInt, require, get?_eq_some_iff.mpr h]
  rfl

/-- A number that is given is the value of its spelling, and fits. -/
theorem Environment.number_eq_ok_iff (h : env.Gives v.name value) {i : Int} :
    env.number v = .ok i ↔
      (∃ s : Text.Spelling, s.text = value.toList ∧ s.value = i) ∧ v.Fits i := by
  rw [← Text.denotes_trim_iff, NumberVariable.fits_iff, ← Text.readIntIn_eq_some_iff,
    number_of_gives h]
  cases Text.readIntIn v.range.1 v.range.2 (Text.trim value.toList) with
  | none => exact ⟨nofun, nofun⟩
  | some j => exact (Except.ok.injEq j i).to_iff.trans Option.some_inj.symm

/-- The only error about a variable that is there has its value as it stands. -/
theorem Environment.number_eq_error (h : env.Gives v.name value)
    (hnone : ∀ i, env.number v ≠ .ok i) :
    env.number v = .error (.invalid v.name value v.expected) := by
  rw [number_of_gives h] at hnone ⊢
  cases hread : Text.readIntIn v.range.1 v.range.2 (Text.trim value.toList) with
  | none => rfl
  | some i =>
    rw [hread] at hnone
    exact absurd rfl (hnone i)

/-- The numbers of an identity are those of its environment. -/
theorem Identity.number_of_ofEnvironment {identity : Identity}
    (h : Identity.ofEnvironment env = .ok identity) (v : NumberVariable) :
    env.number v = .ok (identity.number v) := by
  unfold Identity.ofEnvironment at h
  obtain ⟨run, hrun, h⟩ := Json.bind_eq_ok_iff.mp h
  obtain ⟨attempt, hattempt, h⟩ := Json.bind_eq_ok_iff.mp h
  obtain ⟨repo, -, h⟩ := Json.bind_eq_ok_iff.mp h
  obtain ⟨committer, -, h⟩ := Json.bind_eq_ok_iff.mp h
  obtain ⟨runType, -, h⟩ := Json.bind_eq_ok_iff.mp h
  obtain ⟨branch, -, h⟩ := Json.bind_eq_ok_iff.mp h
  obtain ⟨matrixId, -, h⟩ := Json.bind_eq_ok_iff.mp h
  cases h
  cases v with
  | run => exact hrun
  | attempt => exact hattempt

end Variables

/-- **Numbers are read exactly.** A variable that holds a number, with whatever white space, sign
and leading zeros, is read as that number if the number fits, and as nothing else; so each number
that fits is had from its decimal text. Otherwise the error tells the value untrimmed. An identity
has the numbers that are so read. -/
theorem NumberVariable.reads_exactly (v : NumberVariable) {env : Environment} {value : String}
    (hgives : env.Gives v.name value) :
    (∀ i, env.number v = .ok i ↔
        (∃ s : Text.Spelling, s.text = value.toList ∧ s.value = i) ∧ v.Fits i) ∧
      ((∀ i, env.number v ≠ .ok i) → env.number v = .error (.invalid v.name value v.expected)) ∧
      (∀ i before after, v.Fits i → (∀ c ∈ before, Text.isBlank c = true) →
        (∀ c ∈ after, Text.isBlank c = true) →
        value.toList = before ++ Text.integerDigits i ++ after → env.number v = .ok i) ∧
      ∀ identity, Identity.ofEnvironment env = .ok identity →
        env.number v = .ok (identity.number v) := by
  refine ⟨fun i => Environment.number_eq_ok_iff hgives, Environment.number_eq_error hgives,
    fun i before after hfits hbefore hafter hvalue => ?_,
    fun identity h => Identity.number_of_ofEnvironment h v⟩
  obtain ⟨s, htext, hi⟩ := Text.exists_spelling i hbefore hafter
  exact (Environment.number_eq_ok_iff hgives).mpr ⟨⟨s, htext.trans hvalue.symm, hi⟩, hfits⟩

/-- The least number of a run with leading zeros, and the greatest of a try, among white space. -/
def extremeNumbers : Environment :=
  [("RUNID", "\u3000-0009223372036854775808\t"), ("ATTEMPT_NUMBER", "\u00A02147483647\n"),
    ("REPOSITORY", "r"), ("COMMITTER", "c"), ("TAG", "t"), ("BRANCH", "b"), ("THIS_RUNNER", "1")]

theorem NumberVariable.reads_exactly_extremeNumbers :
    extremeNumbers.Gives "RUNID" "\u3000-0009223372036854775808\t" ∧
      extremeNumbers.number .run = .ok (-9223372036854775808) ∧
      extremeNumbers.number .attempt = .ok 2147483647 ∧
      ∃ identity, Identity.ofEnvironment extremeNumbers = .ok identity ∧
        identity.workflowId = -9223372036854775808 := by
  have hrun : extremeNumbers.Gives "RUNID" "\u3000-0009223372036854775808\t" :=
    Environment.get?_eq_some_iff.mp (by decide)
  have hattempt : extremeNumbers.Gives "ATTEMPT_NUMBER" "\u00A02147483647\n" :=
    Environment.get?_eq_some_iff.mp (by decide)
  obtain ⟨hspelt, -, -, hidentity⟩ := NumberVariable.reads_exactly .run hrun
  obtain ⟨-, -, hpadded, -⟩ := NumberVariable.reads_exactly .attempt hattempt
  -- the spelling is written out, with its blanks, its sign and its zeros
  let least : Text.Spelling :=
    { before := ['\u3000']
      sign := .minus
      digits := "0009223372036854775808".toList
      after := ['\t']
      blank_before := List.all_eq_true.mp (by decide)
      digits_ne_nil := by decide
      isDigit_digits := List.all_eq_true.mp (by decide)
      blank_after := List.all_eq_true.mp (by decide) }
  have hleast : extremeNumbers.number .run = .ok (-9223372036854775808) :=
    (hspelt _).mpr ⟨⟨least, by decide, by decide +kernel⟩, by decide⟩
  have hgreatest : extremeNumbers.number .attempt = .ok 2147483647 :=
    hpadded 2147483647 ['\u00A0'] ['\n'] (by decide) (List.all_eq_true.mp (by decide))
      (List.all_eq_true.mp (by decide)) (by decide)
  obtain ⟨identity, h⟩ : ∃ identity, Identity.ofEnvironment extremeNumbers = .ok identity :=
    ⟨_, rfl⟩
  refine ⟨hrun, hleast, hgreatest, identity, h, ?_⟩
  exact Except.ok.inj ((hidentity identity h).symm.trans hleast)

/-- A number that is one too great, and a sign without digits. -/
example : Environment.number [("RUNID", " 9223372036854775808")] .run =
      .error (.invalid "RUNID" " 9223372036854775808" "an integer workflow run id") ∧
    Environment.number [("ATTEMPT_NUMBER", "+ 1")] .attempt =
      .error (.invalid "ATTEMPT_NUMBER" "+ 1" "an integer attempt number") := by
  decide +kernel

end RunJournal
