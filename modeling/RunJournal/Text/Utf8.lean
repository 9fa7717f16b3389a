/-!
# UTF-8

Bytes to characters, with the place of the first fault. A fault is **incomplete** when the bytes
end inside a sequence that was well formed so far, and **invalid** otherwise; an invalid
sequence has the length of its longest well formed beginning, one byte at least.
-/

namespace RunJournal.Text

/-- Where bytes stop being UTF-8: the index of the first byte of the faulty sequence. -/
inductive Utf8Fault where
  | invalid (length index : Nat)
  | incomplete (index : Nat)
deriving DecidableEq, Repr

/-- The wording of a fault. -/
def Utf8Fault.message : Utf8Fault → String
  | .invalid length index =>
    "invalid utf-8 sequence of " ++ toString length ++ " bytes from index " ++ toString index
  | .incomplete index => "incomplete utf-8 byte sequence from index " ++ toString index

/-- The number of bytes in the sequence that `lead` begins, if it begins one. -/
def sequenceLength (lead : UInt8) : Option Nat :=
  if lead < 0x80 then some 1
  else if 0xC2 ≤ lead && lead ≤ 0xDF then some 2
  else if 0xE0 ≤ lead && lead ≤ 0xEF then some 3
  else if 0xF0 ≤ lead && lead ≤ 0xF4 then some 4
  else none

/-- A byte that continues a sequence. -/
def isContinuation (b : UInt8) : Bool := 0x80 ≤ b && b ≤ 0xBF

/-- Whether `b` may follow `lead`: overlong forms, surrogates and code points above U+10FFFF
are excluded by narrowing the second byte. -/
def isSecond (lead b : UInt8) : Bool :=
  if lead == 0xE0 then 0xA0 ≤ b && b ≤ 0xBF
  else if lead == 0xED then 0x80 ≤ b && b ≤ 0x9F
  else if lead == 0xF0 then 0x90 ≤ b && b ≤ 0xBF
  else if lead == 0xF4 then 0x80 ≤ b && b ≤ 0x8F
  else isContinuation b

/-- The six bits that a continuation byte carries. -/
def payload (b : UInt8) : Nat := b.toNat % 64

/-- The characters of `bytes`, which start at `index`; `done` holds, last first, the characters
before them. -/
def decodeUtf8From (index : Nat) (done : List Char) :
    List UInt8 → Except Utf8Fault (List Char)
  | [] => .ok done.reverse
  | lead :: rest =>
    match sequenceLength lead with
    | some 1 => decodeUtf8From (index + 1) (Char.ofNat lead.toNat :: done) rest
    | some 2 =>
      match rest with
      | [] => .error (.incomplete index)
      | b :: rest =>
        if !isSecond lead b then .error (.invalid 1 index)
        else
          let n := lead.toNat % 32 * 64 + payload b
          decodeUtf8From (index + 2) (Char.ofNat n :: done) rest
    | some 3 =>
      match rest with
      | [] => .error (.incomplete index)
      | b :: rest =>
        if !isSecond lead b then .error (.invalid 1 index)
        else match rest with
        | [] => .error (.incomplete index)
        | c :: rest =>
          if !isContinuation c then .error (.invalid 2 index)
          else
            let n := (lead.toNat % 16 * 64 + payload b) * 64 + payload c
            decodeUtf8From (index + 3) (Char.ofNat n :: done) rest
    | some 4 =>
      match rest with
      | [] => .error (.incomplete index)
      | b :: rest =>
        if !isSecond lead b then .error (.invalid 1 index)
        else match rest with
        | [] => .error (.incomplete index)
        | c :: rest =>
          if !isContinuation c then .error (.invalid 2 index)
          else match rest with
          | [] => .error (.incomplete index)
          | d :: rest =>
            if !isContinuation d then .error (.invalid 3 index)
            else
              let n := ((lead.toNat % 8 * 64 + payload b) * 64 + payload c) * 64 + payload d
              decodeUtf8From (index + 4) (Char.ofNat n :: done) rest
    | _ => .error (.invalid 1 index)

/-- The characters that `bytes` encode. -/
def decodeUtf8 (bytes : List UInt8) : Except Utf8Fault (List Char) :=
  decodeUtf8From 0 [] bytes

/-- The bytes of a text. -/
def encodeUtf8 (cs : List Char) : List UInt8 := cs.flatMap String.utf8EncodeChar

end RunJournal.Text
