import Mathlib.Data.List.Basic
import Mathlib.Logic.Function.Basic
import RunJournal.Artifact.ObjectPath

/-!
# Keys and the paths of their objects

Two keys are of one object exactly if they have the same segments (`objectPath_eq_iff`): what stands
in a path can be read again, so that nothing but empty segments is lost on the way from a key to its
path. A key of ASCII letters, digits, `_` and `-` is its own path (`PlainKey.objectPath_eq`).
-/

namespace RunJournal

/-! ## What stands in a path -/

theorem standsInPath_iff {c : Char} :
    standsInPath c = true ↔ 0x20 ≤ c.toNat ∧ c.toNat < 0x7F ∧ c ∉ reservedInPaths := by
  simp only [standsInPath, Bool.and_eq_true, decide_eq_true_iff, Bool.not_eq_true',
    List.contains_eq_mem, decide_eq_false_iff_not, and_assoc]

/-- The separator and the mark of percent notation are among the characters that are reserved. -/
theorem ne_of_standsInPath {c : Char} (h : standsInPath c = true) : c ≠ '/' ∧ c ≠ '%' := by
  obtain ⟨-, -, hfree⟩ := standsInPath_iff.mp h
  exact ⟨fun hc => hfree (hc ▸ by decide), fun hc => hfree (hc ▸ by decide)⟩

theorem slash_notMem_percentByte (b : UInt8) : '/' ∉ percentByte b := by
  have hdigit : ∀ n < 16, '/' ≠ percentDigit n := by decide
  have hlt := b.toNat_lt
  intro hmem
  rcases List.mem_cons.mp hmem with hmark | hmem
  · exact absurd hmark (by decide)
  rcases List.mem_cons.mp hmem with hhigh | hmem
  · exact hdigit _ (by omega) hhigh
  · exact hdigit _ (by omega) (List.mem_singleton.mp hmem)

/-- No byte of a segment is written with a slash, so a slash always parts two segments. -/
theorem slash_notMem_pathByte (b : UInt8) : '/' ∉ pathByte b := by
  unfold pathByte
  split
  · rename_i hstands
    intro hmem
    exact (ne_of_standsInPath hstands).1 (List.mem_singleton.mp hmem).symm
  · exact slash_notMem_percentByte b

/-- Nothing that is written in a segment separates it. -/
theorem slash_notMem_pathSegment (segment : List Char) : '/' ∉ pathSegment segment := by
  intro hmem
  obtain ⟨b, -, hb⟩ := List.mem_flatMap.mp hmem
  split at hb
  · exact slash_notMem_percentByte b hb
  · exact slash_notMem_pathByte b hb

/-! ## Reading a path -/

/-- The value of a digit in percent notation. -/
def percentValue (c : Char) : Nat := if c.isDigit then c.toNat - 0x30 else c.toNat - 0x37

/-- The bytes that a text in percent notation stands for. -/
def pathBytes : List Char → List UInt8
  | [] => []
  | '%' :: high :: low :: rest =>
    UInt8.ofNat (16 * percentValue high + percentValue low) :: pathBytes rest
  | c :: rest => UInt8.ofNat c.toNat :: pathBytes rest

theorem pathBytes_percentByte (b : UInt8) (rest : List Char) :
    pathBytes (percentByte b ++ rest) = b :: pathBytes rest := by
  have hdigit : ∀ n < 16, percentValue (percentDigit n) = n := by decide
  have hlt := b.toNat_lt
  show UInt8.ofNat (16 * percentValue (percentDigit (b.toNat / 16)) +
    percentValue (percentDigit (b.toNat % 16))) :: pathBytes rest = _
  rw [hdigit _ (by omega), hdigit _ (by omega), Nat.div_add_mod, UInt8.ofNat_toNat]

/-- A byte is read back, whether it stands for itself or not. -/
theorem pathBytes_pathByte (b : UInt8) (rest : List Char) :
    pathBytes (pathByte b ++ rest) = b :: pathBytes rest := by
  unfold pathByte
  split
  · rename_i hstands
    have hcode : (Char.ofNat b.toNat).toNat = b.toNat := by
      have hlt := b.toNat_lt
      rw [Char.ofNat, dif_pos (.inl (by omega))]
      rfl
    -- a byte that stands for itself is no percent sign, so that it begins no notation
    have hmark := (ne_of_standsInPath hstands).2
    rw [List.singleton_append, pathBytes, hcode, UInt8.ofNat_toNat]
    intro high low rest' hc
    exact absurd hc hmark
  · exact pathBytes_percentByte b rest

/-- **What a segment says can be read off what is written for it**, whichever way that is. -/
theorem pathBytes_pathSegment (segment : List Char) :
    pathBytes (pathSegment segment) = segment.flatMap String.utf8EncodeChar := by
  have hread {write : UInt8 → List Char}
      (hwrite : ∀ b rest, pathBytes (write b ++ rest) = b :: pathBytes rest) (bytes : List UInt8) :
      pathBytes (bytes.flatMap write) = bytes := by
    induction bytes with
    | nil => rfl
    | cons b rest ih => rw [List.flatMap_cons, hwrite, ih]
  unfold pathSegment
  split
  · exact hread pathBytes_percentByte _
  · exact hread pathBytes_pathByte _

/-- Characters are told by their bytes. -/
theorem flatMap_utf8EncodeChar_injective :
    Function.Injective (List.flatMap String.utf8EncodeChar) := by
  intro cs ds h
  have hencoded : cs.utf8Encode = ds.utf8Encode := congrArg List.toByteArray h
  have hdecoded := congrArg ByteArray.utf8Decode? hencoded
  rw [List.utf8Decode?_utf8Encode, List.utf8Decode?_utf8Encode, Option.some_inj] at hdecoded
  exact congrArg Array.toList hdecoded

/-- Segments that are written alike are alike. -/
theorem pathSegment_injective : Function.Injective pathSegment := by
  intro segment segment' h
  refine flatMap_utf8EncodeChar_injective ?_
  rw [← pathBytes_pathSegment, h, pathBytes_pathSegment]

/-! ## Segments -/

theorem ne_nil_of_mem_keySegments {key : String} {segment : List Char}
    (h : segment ∈ keySegments key) : segment ≠ [] := by
  have hfilled := (List.mem_filter.mp h).2
  rwa [Bool.not_eq_true', List.isEmpty_eq_false_iff] at hfilled

/-- Segments that are joined are those of the key that they make up. -/
theorem keySegments_intercalate {segments : List (List Char)}
    (hslash : ∀ segment ∈ segments, '/' ∉ segment) (hfilled : ∀ segment ∈ segments, segment ≠ []) :
    keySegments (String.ofList (['/'].intercalate segments)) = segments := by
  rw [keySegments, String.toList_ofList]
  cases segments with
  | nil => rfl
  | cons first rest =>
    rw [List.splitOn_intercalate '/' hslash (List.cons_ne_nil _ _), List.filter_eq_self]
    intro segment hsegment
    rw [Bool.not_eq_true', List.isEmpty_eq_false_iff]
    exact hfilled segment hsegment

/-- The segments of a path are those of its key, as they are written. -/
theorem keySegments_objectPath (key : String) :
    keySegments (objectPath key) = (keySegments key).map pathSegment := by
  refine keySegments_intercalate (fun written hwritten => ?_) fun written hwritten => ?_
  · obtain ⟨segment, -, rfl⟩ := List.mem_map.mp hwritten
    exact slash_notMem_pathSegment segment
  · obtain ⟨segment, hsegment, rfl⟩ := List.mem_map.mp hwritten
    intro hnil
    have hempty : pathSegment segment = pathSegment [] := hnil.trans rfl
    exact ne_nil_of_mem_keySegments hsegment (pathSegment_injective hempty)

/-- **Keys are of one object exactly if they have the same segments.** -/
theorem objectPath_eq_iff {key key' : String} :
    objectPath key = objectPath key' ↔ keySegments key = keySegments key' := by
  constructor
  · intro h
    have hsegments := congrArg keySegments h
    rw [keySegments_objectPath, keySegments_objectPath] at hsegments
    exact List.map_injective_iff.mpr pathSegment_injective hsegments
  · intro h
    rw [objectPath, objectPath, h]

/-- A slash more makes no other object. -/
example : objectPath "a//b" = objectPath "a/b" := objectPath_eq_iff.mpr (by decide +kernel)

/-! ## Keys that are paths -/

/-- A key of ASCII letters, digits, `_` and `-`. -/
def PlainKey (key : String) : Prop :=
  ∀ c ∈ key.toList, c.isAlphanum = true ∨ c = '_' ∨ c = '-'

theorem plainKey_iff_all {key : String} :
    (key.toList.all fun c => c.isAlphanum || c == '_' || c == '-') = true ↔ PlainKey key := by
  simp only [PlainKey, List.all_eq_true, Bool.or_eq_true, beq_iff_eq, or_assoc]

instance (key : String) : Decidable (PlainKey key) := decidable_of_iff _ plainKey_iff_all

/-- Letters and digits stand for themselves. -/
theorem standsInPath_of_isAlphanum {c : Char} (h : c.isAlphanum = true) :
    standsInPath c = true := by
  have hreserved : reservedInPaths.all (fun d => !d.isAlphanum) = true := by decide
  have hrange : ((65 ≤ c.toNat ∧ c.toNat ≤ 90) ∨ (97 ≤ c.toNat ∧ c.toNat ≤ 122)) ∨
      (48 ≤ c.toNat ∧ c.toNat ≤ 57) := by
    have hcode : (decide ('A'.val ≤ c.val ∧ c.val ≤ 'Z'.val) ||
        ('a'.val ≤ c.val && c.val ≤ 'z'.val) || ('0'.val ≤ c.val && c.val ≤ '9'.val)) = true := h
    simp only [Bool.or_eq_true, Bool.and_eq_true, decide_eq_true_iff,
      UInt32.le_iff_toNat_le] at hcode
    exact hcode
  refine standsInPath_iff.mpr ⟨by omega, by omega, fun hmem => ?_⟩
  have hnot := List.all_eq_true.mp hreserved c hmem
  rw [h] at hnot
  cases hnot

/-- A character that stands for itself is one byte, and that byte is written as the character. -/
theorem flatMap_pathByte_of_standsInPath {segment : List Char}
    (h : ∀ c ∈ segment, standsInPath c = true) :
    (segment.flatMap String.utf8EncodeChar).flatMap pathByte = segment := by
  induction segment with
  | nil => rfl
  | cons c rest ih =>
    have hstands := h c List.mem_cons_self
    obtain ⟨-, hascii, -⟩ := standsInPath_iff.mp hstands
    have hbyte : String.utf8EncodeChar c = [UInt8.ofNat c.toNat] := by
      rw [String.utf8EncodeChar.eq_1]
      exact if_pos (Nat.le_of_lt hascii)
    have hchar : Char.ofNat (UInt8.ofNat c.toNat).toNat = c := by
      rw [UInt8.toNat_ofNat_of_lt' (Nat.lt_trans hascii (by decide)), Char.ofNat_toNat]
    rw [List.flatMap_cons, List.flatMap_append, ih fun d hd => h d (List.mem_cons_of_mem _ hd),
      hbyte, List.flatMap_singleton, pathByte, hchar, if_pos hstands, List.singleton_append]

/-- **A plain key is its own path.** -/
theorem PlainKey.objectPath_eq {key : String} (h : PlainKey key) : objectPath key = key := by
  have hstands : ∀ c ∈ key.toList, standsInPath c = true := by
    intro c hc
    rcases h c hc with halphanum | rfl | rfl
    · exact standsInPath_of_isAlphanum halphanum
    · decide
    · decide
  -- a segment of dots alone is rewritten, and a plain key has none
  have hdot : '.' ∉ key.toList := fun hmem => absurd (h '.' hmem) (by decide)
  have hwritten : pathSegment key.toList = key.toList := by
    have hdots : ¬(key.toList = ['.'] ∨ key.toList = ['.', '.']) := by
      rintro (hkey | hkey) <;> exact hdot (hkey ▸ List.mem_cons_self)
    rw [pathSegment, if_neg hdots, flatMap_pathByte_of_standsInPath hstands]
  have hslash : '/' ∉ key.toList := fun hmem => (ne_of_standsInPath (hstands _ hmem)).1 rfl
  have hsegments : ['/'].intercalate ((keySegments key).map pathSegment) = key.toList := by
    rw [keySegments, List.splitOn_eq_singleton hslash]
    by_cases hempty : key.toList = []
    · rw [hempty]
      rfl
    · rw [List.filter_cons_of_pos (by simpa using hempty)]
      show ['/'].intercalate [pathSegment key.toList] = key.toList
      rw [List.intercalate_singleton, hwritten]
  rw [objectPath, hsegments, String.ofList_toList]

end RunJournal
