import RunJournal.Proofs.Json.Accepted
import RunJournal.Proofs.Text.Framing

/-!
# Values are read back

The reader takes the compact text of a value for the value itself (`readValue_print`), and stops
right after it. Two things can prevent it: a number that is not read back, and nesting beyond the
limit of the reader; `Within ReadsBack depth` excludes both. Integers in range are always read back,
so only the doubles of a value have to be looked at (`Within.readsBack`).

The induction is on the value. For an array and an object it comes down to the loops of the reader,
which see the items and members one after the other: `itemsTail` and `membersTail` are what is left
to read after one of them. The members of an object are read by any reader of members that
understands what stands after a name (`readMembers_printMembers`), so that a record is read back by
its own reader in the same way.

No compact text contains a control character (`visible_print`); in particular it is one line.
-/

namespace RunJournal.Json

/-! ## What follows an item or a member -/

/-- The text after an item of an array when `rest` are the items after it. -/
def itemsTail : List Json → List Char
  | [] => [']']
  | v :: rest => ',' :: (print v ++ itemsTail rest)

/-- The text of one member. -/
def printMember (m : String × Json) : List Char := printText m.1 ++ ':' :: print m.2

/-- The text after a member of an object when `rest` are the members after it. -/
def membersTail : List (String × Json) → List Char
  | [] => ['\x7d']
  | m :: rest => ',' :: (printMember m ++ membersTail rest)

theorem printText_append (s : String) (rest : List Char) :
    printText s ++ rest = '"' :: (s.toList.flatMap escapeChar ++ '"' :: rest) := by
  simp [printText]

/-- A printed array is its first item and the tail behind it. -/
theorem printItems_cons (v : Json) (items : List Json) :
    printItems (v :: items) = print v ++ itemsTail items := by
  -- the printer has a case of its own for the last item, so the tail starts one item later
  induction items generalizing v with
  | nil => rw [printItems, itemsTail]
  | cons w items ih =>
    rw [printItems, itemsTail, ih w]
    exact fun h => nomatch h

/-- A printed object is its first member and the tail behind it. -/
theorem printMembers_cons (m : String × Json) (members : List (String × Json)) :
    printMembers (m :: members) = printMember m ++ membersTail members := by
  induction members generalizing m with
  | nil => rw [printMembers, membersTail, printMember]
  | cons m' members ih =>
    rw [printMembers, membersTail, ih m']
    · simp only [printMember, List.append_assoc, List.cons_append]
    · exact fun h => nomatch h

theorem length_lt_length_itemsTail (items : List Json) :
    items.length < (itemsTail items).length := by
  induction items with
  | nil => decide
  | cons v items ih =>
    rw [itemsTail, List.length_cons, List.length_cons, List.length_append]
    omega

theorem length_lt_length_membersTail (members : List (String × Json)) :
    members.length < (membersTail members).length := by
  induction members with
  | nil => decide
  | cons m members ih =>
    rw [membersTail, List.length_cons, List.length_cons, List.length_append]
    omega

/-- No array has more items than characters, which is why the reader's fuel is enough. -/
theorem length_le_length_printItems (items : List Json) :
    items.length ≤ (printItems items).length := by
  cases items with
  | nil => exact Nat.zero_le _
  | cons v items =>
    have htail := length_lt_length_itemsTail items
    rw [printItems_cons, List.length_cons, List.length_append]
    omega

/-- No object has more members than characters. -/
theorem length_le_length_printMembers (members : List (String × Json)) :
    members.length ≤ (printMembers members).length := by
  cases members with
  | nil => exact Nat.zero_le _
  | cons m members =>
    have htail := length_lt_length_membersTail members
    rw [printMembers_cons, List.length_cons, List.length_append]
    omega

theorem endsNumeral_itemsTail (items : List Json) (rest : List Char) :
    EndsNumeral (itemsTail items ++ rest) := by
  cases items with
  | nil => exact endsNumeral_cons (by decide) _
  | cons v items => exact endsNumeral_cons (by decide) _

theorem endsNumeral_membersTail (members : List (String × Json)) (rest : List Char) :
    EndsNumeral (membersTail members ++ rest) := by
  cases members with
  | nil => exact endsNumeral_cons (by decide) _
  | cons m members => exact endsNumeral_cons (by decide) _

/-! ## Arrays -/

/-- A value has a first character, which closes no array. -/
theorem exists_skipSpace_of_readValue {depth : Nat} {cs : List Char} {x : Json × List Char}
    (h : readValue depth cs = .ok x) : ∃ c tail, skipSpace cs = c :: tail ∧ c ≠ ']' := by
  rw [← readValue_skipSpace] at h
  cases hspace : skipSpace cs with
  | nil =>
    rw [hspace] at h
    cases depth <;> cases h
  | cons c tail =>
    refine ⟨c, tail, rfl, ?_⟩
    rintro rfl
    rw [hspace] at h
    cases depth <;> cases h

theorem opensItem_first {depth : Nat} {cs : List Char} {x : Json × List Char}
    (h : readValue depth cs = .ok x) : OpensItem true cs (skipSpace cs) :=
  ⟨exists_skipSpace_of_readValue h, rfl⟩

theorem opensItem_next {depth : Nat} {cs : List Char} {x : Json × List Char}
    (h : readValue depth cs = .ok x) : OpensItem false (',' :: cs) (skipSpace cs) :=
  ⟨exists_skipSpace_of_readValue h, cs, rfl, rfl⟩

/-- The rest of an array is read back when its items are. -/
theorem readItems_itemsTail {depth : Nat} {items : List Json}
    (h : ∀ v ∈ items, ∀ rest, EndsNumeral rest →
      readValue depth (print v ++ rest) = .ok (v, rest))
    {fuel : Nat} (hfuel : items.length < fuel) (done : List Json) (rest : List Char) :
    readItems (readValue depth) fuel false done (itemsTail items ++ rest) =
      .ok (done.reverse ++ items, rest) := by
  induction items generalizing fuel done with
  | nil =>
    obtain ⟨fuel, rfl⟩ := Nat.exists_eq_succ_of_ne_zero (Nat.ne_of_gt hfuel)
    rw [List.append_nil]
    rfl
  | cons v items ih =>
    obtain ⟨fuel, rfl⟩ := Nat.exists_eq_succ_of_ne_zero (Nat.ne_zero_of_lt hfuel)
    have hv := h v List.mem_cons_self _ (endsNumeral_itemsTail items rest)
    have hitems := ih (fun w hw => h w (List.mem_cons_of_mem v hw))
      (Nat.lt_of_succ_lt_succ hfuel) (v :: done)
    rw [List.reverse_cons, List.append_assoc] at hitems
    rw [itemsTail, List.cons_append, List.append_assoc]
    refine readItems_succ_iff.mpr (Or.inr ⟨_, v, _, opensItem_next hv, ?_, hitems⟩)
    rw [readValue_skipSpace]
    exact hv

/-- An array is read back when its items are, with what follows it left over. -/
theorem readItems_printItems {depth : Nat} {items : List Json}
    (h : ∀ v ∈ items, ∀ rest, EndsNumeral rest →
      readValue depth (print v ++ rest) = .ok (v, rest))
    {fuel : Nat} (hfuel : items.length < fuel) (rest : List Char) :
    readItems (readValue depth) fuel true [] (printItems items ++ rest) = .ok (items, rest) := by
  obtain ⟨fuel, rfl⟩ := Nat.exists_eq_succ_of_ne_zero (Nat.ne_zero_of_lt hfuel)
  -- an empty array closes at once; otherwise the first item is read without a comma
  cases items with
  | nil => rfl
  | cons v items =>
    have hv := h v List.mem_cons_self _ (endsNumeral_itemsTail items rest)
    have hitems := readItems_itemsTail (fun w hw => h w (List.mem_cons_of_mem v hw))
      (Nat.lt_of_succ_lt_succ hfuel) [v] rest
    rw [printItems_cons, List.append_assoc]
    refine readItems_succ_iff.mpr (Or.inr ⟨_, v, _, opensItem_first hv, ?_, hitems⟩)
    rw [readValue_skipSpace]
    exact hv

/-! ## Objects -/

theorem printMember_append (m : String × Json) (rest : List Char) :
    printMember m ++ rest =
      '"' :: (m.1.toList.flatMap escapeChar ++ '"' :: ':' :: (print m.2 ++ rest)) := by
  rw [printMember, List.append_assoc, printText_append]
  rfl

theorem opensMember_first (m : String × Json) (rest : List Char) :
    OpensMember true (printMember m ++ rest)
      (m.1.toList.flatMap escapeChar ++ '"' :: ':' :: (print m.2 ++ rest)) := by
  rw [printMember_append]
  rfl

theorem opensMember_next (m : String × Json) (rest : List Char) :
    OpensMember false (',' :: (printMember m ++ rest))
      (m.1.toList.flatMap escapeChar ++ '"' :: ':' :: (print m.2 ++ rest)) := by
  rw [printMember_append]
  exact ⟨_, rfl, rfl⟩

section Members

variable {σ : Type} {member : σ → String → List Char → Parsed σ}
  {gather : σ → String × Json → σ} {members : List (String × Json)}
  (h : ∀ m ∈ members, ∀ gathered rest, EndsNumeral rest →
    member gathered m.1 (':' :: (print m.2 ++ rest)) = .ok (gather gathered m, rest))
include h

/-- The rest of an object is read back, member by member. -/
theorem readMembers_membersTail {fuel : Nat} (hfuel : members.length < fuel) (gathered : σ)
    (rest : List Char) :
    readMembers member fuel false gathered (membersTail members ++ rest) =
      .ok (members.foldl gather gathered, rest) := by
  induction members generalizing fuel gathered with
  | nil =>
    obtain ⟨fuel, rfl⟩ := Nat.exists_eq_succ_of_ne_zero (Nat.ne_of_gt hfuel)
    rfl
  | cons m members ih =>
    obtain ⟨fuel, rfl⟩ := Nat.exists_eq_succ_of_ne_zero (Nat.ne_zero_of_lt hfuel)
    have hm := h m List.mem_cons_self gathered _ (endsNumeral_membersTail members rest)
    have hmembers := ih (fun m' hm' => h m' (List.mem_cons_of_mem m hm'))
      (Nat.lt_of_succ_lt_succ hfuel) (gather gathered m)
    rw [membersTail, List.cons_append, List.append_assoc]
    exact readMembers_succ_iff.mpr (Or.inr
      ⟨_, _, _, _, _, opensMember_next m _, readText_escaped m.1 _, hm, hmembers⟩)

/-- An object is read back when its members are, gathered from the first to the last. -/
theorem readMembers_printMembers {fuel : Nat} (hfuel : members.length < fuel) (gathered : σ)
    (rest : List Char) :
    readMembers member fuel true gathered (printMembers members ++ rest) =
      .ok (members.foldl gather gathered, rest) := by
  obtain ⟨fuel, rfl⟩ := Nat.exists_eq_succ_of_ne_zero (Nat.ne_zero_of_lt hfuel)
  cases members with
  | nil => rfl
  | cons m members =>
    have hm := h m List.mem_cons_self gathered _ (endsNumeral_membersTail members rest)
    have hmembers := readMembers_membersTail (fun m' hm' => h m' (List.mem_cons_of_mem m hm'))
      (Nat.lt_of_succ_lt_succ hfuel) (gather gathered m) rest
    rw [printMembers_cons, List.append_assoc]
    exact readMembers_succ_iff.mpr (Or.inr
      ⟨_, _, _, _, _, opensMember_first m _, readText_escaped m.1 _, hm, hmembers⟩)

end Members

/-- Behind its name, a member is read when its value is. -/
theorem readMember_print {depth : Nat} {v : Json} {rest : List Char}
    (h : readValue depth (print v ++ rest) = .ok (v, rest)) (gathered : List (String × Json))
    (name : String) :
    readMember (readValue depth) gathered name (':' :: (print v ++ rest)) =
      .ok ((name, v) :: gathered, rest) := by
  exact bind_eq_ok_iff.mpr ⟨print v ++ rest, rfl, bind_eq_ok_iff.mpr ⟨_, h, rfl⟩⟩

/-! ## Values -/

theorem readValue_quote (depth : Nat) (cs : List Char) :
    readValue depth ('"' :: cs) = (readText cs).map fun (s, rest) => (.text s, rest) := by
  unfold readValue
  rfl

theorem readValue_bracket (depth : Nat) (cs : List Char) :
    readValue (depth + 1) ('[' :: cs) =
      (readItems (readValue depth) (cs.length + 1) true [] cs).map
        fun (items, rest) => (.array items, rest) := by
  rw [readValue]
  rfl

theorem readValue_brace (depth : Nat) (cs : List Char) :
    readValue (depth + 1) ('\x7b' :: cs) =
      (readMembers (readMember (readValue depth)) (cs.length + 1) true [] cs).map
        fun (members, rest) => (.object members.reverse, rest) := by
  rw [readValue]
  rfl

/-- A text is read between quotes. -/
theorem readValue_eq_text_iff {depth : Nat} {cs rest : List Char} {s : String} :
    readValue depth cs = .ok (.text s, rest) ↔
      ∃ start, skipSpace cs = '"' :: start ∧ readText start = .ok (s, rest) := by
  constructor
  · intro h
    have hfound := valueFound_of_readValue h
    generalize skipSpace cs = found at hfound ⊢
    cases hfound with
    | text htext => exact ⟨_, rfl, htext⟩
  · rintro ⟨start, hspace, htext⟩
    rw [← readValue_skipSpace, hspace, readValue_quote, htext]
    rfl

/-- An object is read between braces. -/
theorem readValue_eq_object_iff {depth : Nat} {cs rest : List Char}
    {members : List (String × Json)} :
    readValue (depth + 1) cs = .ok (.object members, rest) ↔
      ∃ start, skipSpace cs = '\x7b' :: start ∧
        readMembers (readMember (readValue depth)) (start.length + 1) true [] start =
          .ok (members.reverse, rest) := by
  constructor
  · intro h
    have hfound := valueFound_of_readValue h
    generalize skipSpace cs = found at hfound ⊢
    cases hfound with
    | object hmembers => exact ⟨_, rfl, by rw [List.reverse_reverse]; exact hmembers⟩
  · rintro ⟨start, hspace, hmembers⟩
    rw [← readValue_skipSpace, hspace, readValue_brace, hmembers]
    show Except.ok (Json.object members.reverse.reverse, rest) = _
    rw [List.reverse_reverse]

theorem readValue_null (depth : Nat) (rest : List Char) :
    readValue depth (print .null ++ rest) = .ok (.null, rest) := by
  show readValue depth ('n' :: (['u', 'l', 'l'] ++ rest)) = _
  unfold readValue
  exact map_eq_ok_iff.mpr ⟨rest, readWord_append ['u', 'l', 'l'] rest, rfl⟩

theorem readValue_bool (depth : Nat) (b : Bool) (rest : List Char) :
    readValue depth (print (.bool b) ++ rest) = .ok (.bool b, rest) := by
  cases b with
  | true =>
    show readValue depth ('t' :: (['r', 'u', 'e'] ++ rest)) = _
    unfold readValue
    exact map_eq_ok_iff.mpr ⟨rest, readWord_append ['r', 'u', 'e'] rest, rfl⟩
  | false =>
    show readValue depth ('f' :: (['a', 'l', 's', 'e'] ++ rest)) = _
    unfold readValue
    exact map_eq_ok_iff.mpr ⟨rest, readWord_append ['a', 'l', 's', 'e'] rest, rfl⟩

theorem readValue_text (depth : Nat) (s : String) (rest : List Char) :
    readValue depth (print (.text s) ++ rest) = .ok (.text s, rest) := by
  rw [print, printText_append, readValue_quote, readText_escaped]
  rfl

/-- **A value is read back**, whatever follows it, if its numbers are read back and it is not nested
too deep. -/
theorem readValue_print {depth : Nat} {v : Json} (h : Within ReadsBack depth v) {rest : List Char}
    (hrest : EndsNumeral rest) : readValue depth (print v ++ rest) = .ok (v, rest) := by
  -- over the value, whatever may follow it: an item is followed by a comma, a bracket or the next
  -- level
  induction h generalizing rest with
  | null depth => exact readValue_null depth rest
  | bool depth b => exact readValue_bool depth b rest
  | number depth hn => exact readValue_printNumber hn hrest depth
  | text depth s => exact readValue_text depth s rest
  | @array depth items _ ih =>
    have hfuel : items.length < (printItems items ++ rest).length + 1 := by
      have hlength := length_le_length_printItems items
      rw [List.length_append]
      omega
    show readValue (depth + 1) ('[' :: (printItems items ++ rest)) = _
    rw [readValue_bracket, readItems_printItems (fun v hv _ h => ih v hv h) hfuel]
    rfl
  | @object depth members _ ih =>
    have hfuel : members.length < (printMembers members ++ rest).length + 1 := by
      have hlength := length_le_length_printMembers members
      rw [List.length_append]
      omega
    have hmember : ∀ m ∈ members, ∀ gathered rest, EndsNumeral rest →
        readMember (readValue depth) gathered m.1 (':' :: (print m.2 ++ rest)) =
          .ok (m :: gathered, rest) :=
      fun m hm gathered _ hrest => readMember_print (ih m hm hrest) gathered m.1
    show readValue (depth + 1) ('\x7b' :: (printMembers members ++ rest)) = _
    rw [readValue_brace, readMembers_printMembers hmember hfuel]
    -- members are gathered from the last to the first and turned round at the brace
    have hgathered : members.foldl (fun gathered m => m :: gathered) [] = members.reverse := by
      rw [List.foldl_flip_cons_eq_append]
      simp
    rw [hgathered]
    show Except.ok (Json.object members.reverse.reverse, rest) = _
    rw [List.reverse_reverse]

/-- A value that is written alone is read back. -/
theorem read_print {v : Json} (h : Within ReadsBack maxDepth v) : read v.print = .ok v := by
  have hvalue := readValue_print h endsNumeral_nil
  rw [List.append_nil] at hvalue
  exact bind_eq_ok_iff.mpr ⟨_, hvalue, rfl⟩

/-- Of the numbers in range only the doubles can fail to be read back. -/
theorem Within.readsBack {depth : Nat} {v : Json} (h : Within InRange depth v)
    (hreal : ∀ x ∈ v.doubles, ReadsBack (.real x)) : Within ReadsBack depth v :=
  h.imp_of_doubles (fun _ => readsBack_integer) hreal

/-! ## The characters of a value -/

open Text (Visible visible_nil visible_cons visible_append)

theorem visible_digits (n : Nat) : Visible (Text.digits n) := by
  intro c hc
  have hdigit := Text.isDigit_of_mem_digits hc
  simp only [Char.isDigit, Bool.and_eq_true, decide_eq_true_eq] at hdigit
  exact Nat.le_trans (by decide) hdigit.1

/-- Placing the point adds nothing but zeros and the point itself. -/
theorem visible_placePoint {ds : List Char} (h : Visible ds) (whole : Int) :
    Visible (Double.placePoint ds whole) := by
  have hzeros (n : Nat) : Visible (List.replicate n '0') := by
    intro c hc
    rw [List.eq_of_mem_replicate hc]
    decide
  have hbefore (k : Nat) : Visible (ds.take k) := fun c hc => h c (List.mem_of_mem_take hc)
  have hafter (k : Nat) : Visible (ds.drop k) := fun c hc => h c (List.mem_of_mem_drop hc)
  unfold Double.placePoint
  -- the point stands before all the digits, behind them or between two
  split
  · simp [hzeros, h]
  · dsimp only
    split
    · simp [hbefore, hzeros]
    · simp [hbefore, hzeros, hafter]

/-- Scientific form adds a point, the letter, a sign and digits. -/
theorem visible_scientific {ds : List Char} (h : Visible ds) (leading : Int) :
    Visible (Double.scientific ds leading) := by
  have hpower := visible_digits leading.natAbs
  have hsign : 0x20 ≤ (if leading < 0 then '-' else '+').toNat := by
    split
    · decide
    · decide
  unfold Double.scientific
  match ds with
  | [] => simp [hsign, hpower]
  | [d] =>
    simp only [visible_cons] at h
    simp [hsign, hpower, h]
  | d :: e :: ds =>
    simp only [visible_cons] at h
    simp [hsign, hpower, h]

/-- Numbers are printed with visible characters. -/
theorem visible_printNumber (n : Number) : Visible (printNumber n) := by
  cases n with
  | integer i =>
    cases i with
    | ofNat n => exact visible_digits n
    | negSucc n => exact visible_cons.mpr ⟨by decide, visible_digits (n + 1)⟩
  | real x =>
    have hmagnitude : Visible x.magnitudeText := by
      unfold Double.magnitudeText
      split
      · decide
      · dsimp only
        split
        · exact visible_placePoint (visible_digits _) _
        · exact visible_scientific (visible_digits _) _
    show Visible x.text
    unfold Double.text
    split
    · exact visible_cons.mpr ⟨by decide, hmagnitude⟩
    · exact hmagnitude

/-- However a character is escaped, what is printed is visible. -/
theorem visible_escapeChar (c : Char) : Visible (escapeChar c) := by
  -- by a letter, by four hex digits, or as itself when it is no control character
  rcases escapeChar_cases c with ⟨letter, hmem, -, heq⟩ | ⟨hcontrol, heq⟩ | ⟨-, -, hcontrol, heq⟩
  · have hletter : ∀ letter ∈ escapeLetters, Visible ['\\', letter] := by simp [escapeLetters]
    rw [heq]
    exact hletter letter hmem
  · have hdigit : ∀ n < 16, 0x20 ≤ (hexDigit n).toNat := by decide
    have hhigh := hdigit (c.toNat / 16) (by omega)
    have hlow := hdigit (c.toNat % 16) (by omega)
    rw [heq]
    simp [hhigh, hlow]
  · rw [heq]
    exact visible_cons.mpr ⟨Nat.le_of_not_lt hcontrol, visible_nil⟩

/-- A printed text is visible, whatever the text is. -/
theorem visible_printText (s : String) : Visible (printText s) := by
  refine visible_cons.mpr ⟨by decide, visible_append.mpr ⟨?_, by decide⟩⟩
  intro c hc
  obtain ⟨d, -, hd⟩ := List.mem_flatMap.mp hc
  exact visible_escapeChar d c hd

theorem visible_itemsTail {items : List Json} (h : ∀ v ∈ items, Visible v.print) :
    Visible (itemsTail items) := by
  induction items with
  | nil => decide
  | cons v items ih =>
    obtain ⟨hv, hitems⟩ := List.forall_mem_cons.mp h
    exact visible_cons.mpr ⟨by decide, visible_append.mpr ⟨hv, ih hitems⟩⟩

theorem visible_printMember {m : String × Json} (h : Visible m.2.print) :
    Visible (printMember m) :=
  visible_append.mpr ⟨visible_printText m.1, visible_cons.mpr ⟨by decide, h⟩⟩

theorem visible_membersTail {members : List (String × Json)}
    (h : ∀ m ∈ members, Visible m.2.print) : Visible (membersTail members) := by
  induction members with
  | nil => decide
  | cons m members ih =>
    obtain ⟨hm, hmembers⟩ := List.forall_mem_cons.mp h
    exact visible_cons.mpr
      ⟨by decide, visible_append.mpr ⟨visible_printMember hm, ih hmembers⟩⟩

/-- **No compact text contains a control character.** -/
theorem visible_print (v : Json) : Visible v.print := by
  -- over the value: brackets, commas and colons are visible, and so are the parts
  induction v using Json.induction with
  | null => decide
  | bool b =>
    cases b with
    | false => decide
    | true => decide
  | number n => exact visible_printNumber n
  | text s => exact visible_printText s
  | array items ih =>
    refine visible_cons.mpr ⟨by decide, ?_⟩
    cases items with
    | nil => decide
    | cons v items =>
      obtain ⟨hv, hitems⟩ := List.forall_mem_cons.mp ih
      rw [printItems_cons]
      exact visible_append.mpr ⟨hv, visible_itemsTail hitems⟩
  | object members ih =>
    refine visible_cons.mpr ⟨by decide, ?_⟩
    cases members with
    | nil => decide
    | cons m members =>
      obtain ⟨hm, hmembers⟩ := List.forall_mem_cons.mp ih
      rw [printMembers_cons]
      exact visible_append.mpr ⟨visible_printMember hm, visible_membersTail hmembers⟩

end RunJournal.Json
