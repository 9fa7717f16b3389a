import Mathlib.Data.List.Forall2
import Mathlib.Data.List.TakeWhile
import RunJournal.Proofs.Text.Validity

/-!
# Pages

A page is a list of lines of text and says whether the last of them is ended like the others. Its
bytes are the lines with line feeds between them, and one after the last line if that is ended.

A receiver gets the lines of a page back, but not quite as they were sent: it takes a carriage
return before a line feed for a part of the line's end, and sees no line where the last one is empty
and not ended. Up to white space at the ends of lines it gets what was sent (`Page.exists_receive`).
Of two pages sent one after the other it gets one page, if the first is ended (`Page.bytes_append`).
-/

namespace RunJournal.Text

/-! ## White space around a text -/

section Padding

variable {ws : List Char} (hws : ∀ c ∈ ws, isBlank c = true) (cs : List Char)
include hws

theorem trim_append_left : trim (ws ++ cs) = trim cs := by
  rw [trim, trim, List.dropWhile_append, List.dropWhile_eq_nil_iff.mpr hws]
  rfl

theorem trimEnd_append : trimEnd (cs ++ ws) = trimEnd cs := by
  have hreverse : ∀ c ∈ ws.reverse, isBlank c = true := fun c hc => hws c (List.mem_reverse.mp hc)
  rw [trimEnd, trimEnd, List.reverse_append, List.dropWhile_append,
    List.dropWhile_eq_nil_iff.mpr hreverse]
  rfl

theorem trim_append_right : trim (cs ++ ws) = trim cs := by
  rw [trim, trim, List.dropWhile_append]
  split
  · -- a text of nothing but white space is trimmed from the left
    rename_i hempty
    rw [List.dropWhile_eq_nil_iff.mpr hws, List.isEmpty_iff.mp hempty]
  · exact trimEnd_append hws _

end Padding

/-- **White space around a text is trimmed away.** -/
theorem trim_padded {left right : List Char} (hleft : ∀ c ∈ left, isBlank c = true)
    (hright : ∀ c ∈ right, isBlank c = true) (cs : List Char) :
    trim (left ++ cs ++ right) = trim cs := by
  rw [trim_append_right hright, trim_append_left hleft]

/-! ## Line feeds and carriage returns among bytes -/

/-- Only a text with a line feed has one among its bytes. -/
theorem lineFeed_notMem_encodeUtf8_of_notMem {cs : List Char} (h : '\n' ∉ cs) :
    lineFeed ∉ encodeUtf8 cs := by
  intro hmem
  obtain ⟨c, hc, hmem⟩ := List.mem_flatMap.mp hmem
  have hcontrol : c.toNat < 0x20 := by
    refine Nat.lt_of_not_le fun hle => ?_
    exact absurd (not_control_of_mem_utf8EncodeChar hle lineFeed hmem) (by decide)
  rw [utf8EncodeChar_eq, if_pos (by omega), List.mem_singleton] at hmem
  have hnat : c.toNat = 10 := by
    have hbyte := congrArg UInt8.toNat hmem
    rw [UInt8.toNat_ofNat', Nat.mod_eq_of_lt (by omega)] at hbyte
    exact hbyte.symm
  have hfeed : c = '\n' := Char.toNat_inj.mp hnat
  exact h (hfeed ▸ hc)

/-- A carriage return that is taken for a part of the line's end is white space. -/
theorem exists_dropReturn_encodeUtf8 (cs : List Char) :
    ∃ ds, dropReturn (encodeUtf8 cs) = encodeUtf8 ds ∧ trim ds = trim cs := by
  rw [dropReturn]
  split
  · rename_i hlast
    obtain ⟨ds, rfl, hbytes⟩ := exists_concat_of_getLast?_encodeUtf8 (by decide) hlast
    refine ⟨ds, by rw [hbytes, List.dropLast_concat], (trim_append_right ?_ ds).symm⟩
    intro c hc
    rw [List.mem_singleton.mp hc]
    rfl
  · exact ⟨cs, rfl, rfl⟩

/-- The first line of bytes is received, up to white space at its end. -/
theorem exists_receive_cons {cs : List Char} (h : '\n' ∉ cs) (rest : List UInt8) :
    ∃ ds, receive (encodeUtf8 cs ++ lineFeed :: rest) = .ok ds :: receive rest ∧
      trim ds = trim cs := by
  obtain ⟨ds, hdrop, htrim⟩ := exists_dropReturn_encodeUtf8 cs
  refine ⟨ds, ?_, htrim⟩
  have hend : withoutLineEnd (encodeUtf8 cs ++ [lineFeed]) = encodeUtf8 ds := by
    rw [withoutLineEnd, if_pos List.getLast?_concat, List.dropLast_concat, hdrop]
  rw [receive, lines_append_lineFeed (lineFeed_notMem_encodeUtf8_of_notMem h), List.map_cons, hend,
    decodeUtf8_encodeUtf8]
  rfl

/-- A line that is not ended is received as it is, unless it is empty. -/
theorem receive_encodeUtf8 {cs : List Char} (h : '\n' ∉ cs) (hne : cs ≠ []) :
    receive (encodeUtf8 cs) = [.ok cs] := by
  have hfeed := lineFeed_notMem_encodeUtf8_of_notMem h
  have hend : withoutLineEnd (encodeUtf8 cs) = encodeUtf8 cs :=
    withoutLineEnd_of_getLast?_ne fun hlast => hfeed (List.mem_of_getLast? hlast)
  rw [receive, lines_eq_singleton hfeed (encodeUtf8_ne_nil hne), List.map_singleton, hend,
    decodeUtf8_encodeUtf8]

theorem joined_append {xs ys : List (List Char)} (hxs : xs ≠ []) (hys : ys ≠ []) :
    joined (xs ++ ys) = joined xs ++ lineFeed :: joined ys := by
  induction xs with
  | nil => exact absurd rfl hxs
  | cons cs rest ih =>
    cases rest with
    | nil =>
      obtain ⟨ds, ys, rfl⟩ := List.exists_cons_of_ne_nil hys
      rw [List.cons_append, List.nil_append, joined_cons_cons, joined, joined,
        List.intercalate_singleton]
    | cons ds rest =>
      rw [List.cons_append, List.cons_append, joined_cons_cons, joined_cons_cons,
        List.append_assoc, List.cons_append, ← ih (List.cons_ne_nil _ _), List.cons_append]

/-! ## Pages -/

/-- Lines of text. -/
structure Page where
  lines : List (List Char)
  /-- Whether the last line ends in a line feed, like the others. -/
  ended : Bool
  unbroken : ∀ line ∈ lines, '\n' ∉ line

/-- Lines that differ in nothing but white space at their ends. -/
abbrev Alike : List (List Char) → List (List Char) → Prop :=
  List.Forall₂ fun cs ds => trim cs = trim ds

namespace Page

/-- The bytes of a page. -/
def bytes (p : Page) : List UInt8 :=
  joined p.lines ++ if p.ended && !p.lines.isEmpty then [lineFeed] else []

theorem exists_receive_lines (ended : Bool) {lines : List (List Char)}
    (h : ∀ line ∈ lines, '\n' ∉ line) :
    ∃ texts, receive (joined lines ++ if ended && !lines.isEmpty then [lineFeed] else []) =
        texts.map .ok ∧
      (Alike texts lines ∨ Alike (texts ++ [[]]) lines) := by
  induction lines with
  | nil =>
    rw [List.isEmpty_nil, Bool.not_true, Bool.and_false]
    exact ⟨[], rfl, Or.inl .nil⟩
  | cons cs lines ih =>
    obtain ⟨hcs, hlines⟩ := List.forall_mem_cons.mp h
    -- only the last line depends on whether the page is ended, and an empty one may then be lost
    cases lines with
    | nil =>
      rw [joined, List.intercalate_singleton, List.isEmpty_cons, Bool.not_false, Bool.and_true]
      cases ended with
      | true =>
        obtain ⟨ds, hreceive, htrim⟩ := exists_receive_cons hcs []
        exact ⟨[ds], hreceive, Or.inl (.cons htrim .nil)⟩
      | false =>
        rw [if_neg Bool.false_ne_true, List.append_nil]
        by_cases hne : cs = []
        · subst hne
          exact ⟨[], rfl, Or.inr (.cons rfl .nil)⟩
        · exact ⟨[cs], receive_encodeUtf8 hcs hne, Or.inl (.cons rfl .nil)⟩
    | cons ds lines =>
      obtain ⟨texts, hreceive, halike⟩ := ih hlines
      obtain ⟨first, hfirst, htrim⟩ := exists_receive_cons hcs
        (joined (ds :: lines) ++ if ended && !(ds :: lines).isEmpty then [lineFeed] else [])
      refine ⟨first :: texts, ?_, halike.imp (.cons htrim) (.cons htrim)⟩
      rw [joined_cons_cons, List.append_assoc, List.cons_append, List.isEmpty_cons]
      rw [List.isEmpty_cons] at hfirst hreceive
      rw [hfirst, hreceive, List.map_cons]

/-- **A page is received** up to white space at the ends of its lines, and up to a last line that is
empty and not ended. -/
theorem exists_receive (p : Page) :
    ∃ texts, receive p.bytes = texts.map .ok ∧
      (Alike texts p.lines ∨ Alike (texts ++ [[]]) p.lines) :=
  exists_receive_lines p.ended p.unbroken

/-- One page after the other: the last line of both is ended as it was. -/
instance : Append Page where
  append p q :=
    { lines := p.lines ++ q.lines
      ended := if q.lines.isEmpty then p.ended else q.ended
      unbroken := List.forall_mem_append.mpr ⟨p.unbroken, q.unbroken⟩ }

theorem lines_append (p q : Page) : (p ++ q).lines = p.lines ++ q.lines := rfl

/-- Pages of which the first is ended are sent one after the other. -/
theorem bytes_append {p : Page} (h : p.ended = true) (q : Page) :
    (p ++ q).bytes = p.bytes ++ q.bytes := by
  show joined (p.lines ++ q.lines) ++ (if (if q.lines.isEmpty then p.ended else q.ended) &&
    !(p.lines ++ q.lines).isEmpty then [lineFeed] else []) = _
  unfold bytes
  rw [h]
  cases hp : p.lines with
  | nil => cases hq : q.lines <;> simp [joined, encodeUtf8]
  | cons cs lines =>
    cases hq : q.lines with
    | nil => simp [joined, encodeUtf8]
    | cons ds rest =>
      rw [joined_append (List.cons_ne_nil cs lines) (List.cons_ne_nil ds rest)]
      simp

end Page

end RunJournal.Text
