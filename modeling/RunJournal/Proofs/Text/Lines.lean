import RunJournal.Proofs.Text.Framing

/-!
# How a stream is cut into lines

`Cut` says what the lines of a stream are without saying how they are found: every line but the last
ends in its only line feed, and the last may have none. A stream has exactly one such list of lines
(`cut_iff`), so whatever holds of all cuts is proved along the cut.

The first lines of a stream are cut off in the same way whatever comes after them (`Cut.split`).
-/

namespace RunJournal.Text

/-- Lines that a stream is cut into. -/
inductive Cut : List UInt8 → List (List UInt8) → Prop where
  | nil : Cut [] []
  | last {bytes : List UInt8} (hfeed : lineFeed ∉ bytes) (hne : bytes ≠ []) : Cut bytes [bytes]
  | next {bytes rest : List UInt8} {lines : List (List UInt8)} (hfeed : lineFeed ∉ bytes)
      (hrest : Cut rest lines) : Cut (bytes ++ lineFeed :: rest) ((bytes ++ [lineFeed]) :: lines)

theorem cut_lines (stream : List UInt8) : Cut stream (lines stream) := by
  induction hlength : stream.length using Nat.strongRecOn generalizing stream with
  | ind length ih =>
    by_cases hmem : lineFeed ∈ stream
    · obtain ⟨bytes, rest, rfl, hfeed⟩ := List.eq_append_cons_of_mem hmem
      rw [lines_append_lineFeed hfeed]
      refine .next hfeed (ih rest.length ?_ rest rfl)
      rw [← hlength, List.length_append, List.length_cons]
      omega
    · by_cases hnil : stream = []
      · rw [hnil]
        exact .nil
      · rw [lines_eq_singleton hmem hnil]
        exact .last hmem hnil

theorem Cut.eq_lines {stream : List UInt8} {ls : List (List UInt8)} (h : Cut stream ls) :
    ls = lines stream := by
  induction h with
  | nil => rfl
  | last hfeed hne => rw [lines_eq_singleton hfeed hne]
  | next hfeed hrest ih => rw [lines_append_lineFeed hfeed, ih]

/-- **A stream is cut into its lines and into nothing else.** -/
theorem cut_iff {stream : List UInt8} {ls : List (List UInt8)} :
    Cut stream ls ↔ ls = lines stream := by
  constructor
  · exact Cut.eq_lines
  · rintro rfl
    exact cut_lines stream

/-- The lines before some line are those of a stream of their own; and whatever is put after the
line, if that has ended, they and the line are cut off as before. -/
theorem Cut.split {stream : List UInt8} {before : List (List UInt8)} {line : List UInt8}
    {after : List (List UInt8)} (h : Cut stream (before ++ line :: after)) :
    Cut before.flatten before ∧
      ∀ tail, (line.getLast? ≠ some lineFeed → tail = []) →
        ∃ after', Cut (before.flatten ++ line ++ tail) (before ++ line :: after') := by
  induction before generalizing stream with
  | nil =>
    refine ⟨.nil, fun tail htail => ?_⟩
    cases h with
    | last hfeed hne =>
      -- a line without a line feed is the last one
      have hnil : tail = [] := htail fun hlast => hfeed (List.mem_of_getLast? hlast)
      rw [hnil, List.append_nil]
      exact ⟨[], .last hfeed hne⟩
    | @next bytes rest _ hfeed hrest =>
      refine ⟨lines tail, ?_⟩
      have hcut := Cut.next hfeed (cut_lines tail)
      rwa [List.append_cons] at hcut
  | cons first before ih =>
    generalize hls : first :: before ++ line :: after = ls at h
    cases h with
    | nil => cases hls
    | last hfeed hne =>
      have hnil := (List.cons.inj hls).2
      exact absurd hnil (List.append_ne_nil_of_right_ne_nil _ (List.cons_ne_nil _ _))
    | @next bytes rest ls hfeed hrest =>
      obtain ⟨rfl, rfl⟩ := List.cons.inj hls
      obtain ⟨hbefore, htail⟩ := ih hrest
      have hfirst : ((bytes ++ [lineFeed]) :: before).flatten =
          bytes ++ lineFeed :: before.flatten := by
        rw [List.flatten_cons, List.append_assoc]
        rfl
      rw [hfirst]
      refine ⟨.next hfeed hbefore, fun tail hend => ?_⟩
      obtain ⟨after', hcut⟩ := htail tail hend
      have hjoin : bytes ++ lineFeed :: before.flatten ++ line ++ tail =
          bytes ++ lineFeed :: (before.flatten ++ line ++ tail) := by
        simp only [List.append_assoc, List.cons_append]
      rw [hjoin]
      exact ⟨after', .next hfeed hcut⟩

end RunJournal.Text
