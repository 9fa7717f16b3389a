import RunJournal.Proofs.Replay.Accounting
import RunJournal.Proofs.Text.Lines
import RunJournal.Proofs.Text.Validity

/-!
# Streams that break

A stream breaks at its first line that is not UTF-8. What was recorded until then is what a replay
of the lines before that line records, and neither the line nor anything after it shows.

- `BreaksAt stream good bad` says that `good` are the lines before the first that is not UTF-8 and
  that `bad` is this line. A stream that is not all text breaks at one of its lines
  (`exists_breaksAt`).
- `replay_of_breaksAt` and `replay_flatten_of_breaksAt` give the replay of a broken stream and that
  of its good lines from the same replay under way. They differ only in how they end.
- `replay_brokenStream` is what follows for whoever looks at the recorder, the store, the uploads
  and the notices.
-/

namespace RunJournal

variable {σ : Type} (store : Store σ) (identity : Identity) (now : Timestamp)

/-! ## The first line that is not UTF-8 -/

/-- The stream is text up to a line that is not. -/
structure BreaksAt (stream : List UInt8) (good : List (List UInt8)) (bad : List UInt8) : Prop where
  lines : ∃ rest, Text.lines stream = good ++ bad :: rest
  good : ∀ line ∈ good, Text.IsUtf8 line
  bad : ¬ Text.IsUtf8 bad

theorem isOk_decodeLine_iff {line : List UInt8} :
    (Text.decodeUtf8 (Text.withoutLineEnd line)).isOk = true ↔ Text.IsUtf8 line :=
  Text.isOk_decodeUtf8_iff.trans Text.isUtf8_withoutLineEnd_iff

theorem isText_iff {stream : List UInt8} :
    IsText stream ↔ ∀ line ∈ Text.lines stream, Text.IsUtf8 line :=
  forall₂_congr fun _ _ => isOk_decodeLine_iff

/-- A stream that is not all text breaks at one of its lines. -/
theorem exists_breaksAt {stream : List UInt8}
    (h : ∃ line ∈ Text.lines stream, ¬ Text.IsUtf8 line) :
    ∃ good bad, BreaksAt stream good bad := by
  obtain ⟨line, hline, hbad⟩ := h
  have hsome : ((Text.lines stream).find? fun line => !decide (Text.IsUtf8 line)).isSome = true :=
    List.find?_isSome.mpr ⟨line, hline, by simpa using hbad⟩
  obtain ⟨bad, hfind⟩ := Option.isSome_iff_exists.mp hsome
  obtain ⟨hbad, good, rest, hlines, hgood⟩ := List.find?_eq_some_iff_append.mp hfind
  exact ⟨good, bad, ⟨rest, hlines⟩, by simpa using hgood, by simpa using hbad⟩

namespace BreaksAt

variable {stream : List UInt8} {good : List (List UInt8)} {bad : List UInt8}

theorem lines_flatten (h : BreaksAt stream good bad) : Text.lines good.flatten = good := by
  obtain ⟨rest, hlines⟩ := h.lines
  exact (Text.cut_iff.mp (Text.cut_iff.mpr hlines.symm).split.1).symm

theorem isText_flatten (h : BreaksAt stream good bad) : IsText good.flatten := by
  rw [isText_iff, h.lines_flatten]
  exact h.good

/-- What comes after the line at which a stream breaks does not matter. -/
theorem append (h : BreaksAt stream good bad) {tail : List UInt8}
    (htail : bad.getLast? ≠ some Text.lineFeed → tail = []) :
    BreaksAt (good.flatten ++ bad ++ tail) good bad := by
  obtain ⟨rest, hlines⟩ := h.lines
  obtain ⟨after, hcut⟩ := (Text.cut_iff.mpr hlines.symm).split.2 tail htail
  exact ⟨⟨after, (Text.cut_iff.mp hcut).symm⟩, h.good, h.bad⟩

end BreaksAt

/-! ## Reading up to it -/

section Reading

variable {good : List (List UInt8)}

/-- Lines that are UTF-8 are read, and then the others are. -/
theorem reading_append (h : ∀ line ∈ good, Text.IsUtf8 line) (rest : List (List UInt8)) :
    firstFault (good ++ rest) = firstFault rest ∧
      readable (good ++ rest) = readable good ++ readable rest := by
  induction good with
  | nil => exact ⟨rfl, rfl⟩
  | cons line good ih =>
    have hline := isOk_decodeLine_iff.mpr (h line List.mem_cons_self)
    obtain ⟨hfault, hread⟩ := ih fun l hl => h l (List.mem_cons_of_mem _ hl)
    rw [List.cons_append, firstFault, readable, readable]
    cases hdecode : Text.decodeUtf8 (Text.withoutLineEnd line) with
    | error fault =>
      rw [hdecode] at hline
      cases hline
    | ok cs => exact ⟨hfault, congrArg _ hread⟩

/-- The fault of a line that is not UTF-8 is its own, and nothing is read from there on. -/
theorem exists_fault_of_not_isUtf8 {bad : List UInt8} (h : ¬ Text.IsUtf8 bad) :
    ∃ fault, ∀ rest, firstFault (bad :: rest) = .error fault ∧ readable (bad :: rest) = [] := by
  rw [← isOk_decodeLine_iff] at h
  cases hdecode : Text.decodeUtf8 (Text.withoutLineEnd bad) with
  | ok cs =>
    rw [hdecode] at h
    exact absurd rfl h
  | error fault =>
    refine ⟨fault, fun rest => ⟨?_, ?_⟩⟩
    · rw [firstFault, hdecode]
    · rw [readable, hdecode]

end Reading

/-! ## Replays of broken streams -/

section Replays

variable {bad : List UInt8}

/-- A replay of a broken stream is that of the good lines, stopped before its end; whatever else
the stream holds. -/
theorem replay_of_breaksAt (hbad : ¬ Text.IsUtf8 bad) (good : List (List UInt8)) (r : RunState)
    (s : σ) :
    ∃ fault, ∀ stream, BreaksAt stream good bad →
      replay store identity now stream r s =
        (.error fault, (Replay.start r s).takeAll store identity now (readable good)) := by
  obtain ⟨fault, hfault⟩ := exists_fault_of_not_isUtf8 hbad
  refine ⟨fault, fun stream h => ?_⟩
  obtain ⟨rest, hlines⟩ := h.lines
  obtain ⟨hfirst, hread⟩ := reading_append h.good (bad :: rest)
  rw [replay_eq, hlines, hfirst, hread, (hfault rest).1, (hfault rest).2, List.append_nil]

/-- A replay of the good lines alone is the same replay, and goes on to its end. -/
theorem replay_flatten_of_breaksAt {stream : List UInt8} {good : List (List UInt8)}
    (h : BreaksAt stream good bad) (r : RunState) (s : σ) :
    (replay store identity now good.flatten r s).2 =
      ((Replay.start r s).takeAll store identity now (readable good)).close := by
  have hfault : firstFault good = .ok () :=
    firstFault_eq_ok fun line hline => isOk_decodeLine_iff.mpr (h.good line hline)
  rw [replay_eq, h.lines_flatten, hfault]

end Replays

/-- A replay fails exactly if some line is not UTF-8, wherever it stands. -/
theorem replay_eq_error_iff (stream : List UInt8) (r : RunState) (s : σ) :
    (∃ fault, (replay store identity now stream r s).1 = .error fault) ↔
      ∃ line ∈ Text.lines stream, ¬ Text.IsUtf8 line := by
  constructor
  · rintro ⟨fault, hfault⟩
    by_cases htext : IsText stream
    · rw [replay_of_isText store identity now r s htext] at hfault
      cases hfault
    · rw [isText_iff] at htext
      simpa only [Classical.not_forall, exists_prop] using htext
  · intro h
    obtain ⟨good, bad, hbreak⟩ := exists_breaksAt h
    obtain ⟨fault, hreplay⟩ := replay_of_breaksAt store identity now hbreak.bad good r s
    exact ⟨fault, by rw [hreplay stream hbreak]⟩

/-- **A stream that stops being UTF-8 fails at that line, and nothing else goes wrong.** A replay
fails exactly if some line is not UTF-8, and then there is a first such line. The lines before it
are a stream of their own, whose replay returns its counts and leaves the recorder, the store, the
uploads and the notices as the broken replay does, but for the note of a stream that ends too early;
and whatever bytes follow the line, nothing at all changes. -/
theorem replay_brokenStream (stream : List UInt8) (r : RunState) (s : σ) :
    ((∃ fault, (replay store identity now stream r s).1 = .error fault) ↔
      ∃ line ∈ Text.lines stream, ¬ Text.IsUtf8 line) ∧
    ((∃ line ∈ Text.lines stream, ¬ Text.IsUtf8 line) → ∃ good bad, BreaksAt stream good bad) ∧
    ∀ good bad, BreaksAt stream good bad →
      let broken := (replay store identity now stream r s).2
      let kept := (replay store identity now good.flatten r s).2
      Text.lines good.flatten = good ∧
      (replay store identity now good.flatten r s).1 = .ok kept.summary ∧
      kept.state = broken.state ∧ kept.store = broken.store ∧ kept.uploads = broken.uploads ∧
      kept.notices =
        broken.notices ++ (if broken.phase = .finished then [] else [.unfinished broken.phase]) ∧
      ∀ tail, (bad.getLast? ≠ some Text.lineFeed → tail = []) →
        replay store identity now (good.flatten ++ bad ++ tail) r s =
          replay store identity now stream r s := by
  refine ⟨replay_eq_error_iff store identity now stream r s, exists_breaksAt, ?_⟩
  intro good bad hbreak broken kept
  obtain ⟨fault, hreplay⟩ := replay_of_breaksAt store identity now hbreak.bad good r s
  -- both are the same replay under way, and only the second goes on to its end
  have hbroken : broken = (Replay.start r s).takeAll store identity now (readable good) :=
    congrArg Prod.snd (hreplay stream hbreak)
  have hend : kept = broken.close := by
    rw [hbroken]
    exact replay_flatten_of_breaksAt store identity now hbreak r s
  have hcourse : kept.course = broken.course := by
    rw [hend]
    exact broken.course_close
  refine ⟨hbreak.lines_flatten, ?_, congrArg Course.state hcourse, congrArg Course.store hcourse,
    congrArg Course.uploads hcourse, ?_, ?_⟩
  · exact replay_of_isText store identity now r s hbreak.isText_flatten
  · rw [hend]
    simpa only [decide_eq_true_eq] using broken.notices_close
  · intro tail htail
    rw [hreplay stream hbreak, hreplay _ (hbreak.append htail)]

/-- A run that is over, then a line in which a character is cut short, then another run. -/
def cutCharacter : List UInt8 :=
  "[\"before:run\",[[\"chrome\"]]]\r\n[\"after:run\"]\n".toUTF8.data.toList ++
    [0xC3, 0xA9, 0xC3, 0x0D, 0x0A] ++ "[\"before:run\",[[\"opera\"]]]\n".toUTF8.data.toList

/-- The sample fails at its third line although the run is over, and as it would with the bytes that
follow left out. -/
theorem replay_brokenStream_cutCharacter :
    BreaksAt cutCharacter ((Text.lines cutCharacter).take 2) [0xC3, 0xA9, 0xC3, 0x0D, 0x0A] ∧
      (∃ fault, (replay Tables.store .sample ⟨0, 0⟩ cutCharacter .initial .empty).1 =
        .error fault) ∧
      (replay Tables.store .sample ⟨0, 0⟩ cutCharacter .initial .empty).2.phase = .finished ∧
      (replay Tables.store .sample ⟨0, 0⟩ ((Text.lines cutCharacter).take 2).flatten .initial
          .empty).2.store =
        (replay Tables.store .sample ⟨0, 0⟩ cutCharacter .initial .empty).2.store ∧
      replay Tables.store .sample ⟨0, 0⟩ (((Text.lines cutCharacter).take 2).flatten ++
          [0xC3, 0xA9, 0xC3, 0x0D, 0x0A] ++ []) .initial .empty =
        replay Tables.store .sample ⟨0, 0⟩ cutCharacter .initial .empty := by
  have hbreak : BreaksAt cutCharacter ((Text.lines cutCharacter).take 2)
      [0xC3, 0xA9, 0xC3, 0x0D, 0x0A] :=
    ⟨⟨(Text.lines cutCharacter).drop 3, by decide +kernel⟩, by decide +kernel, by decide +kernel⟩
  obtain ⟨herror, -, hprefix⟩ :=
    replay_brokenStream Tables.store .sample ⟨0, 0⟩ cutCharacter .initial .empty
  obtain ⟨-, -, -, hstore, -, -, htail⟩ := hprefix _ _ hbreak
  have hbad : ∃ line ∈ Text.lines cutCharacter, ¬ Text.IsUtf8 line := by decide +kernel
  exact ⟨hbreak, herror.mpr hbad, by decide +kernel, hstore, htail [] fun _ => rfl⟩

end RunJournal
