import RunJournal.Proofs.Replay.Lifecycle
import RunJournal.Proofs.Replay.Tally

/-!
# Replays one after the other

A page may be replayed in two parts, with the recorder and the store that the first part leaves. As
long as the first part does not report the end of the run, the parts come to what the whole page
comes to, up to one thing: a replay begins with the course of a run that has not started, whatever
the recorder has seen before. So the first event of the second part is judged as if nothing had come
before it, and the first event only, since every other is judged by the event before it
(`followings_append`).
-/

namespace RunJournal

/-! ## Judging events across a seam -/

section Past

variable {α β : Type} (f : List α → α → β)

theorem mapPast_append (xs ys : List α) :
    mapPast f (xs ++ ys) = mapPast f xs ++ mapPast (fun before => f (xs ++ before)) ys := by
  induction ys using List.reverseRecOn with
  | nil => simp [mapPast]
  | append_singleton ys y ih =>
    rw [← List.append_assoc, mapPast_concat, mapPast_concat, ih, List.append_assoc]

theorem mapPast_cons (x : α) (xs : List α) :
    mapPast f (x :: xs) = f [] x :: mapPast (fun before => f (x :: before)) xs :=
  mapPast_append f [x] xs

end Past

/-- **Only the first event of the second part may be judged differently** in the whole: it comes
after the last of the first part. -/
theorem followings_append (xs ys : List EventKind) :
    followings (xs ++ ys) =
      followings xs ++ (ys.head?.map (mayFollow xs.getLast?)).toList ++ (followings ys).tail := by
  unfold followings
  rw [mapPast_append, List.append_assoc]
  cases ys with
  | nil => rfl
  | cons y rest =>
    have hlast : ∀ before, (xs ++ y :: before).getLast? = (y :: before).getLast? := fun before => by
      rw [List.getLast?_append, List.getLast?_cons, Option.some_or]
    rw [mapPast_cons, mapPast_cons, List.append_nil]
    simp only [hlast]
    rfl

/-- The events out of order add up, but for one. -/
theorem count_followings_append (xs ys : List EventKind) :
    (followings (xs ++ ys)).count false ≤
        (followings xs).count false + (followings ys).count false + 1 ∧
      (followings xs).count false + (followings ys).count false ≤
        (followings (xs ++ ys)).count false + 1 := by
  rw [followings_append, List.count_append, List.count_append]
  -- nothing is joined, or the first of what is joined is judged anew
  cases ys with
  | nil =>
    have hnil : followings [] = [] := rfl
    simp [hnil]
  | cons y rest =>
    have hsplit : followings (y :: rest) = mayFollow none y :: (followings (y :: rest)).tail := by
      unfold followings
      rw [mapPast_cons, List.tail_cons]
      rfl
    have hfirst := List.count_cons (a := false) (b := mayFollow none y)
      (l := (followings (y :: rest)).tail)
    rw [← hsplit] at hfirst
    have hjudged : (Option.map (mayFollow xs.getLast?) (y :: rest).head?).toList.count false ≤ 1 :=
      List.count_le_length
    rw [hfirst]
    split
    · omega
    · omega

/-! ## Recording from where a recorder was left -/

variable {σ : Type} (store : Store σ) (identity : Identity)

namespace Course

/-- What events do from some point on does not depend on what was uploaded or failed before. -/
theorem recordAll_resumed (now : Timestamp) (events : List Event) (c : Course σ) :
    let rest := (start c.state c.store).recordAll store identity now events
    c.recordAll store identity now events =
      ⟨rest.state, rest.store, c.uploads ++ rest.uploads, c.failures + rest.failures⟩ := by
  induction events using List.reverseRecOn with
  | nil =>
    show c = ⟨c.state, c.store, c.uploads ++ [], c.failures + 0⟩
    rw [List.append_nil]
    rfl
  | append_singleton events e ih =>
    rw [recordAll_append, recordAll_append, ih]
    show Course.mk _ _ (_ ++ _ ++ _) (_ + _ + _) = Course.mk _ _ (_ ++ (_ ++ _)) (_ + (_ + _))
    rw [List.append_assoc, Nat.add_assoc]
    rfl

/-- Only the end of a run takes the time. -/
theorem recordAll_of_ne_afterRun (earlier now : Timestamp) {events : List Event}
    (h : ∀ e ∈ events, e.kind ≠ .afterRun) (c : Course σ) :
    c.recordAll store identity earlier events = c.recordAll store identity now events := by
  refine List.foldl_ext _ _ _ fun c e he => ?_
  cases e with
  | beforeRun browser => rfl
  | beforeSpec name => rfl
  | afterSpec name results => rfl
  | afterRun details => exact absurd rfl (h _ he)

end Course

/-! ## Pages in two parts -/

theorem Text.Page.events_append (a b : Page) : (a ++ b).events = a.events ++ b.events := by
  rw [events, lines_append, List.map_append, List.filterMap_append]
  rfl

theorem Text.Page.malformed_append (a b : Page) :
    (a ++ b).malformed = a.malformed + b.malformed := by
  rw [malformed, lines_append, List.map_append, List.countP_append]
  rfl

/-- A page of which no line reports the end of the run holds no such event. -/
theorem Text.Page.kind_ne_afterRun {a : Page}
    (h : ∀ line ∈ a.lines, ∀ details, Event.read (trim line) ≠ .ok (.afterRun details)) :
    ∀ e ∈ a.events, e.kind ≠ .afterRun := by
  refine LineContent.kind_ne_afterRun_of_any fun hany => ?_
  obtain ⟨_, hmem, hends⟩ := List.any_eq_true.mp hany
  obtain ⟨line, hline, rfl⟩ := List.mem_map.mp hmem
  obtain ⟨details, hread⟩ := (endsRun_read_iff line).mp hends
  exact h line hline details hread

theorem Text.Page.dispatched_append {a : Page} (h : ∀ e ∈ a.events, e.kind ≠ .afterRun) (b : Page) :
    dispatched (a ++ b).bytes = dispatched a.bytes ++ dispatched b.bytes := by
  rw [dispatched_bytes, a.dispatched_bytes, b.dispatched_bytes, events_append,
    throughEnd_append h, throughEnd_eq_self h]

/-- The events of a page that are out of order are those that may not follow the one before them. -/
theorem Text.Page.disorder_eq_count_followings (p : Page) :
    disorder .awaitingRun (throughEnd p.events) =
      (followings ((dispatched p.bytes).map Event.kind)).count false := by
  rw [p.dispatched_bytes, disorder_eq_count]

/-- A recorder goes on from where the first part leaves it. -/
theorem course_replay_append {a : Text.Page} (h : ∀ e ∈ a.events, e.kind ≠ .afterRun)
    (b : Text.Page) (earlier now : Timestamp) (r : RunState) (s : σ) :
    let first := (replay store identity earlier a.bytes r s).2.course
    let second := (replay store identity now b.bytes first.state first.store).2.course
    (replay store identity now (a ++ b).bytes r s).2.course =
      ⟨second.state, second.store, first.uploads ++ second.uploads,
        first.failures + second.failures⟩ := by
  intro first second
  have hfirst : first = (Course.start r s).recordAll store identity now a.events := by
    rw [← Course.recordAll_of_ne_afterRun store identity earlier now h, ← throughEnd_eq_self h]
    exact (replay_page store identity earlier a r s).2
  have hsecond : second = (Course.start first.state first.store).recordAll store identity now
      (throughEnd b.events) :=
    (replay_page store identity now b first.state first.store).2
  rw [(replay_page store identity now (a ++ b) r s).2, Text.Page.events_append,
    throughEnd_append h, Course.recordAll_append, ← hfirst, hsecond]
  exact Course.recordAll_resumed store identity now (throughEnd b.events) first

/-- The counts of events add up where the first of them do not end the run. -/
theorem ReplaySummary.ofEvents_append {xs : List Event} (h : ∀ e ∈ xs, e.kind ≠ .afterRun)
    (ys : List Event) (i j k l m n : Nat) :
    let x := ofEvents xs i j
    let y := ofEvents ys k l
    let z := ofEvents (xs ++ ys) m n
    z.events = x.events + y.events ∧ z.specs = x.specs + y.specs ∧
      z.ignoredAfterRun = x.ignoredAfterRun + y.ignoredAfterRun ∧ z.finished = y.finished := by
  intro x y z
  have hxs : throughEnd xs = xs := throughEnd_eq_self h
  have hjoint : throughEnd (xs ++ ys) = xs ++ throughEnd ys := throughEnd_append h ys
  refine ⟨?_, ?_, ?_, ?_⟩
  · show (throughEnd (xs ++ ys)).length = (throughEnd xs).length + (throughEnd ys).length
    rw [hjoint, hxs, List.length_append]
  · show (throughEnd (xs ++ ys)).countP _ = (throughEnd xs).countP _ + (throughEnd ys).countP _
    rw [hjoint, hxs, List.countP_append]
  · show (xs ++ ys).length - (throughEnd (xs ++ ys)).length =
      (xs.length - (throughEnd xs).length) + (ys.length - (throughEnd ys).length)
    rw [hjoint, hxs, List.length_append, List.length_append]
    omega
  · show (xs ++ ys).any (·.kind == .afterRun) = ys.any (·.kind == .afterRun)
    have hnone : xs.any (·.kind == .afterRun) = false :=
      List.any_eq_false.mpr fun e he hkind => h e he (eq_of_beq hkind)
    rw [List.any_append, hnone, Bool.false_or]

/-- **Replays compose.** Let a page be replayed up to some line, and then from there on with the
recorder and the store as they were left; and let no line of the first part report the end of the
run. With any store and at any times, the recorder, the store and all uploads submitted come to what
they do if the page is replayed as a whole: it dispatches the events of the first part and then
those of the second. The counts add up, the end of the run is as the second part reports it, and
each count of events out of order is that of the events that may not follow the one before them.
Only for the first event of the second part this makes a difference, so they add up but for one. -/
theorem replay_append (a b : Text.Page)
    (h : ∀ line ∈ a.lines, ∀ details, Event.read (Text.trim line) ≠ .ok (.afterRun details))
    (earlier now : Timestamp) (r : RunState) (s : σ) :
    let first := replay store identity earlier a.bytes r s
    let second := replay store identity now b.bytes first.2.state first.2.store
    let whole := replay store identity now (a ++ b).bytes r s
    let before := (dispatched a.bytes).map Event.kind
    let after := (dispatched b.bytes).map Event.kind
    ((a.ended = true → (a ++ b).bytes = a.bytes ++ b.bytes) ∧
      whole.2.state = second.2.state ∧ whole.2.store = second.2.store ∧
      whole.2.uploads = first.2.uploads ++ second.2.uploads ∧
      dispatched (a ++ b).bytes = dispatched a.bytes ++ dispatched b.bytes) ∧
    ∃ x y z, first.1 = .ok x ∧ second.1 = .ok y ∧ whole.1 = .ok z ∧
      z.events = x.events + y.events ∧ z.specs = x.specs + y.specs ∧
      z.failedHooks = x.failedHooks + y.failedHooks ∧
      z.malformedLines = x.malformedLines + y.malformedLines ∧
      z.ignoredAfterRun = x.ignoredAfterRun + y.ignoredAfterRun ∧ z.finished = y.finished ∧
      x.outOfOrder = (followings before).count false ∧
      y.outOfOrder = (followings after).count false ∧
      z.outOfOrder = (followings (before ++ after)).count false ∧
      followings (before ++ after) = followings before ++
        (after.head?.map (mayFollow before.getLast?)).toList ++ (followings after).tail ∧
      z.outOfOrder ≤ x.outOfOrder + y.outOfOrder + 1 ∧
      x.outOfOrder + y.outOfOrder ≤ z.outOfOrder + 1 := by
  intro first second whole before after
  have hgoing := Text.Page.kind_ne_afterRun h
  -- the second part is recorded from where the first one ended, as one recording
  have hjoint : whole.2.course = ⟨second.2.state, second.2.store,
      first.2.uploads ++ second.2.uploads, first.2.course.failures + second.2.course.failures⟩ :=
    course_replay_append store identity hgoing b earlier now r s
  have hevents := Text.Page.dispatched_append hgoing b
  have hkinds : (dispatched (a ++ b).bytes).map Event.kind = before ++ after := by
    rw [hevents, List.map_append]
  obtain ⟨hx, hfirst⟩ := replay_page store identity earlier a r s
  obtain ⟨hy, hsecond⟩ := replay_page store identity now b first.2.state first.2.store
  obtain ⟨hz, hwhole⟩ := replay_page store identity now (a ++ b) r s
  rw [← hfirst] at hx
  rw [← hsecond] at hy
  rw [← hwhole] at hz
  -- only the first event of the second part is judged by another predecessor
  obtain ⟨hseam, hseam'⟩ := count_followings_append before after
  have hcounts := ReplaySummary.ofEvents_append hgoing b.events
  rw [← Text.Page.events_append] at hcounts
  obtain ⟨hlength, hspecs, hignored, hfinished⟩ := hcounts first.2.course.failures a.malformed
    second.2.course.failures b.malformed whole.2.course.failures (a ++ b).malformed
  have hfirstOrder := a.disorder_eq_count_followings
  have hsecondOrder := b.disorder_eq_count_followings
  have hwholeOrder := (a ++ b).disorder_eq_count_followings
  rw [hkinds] at hwholeOrder
  refine ⟨⟨fun hended => Text.Page.bytes_append hended b, congrArg Course.state hjoint,
    congrArg Course.store hjoint, congrArg Course.uploads hjoint, hevents⟩,
    _, _, _, hx, hy, hz, hlength, hspecs, congrArg Course.failures hjoint,
    Text.Page.malformed_append a b, hignored, hfinished, hfirstOrder, hsecondOrder, hwholeOrder,
    followings_append before after, ?_, ?_⟩
  · show disorder _ _ ≤ disorder _ _ + disorder _ _ + 1
    rwa [hfirstOrder, hsecondOrder, hwholeOrder]
  · show disorder _ _ + disorder _ _ ≤ disorder _ _ + 1
    rwa [hfirstOrder, hsecondOrder, hwholeOrder]

/-- The start of a run. -/
def startPage : Text.Page where
  lines := ["[\"before:run\",[[\"chrome\"]]]"].map String.toList
  ended := true
  unbroken := by decide

/-- The end of a run, and an event that comes too late. -/
def endPage : Text.Page where
  lines := ["[\"after:run\"]", "[\"before:spec\",[\"a.ts\"]]"].map String.toList
  ended := false
  unbroken := by decide

/-- The end of the run is out of order in a replay of its own, and in order after the start. -/
theorem replay_append_startPage_endPage :
    let first := replay Tables.store .sample ⟨0, 0⟩ startPage.bytes .initial .empty
    let second := replay Tables.store .sample ⟨9, 0⟩ endPage.bytes first.2.state first.2.store
    let whole := replay Tables.store .sample ⟨9, 0⟩ (startPage ++ endPage).bytes .initial .empty
    (∀ line ∈ startPage.lines, ∀ details,
        Event.read (Text.trim line) ≠ .ok (.afterRun details)) ∧
      (startPage ++ endPage).bytes = startPage.bytes ++ endPage.bytes ∧
      first.1 = .ok ⟨1, 0, 0, 0, 0, 0, false⟩ ∧ second.1 = .ok ⟨1, 0, 0, 0, 1, 1, true⟩ ∧
      whole.1 = .ok ⟨2, 0, 0, 0, 0, 1, true⟩ ∧ whole.2.store = second.2.store := by
  intro first second whole
  have hkinds : (startPage.lines.all fun line =>
      (Event.read (Text.trim line)).toOption.all (·.kind != .afterRun)) = true := by
    decide +kernel
  have hgoing : ∀ line ∈ startPage.lines, ∀ details,
      Event.read (Text.trim line) ≠ .ok (.afterRun details) := by
    intro line hline details hread
    have hkind := List.all_eq_true.mp hkinds line hline
    rw [hread] at hkind
    cases hkind
  have hcounts : first.1.toOption = some ⟨1, 0, 0, 0, 0, 0, false⟩ ∧
      second.1.toOption = some ⟨1, 0, 0, 0, 1, 1, true⟩ ∧
      whole.1.toOption = some ⟨2, 0, 0, 0, 0, 1, true⟩ := by decide +kernel
  obtain ⟨⟨hbytes, -, hstore, -, -⟩, x, y, z, hx, hy, hz, -⟩ :=
    replay_append Tables.store .sample startPage endPage hgoing ⟨0, 0⟩ ⟨9, 0⟩ .initial .empty
  rw [hx, hy, hz] at hcounts
  obtain ⟨hfirst, hsecond, hwhole⟩ := hcounts
  cases hfirst
  cases hsecond
  cases hwhole
  exact ⟨hgoing, hbytes rfl, hx, hy, hz, hstore⟩

end RunJournal
