import RunJournal.Database.Script
import RunJournal.Proofs.Recorder.Calls

/-!
# Gateways without a link

A gateway has no link to a server when the link was never made, and when it was closed. It then
answers every request with the same error, or so its users are told: `unavailable` in the one case
and `closed` in the other. There is an exception. The counts of a summary are looked at before the
link is, so a count that is too great for its column is the error whatever becomes of the link.

`Gateway.answers_uniform_iff` is the main statement: the answers are uniform exactly if no request
has such a count.
-/

namespace RunJournal

variable {σ : Type}

/-! ## Sequences of requests -/

namespace Store

/-- The state of a store after requests. -/
def after (store : Store σ) (requests : List Request) (s : σ) : σ :=
  requests.foldl (fun s q => (store q s).2) s

/-- The requests with their answers. -/
def calls (store : Store σ) : List Request → σ → List Call
  | [], _ => []
  | q :: rest, s => ⟨q, (store q s).1⟩ :: store.calls rest (store q s).2

end Store

/-! ## Counts and their columns -/

/-- The counts of a summary are none too great for their columns. -/
def SpecSummary.FitsColumns (s : SpecSummary) : Prop := ∀ c ∈ s.counts, c.2 ≤ maxColumnCount

instance (s : SpecSummary) : Decidable s.FitsColumns :=
  inferInstanceAs (Decidable (∀ c ∈ s.counts, c.2 ≤ maxColumnCount))

/-- Of all requests only the one to complete a spec has counts. -/
def Request.FitsColumns : Request → Prop
  | .completeSpec _ summary => summary.FitsColumns
  | _ => True

theorem SpecSummary.rangeError?_eq_none_iff {s : SpecSummary} :
    s.rangeError? = none ↔ s.FitsColumns := by
  rw [rangeError?, Option.map_eq_none_iff, List.find?_eq_none]
  refine forall₂_congr fun c _ => ?_
  rw [decide_eq_true_iff]
  exact Nat.not_lt

namespace Gateway

theorem precheck_eq_none_iff {q : Request} : precheck q = none ↔ q.FitsColumns := by
  cases q with
  | completeSpec spec summary => exact SpecSummary.rangeError?_eq_none_iff
  | _ => exact ⟨fun _ => trivial, fun _ => rfl⟩

/-- What is wrong with a request before the link is looked at is a count. -/
theorem exists_count_of_precheck {q : Request} {cause : StoreError}
    (h : precheck q = some cause) : ∃ column value, cause = .outOfRange column value := by
  cases q with
  | completeSpec spec summary =>
    rw [precheck, SpecSummary.rangeError?] at h
    obtain ⟨c, -, hcause⟩ := Option.map_eq_some_iff.mp h
    exact ⟨c.1, c.2, hcause.symm⟩
  | _ => cases h

end Gateway

/-! ## Stores that refuse everything -/

/-- A store that refuses every request for one cause, but for counts that are too great, and stays
as it is. -/
def Store.Refuses (store : Store σ) (cause : StoreError) (s : σ) : Prop := ∀ q,
  store q s = (.error ((Gateway.precheck q).getD cause), s)

namespace Store.Refuses

variable {store : Store σ} {cause : StoreError} {s : σ}

theorem calls_eq (h : store.Refuses cause s) (requests : List Request) :
    store.calls requests s =
      requests.map fun q => ⟨q, .error ((Gateway.precheck q).getD cause)⟩ := by
  induction requests with
  | nil => rfl
  | cons q rest ih => rw [Store.calls, h q, ih, List.map_cons]

/-- The answers are uniform exactly if all counts fit. -/
theorem uniform_iff (h : store.Refuses cause s)
    (hcause : ∀ column value, cause ≠ .outOfRange column value) (requests : List Request) :
    (∀ c ∈ store.calls requests s, c.answer = .error cause) ↔
      ∀ q ∈ requests, q.FitsColumns := by
  rw [h.calls_eq, List.forall_mem_map]
  refine forall₂_congr fun q _ => ?_
  rw [← Gateway.precheck_eq_none_iff]
  cases hprecheck : Gateway.precheck q with
  | none => exact ⟨fun _ => rfl, fun _ => rfl⟩
  | some found =>
    obtain ⟨column, value, rfl⟩ := Gateway.exists_count_of_precheck hprecheck
    refine ⟨fun hanswer => ?_, fun hnone => nomatch hnone⟩
    injection hanswer with hfound
    exact absurd hfound.symm (hcause column value)

end Store.Refuses

/-! ## Links that are not live -/

namespace Gateway

variable (server : Server σ)

theorem linkAfter_of_ne_live (q : Request) {link : Link} (h : link ≠ .live) :
    linkAfter q link = link := by
  cases q with
  | close =>
    cases link with
    | live => exact absurd rfl h
    | closed => rfl
    | absent => rfl
  | _ => rfl

/-- A conversation that is over before it has begun leaves the server alone. -/
theorem store_of_answer_eq_done {q : Request} {link : Link} {result : Except StoreError q.Answer}
    (hlink : link ≠ .live) (h : answer q link = .done result) (s : σ) :
    store server q (link, s) = (result, (link, s)) := by
  rw [store, h, linkAfter_of_ne_live q hlink]
  rfl

theorem store_closed_refuses (s : σ) : (store server).Refuses .closed (.closed, s) := by
  intro q
  have hlink : Link.closed ≠ .live := by decide
  refine store_of_answer_eq_done server hlink ?_ s
  cases hprecheck : precheck q <;> simp only [answer, hprecheck, Option.getD]

theorem store_absent_refuses (s : σ) : (store server).Refuses .unavailable (.absent, s) := by
  intro q
  have hlink : Link.absent ≠ .live := by decide
  refine store_of_answer_eq_done server hlink ?_ s
  cases hprecheck : precheck q <;> simp only [answer, hprecheck, Option.getD]

theorem unavailable_refuses (s : σ) : (unavailable : Store σ).Refuses .unavailable s := by
  intro q
  rw [unavailable]
  cases precheck q <;> rfl

/-- A link is closed once the request to close it has succeeded. -/
theorem link_of_close_ok {g : Link × σ} (h : (store server .close g).1 = .ok ()) :
    ∃ s, (store server .close g).2 = (.closed, s) := by
  obtain ⟨link, s⟩ := g
  cases link with
  | live => exact ⟨_, rfl⟩
  | closed => cases h
  | absent => cases h

/-- **Without a link the answers are uniform exactly if all counts fit their columns.** So it is
for a gateway whose link was closed, for one whose link was never made, and for the store that
stands in for such a one. -/
theorem answers_uniform_iff (g : Link × σ) (hclose : (store server .close g).1 = .ok ())
    (requests : List Request) :
    ((∀ c ∈ (store server).calls requests (store server .close g).2, c.answer = .error .closed) ↔
      ∀ q ∈ requests, q.FitsColumns) ∧
    ∀ s : σ,
      ((∀ c ∈ (store server).calls requests (.absent, s), c.answer = .error .unavailable) ↔
        ∀ q ∈ requests, q.FitsColumns) ∧
      ((∀ c ∈ Store.calls unavailable requests s, c.answer = .error .unavailable) ↔
        ∀ q ∈ requests, q.FitsColumns) := by
  refine ⟨?_, fun s => ⟨?_, ?_⟩⟩
  · obtain ⟨s, hlink⟩ := link_of_close_ok server hclose
    rw [hlink]
    exact (store_closed_refuses server s).uniform_iff (fun _ _ h => nomatch h) requests
  · exact (store_absent_refuses server s).uniform_iff (fun _ _ h => nomatch h) requests
  · exact (unavailable_refuses s).uniform_iff (fun _ _ h => nomatch h) requests

end Gateway

/-- A script without refusals, in which every reply is the default. -/
def Script.plain : Script := ⟨none, none, false, [], 1, []⟩

/-- A summary with a count that is one too great for its column. -/
def SpecSummary.tooGreat : SpecSummary := ⟨2147483648, 0, 0, 0, 0, .pass⟩

namespace Gateway

/-- A link that a server was glad to close, and a request after it. -/
theorem answers_uniform_iff_script :
    (store Script.server .close (.live, .plain)).1 = .ok () ∧
      ((∀ c ∈ (store Script.server).calls [.finishMatrix ⟨1⟩, .close]
          (store Script.server .close (.live, .plain)).2, c.answer = .error .closed) ↔
        ∀ q ∈ [Request.finishMatrix ⟨1⟩, .close], q.FitsColumns) :=
  ⟨rfl, (answers_uniform_iff Script.server (.live, .plain) rfl [.finishMatrix ⟨1⟩, .close]).1⟩

/-- A request with a great count is not answered like the others, neither on a closed link nor
without one. -/
theorem not_uniform_tooGreat :
    (store Script.server .close (.live, .plain)).1 = .ok () ∧
      ¬ (∀ c ∈ (store Script.server).calls [.completeSpec ⟨1⟩ .tooGreat]
          (store Script.server .close (.live, .plain)).2, c.answer = .error .closed) ∧
      ¬ ∀ c ∈ Store.calls (unavailable : Store Unit) [.completeSpec ⟨1⟩ .tooGreat] (),
          c.answer = .error .unavailable := by
  have hgreat : ¬ ∀ q ∈ [Request.completeSpec ⟨1⟩ .tooGreat], q.FitsColumns := fun h =>
    absurd (h _ (List.mem_singleton.mpr rfl)) (by decide : ¬ SpecSummary.tooGreat.FitsColumns)
  refine ⟨rfl, fun h => hgreat ?_, fun h => hgreat ?_⟩
  · exact ((store_closed_refuses Script.server _).uniform_iff (fun _ _ h => nomatch h) _).mp h
  · exact ((unavailable_refuses ()).uniform_iff (fun _ _ h => nomatch h) _).mp h

end Gateway

end RunJournal
