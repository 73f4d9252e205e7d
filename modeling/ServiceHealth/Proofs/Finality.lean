import ServiceHealth.Proofs.Deeds
import ServiceHealth.Proofs.Driver
import ServiceHealth.Proofs.Snapshot

/-!
# No run outlives its check

An aggregation is over when every checker that it has asked has its outcome. A checker has it only
when its run has ended or was given up, and neither goes on: so when a check has returned, none of
the runs that it started does anything any more, whatever else goes on in the service.

* `Entry.Sure`: whoever has an outcome is over. `after_sure`: it is so in every world.
* `look_others`: an aggregation gives up none but its own runs.
* `runs_end_with_check`: **when a check has returned, its runs are over for ever**.
-/

namespace ServiceHealth

namespace Service

/-! ## 1. Outcomes of runs that are over -/

/-- A run is over with an outcome: it has ended and the outcome is its result, or it was given up at
the deadline and the outcome says so. -/
def Over (deadline now : Nat) (j : Job) (o : Health.Outcome) : Prop :=
  (∃ r, j.state = .ended r ∧ o = r.asCheck) ∨
    (j.state = .aborted ∧ o = .failed .timedOut ∧ deadline ≤ now)

theorem Over.isOver {deadline now : Nat} {j : Job} {o : Health.Outcome}
    (h : Over deadline now j o) : j.state.isOver = true := by
  rcases h with ⟨r, ended, -⟩ | ⟨aborted, -⟩
  · rw [ended]
    rfl
  · rw [aborted]
    rfl

theorem Over.later {deadline now now' : Nat} {j : Job} {o : Health.Outcome}
    (h : Over deadline now j o) (le : now ≤ now') : Over deadline now' j o :=
  h.imp id fun ⟨aborted, late, past⟩ => ⟨aborted, late, Nat.le_trans past le⟩

/-- **Whoever has an outcome is over with it.** -/
structure Entry.Sure (deadline : Nat) (s : Service) (e : Entry) : Prop where
  known : e.job < s.jobs.length
  gone : ∀ o, e.outcome = some o → ∃ j, s.jobs[e.job]? = some j ∧ Over deadline s.now j o

section Sure

variable {deadline : Nat} {s s' : Service} {e : Entry}

/-- Whatever leaves alone who is over leaves it so. -/
theorem Entry.Sure.later (h : e.Sure deadline s) (length : s.jobs.length ≤ s'.jobs.length)
    (now : s.now ≤ s'.now)
    (kept : ∀ (i : JobId) (j : Job), s.jobs[i]? = some j → j.state.isOver = true →
      s'.jobs[i]? = some j) : e.Sure deadline s' where
  known := Nat.lt_of_lt_of_le h.known length
  gone o ho := by
    obtain ⟨j, hj, gone⟩ := h.gone o ho
    exact ⟨j, kept e.job j hj gone.isOver, gone.later now⟩

theorem Entry.Sure.abort (h : e.Sure deadline s) (job : JobId) : e.Sure deadline (s.abort job) :=
  h.later (by simp [Service.abort]) (Nat.le_refl _) fun _ _ hj gone => abort_over hj gone job

/-- A job that has no result and is given up. -/
theorem aborted_of_going {i : JobId} {j : Job} (hj : s.jobs[i]? = some j)
    (going : s.result? i = none) : (s.abort i).jobs[i]? = some { j with state := .aborted } := by
  unfold Service.abort
  rw [updateJob_getElem?, hj, Option.map_some, if_pos rfl]
  split
  · rename_i r ended
    exact absurd ended (result?_eq_none.mp going j r hj)
  · rfl

/-- **A look at a checker** takes over its result, or gives its run up. -/
theorem Entry.Sure.poll (h : e.Sure deadline s) :
    (e.poll deadline s).1.Sure deadline (e.poll deadline s).2 := by
  obtain ⟨j, hj⟩ : ∃ j, s.jobs[e.job]? = some j := ⟨_, List.getElem?_eq_getElem h.known⟩
  unfold Entry.poll
  split
  · exact h
  · split
    · rename_i r ended
      refine ⟨h.known, fun o ho => ?_⟩
      cases ho
      obtain ⟨j', hj', state⟩ := result?_eq_some.mp ended
      exact ⟨j', hj', .inl ⟨r, state, rfl⟩⟩
    · rename_i going
      split
      · rename_i past
        refine ⟨(h.abort e.job).known, fun o ho => ?_⟩
        cases ho
        exact ⟨_, aborted_of_going hj going, .inr ⟨rfl, rfl, past⟩⟩
      · exact h

/-- A look at a checker leaves those alone whose runs are over. -/
theorem Entry.Sure.poll_other (h : e.Sure deadline s) (deadline' : Nat) (e' : Entry) :
    e.Sure deadline (e'.poll deadline' s).2 := by
  unfold Entry.poll
  split
  · exact h
  · split
    · exact h
    · split
      · exact h.abort e'.job
      · exact h

theorem Entry.Sure.pollEntries (h : e.Sure deadline s) (deadline' : Nat) (es : List Entry) :
    e.Sure deadline (pollEntries deadline' es s).2 := by
  induction es generalizing s with
  | nil => exact h
  | cons e' es ih => exact ih (h.poll_other deadline' e')

/-- **A look at an aggregation** leaves everybody over who has an outcome. -/
theorem pollEntries_sure {es : List Entry} (h : ∀ e ∈ es, e.Sure deadline s) :
    ∀ e ∈ (pollEntries deadline es s).1, e.Sure deadline (pollEntries deadline es s).2 := by
  induction es generalizing s with
  | nil => exact nofun
  | cons e es ih =>
    intro e' mem
    have here : (e.poll deadline s).1.Sure deadline (e.poll deadline s).2 :=
      (h e List.mem_cons_self).poll
    rcases List.mem_cons.mp mem with rfl | mem
    · exact here.pollEntries deadline es
    · exact ih (fun e'' k => (h e'' (List.mem_cons_of_mem _ k)).poll_other deadline e) e' mem

/-- Whoever was just asked has no outcome yet. -/
theorem startAggregation_sure (s : Service) (deadline : Nat) :
    ∀ e ∈ (s.startAggregation deadline).1.entries,
      e.Sure deadline (s.startAggregation deadline).2 := by
  intro e mem
  obtain ⟨k, hk⟩ := List.getElem?_of_mem mem
  obtain ⟨x, -, rfl, hj⟩ := startRuns_entry hk
  exact ⟨(List.getElem?_eq_some_iff.mp hj).1, nofun⟩

/-- Looking at checkers changes no run but theirs. -/
theorem pollEntries_others (deadline : Nat) (es : List Entry) (s : Service) {i : JobId}
    (other : ∀ e ∈ es, e.job ≠ i) : (pollEntries deadline es s).2.jobs[i]? = s.jobs[i]? :=
  World.pollEntries_rule (P := fun s' => s'.jobs[i]? = s.jobs[i]?) deadline es
    (fun s' e mem h => by
      unfold Service.abort
      rw [updateJob_getElem?, ← h]
      cases s'.jobs[i]? with
      | none => rfl
      | some j => simp [other e mem]) rfl

end Sure

end Service

open Service

namespace World

/-! ## 2. In every world -/

/-- **Whoever has an outcome is over**, in all aggregations. -/
def AllSure (w : World) : Prop :=
  ∀ q ∈ w.inquiries, ∀ e ∈ q.aggregation.entries, e.Sure q.aggregation.deadline w.service

/-- There are never fewer jobs than before. -/
theorem outside_length (w : World) (m : Move) :
    w.service.jobs.length ≤ (w.outside m).service.jobs.length := by
  by_cases hb : m = .begin
  · subst hb
    show _ ≤ (Turn.begin w.service).2.jobs.length
    rw [begin_jobs]
  refine outside_rule (P := fun s => w.service.jobs.length ≤ s.jobs.length) hb (Nat.le_refl _)
    (fun _ _ q h => by rw [q.jobs]; exact h) (fun _ _ => Nat.le_refl _) (fun t _ => ?_)
    (fun s number c d _ h => Nat.le_trans h ?_) (fun s job _ h => ?_) (fun k _ _ => ?_)
    (fun _ _ d => ?_) (fun moment _ => ?_)
  · simp [startTask, spawn]
  · simp [spawn]
  · simpa [abort] using h
  · rw [(claim_frame _ k).1]
    simp [fire, updateTask]
  · simp [teardownsStarted_jobs]
  · simp [advance]

theorem sure_outside {w : World} {e : Entry} {deadline : Nat} (h : e.Sure deadline w.service)
    (m : Move) : e.Sure deadline (w.outside m).service :=
  h.later (outside_length w m) (outside_now w m) fun _ _ hj gone => outside_over hj gone m

theorem inquire_sure {w : World} {request : Option Probe.Request} {timeout : Nat}
    (kept : ∀ q ∈ w.inquiries, ∀ e ∈ q.aggregation.entries,
      e.Sure q.aggregation.deadline (w.inquire request timeout).service) :
    AllSure (w.inquire request timeout) := by
  unfold inquire at kept ⊢
  split
  · rename_i none
    rw [none] at kept
    exact kept
  · rename_i deadline computable
    rw [computable] at kept
    intro q mem
    rcases List.mem_append.mp mem with old | new
    · exact kept q old
    · rw [List.mem_singleton.mp new]
      exact startAggregation_sure w.service deadline

theorem outside_sure {w : World} (h : AllSure w) (m : Move) : AllSure (w.outside m) := by
  have kept : ∀ q ∈ w.inquiries, ∀ e ∈ q.aggregation.entries,
      e.Sure q.aggregation.deadline (w.outside m).service := fun q mem e he =>
    sure_outside (h q mem e he) m
  have same : (w.outside m).inquiries = w.inquiries → AllSure (w.outside m) := by
    intro e q mem
    rw [e] at mem
    exact kept q mem
  cases m with
  | request r =>
    unfold outside receive at kept ⊢
    dsimp only at kept ⊢
    split
    · rename_i live
      rw [live] at kept
      exact inquire_sure kept
    · rename_i other
      split at kept
      · rename_i b live
        exact absurd live (other b)
      · exact kept
  | ask timeout => exact inquire_sure kept
  | look i =>
    unfold outside look at kept ⊢
    dsimp only at kept ⊢
    split
    · rename_i q hq
      rw [hq] at kept
      intro q' mem
      rcases List.mem_or_eq_of_mem_set mem with old | rfl
      · exact kept q' old
      · exact pollEntries_sure (h q (List.mem_of_getElem? hq))
    · exact h
  | answer i =>
    unfold outside answer at kept ⊢
    dsimp only at kept ⊢
    split
    · rename_i r a hq
      split
      · rename_i done
        rw [hq] at kept
        dsimp only at kept
        rw [if_pos done] at kept
        intro q' mem
        rcases List.mem_or_eq_of_mem_set mem with old | rfl
        · exact kept q' old
        · exact kept ⟨some r, a, false⟩ (List.mem_of_getElem? hq)
      · exact h
    · exact h
  | call =>
    refine same ?_
    show w.call.inquiries = _
    rcases call_cases w with ⟨-, e, -⟩ | ⟨-, -, e, -⟩ | ⟨d, -, -, e, -⟩ <;> rw [e]
  | lookCall i =>
    refine same ?_
    unfold outside lookCall
    dsimp only
    split <;> rfl
  | advance moment =>
    refine same ?_
    unfold outside
    dsimp only
    split <;> rfl
  | _ => exact same rfl

theorem apply_sure {w : World} (scheduled : Scheduled w.turn w.service) (h : AllSure w) (m : Move) :
    AllSure (w.apply m) := by
  rcases w.apply_cases m with ⟨-, e⟩ | ⟨t, ht, -, e⟩ | ⟨t, -, -, e⟩
  · rw [e]
    exact outside_sure h m
  · rw [ht] at scheduled
    rw [e]
    intro q mem e he
    refine (h q mem e he).later ?_ (Nat.le_of_eq (step_now t w.service).symm)
      fun _ _ hj gone => (step_over scheduled hj gone).2
    exact Nat.le_of_eq (step_evolves scheduled).length.symm
  · rw [e]
    exact h

/-- **In every world whoever has an outcome is over.** -/
theorem after_sure {w : World} (scheduled : Scheduled w.turn w.service) (h : AllSure w)
    (ms : List Move) :
    AllSure (w.after ms) := by
  induction ms generalizing w with
  | nil => exact h
  | cons m ms ih => exact ih (apply_scheduled w m scheduled) (apply_sure scheduled h m)

/-- An aggregation keeps its runs. -/
theorem after_runs {w : World} {k : Nat} {q : Inquiry} (hq : w.inquiries[k]? = some q)
    (ms : List Move) : ∃ q', (w.after ms).inquiries[k]? = some q' ∧
      q'.aggregation.entries.map (·.job) = q.aggregation.entries.map (·.job) := by
  induction ms generalizing w q with
  | nil => exact ⟨q, hq, rfl⟩
  | cons m ms ih =>
    obtain ⟨q', hq', onward⟩ := apply_inquiry hq m
    obtain ⟨q'', hq'', jobs⟩ := ih hq'
    refine ⟨q'', hq'', jobs.trans ?_⟩
    cases onward with
    | same => rfl
    | answered => rfl
    | looked => exact pollEntries_jobs _ _ _

/-- **An aggregation gives up none but its own runs.** -/
theorem look_others {w : World} {k : Nat} {q : Inquiry} (hq : w.inquiries[k]? = some q) {i : JobId}
    (other : ∀ e ∈ q.aggregation.entries, e.job ≠ i) :
    (w.look k).service.jobs[i]? = w.service.jobs[i]? := by
  unfold look
  rw [hq]
  exact pollEntries_others _ _ _ other

/-! ## 3. Checks that have returned -/

/-- The runs of an aggregation are new jobs, one for each registered name. -/
theorem startAggregation_jobs (s : Service) (deadline : Nat) :
    (s.startAggregation deadline).1.entries.map (·.job) =
      List.range' s.jobs.length s.checkerNames.length := by
  have started : (s.startAggregation deadline).1.entries =
      (startRuns deadline s.rollCall s).1 := rfl
  have numbers := List.zipIdx_map_snd s.jobs.length s.rollCall
  rw [started, startRuns_eq, List.map_map, checkerNames, Keyed.keys, List.length_map,
    ← s.rollCall_perm.length_eq, ← numbers]
  rfl

section Inquire

variable {w : World} {timeout deadline : Nat} (free : w.turn = none)
  (computable : deadline? w.service.now timeout = some deadline) (request : Option Probe.Request)

include free computable

/-- Nobody who has just begun has an outcome. -/
theorem AllSure.inquire (sure : AllSure w) (scheduled : Scheduled w.turn w.service) :
    AllSure (w.inquire request timeout) := by
  have started := after_sure scheduled sure [.ask timeout]
  have same : w.after [.ask timeout] = w.inquire none timeout := apply_free free _
  rw [same, inquire_eq computable] at started
  rw [inquire_eq computable]
  intro q mem
  rcases List.mem_append.mp mem with old | new
  · exact started q (List.mem_append_left _ old)
  · rw [List.mem_singleton.mp new]
    exact startAggregation_sure w.service deadline

/-- **What is known of an aggregation after any moves**: which jobs its runs are, and that whoever
has an outcome is over. -/
theorem inquire_runs (vouched : ResultsVouched w) (sure : AllSure w) {ms : List Move} {q : Inquiry}
    (hq : ((w.inquire request timeout).after ms).inquiries[w.inquiries.length]? = some q) :
    q.aggregation.entries.map (·.job) =
        List.range' w.service.jobs.length w.service.checkerNames.length ∧
      ∀ e ∈ q.aggregation.entries,
        e.Sure q.aggregation.deadline ((w.inquire request timeout).after ms).service := by
  have first : (w.inquire request timeout).inquiries[w.inquiries.length]? =
      some ⟨request, (w.service.startAggregation deadline).1, false⟩ := by
    rw [inquire_eq computable]
    exact List.getElem?_concat_length
  obtain ⟨q', hq', jobs⟩ := after_runs first ms
  rw [hq] at hq'
  cases hq'
  have kept := after_sure (vouched.inquire free computable request).scheduled
    (sure.inquire free computable request vouched.scheduled) ms
  exact ⟨jobs.trans (startAggregation_jobs w.service deadline), kept q (List.mem_of_getElem? hq)⟩

end Inquire

/-- An aggregation is done when every run has its outcome. -/
theorem outcome_of_done {a : Aggregation} (done : a.isDone = true) {e : Entry}
    (mem : e ∈ a.entries) : ∃ o, e.outcome = some o :=
  Option.isSome_iff_exists.mp (List.all_eq_true.mp done e mem)

/-- A service at rest, with nothing under way. -/
def atRest (s : Service) : World := ⟨s, none, [], [], []⟩

/-- A check leaves a scheduled service. -/
theorem check_scheduled {s : Service} (scheduled : Scheduled none s) (timeout : Nat) :
    Scheduled none (s.check timeout).2 := by
  obtain ⟨ms, carried⟩ := step_led (w := atRest s) rfl scheduled (.check timeout)
  have kept := after_scheduled (atRest s) ms scheduled
  rw [carried.free, carried.service] at kept
  exact perform_check s timeout ▸ kept

/-- Whoever is over stays as it is in every run of commands, and it notes nothing. -/
theorem run_over {s : Service} (scheduled : Scheduled none s) {i : JobId} {j : Job}
    (hj : s.jobs[i]? = some j) (gone : j.state.isOver = true) (cs : List Command) :
    (run cs s).2.jobs[i]? = some j ∧ (run cs s).2.notedBy i = s.notedBy i := by
  obtain ⟨w', driven, -, service⟩ := run_driven cs (w := atRest s) rfl scheduled
  obtain ⟨ms, led, -⟩ := driven.moves
  obtain ⟨kept, idle⟩ := after_over (w := atRest s) scheduled hj gone ms
  rw [led, service] at kept
  have noted := notedBy_after idle
  rw [led, service] at noted
  exact ⟨kept, noted⟩

/-- **When a check has returned, its runs are over for ever.** Whatever checkers are registered, in
whatever order they are asked and however long they may take, an aggregation starts a run for each
name, and once every checker has its outcome each of these runs has ended, with the result that is
in the report, or was given up at the deadline and is reported late. Whatever happens later, none of
them does a step any more: its job stays as it is, it notes nothing, and whatever is written is
written by others. Nobody else is given up. A check ends at such a moment, and no command after it
brings a run back. -/
theorem runs_end_with_check (setup : Setup) (clock : Time.Stamp) (before : List Move)
    (request : Option Probe.Request) (timeout : Nat) {deadline : Nat}
    (free : ((new setup clock).after before).turn = none)
    (computable : deadline? ((new setup clock).after before).service.now timeout = some deadline)
    (ms : List Move) :
    let w := (new setup clock).after before
    let v := w.inquire request timeout
    let u := v.after ms
    let runs := List.range' w.service.jobs.length w.service.checkerNames.length
    (∃ q, u.inquiries[w.inquiries.length]? = some q ∧
      (q.aggregation.entries.map (·.name)).Perm w.service.checkerNames ∧
      q.aggregation.entries.map (·.job) = runs ∧
      (∀ i ∉ runs, (u.look w.inquiries.length).service.jobs[i]? = u.service.jobs[i]?) ∧
      (q.aggregation.isDone = true → ∀ e ∈ q.aggregation.entries, ∃ j o,
        u.service.jobs[e.job]? = some j ∧ e.outcome = some o ∧
        q.aggregation.report.checks.get? e.name = some (.ofOutcome e.name o) ∧
        ((∃ r, j.state = .ended r ∧ o = r.asCheck) ∨
          (j.state = .aborted ∧ o = .failed .timedOut ∧ deadline ≤ u.service.now)) ∧
        ∀ later, (u.after later).service.jobs[e.job]? = some j ∧
          (∀ d ∈ u.deeds later, d.job ≠ e.job) ∧
          (u.after later).service.notedBy e.job = u.service.notedBy e.job ∧
          ∀ a, .did a ∈ u.history later →
            .act a ∈ later ∨ ∃ d ∈ u.deeds later, d.job ≠ e.job ∧ d.step = some (.perform a))) ∧
    (∃ ns q, (v.after ns).service = (w.service.check timeout).2 ∧
      (v.after ns).inquiries[w.inquiries.length]? = some q ∧ q.aggregation.isDone = true ∧
      (w.service.check timeout).1 = .ok q.aggregation.report) ∧
    ∀ i ∈ runs, ∃ j, (w.service.check timeout).2.jobs[i]? = some j ∧ j.state.isOver = true ∧
      ∀ cs, (run cs (w.service.check timeout).2).2.jobs[i]? = some j ∧
        (run cs (w.service.check timeout).2).2.notedBy i =
          (w.service.check timeout).2.notedBy i := by
  intro w v u runs
  have vouched : ResultsVouched w := after_resultsVouched setup clock before
  have vouched' : ResultsVouched v := vouched.inquire free computable request
  have sure : AllSure w :=
    after_sure (new_scheduled setup clock) (w := new setup clock) nofun before
  have checked := check_moves vouched free computable request
  refine ⟨?_, checked, ?_⟩
  · obtain ⟨q, hq, snapshot⟩ := inquire_snapshot vouched free computable request ms
    obtain ⟨jobs, overs⟩ := inquire_runs free computable request vouched sure hq
    change _ = runs at jobs
    refine ⟨q, hq, snapshot.names, jobs, fun i out => look_others hq fun e mem same => out ?_, ?_⟩
    · rw [← jobs, ← same]
      exact List.mem_map_of_mem mem
    · intro done e mem
      obtain ⟨o, ho⟩ := outcome_of_done done mem
      obtain ⟨j, hj, gone⟩ := (overs e mem).gone o ho
      obtain ⟨-, -, -, found⟩ := snapshot.report
      refine ⟨j, o, hj, ho, (found e.name _).mpr ⟨e, mem, rfl, by rw [ho]; rfl⟩,
        snapshot.limit ▸ gone, fun later => ?_⟩
      obtain ⟨kept, idle⟩ := after_over (vouched'.after ms).scheduled hj gone.isOver later
      refine ⟨kept, idle, notedBy_after idle, fun a written => ?_⟩
      rcases did_of_history written with out | ⟨d, hd, step⟩
      · exact .inl out
      · exact .inr ⟨d, hd, idle d hd, step⟩
  · obtain ⟨ns, q, service, hq, done, -⟩ := checked
    obtain ⟨jobs, overs⟩ := inquire_runs free computable request vouched sure hq
    change _ = runs at jobs
    intro i mem
    rw [← jobs] at mem
    obtain ⟨e, he, rfl⟩ := List.mem_map.mp mem
    obtain ⟨o, ho⟩ := outcome_of_done done he
    obtain ⟨j, hj, gone⟩ := (overs e he).gone o ho
    rw [service] at hj
    have scheduled : Scheduled none w.service := by
      have kept := vouched.scheduled
      rwa [free] at kept
    exact ⟨j, hj, gone.isOver, run_over (check_scheduled scheduled timeout) hj gone.isOver⟩

/-- A cache that would withdraw readiness after eighty milliseconds, in a check that takes fifty,
and a disk that is in order: the cache is given up, and readiness stays. -/
theorem slow_cache_given_up :
    let cache : Health.Checker := ⟨"cache", true, some 80, [.setReady false], [.returns .passed]⟩
    let disk : Health.Checker := ⟨"disk", false, none, [], [.returns .passed]⟩
    let w := (new ⟨1000, 100, true, ⟨"api", "test", ⟨none, none⟩⟩, .ascending⟩ ⟨0, 0⟩).after
      [.act (.setReady true), .act (.register cache), .act (.register disk)]
    let u := (w.inquire none 50).after
      [.begin, .go, .go, .begin, .go, .go, .advance 50, .look 0]
    ∃ q, u.inquiries[0]? = some q ∧ q.aggregation.isDone = true ∧
      q.aggregation.report.checks.get? "cache" = some ⟨"cache", false, some "check timed out"⟩ ∧
      q.aggregation.report.checks.get? "disk" = some ⟨"disk", true, none⟩ ∧
      ∀ later, (∀ d ∈ u.deeds later, d.job ≠ 0) ∧
        (u.after later).service.notedBy 0 = [⟨0, 0, "cache", "check start"⟩] ∧
        (.did (.setReady false) ∈ u.history later → .act (.setReady false) ∈ later ∨
          ∃ d ∈ u.deeds later, d.job ≠ 0 ∧ d.step = some (.perform (.setReady false))) := by
  obtain ⟨⟨q, hq, -, -, -, given⟩, -, -⟩ :=
    runs_end_with_check ⟨1000, 100, true, ⟨"api", "test", ⟨none, none⟩⟩, .ascending⟩ ⟨0, 0⟩
      [.act (.setReady true),
        .act (.register ⟨"cache", true, some 80, [.setReady false], [.returns .passed]⟩),
        .act (.register ⟨"disk", false, none, [], [.returns .passed]⟩)] none 50 rfl rfl
      [.begin, .go, .go, .begin, .go, .go, .advance 50, .look 0]
  have entries := congrArg (Option.map (·.aggregation.entries)) hq
  have known : some q.aggregation.entries =
      some [⟨"cache", 0, some (.failed .timedOut)⟩, ⟨"disk", 1, some .passed⟩] :=
    entries.symm.trans (by decide +kernel)
  rw [Option.some.injEq] at known
  have done : q.aggregation.isDone = true := by
    unfold Aggregation.isDone
    rw [known]
    rfl
  obtain ⟨j, o, hj, ho, cache, -, final⟩ := given done ⟨"cache", 0, some (.failed .timedOut)⟩
    (by rw [known]; exact List.mem_cons_self)
  obtain ⟨j', o', hj', ho', disk, -, -⟩ := given done ⟨"disk", 1, some .passed⟩
    (by rw [known]; exact List.mem_cons_of_mem _ List.mem_cons_self)
  cases ho
  cases ho'
  refine ⟨q, hq, done, cache, disk, fun later => ?_⟩
  obtain ⟨-, idle, noted, written⟩ := final later
  exact ⟨idle, noted.trans (by decide +kernel), written _⟩

end World

end ServiceHealth
