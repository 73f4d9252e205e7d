import ServiceHealth.Proofs.Driver
import ServiceHealth.Proofs.Phases
import ServiceHealth.Proofs.Prompt

/-!
# A shutdown is triggered once

Whatever calls to shut down are made, and however they mix with everything else, the first of them
shuts the service down and all others are ignored. The teardowns that it starts are each invoked
once, as soon as their jobs have had their turns, even if the call has given them up by then.

* `calls_returned`: when all calls have returned, the first has a report and no other has.
* `call_late`: what a call does that comes too late.
* `InvokedOnce`, `invoked_once`: the invocations after the call that wins.
* `Triggered`, `triggered`: what the calls of a world have given, and what becomes of its phase.
* `Reported`, `run_reports`: the reports of all calls that a run makes.
-/

namespace ServiceHealth

open Service

namespace World

/-! ## 1. Calls -/

/-- **When all calls have returned, the first has a report and the others were ignored.** -/
theorem calls_returned {w : World} (h : InOrder w) {ds : List Call} (calls : w.calls = ds.map .ok)
    (nonempty : ds ≠ []) (returned : ∀ d ∈ ds, d.hasReturned = true) :
    ∃ r, ds = .finished r :: List.replicate (ds.length - 1) .ignored := by
  obtain ⟨d, rest, rfl⟩ := List.exists_cons_of_ne_nil nonempty
  have ignored : rest = List.replicate rest.length .ignored := by
    refine List.eq_replicate_iff.mpr ⟨rfl, fun d' hd' => ?_⟩
    have mem : .ok d' ∈ w.calls.tail := by
      rw [calls]
      exact List.mem_map_of_mem hd'
    cases h.rest _ mem
    rfl
  have ended := returned d List.mem_cons_self
  cases d with
  | ignored => exact absurd rfl (h.first (.ok .ignored) (by rw [calls]; rfl))
  | collecting x => cases ended
  | finished r =>
    refine ⟨r, ?_⟩
    rw [List.length_cons, Nat.add_sub_cancel, ← ignored]

theorem toldPhase_cons (c : Except Overflow Call) (cs : List (Except Overflow Call)) :
    toldPhase (c :: cs) ≠ .running := fun h => by cases toldPhase_running h

/-- **A call that is not the first changes only the log**, and is ignored. -/
theorem call_late {w : World} (h : InOrder w) (free : w.turn = none) (nonempty : w.calls ≠ []) :
    w.apply .call = { w with
      service := w.service.logged .debug "Shutdown already triggered, ignoring duplicate trigger" []
      calls := w.calls ++ [.ok .ignored] } := by
  rw [apply_free free]
  have late : w.service.phase ≠ .running := by
    obtain ⟨c, cs, hw⟩ := List.exists_cons_of_ne_nil nonempty
    rw [h.phase, hw]
    exact toldPhase_cons c cs
  rcases call_cases w with ⟨-, e, -⟩ | ⟨running, -⟩ | ⟨d, running, -⟩
  · exact e
  · exact absurd running late
  · exact absurd running late

/-- **The phase goes from running to draining by a call, and from draining to stopped.** -/
theorem apply_phase_order {w : World} (h : InOrder w) (m : Move) :
    (w.apply m).service.phase = w.service.phase ∨ (w.service.phase = .running ∧ m = .call) ∨
      (w.service.phase = .draining ∧ (w.apply m).service.phase = .stopped) := by
  rcases apply_phase w m with same | called | stopped
  · exact .inl same
  · exact .inr (.inl called)
  · cases hp : w.service.phase with
    | stopped => exact .inl stopped
    | draining => exact .inr (.inr ⟨rfl, stopped⟩)
    | running =>
      by_cases hm : m = .call
      · exact .inr (.inl ⟨rfl, hm⟩)
      · -- without a call there is none to be looked at
        have empty := h.uncalled hp
        have calls : (w.apply m).calls = w.calls := by
          unfold apply
          split
          · by_cases look : ∃ i, m = .lookCall i
            · obtain ⟨i, rfl⟩ := look
              unfold outside lookCall
              dsimp only
              rw [empty]
              exact empty
            · exact (outside_phase w m hm fun i e => look ⟨i, e⟩).2
          · split <;> rfl
        have told := (apply_inOrder w m h).phase
        rw [calls, empty, stopped] at told
        cases told

/-- A service that is stopped stays so. -/
theorem stopped_stays {w : World} (h : w.service.phase = .stopped) (ms : List Move) :
    (w.after ms).service.phase = .stopped := by
  have le := phase_le w ms
  rw [h] at le
  cases hp : (w.after ms).service.phase with
  | stopped => rfl
  | running =>
    rw [hp] at le
    cases le
  | draining =>
    rw [hp] at le
    exact absurd le (by decide)

/-! ## 2. Invocations -/

/-- How often the teardown of a job was invoked. -/
def invocations (w : World) (ms : List Move) (job : JobId) : Nat :=
  (w.history ms).countP (Happening.invokes job)

theorem history_call {w : World} (free : w.turn = none) (can : CanWithdraw w.service) :
    w.happenings .call = [.withdrew] := by
  unfold happenings
  rw [free]
  exact if_pos can

/-- What the call that wins has started: the teardowns, one for each component. -/
theorem call_started {w : World} (free : w.turn = none) (can : CanWithdraw w.service) {i : Nat}
    {m : Member} (hm : w.service.members[i]? = some m) :
    (w.apply .call).service.jobs[w.service.jobs.length + i]? =
      some (w.service.teardown (w.service.now + w.service.setup.drainTimeout) m) := by
  obtain ⟨d, hd, e⟩ := call_won can
  rw [apply_free free]
  show w.call.service.jobs[_]? = _
  rw [e, (quiet_poll _ _).jobs, teardownsStarted_jobs,
    List.getElem?_append_right (Nat.le_add_right _ _), Nat.add_sub_cancel_left, List.getElem?_map,
    hm, deadline?_eq_some hd]
  rfl

/-- **What the call that wins owes is what is invoked from then on, and what is still owed.** -/
theorem invocations_owed (setup : Setup) (clock : Time.Stamp) (before after : List Move)
    (free : ((new setup clock).after before).turn = none)
    (can : CanWithdraw ((new setup clock).after before).service) (j : Nat) :
    invocations (new setup clock) before j = 0 ∧
    invocations (new setup clock) (before ++ .call :: after) j +
        ((new setup clock).after (before ++ .call :: after)).owes j =
      if ((new setup clock).after before).service.jobs.length ≤ j ∧
        j < ((new setup clock).after before).service.jobs.length +
          ((new setup clock).after before).service.members.length then 1 else 0 := by
  have quiet : .withdrew ∉ (new setup clock).history before := fun k =>
    withdrew_phase (new setup clock) before k can.1
  obtain ⟨zero, paid⟩ := not_invoked_before setup clock before quiet j
  have scheduled := after_scheduled (new setup clock) before (new_scheduled setup clock)
  refine ⟨zero, ?_⟩
  unfold invocations
  rw [history_append, history_cons, history_call free can, after_append, after_cons,
    List.countP_append, List.countP_append, zero]
  generalize (new setup clock).after before = w at *
  have called : w.apply .call = w.call := apply_free free _
  have owed : (w.apply .call).owes j = w.owes j +
      if w.service.jobs.length ≤ j ∧ j < w.service.jobs.length + w.service.members.length
        then 1 else 0 := by
    have still : w.call.turn = none := outside_turn w .call (by nofun) free
    unfold owes
    rw [called, still, free]
    exact debt_call_withdrew w can j
  have late : (w.apply .call).service.phase ≠ .running := by
    rw [called]
    exact call_won_phase can
  have sum := history_owed (w.apply .call) after (apply_scheduled w .call scheduled)
    (withdrew_once _ after late) j
  have unseen : [Happening.withdrew].countP (Happening.invokes j) = 0 := rfl
  omega

/-- **The invocations of a history with a call that wins**: before it there are none; each of the
teardowns that it starts is invoked at most once, and was invoked when no job has its turn or waits
for it; and nothing else is. -/
structure InvokedOnce (w₀ : World) (before after : List Move) : Prop where
  first : ∀ j, invocations w₀ before j = 0
  started : ∀ (i : Nat) (m : Member), (w₀.after before).service.members[i]? = some m →
    ((w₀.after before).apply .call).service.jobs[(w₀.after before).service.jobs.length + i]? =
      some ((w₀.after before).service.teardown ((w₀.after before).service.now +
        (w₀.after before).service.setup.drainTimeout) m)
  once : ∀ i, i < (w₀.after before).service.members.length →
    invocations w₀ (before ++ .call :: after) ((w₀.after before).service.jobs.length + i) ≤ 1 ∧
      ((w₀.after (before ++ .call :: after)).turn = none →
        (w₀.after (before ++ .call :: after)).service.queue = [] →
        invocations w₀ (before ++ .call :: after) ((w₀.after before).service.jobs.length + i) = 1)
  others : ∀ j : Nat, (j < (w₀.after before).service.jobs.length ∨
      (w₀.after before).service.jobs.length + (w₀.after before).service.members.length ≤ j) →
    invocations w₀ (before ++ .call :: after) j = 0

theorem invoked_once (setup : Setup) (clock : Time.Stamp) (before after : List Move)
    (free : ((new setup clock).after before).turn = none)
    (can : CanWithdraw ((new setup clock).after before).service) :
    InvokedOnce (new setup clock) before after := by
  have owed := invocations_owed setup clock before after free can
  refine ⟨fun j => (owed j).1, fun i m hm => call_started free can hm, fun i lt => ?_,
    fun j out => ?_⟩
  · have sum := (owed (((new setup clock).after before).service.jobs.length + i)).2
    rw [if_pos ⟨Nat.le_add_right _ _, Nat.add_lt_add_left lt _⟩] at sum
    refine ⟨by omega, fun free empty => ?_⟩
    have promptly :=
      after_invokedPromptly (new_invokedPromptly setup clock) (new_scheduled setup clock)
        (before ++ .call :: after)
    have scheduled :=
      after_scheduled (new setup clock) (before ++ .call :: after) (new_scheduled setup clock)
    refine Decidable.byContradiction fun missed => ?_
    have mem := owed_queued promptly scheduled free
      (i := ((new setup clock).after before).service.jobs.length + i) (by omega)
    rw [empty] at mem
    cases mem
  · have sum := (owed j).2
    rw [if_neg (by omega)] at sum
    omega

/-! ## 3. Every order of moves, and every run -/

/-- **What the calls of a world have given**, and what has become of its phase. -/
structure Triggered (w : World) : Prop where
  returned : ∀ ds : List Call, w.calls = ds.map .ok → ds ≠ [] → (∀ d ∈ ds, d.hasReturned = true) →
    ∃ r, ds = .finished r :: List.replicate (ds.length - 1) .ignored
  late : w.turn = none → w.calls ≠ [] → w.apply .call = { w with
    service := w.service.logged .debug "Shutdown already triggered, ignoring duplicate trigger" []
    calls := w.calls ++ [.ok .ignored] }
  phase : w.service.phase = toldPhase w.calls
  pending : ∀ x, .ok (.collecting x) ∈ w.calls → x.pending ≠ []
  order : ∀ m, (w.apply m).service.phase = w.service.phase ∨
    (w.service.phase = .running ∧ m = .call) ∨
    (w.service.phase = .draining ∧ (w.apply m).service.phase = .stopped)
  stopped : w.service.phase = .stopped → ∀ ms, (w.after ms).service.phase = .stopped

theorem triggered {w : World} (h : InOrder w) : Triggered w where
  returned _ := calls_returned h
  late := call_late h
  phase := h.phase
  pending := h.pending
  order := apply_phase_order h
  stopped := stopped_stays

/-- **What the calls of a run have given**: each has told of its report, of which there is one if
there is a call, and then the service has stopped. -/
structure Reported (cs : List Command) (replies : List Reply) (s : Service) : Prop where
  count : (allReports replies).length = (cs.map callsMade).sum
  once : allReports replies ≠ [] → ∃ r,
    allReports replies = some r :: List.replicate ((allReports replies).length - 1) none
  stopped : allReports replies ≠ [] → s.phase = .stopped

/-- **The reports of a run**: of all calls to shut down the first has one, and no other has. -/
theorem run_reports (setup : Setup) (clock : Time.Stamp) (cs : List Command) :
    ∃ ms, ((new setup clock).after ms).turn = none ∧
      ((new setup clock).after ms).service = (run cs (.new setup clock)).2 ∧
      (Unbroken cs (run cs (.new setup clock)).1 →
        Reported cs (run cs (.new setup clock)).1 (run cs (.new setup clock)).2) := by
  obtain ⟨w', driven, free, service⟩ := run_driven cs (w := new setup clock) rfl
    (new_scheduled setup clock)
  obtain ⟨ms, led, -⟩ := driven.moves
  refine ⟨ms, by rw [led]; exact free, by rw [led]; exact service, fun kept => ?_⟩
  obtain ⟨ds, calls, length, reports, returned⟩ := driven.calls kept
  have inOrder : InOrder w' := led ▸ after_inOrder _ ms (new_inOrder setup clock)
  change w'.calls = ds.map .ok at calls
  change allReports (run cs (.new setup clock)).1 = _ at reports
  change w'.service = (run cs (.new setup clock)).2 at service
  have first : allReports (run cs (.new setup clock)).1 ≠ [] →
      ∃ r, ds = .finished r :: List.replicate (ds.length - 1) .ignored := fun nonempty =>
    calls_returned inOrder calls (fun e => nonempty (by rw [reports, e]; rfl)) returned
  refine ⟨?_, fun nonempty => ?_, fun nonempty => ?_⟩
  · rw [reports, List.length_map, length]
  · obtain ⟨r, first⟩ := first nonempty
    refine ⟨r, ?_⟩
    rw [reports, List.length_map]
    exact (congrArg (List.map (·.report?)) first).trans
      (by rw [List.map_cons, List.map_replicate])
  · obtain ⟨r, first⟩ := first nonempty
    rw [← service, inOrder.phase, calls, first]
    rfl

/-- **A shutdown is triggered once.** In whatever order things happen, of the calls made, when they
have all returned, the first has the report and the others none; a call that comes late changes
nothing but the log; the phase goes from running over draining, as long as an outcome is missing, to
stopped, and never back. Nothing is invoked without a call that wins, and the components that such a
call finds registered are invoked once each. A run is such an order. -/
theorem shutdown_triggered_once (setup : Setup) (clock : Time.Stamp) :
    (∀ ms, Triggered ((new setup clock).after ms) ∧
      (.withdrew ∉ (new setup clock).history ms → ∀ j, invocations (new setup clock) ms j = 0)) ∧
    (∀ before after, ((new setup clock).after before).turn = none →
      CanWithdraw ((new setup clock).after before).service →
      InvokedOnce (new setup clock) before after) ∧
    ∀ cs, ∃ ms, ((new setup clock).after ms).turn = none ∧
      ((new setup clock).after ms).service = (run cs (.new setup clock)).2 ∧
      (Unbroken cs (run cs (.new setup clock)).1 →
        Reported cs (run cs (.new setup clock)).1 (run cs (.new setup clock)).2) := by
  refine ⟨fun ms => ⟨triggered (after_inOrder _ ms (new_inOrder setup clock)), fun quiet j => ?_⟩,
    invoked_once setup clock, run_reports setup clock⟩
  exact (not_invoked_before setup clock ms quiet j).1

/-- Two calls to a service whose shutdown waits for nothing: the teardown of the cache, which they
have given up before it began, is still invoked, and once. -/
theorem cache_stopped_once :
    ((new ⟨1000, 0, true, ⟨"api", "test", ⟨none, none⟩⟩, .ascending⟩ ⟨0, 0⟩).after
      [.addComponent ⟨"cache", none, [], .returns .ok⟩, .call, .call]).service.phase = .stopped ∧
    ((new ⟨1000, 0, true, ⟨"api", "test", ⟨none, none⟩⟩, .ascending⟩ ⟨0, 0⟩).after
      [.addComponent ⟨"cache", none, [], .returns .ok⟩, .call, .call, .begin, .go, .go, .go]
      ).service.queue = [] ∧
    invocations (new ⟨1000, 0, true, ⟨"api", "test", ⟨none, none⟩⟩, .ascending⟩ ⟨0, 0⟩)
      [.addComponent ⟨"cache", none, [], .returns .ok⟩, .call, .call, .begin, .go, .go, .go]
      0 = 1 := by
  obtain ⟨-, invoked, -⟩ := shutdown_triggered_once
    ⟨1000, 0, true, ⟨"api", "test", ⟨none, none⟩⟩, .ascending⟩ ⟨0, 0⟩
  have once := (invoked [.addComponent ⟨"cache", none, [], .returns .ok⟩]
    [.call, .begin, .go, .go, .go] rfl ⟨rfl, rfl⟩).once 0 Nat.zero_lt_one
  exact ⟨rfl, rfl, once.2 rfl rfl⟩

end World

end ServiceHealth
