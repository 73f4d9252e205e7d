import Mathlib.Data.List.Forall2
import ServiceHealth.Proofs.Records
import ServiceHealth.Proofs.Trigger

/-!
# One story, told three times

The call that shuts a service down tells of every component three times: in its report, in the log
and in the counters. All three are made as the outcomes come in, one look at a time and with
anything else in between, and yet they agree.

* `Tells`: a record tells an outcome. `SameStory`: report, log and counters tell the same.
* `Recounted`: what a call has told so far, `apply_recounted`: **every move keeps that**.
* `told_by_report`: so it is when the call has its report; `drain_tells`: and so it is of the calls
  that a driver makes at once.
-/

namespace ServiceHealth

open Service

/-! ## 1. Records and reports -/

/-- **A record tells an outcome**: it names the component, it is an error unless the component has
stopped without one, and it has the text of the error if there is one. -/
structure Shutdown.Outcome.Tells (logger : Log.Logger) (o : Shutdown.Outcome) (x : Log.Record) :
    Prop where
  fields : x.fields = .text "component" o.component ::
    (o.fate.error?.map fun e => Log.Field.error e.message).toList
  level : x.level = if o.isOk then .info else .error
  message : x.message = match o.fate with
    | .stopped => "Component stopped"
    | .failed _ => "Component shutdown failed"
    | .timedOut => "Component did not stop before shutdown deadline"
  origin : x.service = logger.service ∧ x.environment = logger.environment ∧
    x.context = logger.context

namespace Shutdown.Outcome

theorem tells_record (logger : Log.Logger) (o : Outcome) : o.Tells logger (o.record logger) := by
  obtain ⟨component, fate⟩ := o
  cases fate <;> exact ⟨rfl, rfl, rfl, rfl, rfl, rfl⟩

/-- The record of an outcome is no detail for finding errors. -/
theorem record_level (logger : Log.Logger) (o : Outcome) : (o.record logger).level ≠ .debug := by
  obtain ⟨component, fate⟩ := o
  cases fate <;> nofun

/-- An outcome has at most one of an error and a missed deadline. -/
theorem error_or_timedOut (o : Outcome) : ¬ (o.fate.error?.isSome = true ∧ o.timedOut = true) := by
  obtain ⟨component, fate⟩ := o
  cases fate <;> nofun

theorem isOk_iff_kind (o : Outcome) : o.isOk = decide (o.fate.kind = .ok) := by
  obtain ⟨component, fate⟩ := o
  cases fate <;> rfl

theorem error_iff_kind (o : Outcome) : o.fate.error?.isSome = decide (o.fate.kind = .error) := by
  obtain ⟨component, fate⟩ := o
  cases fate <;> rfl

theorem timedOut_iff_kind (o : Outcome) : o.timedOut = decide (o.fate.kind = .timeout) := by
  obtain ⟨component, fate⟩ := o
  cases fate <;> rfl

end Shutdown.Outcome

theorem StopKind.label_inj {k k' : StopKind} (h : k.label = k'.label) : k = k' := by
  cases k <;> cases k' <;> first | rfl | exact absurd h (by decide)

namespace Shutdown.Report

/-- **Every outcome is good, has an error or has missed the deadline.** -/
theorem countP_sum (r : Report) : r.outcomes.countP (·.isOk) +
    r.outcomes.countP (·.fate.error?.isSome) + r.outcomes.countP (·.timedOut) =
      r.outcomes.length := by
  induction r.outcomes with
  | nil => rfl
  | cons o os ih =>
    obtain ⟨component, fate⟩ := o
    rw [List.countP_cons, List.countP_cons, List.countP_cons, List.length_cons, ← ih]
    cases fate <;> simp [Outcome.isOk, Outcome.timedOut, Fate.error?] <;> omega

/-- **The components listed as failed are those, in order, whose outcome is not good.** -/
theorem failed_eq (r : Report) : r.failed =
    (((r.outcomes.map (·.component)).zip r.outcomes).filter fun p => !p.2.isOk).map (·.1) := by
  unfold failed
  induction r.outcomes with
  | nil => rfl
  | cons o os ih =>
    rw [List.map_cons, List.zip_cons_cons, List.filter_cons, List.filter_cons]
    split
    · rw [List.map_cons, List.map_cons, ih]
    · exact ih

theorem failed_sublist (r : Report) : r.failed.Sublist (r.outcomes.map (·.component)) :=
  List.filter_sublist.map _

/-- The verdict on a shutdown that is not clean lists the components that have failed. -/
theorem verdict_of_failed {r : Report} (h : r.failed ≠ []) : r.verdict = .error ⟨r.failed⟩ :=
  if_neg fun clean => h (r.isClean_iff.mp clean)

theorem failed_nil_iff (r : Report) : r.failed = [] ↔ r.verdict = .ok () :=
  r.isClean_iff.symm.trans r.verdict_ok_iff.symm

end Shutdown.Report

namespace Service

/-- **A report, the log and the counters tell the same story** of a shutdown that was called for in
the first state, up to the second, in which so many calls have come too late. -/
structure SameStory (s s' : Service) (r : Shutdown.Report) (late : Nat) : Prop where
  names : r.outcomes.map (·.component) = s.memberNames
  log : ∃ story, s'.log = s.log ++ s.withdrawalRecord :: story ∧
    List.Forall₂ (Shutdown.Outcome.Tells s.setup.logger) r.outcomes
      (story.filter fun x => x ≠ s.lateRecord) ∧
    story.count s.lateRecord = late
  table : s'.metrics.outcomes =
    (if s.setup.publishes then r.outcomes.map (·.fate.kind.label) else []).foldl Keyed.increment
      s.metrics.outcomes
  ok : s'.metrics.outcomes.count "ok" = s.metrics.outcomes.count "ok" +
    if s.setup.publishes then r.outcomes.countP (·.isOk) else 0
  error : s'.metrics.outcomes.count "error" = s.metrics.outcomes.count "error" +
    if s.setup.publishes then r.outcomes.countP (·.fate.error?.isSome) else 0
  timeout : s'.metrics.outcomes.count "timeout" = s.metrics.outcomes.count "timeout" +
    if s.setup.publishes then r.outcomes.countP (·.timedOut) else 0
  others : ∀ label, (s.setup.publishes = false ∨ ∀ k : StopKind, label ≠ k.label) →
    s'.metrics.outcomes.get? label = s.metrics.outcomes.get? label
  sum : r.outcomes.countP (·.isOk) + r.outcomes.countP (·.fate.error?.isSome) +
    r.outcomes.countP (·.timedOut) = s.members.length
  exclusive : ∀ o ∈ r.outcomes, ¬ (o.fate.error?.isSome = true ∧ o.timedOut = true)
  failed : r.failed = ((s.memberNames.zip r.outcomes).filter fun p => !p.2.isOk).map (·.1) ∧
    r.failed.Sublist s.memberNames
  verdict : (r.isClean = true ↔ r.failed = []) ∧ (r.failed = [] ↔ r.verdict = .ok ()) ∧
    (r.failed ≠ [] → r.verdict = .error ⟨r.failed⟩)

/-! ## 2. What a call has told so far -/

theorem lateRecord_congr {s s' : Service} (h : s'.setup = s.setup) :
    s'.lateRecord = s.lateRecord := by
  unfold lateRecord
  rw [h]

/-- No outcome is told by the record of a call that comes too late. -/
theorem lateRecord_not_mem (s : Service) (os : List Shutdown.Outcome) :
    s.lateRecord ∉ s.outcomeRecords os := by
  intro mem
  obtain ⟨o, -, h⟩ := List.mem_map.mp mem
  exact Shutdown.Outcome.record_level s.setup.logger o (congrArg (·.level) h)

theorem filter_outcomeRecords (s : Service) (os : List Shutdown.Outcome) :
    (s.outcomeRecords os).filter (fun x => x ≠ s.lateRecord) = s.outcomeRecords os :=
  List.filter_eq_self.mpr fun _ hx => decide_eq_true fun e => lateRecord_not_mem s os (e ▸ hx)

/-- The labels that outcomes are counted under. -/
theorem outcomeNotes_labels (s : Service) (os : List Shutdown.Outcome) :
    (s.outcomeNotes os).filterMap Metrics.Note.outcome? =
      if s.setup.publishes then os.map (·.fate.kind.label) else [] := by
  unfold outcomeNotes
  split
  · rw [List.filterMap_map]
    exact congrFun (List.filterMap_eq_map (f := fun o : Shutdown.Outcome => o.fate.kind.label)) os
  · rfl

end Service

namespace World

/-- **What the first call of a world has told so far** of the shutdown that was called for in a
state: the components that are not told of are those it still waits for. -/
structure Recounted (s : Service) (w : World) (c : Call) : Prop where
  first : w.calls.head? = some (.ok c)
  setup : w.service.setup = s.setup
  names : c.collected.map (·.component) ++ c.awaited = s.memberNames
  log : ∃ story, w.service.log = s.log ++ s.withdrawalRecord :: story ∧
    (story.filter fun x => x ≠ s.lateRecord) = s.outcomeRecords c.collected ∧
    story.count s.lateRecord + 1 = w.calls.length
  outcomes : w.service.metrics.outcomes =
    ((s.outcomeNotes c.collected).filterMap Metrics.Note.outcome?).foldl Keyed.increment
      s.metrics.outcomes

/-- **What a move adds to the first call**, and what it says of calls that come too late. -/
theorem first_grows {w : World} (h : InOrder w) {c : Call} (first : w.calls.head? = some (.ok c))
    (m : Move) : ∃ c' late, (w.apply m).calls.head? = some (.ok c') ∧
      c'.collected = c.collected ++ w.gains m ∧
      c.awaited = (w.gains m).map (·.component) ++ c'.awaited ∧
      w.announced m = List.replicate late w.service.lateRecord ∧
      (w.apply m).calls.length = w.calls.length + late := by
  obtain ⟨rest, calls⟩ : ∃ rest, w.calls = .ok c :: rest := List.head?_eq_some_iff.mp first
  have still : (w.apply m).calls = w.calls → w.gains m = [] → w.announced m = [] →
      ∃ c' late, (w.apply m).calls.head? = some (.ok c') ∧
        c'.collected = c.collected ++ w.gains m ∧
        c.awaited = (w.gains m).map (·.component) ++ c'.awaited ∧
        w.announced m = List.replicate late w.service.lateRecord ∧
        (w.apply m).calls.length = w.calls.length + late := fun same gains announced =>
    ⟨c, 0, by rw [same]; exact first, by rw [gains, List.append_nil], by rw [gains]; rfl, announced,
      by rw [same]; rfl⟩
  cases ht : w.turn with
  | some t =>
    obtain ⟨gains, announced⟩ := gains_turn ht m
    refine still ?_ gains announced
    rcases w.apply_cases m with ⟨free, -⟩ | ⟨t, -, -, e⟩ | ⟨t, -, -, e⟩
    · rw [ht] at free
      cases free
    · rw [e]
    · rw [e]
  | none =>
    by_cases called : m = .call
    · subst called
      have nonempty : w.calls ≠ [] := by
        rw [calls]
        nofun
      have late : w.service.phase ≠ .running := fun running => nonempty (h.uncalled running)
      have gains : w.gains .call = [] := by
        unfold gains
        rw [ht, startCall_ignored _ late]
        rfl
      refine ⟨c, 1, ?_, by rw [gains, List.append_nil], by rw [gains]; rfl, ?_, ?_⟩
      · rw [call_late h ht nonempty, calls]
        rfl
      · unfold announced
        rw [ht]
        exact if_pos late
      · rw [call_late h ht nonempty]
        exact List.length_append
    have announced := announced_quiet (w := w) called
    by_cases looked : ∃ i, m = .lookCall i
    · obtain ⟨i, rfl⟩ := looked
      rw [apply_free ht]
      change ∃ c' late, (w.lookCall i).calls.head? = _ ∧ _ ∧ _ ∧ _ ∧ (w.lookCall i).calls.length = _
      cases i with
      | zero =>
        obtain ⟨grown, awaited, -⟩ := poll_gains c w.service
        have gains : w.gains (.lookCall 0) = c.gains w.service := by
          unfold gains
          rw [ht, calls]
          rfl
        rw [gains]
        refine ⟨(c.poll w.service).1, 0, ?_, grown, awaited, announced, ?_⟩
        · unfold lookCall
          rw [calls]
          rfl
        · unfold lookCall
          rw [calls]
          rfl
      | succ i =>
        -- whoever looks at another call finds that it was ignored
        have gains : w.gains (.lookCall (i + 1)) = [] := by
          unfold gains
          rw [ht]
          dsimp only
          split
          · rename_i d hd
            have other : .ok d ∈ w.calls.tail := by
              rw [calls] at hd ⊢
              exact List.mem_of_getElem? hd
            cases h.rest _ other
            rfl
          · rfl
        refine ⟨c, 0, ?_, by rw [gains, List.append_nil], by rw [gains]; rfl, announced, ?_⟩
        · unfold lookCall
          split
          · rw [calls]
            rfl
          · exact first
        · unfold lookCall
          split
          · exact List.length_set
          · rfl
    · have quiet : ∀ i, m ≠ .lookCall i := fun i e => looked ⟨i, e⟩
      refine still ?_ (gains_quiet called quiet) announced
      rw [apply_free ht]
      exact (outside_phase w m called quiet).2

section Recounted

variable {s : Service}

/-- **Every move keeps what was told, and tells the outcomes that it adds.** -/
theorem apply_recounted {w : World} {c : Call} (h : Recounted s w c) (inOrder : InOrder w)
    (m : Move) : ∃ c', Recounted s (w.apply m) c' := by
  obtain ⟨c', late, first, grown, awaited, announced, length⟩ := first_grows inOrder h.first m
  obtain ⟨setup, metrics, log, -⟩ := apply_leaves w m
  obtain ⟨story, before, told, lates⟩ := h.log
  have same : w.service.lateRecord = s.lateRecord := lateRecord_congr h.setup
  have records : w.service.outcomeRecords (w.gains m) = s.outcomeRecords (w.gains m) := by
    unfold outcomeRecords
    rw [h.setup]
  have notes : w.service.outcomeNotes (w.gains m) = s.outcomeNotes (w.gains m) := by
    unfold outcomeNotes
    rw [h.setup]
  refine ⟨c', first, setup.trans h.setup, ?_, ?_, ?_⟩
  · rw [grown, List.map_append, List.append_assoc, ← awaited]
    exact h.names
  · refine ⟨story ++ w.announced m ++ s.outcomeRecords (w.gains m), ?_, ?_, ?_⟩
    · rw [log, before, records]
      simp only [List.append_assoc, List.cons_append]
    · rw [List.filter_append, List.filter_append, told, filter_outcomeRecords, grown, announced,
        same]
      simp [outcomeRecords]
    · rw [List.count_append, List.count_append, announced, same, List.count_replicate_self,
        List.count_eq_zero.mpr (lateRecord_not_mem s _), length, ← lates]
      omega
  · rw [metrics, Metrics.outcomes_foldl, notes_outcomes, notes, h.outcomes, ← List.foldl_append,
      grown]
    unfold outcomeNotes
    split
    · rw [List.map_append, List.filterMap_append]
    · rfl

theorem after_recounted {w : World} {c : Call} (h : Recounted s w c) (inOrder : InOrder w)
    (ms : List Move) : ∃ c', Recounted s (w.after ms) c' := by
  induction ms generalizing w c with
  | nil => exact ⟨c, h⟩
  | cons m ms ih =>
    obtain ⟨c', h'⟩ := apply_recounted h inOrder m
    exact ih h' (apply_inOrder w m inOrder)

theorem opening_awaited (s : Service) (deadline : Nat) :
    (Call.collecting (s.opening deadline)).awaited = s.memberNames :=
  List.map_fst_zip (by rw [List.length_map, List.length_range'])

/-- **The call that wins begins the story.** -/
theorem call_recounted {w : World} (inOrder : InOrder w) (free : w.turn = none)
    (can : CanWithdraw w.service) : ∃ c, Recounted w.service (w.apply .call) c := by
  obtain ⟨d, -, e⟩ := call_won can
  obtain ⟨metrics, log, all⟩ := call_leaves free
  obtain ⟨grown, awaited, -⟩ :=
    poll_gains (.collecting (w.service.opening d)) (w.service.teardownsStarted d)
  obtain ⟨c, hc⟩ : ∃ c, ((Call.collecting (w.service.opening d)).poll
    (w.service.teardownsStarted d)).1 = c := ⟨_, rfl⟩
  rw [hc] at e grown awaited
  have uncalled := inOrder.uncalled can.1
  have calls : w.call.calls = [.ok c] := by
    rw [e, uncalled]
    rfl
  have gains : w.gains .call = c.collected := by
    unfold collected at all
    rw [calls, uncalled, List.flatMap_singleton] at all
    exact all.symm
  have early : ¬ w.service.phase ≠ .running := fun late => late can.1
  have announced : w.announced .call = [w.service.withdrawalRecord] := by
    unfold announced
    rw [free]
    exact (if_neg early).trans (if_pos can)
  have setup := (apply_leaves w .call).setup
  rw [apply_free free] at setup ⊢
  change ∃ c, Recounted w.service w.call c
  refine ⟨c, by rw [calls]; rfl, setup, ?_, ⟨w.service.outcomeRecords c.collected, ?_, ?_, ?_⟩, ?_⟩
  · rw [grown, opening_collected, List.nil_append, ← awaited, opening_awaited]
  · rw [log, announced, gains, List.append_assoc]
    rfl
  · exact filter_outcomeRecords _ _
  · rw [List.count_eq_zero.mpr (lateRecord_not_mem _ _), calls]
    rfl
  · rw [metrics, Metrics.outcomes_foldl, notes_outcomes, gains]

/-- **A call that has its report has told one story.** -/
theorem Recounted.story {s : Service} {w : World} {r : Shutdown.Report}
    (h : Recounted s w (.finished r)) : SameStory s w.service r (w.calls.length - 1) := by
  have names : r.outcomes.map (·.component) = s.memberNames := by
    rw [← h.names]
    exact (List.append_nil _).symm
  have length : r.outcomes.length = s.members.length := by
    have same := congrArg List.length names
    rwa [List.length_map, memberNames, List.length_map] at same
  have outcomes := h.outcomes
  rw [outcomeNotes_labels] at outcomes
  have counted : ∀ (k : StopKind) (p : Shutdown.Outcome → Bool),
      (∀ o, p o = decide (o.fate.kind = k)) → w.service.metrics.outcomes.count k.label =
        s.metrics.outcomes.count k.label +
          if s.setup.publishes then r.outcomes.countP p else 0 := by
    intro k p hp
    have same : (fun o : Shutdown.Outcome => o.fate.kind.label == k.label) = p := by
      funext o
      rw [hp]
      exact decide_eq_decide.mpr ⟨StopKind.label_inj, congrArg _⟩
    rw [outcomes, Keyed.count_increments]
    split
    · rw [List.count_eq_countP, List.countP_map, ← same]
      rfl
    · rfl
  obtain ⟨story, log, told, late⟩ := h.log
  refine ⟨names, ⟨story, log, ?_, by omega⟩, outcomes, counted .ok _ (·.isOk_iff_kind),
    counted .error _ (·.error_iff_kind), counted .timeout _ (·.timedOut_iff_kind), ?_, ?_,
    fun o _ => o.error_or_timedOut, ⟨?_, ?_⟩, r.isClean_iff, r.failed_nil_iff,
    Shutdown.Report.verdict_of_failed⟩
  · rw [told]
    refine List.forall₂_map_right_iff.mpr (List.forall₂_same.mpr fun o _ => ?_)
    exact o.tells_record s.setup.logger
  · intro label other
    rw [outcomes, Keyed.get?_increments]
    refine if_pos (List.count_eq_zero.mpr fun mem => ?_)
    split at mem
    · rename_i publishes
      obtain ⟨o, -, e⟩ := List.mem_map.mp mem
      rcases other with silent | other
      · rw [publishes] at silent
        cases silent
      · exact other o.fate.kind e.symm
    · cases mem
  · rw [← length]
    exact r.countP_sum
  · rw [r.failed_eq, names]
  · rw [← names]
    exact r.failed_sublist

end Recounted

/-! ## 3. Every shutdown -/

/-- **So it is when the call that wins has its report**, whatever has happened meanwhile and
since. -/
theorem told_by_report {w : World} (inOrder : InOrder w) (free : w.turn = none)
    (can : CanWithdraw w.service) (ms : List Move) {r : Shutdown.Report}
    (reported : (w.after (.call :: ms)).calls.head? = some (.ok (.finished r))) :
    SameStory w.service (w.after (.call :: ms)).service r
      ((w.after (.call :: ms)).calls.length - 1) := by
  obtain ⟨c, begun⟩ := call_recounted inOrder free can
  obtain ⟨c', told⟩ := after_recounted begun (apply_inOrder w .call inOrder) ms
  have first := told.first
  change (w.after (.call :: ms)).calls.head? = _ at first
  rw [reported] at first
  cases first
  exact told.story

/-- **And so it is of the calls that a driver makes at once**: the first has a report, the reply has
the log, and the counters are those that the command leaves. -/
theorem drain_tells {w : World} (inOrder : InOrder w) (scheduled : Scheduled none w.service)
    (free : w.turn = none) (can : CanWithdraw w.service) (count : Nat) (probes : List Nat) :
    ∃ d r flags s', w.service.perform (.drain (count + 1) probes) =
        (.drained d flags .stopped (s'.log.drop w.service.log.length), s') ∧
      d.reports = some r :: List.replicate count none ∧ SameStory w.service s' r count := by
  obtain ⟨deadline, hd⟩ := Option.isSome_iff_exists.mp can.2
  obtain ⟨log, wins⟩ := startCalls_wins count can.1 hd
  obtain ⟨d, s', ns, drained, -, carried⟩ := drain_led free scheduled wins probes
  obtain ⟨⟨-, left, -, -, cs, calls, outcome⟩, -⟩ := carried (s'.log.drop w.service.log.length)
  obtain ⟨-, e, overflow⟩ | ⟨ds, rfl, length, reports, returned⟩ := outcome
  · cases overflow
  change d.reports = ds.map (·.report?) at reports
  change ds.length = count + 1 at length
  rw [inOrder.uncalled can.1, List.nil_append] at calls
  have nonempty : ds ≠ [] := fun none => by
    rw [none] at length
    cases length
  have later := after_inOrder w (List.replicate (count + 1) .call ++ ns) inOrder
  obtain ⟨r, first⟩ := calls_returned later calls nonempty returned
  have whole : w.after (List.replicate (count + 1) .call ++ ns) =
      w.after (.call :: (List.replicate count .call ++ ns)) := rfl
  have phase := later.phase
  rw [calls, first, left] at phase
  have story := told_by_report inOrder free can (List.replicate count .call ++ ns) (r := r)
    (by rw [← whole, calls, first]; rfl)
  rw [← whole, calls, left, List.length_map, length, Nat.add_sub_cancel] at story
  refine ⟨d, r, s'.flags, s', ?_, ?_, story⟩
  · unfold perform
    dsimp only
    rw [drained]
    exact congrArg (fun p => (Answer.drained d s'.flags p _, s')) phase
  · rw [reports, first, List.map_cons, List.map_replicate, length]
    rfl

/-- **The report, the log and the counters of a shutdown tell one story.** A service comes about in
whatever way and is then shut down. As soon as the call has its report, and whatever happens after
that, the records since the withdrawal tell the outcomes of the report, one each and in the order of
registration; the counters have grown by their numbers if the shutdown publishes metrics; and the
components listed as failed, the verdict and cleanliness are all read off the same outcomes. -/
theorem shutdown_tells_one_story (setup : Setup) (clock : Time.Stamp) (before : List Move)
    (free : ((new setup clock).after before).turn = none)
    (can : CanWithdraw ((new setup clock).after before).service) :
    (∀ after r,
      ((new setup clock).after (before ++ .call :: after)).calls.head? = some (.ok (.finished r)) →
      SameStory ((new setup clock).after before).service
        ((new setup clock).after (before ++ .call :: after)).service r
        (((new setup clock).after (before ++ .call :: after)).calls.length - 1)) ∧
    ∀ count probes, ∃ d r flags s',
      ((new setup clock).after before).service.perform (.drain (count + 1) probes) =
        (.drained d flags .stopped
          (s'.log.drop ((new setup clock).after before).service.log.length), s') ∧
      d.reports = some r :: List.replicate count none ∧
      SameStory ((new setup clock).after before).service s' r count := by
  have inOrder := after_inOrder _ before (new_inOrder setup clock)
  have scheduled := after_scheduled (new setup clock) before (new_scheduled setup clock)
  rw [free] at scheduled
  refine ⟨fun after r reported => ?_, drain_tells inOrder scheduled free can⟩
  rw [after_append] at reported ⊢
  exact told_by_report inOrder free can after reported

/-- Two calls to a service with two caches of one name, of which one fails, and a listener that does
not stop: the counters are told of all three. -/
theorem caches_and_listener_counted :
    ((new ⟨1000, 100, true, ⟨"api", "test", ⟨none, none⟩⟩, .ascending⟩ ⟨0, 0⟩).after
      [.addComponent ⟨"cache", none, [], .returns .ok⟩,
        .addComponent ⟨"cache", some 20, [], .returns (.error (.failed "disk full"))⟩,
        .addComponent ⟨"listener", none, [], .hangs⟩]).turn = none ∧
    CanWithdraw ((new ⟨1000, 100, true, ⟨"api", "test", ⟨none, none⟩⟩, .ascending⟩ ⟨0, 0⟩).after
      [.addComponent ⟨"cache", none, [], .returns .ok⟩,
        .addComponent ⟨"cache", some 20, [], .returns (.error (.failed "disk full"))⟩,
        .addComponent ⟨"listener", none, [], .hangs⟩]).service ∧
    ∃ d r flags s', ((new ⟨1000, 100, true, ⟨"api", "test", ⟨none, none⟩⟩, .ascending⟩ ⟨0, 0⟩).after
      [.addComponent ⟨"cache", none, [], .returns .ok⟩,
        .addComponent ⟨"cache", some 20, [], .returns (.error (.failed "disk full"))⟩,
        .addComponent ⟨"listener", none, [], .hangs⟩]).service.perform (.drain 2 []) =
          (.drained d flags .stopped s'.log, s') ∧
      d.reports = [some r, none] ∧
      r.outcomes.map (·.component) = ["cache", "cache", "listener"] ∧
      s'.metrics.outcomes.count "ok" + s'.metrics.outcomes.count "error" +
        s'.metrics.outcomes.count "timeout" = 3 := by
  obtain ⟨-, drains⟩ := shutdown_tells_one_story
    ⟨1000, 100, true, ⟨"api", "test", ⟨none, none⟩⟩, .ascending⟩ ⟨0, 0⟩
    [.addComponent ⟨"cache", none, [], .returns .ok⟩,
      .addComponent ⟨"cache", some 20, [], .returns (.error (.failed "disk full"))⟩,
      .addComponent ⟨"listener", none, [], .hangs⟩] rfl ⟨rfl, rfl⟩
  obtain ⟨d, r, flags, s', performed, reports, story⟩ := drains 1 []
  have ok : s'.metrics.outcomes.count "ok" = 0 + r.outcomes.countP (·.isOk) := story.ok
  have error : s'.metrics.outcomes.count "error" =
      0 + r.outcomes.countP (·.fate.error?.isSome) := story.error
  have timeout : s'.metrics.outcomes.count "timeout" = 0 + r.outcomes.countP (·.timedOut) :=
    story.timeout
  have sum : _ = 3 := story.sum
  refine ⟨rfl, ⟨rfl, rfl⟩, d, r, flags, s', performed, reports, story.names, ?_⟩
  omega

end World

end ServiceHealth
