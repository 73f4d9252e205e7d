import ServiceHealth.Proofs.Exposed
import ServiceHealth.Proofs.Folded
import ServiceHealth.Proofs.Rounded
import ServiceHealth.Proofs.Story
import ServiceHealth.Proofs.Withdrawal

/-!
# The metrics count what has happened

Metrics are shared. Some services note in them what they observe, each with its own requests,
checks and shutdown, and anybody may use them directly. Whatever the order, the metrics tell three
numbers: in how many of the observed reports a check has failed, whether the last of these reports
was healthy, and how many outcomes of each kind were recorded. A report is observed when it answers
a liveness request, or directly, and in no other way.

* `Counted`: metrics that tell these numbers, and show no series besides.
* `Sharing`, `Usage`: services that share their metrics, and what happens to them.
* `apply_notes`: **what one use notes**, `after_observations`, `after_labels`: what all have noted.
* `run_observations`, `run_labels`: the same of the commands that a driver carries out.
* `Observes`, `ObservesOf`, `Unnoticed`: **what is observed**, and what the metrics do not notice.
* `metrics_count_what_happened`: all of it together.
-/

namespace ServiceHealth

open Service Exposition

/-! ## 1. Numbers in the metrics -/

namespace Health.Report

/-- **Each report counts a check that has failed once.** -/
theorem count_failing (rs : List Report) (check : String) :
    (rs.flatMap (·.failing)).count check = rs.countP (·.hasFailed check) := by
  induction rs with
  | nil => rfl
  | cons r rs ih =>
    have nodup : r.failing.Nodup := r.failing_ascending.imp fun lt => lt.ne
    rw [List.flatMap_cons, List.count_append, ih, List.countP_cons, nodup.count, Nat.add_comm]
    congr 1
    by_cases failed : r.hasFailed check = true
    · rw [if_pos (mem_failing.mpr failed), if_pos failed]
    · rw [if_neg fun mem => failed (mem_failing.mp mem), if_neg failed]

end Health.Report

namespace Metrics

/-- **The metrics count what has happened**: in these reports checks have failed, and outcomes were
recorded under these labels. A series is shown exactly for what has happened at least once, with
the number of times; this is written as a double-precision number, digit by digit below the limit
up to which all whole numbers are among these. -/
structure Counted (reports : List Health.Report) (labels : List String) (m : Metrics) : Prop where
  failures : ∀ check, m.failures.get? check =
    if reports.countP (·.hasFailed check) = 0 then none
    else some (reports.countP (·.hasFailed check))
  failuresShown : ∀ x, m.Shows "tunnel_health_check_failures_total" x ↔ ∃ check,
    1 ≤ reports.countP (·.hasFailed check) ∧
      x = ⟨some ("checker", check), countText (reports.countP (·.hasFailed check))⟩
  healthy : m.healthy = (reports.getLast?.map (·.isHealthy)).getD false
  healthyShown : ∀ x, m.Shows "tunnel_health_status" x ↔
    x = ⟨none, digit ((reports.getLast?.map (·.isHealthy)).getD false)⟩
  outcomes : ∀ label, m.outcomes.get? label =
    if labels.count label = 0 then none else some (labels.count label)
  outcomesShown : ∀ x, m.Shows "tunnel_shutdown_outcomes_total" x ↔ ∃ label,
    1 ≤ labels.count label ∧ x = ⟨some ("outcome", label), countText (labels.count label)⟩
  exact : ∀ n < Decimal.Binary64.exactLimit, countText n = toString n

/-- A table that was counted up from nothing shows what was counted. -/
theorem counts_iff {key : String} {t : Keyed Nat} {number : String → Nat}
    (h : ∀ name, t.get? name = if number name = 0 then none else some (number name)) (x : Sample) :
    Counts key t x ↔
      ∃ name, 1 ≤ number name ∧ x = ⟨some (key, name), countText (number name)⟩ := by
  unfold Counts
  refine exists_congr fun name => ?_
  rw [h]
  split
  · rename_i zero
    exact iff_of_false (fun ⟨_, found, _⟩ => nomatch found) fun ⟨positive, _⟩ => by omega
  · rename_i positive
    constructor
    · rintro ⟨_, ⟨⟩, rfl⟩
      exact ⟨Nat.pos_of_ne_zero positive, rfl⟩
    · rintro ⟨-, rfl⟩
      exact ⟨_, rfl, rfl⟩

/-- Metrics that were fresh before. -/
theorem counted_of {reports : List Health.Report} {labels recorded : List String} {m : Metrics}
    (healthy : m.healthy = (reports.getLast?.map (·.isHealthy)).getD false)
    (failures : m.failures = (reports.flatMap (·.failing)).foldl Keyed.increment .empty)
    (outcomes : m.outcomes = recorded.foldl Keyed.increment .empty)
    (perm : recorded.Perm labels) : Counted reports labels m := by
  have failed : ∀ check, m.failures.get? check =
      if reports.countP (·.hasFailed check) = 0 then none
      else some (reports.countP (·.hasFailed check)) := by
    intro check
    rw [failures, Keyed.get?_increments, Health.Report.count_failing]
    exact congrArg _ (congrArg some (Nat.zero_add _))
  have counted : ∀ label, m.outcomes.get? label =
      if labels.count label = 0 then none else some (labels.count label) := by
    intro label
    rw [outcomes, Keyed.get?_increments, perm.count_eq]
    exact congrArg _ (congrArg some (Nat.zero_add _))
  refine ⟨failed, fun x => ?_, healthy, fun x => ?_, counted, fun x => ?_,
    fun _ => Decimal.Binary64.text_ofNat⟩
  · rw [shows_failures]
    exact counts_iff failed x
  · rw [shows_healthy, healthy]
  · rw [shows_outcomes]
    exact counts_iff counted x

end Metrics

/-! ## 2. Services that share their metrics -/

/-- Services that share their metrics, with everything that is under way in them. -/
structure Sharing where
  worlds : List World
  metrics : Metrics

/-- One thing that happens to shared metrics: a move of one of the services, or something that
somebody notes directly. -/
inductive Usage where
  | move (k : Nat) (m : Move)
  | note (n : Metrics.Note)

/-- The label that somebody counts directly. -/
def Usage.label? : Usage → Option String
  | note n => n.outcome?
  | _ => none

namespace World

/-- The same world with other metrics. -/
def withMetrics (w : World) (m : Metrics) : World :=
  { w with service := { w.service with metrics := m } }

/-- The labels of the outcomes that the calls have collected, if they publish any. -/
def recorded (w : World) : List String :=
  if w.service.setup.publishes then w.collected.map (·.fate.kind.label) else []

/-- A move records the labels that it notes. -/
theorem apply_recorded (w : World) (m : Move) : (w.apply m).recorded.Perm
    (w.recorded ++ (w.notes m).filterMap Metrics.Note.outcome?) := by
  have leaves := apply_leaves w m
  rw [notes_outcomes, outcomeNotes_labels]
  unfold recorded
  rw [leaves.setup]
  split
  · rw [← List.map_append]
    exact leaves.collected.map _
  · rfl

end World

namespace Sharing

/-- Services in which nothing has happened, and fresh metrics. -/
def new (setups : List (Setup × Time.Stamp)) : Sharing :=
  ⟨setups.map fun p => .new p.1 p.2, .fresh⟩

/-- What one usage does. -/
def apply (x : Sharing) : Usage → Sharing
  | .note n => { x with metrics := x.metrics.note n }
  | .move k m =>
    match x.worlds[k]? with
    | some w =>
      let w := (w.withMetrics x.metrics).apply m
      ⟨x.worlds.set k w, w.service.metrics⟩
    | none => x

/-- What all usages do. -/
def after (x : Sharing) : List Usage → Sharing
  | [] => x
  | u :: us => (x.apply u).after us

/-- What one usage notes. -/
def notes (x : Sharing) : Usage → List Metrics.Note
  | .note n => [n]
  | .move k m =>
    match x.worlds[k]? with
    | some w => (w.withMetrics x.metrics).notes m
    | none => []

/-- The report that is observed: it answers a liveness request, or somebody observes it directly. -/
def observed? (x : Sharing) : Usage → Option Health.Report
  | .note n => n.report?
  | .move k m => (x.worlds[k]?).bind (·.reportGiven? m)

/-- The reports that are observed, in order. -/
def observations (x : Sharing) : List Usage → List Health.Report
  | [] => []
  | u :: us => (x.observed? u).toList ++ (x.apply u).observations us

/-- The labels of the outcomes that were recorded by shutdowns which publish metrics. -/
def recorded (x : Sharing) : List String := x.worlds.flatMap (·.recorded)

/-- **What one use notes**: the report that is observed, and the labels that are counted, by a
shutdown or directly. -/
theorem apply_notes (x : Sharing) (u : Usage) :
    (x.apply u).metrics = (x.notes u).foldl Metrics.note x.metrics ∧
    (x.notes u).filterMap Metrics.Note.report? = (x.observed? u).toList ∧
    ((x.notes u).filterMap Metrics.Note.outcome? ++ x.recorded).Perm
      ((x.apply u).recorded ++ u.label?.toList) := by
  cases u with
  | note n =>
    refine ⟨rfl, by cases n <;> rfl, ?_⟩
    have labels : [n].filterMap Metrics.Note.outcome? = n.outcome?.toList := by cases n <;> rfl
    show ([n].filterMap Metrics.Note.outcome? ++ x.recorded).Perm (x.recorded ++ n.outcome?.toList)
    rw [labels]
    exact List.perm_append_comm
  | move k m =>
    unfold apply notes observed?
    dsimp only
    cases hw : x.worlds[k]? with
    | none => exact ⟨rfl, rfl, List.perm_append_comm⟩
    | some w =>
      refine ⟨(World.apply_leaves _ m).metrics, World.notes_reports _ m, ?_⟩
      have grown := World.flatMap_set_perm (·.recorded) hw
        (World.apply_recorded (w.withMetrics x.metrics) m)
      exact List.perm_append_comm.trans (grown.symm.trans (.of_eq (List.append_nil _).symm))

section Runs

variable (x : Sharing) (us : List Usage)

/-- **The metrics know the reports that were observed.** -/
theorem after_observations :
    (x.after us).metrics.healthy =
      ((x.observations us).getLast?.map (·.isHealthy)).getD x.metrics.healthy ∧
    (x.after us).metrics.failures =
      ((x.observations us).flatMap (·.failing)).foldl Keyed.increment x.metrics.failures := by
  induction us generalizing x with
  | nil => exact ⟨rfl, rfl⟩
  | cons u us ih =>
    obtain ⟨healthy, failures⟩ := ih (x.apply u)
    obtain ⟨noted, reports, -⟩ := x.apply_notes u
    refine ⟨?_, ?_⟩
    · rw [after, healthy, noted, Metrics.healthy_foldl, reports, observations, List.getLast?_append]
      cases ((x.apply u).observations us).getLast? <;> rfl
    · rw [after, failures, noted, Metrics.failures_foldl, reports, observations,
        List.flatMap_append, List.foldl_append]

/-- **The metrics know the outcomes that were recorded**, by shutdowns and directly. -/
theorem after_labels : ∃ labels : List String,
    (x.after us).metrics.outcomes = labels.foldl Keyed.increment x.metrics.outcomes ∧
    (labels ++ x.recorded).Perm ((x.after us).recorded ++ us.filterMap Usage.label?) := by
  induction us generalizing x with
  | nil => exact ⟨[], rfl, .of_eq (List.append_nil _).symm⟩
  | cons u us ih =>
    obtain ⟨labels, outcomes, perm⟩ := ih (x.apply u)
    obtain ⟨noted, -, grown⟩ := x.apply_notes u
    refine ⟨(x.notes u).filterMap Metrics.Note.outcome? ++ labels, ?_, ?_⟩
    · rw [after, outcomes, noted, Metrics.outcomes_foldl, List.foldl_append]
    · have direct : (u :: us).filterMap Usage.label? =
          u.label?.toList ++ us.filterMap Usage.label? := by
        rw [List.filterMap_cons]
        cases u.label? <;> rfl
      rw [direct]
      refine List.perm_iff_count.mpr fun label => ?_
      have now := grown.count_eq label
      have later := perm.count_eq label
      simp only [List.count_append, after] at now later ⊢
      omega

end Runs

end Sharing

/-! ## 3. The commands of a driver -/

namespace Service

/-- The report that a command observes: the one that a liveness request is answered with. -/
def reportObserved? (s : Service) : Command → Option Health.Report
  | .request r =>
    match r.target with
    | .route .healthz _ => (s.check s.setup.checkTimeout).1.toOption
    | _ => none
  | _ => none

/-- The reports that commands observe, in order. -/
def reportsObserved : List Command → Service → List Health.Report
  | [], _ => []
  | c :: cs, s => (s.reportObserved? c).toList ++ reportsObserved cs (s.perform c).2

/-- What a command notes, if it is no shutdown. -/
def notesOf (s : Service) : Command → List Metrics.Note
  | .request r =>
    match r.target with
    | .route .healthz _ => (s.check s.setup.checkTimeout).1.toOption.toList.map .report
    | .route .readyz _ => [.flags s.flags]
    | _ => []
  | .setCertificateExpiry x => [.expiry x]
  | _ => []

theorem checkMany_metrics (s : Service) (count timeout : Nat) :
    (s.checkMany count timeout).2.metrics = s.metrics := by
  unfold checkMany
  split
  · rfl
  · rename_i deadline _
    refine (aggregating_metrics _ _).trans ?_
    generalize s = s
    induction count generalizing s with
    | zero => rfl
    | succ count ih => exact (ih _).trans (JobsOnly.startAggregation s deadline).metrics

theorem stopTask_metrics (s : Service) (task count : Nat) (giveUp : Option Nat) :
    (s.stopTask task count giveUp).2.metrics = s.metrics := by
  refine (await_metrics (fun _ _ => rfl) _ _).trans ?_
  generalize giveUp.map (wakeTime s.now) = deadline
  induction count generalizing s with
  | zero => rfl
  | succ count ih => exact (ih _).trans ((JobsOnly.fire s task).trans (.claim _ task)).metrics

theorem sleep_metrics (s : Service) (duration : Nat) : (s.sleep duration).metrics = s.metrics :=
  await_metrics (fun _ _ => rfl) _ s

theorem healthz_metrics (s : Service) : s.healthz.2.metrics =
    ((s.check s.setup.checkTimeout).1.toOption.toList.map Metrics.Note.report).foldl Metrics.note
      s.metrics := by
  have checked := check_metrics s s.setup.checkTimeout
  unfold healthz
  split
  · rename_i h
    rw [h] at checked ⊢
    exact checked
  · rename_i report _ h
    rw [h] at checked ⊢
    exact congrArg (·.observeReport report) checked

/-- **What a command notes that is no shutdown.** -/
theorem perform_notes (s : Service) {c : Command}
    (other : ∀ count probes, c ≠ .drain count probes) :
    (s.perform c).2.metrics = (s.notesOf c).foldl Metrics.note s.metrics := by
  cases c with
  | check timeout =>
    rw [World.perform_check]
    exact check_metrics s timeout
  | checkMany count timeout =>
    rw [World.perform_checkMany]
    exact checkMany_metrics s count timeout
  | request r =>
    rw [World.perform_request]
    unfold respond notesOf
    dsimp only
    cases r.target with
    | nowhere => rfl
    | refused => rfl
    | route route withBody =>
      cases route with
      | healthz => exact healthz_metrics s
      | readyz => rfl
      | metrics => rfl
  | stopTask task count giveUp => exact stopTask_metrics s task count giveUp
  | sleep duration => exact sleep_metrics s duration
  | drain count probes => exact absurd rfl (other count probes)
  | _ => rfl

/-- What the metrics know of reports. -/
def ofReports (m : Metrics) : Bool × Keyed Nat := (m.healthy, m.failures)

theorem startCall_ofReports (s : Service) :
    ofReports s.startCall.2.metrics = ofReports s.metrics := by
  rcases startCall_cases s with ⟨-, e⟩ | ⟨-, -, e⟩ | ⟨-, d, -, e⟩
  · rw [e]
    rfl
  · rw [e]
  · obtain ⟨_, _, _, polled⟩ :=
      poll_frame (.collecting (s.opening d)) (s.teardownsStarted d)
    rw [e]
    dsimp only
    rw [polled, teardownsStarted_metrics]
    split <;> rfl

theorem startCalls_ofReports (count : Nat) (s : Service) :
    ofReports (startCalls count s).2.metrics = ofReports s.metrics := by
  induction count generalizing s with
  | zero => rfl
  | succ count ih =>
    have first := startCall_ofReports s
    unfold startCalls
    split
    · rename_i h
      rw [h] at first
      exact first
    · rename_i call s' h
      rw [h] at first
      have rest := ih s'
      split
      · rename_i h'
        rw [h'] at rest
        exact rest.trans first
      · rename_i h'
        rw [h'] at rest
        exact rest.trans first

/-- Sending probes publishes flags and changes nothing else of the metrics. -/
theorem pollLookouts_metrics (ls : List Lookout) (s : Service) :
    ∃ flags, (pollLookouts ls s).2.metrics = { s.metrics with flags } := by
  induction ls generalizing s with
  | nil => exact ⟨s.metrics.flags, rfl⟩
  | cons l ls ih =>
    have first : ∃ flags, (l.poll s).2.metrics = { s.metrics with flags } := by
      unfold Lookout.poll
      split
      · exact ⟨s.metrics.flags, rfl⟩
      · split
        · exact ⟨s.flags, rfl⟩
        · exact ⟨s.metrics.flags, rfl⟩
    obtain ⟨_, first⟩ := first
    obtain ⟨flags, rest⟩ := ih (l.poll s).2
    exact ⟨flags, rest.trans (by rw [first])⟩

theorem pollCalls_ofReports (cs : List Call) (s : Service) :
    ofReports (pollCalls cs s).2.metrics = ofReports s.metrics := by
  induction cs generalizing s with
  | nil => rfl
  | cons c cs ih =>
    obtain ⟨_, _, _, polled⟩ := poll_frame c s
    have first : ofReports (c.poll s).2.metrics = ofReports s.metrics := by
      rw [polled]
      rfl
    exact (ih _).trans first

theorem drain_ofReports (s : Service) (count : Nat) (probes : List Nat) :
    ofReports (s.drain count probes).2.metrics = ofReports s.metrics := by
  have started := startCalls_ofReports count s
  unfold drain
  split
  · rename_i h
    rw [h] at started
    exact started
  · rename_i h
    rw [h] at started
    refine (await_leaves (P := fun _ => True) (fun w s _ => ⟨trivial, ?_⟩) _ _ trivial).2.trans
      started
    obtain ⟨_, sent⟩ := pollLookouts_metrics w.lookouts (pollCalls w.calls s).2
    refine Eq.trans ?_ (pollCalls_ofReports w.calls s)
    show ofReports (pollLookouts w.lookouts (pollCalls w.calls s).2).2.metrics = _
    rw [sent]
    rfl

/-- **What a command does to what the metrics know of reports.** -/
theorem perform_ofReports (s : Service) (c : Command) : ofReports (s.perform c).2.metrics =
    ofReports (((s.reportObserved? c).toList.map Metrics.Note.report).foldl Metrics.note
      s.metrics) := by
  cases c with
  | drain count probes =>
    rw [World.perform_drain]
    exact drain_ofReports s count probes
  | request r =>
    rw [perform_notes s fun _ _ e => by cases e]
    unfold notesOf reportObserved?
    dsimp only
    cases r.target with
    | nowhere => rfl
    | refused => rfl
    | route route withBody => cases route <;> rfl
  | setCertificateExpiry x => rfl
  | _ =>
    rw [perform_notes s fun _ _ e => by cases e]
    rfl

/-- **The metrics know the reports that the commands of a run observe.** -/
theorem run_observations (cs : List Command) (s : Service) :
    (run cs s).2.metrics.healthy =
      ((reportsObserved cs s).getLast?.map (·.isHealthy)).getD s.metrics.healthy ∧
    (run cs s).2.metrics.failures =
      ((reportsObserved cs s).flatMap (·.failing)).foldl Keyed.increment s.metrics.failures := by
  induction cs generalizing s with
  | nil => exact ⟨rfl, rfl⟩
  | cons c cs ih =>
    obtain ⟨healthy, failures⟩ := ih (s.perform c).2
    have noted := perform_ofReports s c
    have now := congrArg Prod.fst noted
    have failed := congrArg Prod.snd noted
    dsimp only [ofReports] at now failed
    have reports : ((s.reportObserved? c).toList.map Metrics.Note.report).filterMap
        Metrics.Note.report? = (s.reportObserved? c).toList := by
      cases s.reportObserved? c <;> rfl
    rw [Metrics.healthy_foldl, reports] at now
    rw [Metrics.failures_foldl, reports] at failed
    rw [World.run_cons, reportsObserved]
    dsimp only
    refine ⟨?_, ?_⟩
    · rw [healthy, now, List.getLast?_append]
      cases (reportsObserved cs (s.perform c).2).getLast? <;> rfl
    · rw [failures, failed, List.flatMap_append, List.foldl_append]

/-- The labels of the outcomes of a report. -/
def labelsOf : Option Shutdown.Report → List String
  | some r => r.outcomes.map (·.fate.kind.label)
  | none => []

/-- Calls of which none wins are all ignored, or break off, and note nothing. -/
theorem startCalls_quiet {s : Service} {count : Nat}
    (h : count = 0 ∨ ¬ World.CanWithdraw s) : ∃ r s', startCalls count s = (r, s') ∧
      s'.metrics = s.metrics ∧ ∀ cs, r = .ok cs → cs = List.replicate count .ignored := by
  by_cases running : s.phase = .running
  · cases count with
    | zero =>
      refine ⟨_, _, rfl, rfl, ?_⟩
      rintro _ ⟨⟩
      rfl
    | succ count =>
      have hopeless := h.resolve_left (Nat.succ_ne_zero count)
      have call : s.startCall = (.error .deadline, { s with phase := .draining }) := by
        rcases startCall_cases s with ⟨late, -⟩ | ⟨-, -, e⟩ | ⟨-, d, hd, -⟩
        · exact absurd running late
        · exact e
        · exact absurd ⟨running, by rw [hd]; rfl⟩ hopeless
      refine ⟨.error .deadline, { s with phase := .draining }, ?_, rfl, by rintro _ ⟨⟩⟩
      unfold startCalls
      rw [call]
  · obtain ⟨log, late⟩ := startCalls_late count running
    refine ⟨_, _, late, rfl, ?_⟩
    rintro _ ⟨⟩
    rfl

/-- Waiting for calls that have all returned changes none of them and counts no outcome. -/
theorem draining_quiet {w : Watch} (returned : ∀ c ∈ w.calls, c.hasReturned = true) (s : Service) :
    (await draining w s).1.calls = w.calls ∧
      (await draining w s).2.metrics.outcomes = s.metrics.outcomes := by
  refine await_leaves (f := Metrics.outcomes) (P := fun w' => w'.calls = w.calls)
    (fun w' s same => ?_) w s rfl
  rw [← same] at returned
  have calls := pollCalls_returned returned s
  obtain ⟨_, sent⟩ := pollLookouts_metrics w'.lookouts s
  refine ⟨?_, ?_⟩
  · show (pollCalls w'.calls s).1 = w.calls
    rw [calls, same]
  · show (pollLookouts w'.lookouts (pollCalls w'.calls s).2).2.metrics.outcomes = _
    rw [calls, sent]

/-- The labels that a shutdown with these reports has recorded. -/
def labelsTold (s : Service) (reports : List (Option Shutdown.Report)) : List String :=
  if s.setup.publishes then reports.flatMap labelsOf else []

theorem labelsTold_silent (s : Service) {reports : List (Option Shutdown.Report)}
    (h : ∀ r ∈ reports, r = none) : s.labelsTold reports = [] := by
  unfold labelsTold
  split
  · refine List.flatMap_eq_nil_iff.mpr fun r hr => ?_
    rw [h r hr]
    rfl
  · rfl

theorem labelsTold_append (s : Service) (rs rs' : List (Option Shutdown.Report)) :
    s.labelsTold (rs ++ rs') = s.labelsTold rs ++ s.labelsTold rs' := by
  unfold labelsTold
  split
  · exact List.flatMap_append
  · rfl

end Service

namespace World

/-- **What a shutdown by a driver counts**: the outcomes of the reports in its answer. -/
theorem drain_labels {w : World} (inOrder : InOrder w) (scheduled : Scheduled none w.service)
    (free : w.turn = none) (count : Nat) (probes : List Nat) :
    (w.service.perform (.drain count probes)).2.metrics.outcomes =
      (w.service.labelsTold (reportsTold (w.service.perform (.drain count probes)).1)).foldl
        Keyed.increment w.service.metrics.outcomes := by
  by_cases wins : ∃ k, count = k + 1 ∧ CanWithdraw w.service
  · obtain ⟨k, rfl, can⟩ := wins
    obtain ⟨d, r, flags, s', performed, reports, story⟩ :=
      drain_tells inOrder scheduled free can k probes
    have told : reportsTold (w.service.perform (.drain (k + 1) probes)).1 =
        [some r] ++ List.replicate k none := by
      rw [performed]
      exact reports
    rw [told, labelsTold_append, labelsTold_silent _ fun r hr => List.eq_of_mem_replicate hr,
      List.append_nil, performed]
    refine story.table.trans ?_
    unfold labelsTold
    rw [List.flatMap_singleton]
    rfl
  · have quiet : count = 0 ∨ ¬ CanWithdraw w.service := by
      cases count with
      | zero => exact .inl rfl
      | succ k => exact .inr fun can => wins ⟨k, rfl, can⟩
    obtain ⟨r, s', started, metrics, ignored⟩ := startCalls_quiet quiet
    unfold perform drain
    dsimp only
    rw [started]
    cases r with
    | error e =>
      show s'.metrics.outcomes = (w.service.labelsTold []).foldl _ _
      rw [labelsTold_silent _ fun _ hr => (by cases hr), metrics]
      rfl
    | ok cs =>
      have returned : ∀ c ∈ cs, c.hasReturned = true := fun c hc => by
        rw [ignored cs rfl] at hc
        rw [List.eq_of_mem_replicate hc]
        rfl
      obtain ⟨calls, outcomes⟩ := draining_quiet
        (w := ⟨cs, none, probes.map fun d => ⟨wakeTime w.service.now d, none⟩⟩) returned s'
      have told : ∀ r ∈ cs.map (·.report?), r = none := fun r hr => by
        rw [ignored cs rfl, List.map_replicate] at hr
        exact List.eq_of_mem_replicate hr
      refine outcomes.trans ?_
      show s'.metrics.outcomes =
        (w.service.labelsTold ((await draining _ s').1.calls.map _)).foldl _ _
      rw [calls, labelsTold_silent _ told, metrics]
      rfl

theorem reportsTold_perform (s : Service) {c : Command}
    (other : ∀ count probes, c ≠ .drain count probes) : reportsTold (s.perform c).1 = [] := by
  cases c with
  | check timeout =>
    unfold perform
    dsimp only
    split <;> rfl
  | checkMany count timeout =>
    unfold perform
    dsimp only
    split <;> rfl
  | request r =>
    unfold perform
    dsimp only
    split <;> rfl
  | drain count probes => exact absurd rfl (other count probes)
  | _ => rfl

theorem perform_labels {w : World} (inOrder : InOrder w) (scheduled : Scheduled none w.service)
    (free : w.turn = none) (c : Command) : (w.service.perform c).2.metrics.outcomes =
      (w.service.labelsTold (reportsTold (w.service.perform c).1)).foldl Keyed.increment
        w.service.metrics.outcomes := by
  by_cases shutdown : ∃ count probes, c = .drain count probes
  · obtain ⟨count, probes, rfl⟩ := shutdown
    exact drain_labels inOrder scheduled free count probes
  · have other : ∀ count probes, c ≠ .drain count probes := fun count probes e =>
      shutdown ⟨count, probes, e⟩
    have uncounted : (w.service.notesOf c).filterMap Metrics.Note.outcome? = [] := by
      unfold notesOf
      split
      · split
        · cases (w.service.check w.service.setup.checkTimeout).1.toOption <;> rfl
        · rfl
        · rfl
      · rfl
      · rfl
    rw [perform_notes _ other, Metrics.outcomes_foldl, uncounted, reportsTold_perform _ other,
      labelsTold_silent _ fun _ hr => (by cases hr)]

/-- **The metrics know the outcomes of the reports in the replies of a run.** -/
theorem run_labels (cs : List Command) {w : World} (inOrder : InOrder w)
    (scheduled : Scheduled none w.service) (free : w.turn = none) :
    (run cs w.service).2.metrics.outcomes =
      (w.service.labelsTold (allReports (run cs w.service).1)).foldl Keyed.increment
        w.service.metrics.outcomes := by
  induction cs generalizing w with
  | nil =>
    show _ = (w.service.labelsTold []).foldl _ _
    rw [labelsTold_silent _ fun _ hr => (by cases hr)]
    rfl
  | cons c cs ih =>
    obtain ⟨ms, carried⟩ := step_led free scheduled c
    have scheduled' := after_scheduled w ms (by rw [free]; exact scheduled)
    rw [carried.free] at scheduled'
    have rest := ih (after_inOrder w ms inOrder) scheduled' carried.free
    have setup : (w.service.perform c).2.setup = w.service.setup := by
      rw [← carried.service]
      exact after_induction (P := fun v => v.service.setup = w.service.setup)
        (fun v m h => (apply_leaves v m).setup.trans h) w ms rfl
    have same : ∀ rs, (w.service.perform c).2.labelsTold rs = w.service.labelsTold rs := by
      intro rs
      unfold labelsTold
      rw [setup]
    rw [carried.service, perform_labels inOrder scheduled free, ← List.foldl_append, same,
      ← labelsTold_append] at rest
    rw [run_cons]
    exact rest

/-! ## 4. What is observed, and what is not -/

/-- **A move observes a report exactly if it answers a liveness request**, and it is the report that
the answer tells. -/
structure Observes (w : World) (m : Move) : Prop where
  answered : ∀ report, w.reportGiven? m = some report →
    ∃ (r : Probe.Request) (withBody : Bool), r.target = .route .healthz withBody ∧
      w.happenings m =
        [.answered r ((Probe.liveness report w.service.flags.shuttingDown).sent withBody)]
  unanswered : w.reportGiven? m = none →
    ∀ r x, .answered r x ∈ w.happenings m → ¬ isLiveness r

theorem observes {w : World} (asked : Asked w) (m : Move) : Observes w m where
  answered report given := by
    unfold reportGiven? at given
    split at given
    · rename_i free
      split at given
      · rename_i r a hq
        split at given
        · rename_i done
          cases given
          obtain ⟨withBody, target⟩ := asked _ (List.mem_of_getElem? hq) r rfl
          refine ⟨r, withBody, target, ?_⟩
          rw [(answer_liveness free hq done).2, livenessAnswer_eq target]
        · cases given
      · cases given
    · cases given
  unanswered ungiven r x mem live := by
    cases observed_of_mem mem with
    | answered free other h => exact other live
    | checked free h done =>
      unfold reportGiven? at ungiven
      rw [free] at ungiven
      dsimp only at ungiven
      rw [h] at ungiven
      dsimp only at ungiven
      rw [if_pos done] at ungiven
      cases ungiven

/-- **Moves that the metrics do not notice**: a request for liveness until it is answered, whether
its deadline can be computed or not; everybody else's aggregations; and a shutdown that publishes
nothing. -/
inductive Unnoticed (w : World) : Move → Prop where
  | request {r : Probe.Request} (live : isLiveness r) : Unnoticed w (.request r)
  | ask (timeout : Nat) : Unnoticed w (.ask timeout)
  | look (i : Nat) : Unnoticed w (.look i)
  | call (silent : w.service.setup.publishes = false) : Unnoticed w .call
  | lookCall (silent : w.service.setup.publishes = false) (i : Nat) : Unnoticed w (.lookCall i)

theorem notes_unnoticed {w : World} {m : Move} (h : Unnoticed w m) : w.notes m = [] := by
  obtain ⟨s, turn, inquiries, stops, calls⟩ := w
  cases turn with
  | some t => exact notes_turn rfl m
  | none =>
    cases h with
    | @request r live =>
      obtain ⟨withBody, target⟩ := live
      rw [notes_eq rfl rfl]
      unfold flagsPublished? gains
      dsimp only
      rw [target, outcomeNotes_nil]
      rfl
    | ask timeout => exact outcomeNotes_nil s
    | look i => exact outcomeNotes_nil s
    | call silent =>
      have unpublished : ¬ (CanWithdraw s ∧ s.setup.publishes = true) := fun h => by
        rw [silent] at h
        cases h.2
      rw [notes_eq rfl rfl]
      unfold flagsPublished? outcomeNotes
      dsimp only
      rw [if_neg unpublished, silent]
      rfl
    | lookCall silent i =>
      rw [notes_eq rfl rfl]
      unfold outcomeNotes
      dsimp only at silent ⊢
      rw [silent]
      rfl

theorem apply_asked {w : World} (h : Asked w) (m : Move) : Asked (w.apply m) := by
  unfold apply
  split
  · exact outside_asked h m
  · split <;> exact h

end World

namespace Sharing

/-- **What every move of a service keeps, whatever the metrics, all services keep.** -/
theorem after_worlds {P : World → Prop} (apply : ∀ w m, P w → P (w.apply m))
    (metrics : ∀ w m, P w → P (w.withMetrics m)) {x : Sharing} (us : List Usage)
    (h : ∀ w ∈ x.worlds, P w) : ∀ w ∈ (x.after us).worlds, P w := by
  induction us generalizing x with
  | nil => exact h
  | cons u us ih =>
    refine ih ?_
    cases u with
    | note n => exact h
    | move k m =>
      unfold Sharing.apply
      dsimp only
      cases hw : x.worlds[k]? with
      | none => exact h
      | some w =>
        intro v hv
        rcases List.mem_or_eq_of_mem_set hv with old | rfl
        · exact h v old
        · exact apply _ m (metrics w _ (h w (List.mem_of_getElem? hw)))

theorem apply_unnoticed {x : Sharing} {k : Nat} {m : Move}
    (h : ∀ w, x.worlds[k]? = some w → World.Unnoticed w m) :
    (x.apply (.move k m)).metrics = x.metrics := by
  rw [(x.apply_notes _).1]
  unfold notes
  dsimp only
  cases hw : x.worlds[k]? with
  | none => rfl
  | some w =>
    have same : World.Unnoticed (w.withMetrics x.metrics) m := by
      cases h w hw with
      | request live => exact .request live
      | ask timeout => exact .ask timeout
      | look i => exact .look i
      | call silent => exact .call silent
      | lookCall silent i => exact .lookCall (by exact silent) i
    dsimp only
    rw [World.notes_unnoticed same]
    rfl

end Sharing

namespace World

/-- **A driver's command observes a report exactly if it is a liveness request that is answered**,
and it is the report that the answer tells. -/
structure ObservesOf (s : Service) (c : Command) : Prop where
  answered : ∀ report, s.reportObserved? c = some report →
    ∃ (r : Probe.Request) (withBody down : Bool), c = .request r ∧
      r.target = .route .healthz withBody ∧
      (s.perform c).1 = .response ((Probe.liveness report down).sent withBody)
  unanswered : s.reportObserved? c = none → ∀ r, c = .request r → isLiveness r →
    ∃ e, (s.perform c).1 = .overflow e

theorem observesOf (s : Service) (c : Command) : ObservesOf s c := by
  have liveness : ∀ (r : Probe.Request) (withBody : Bool), r.target = .route .healthz withBody →
      (∃ report down, s.reportObserved? (.request r) = some report ∧
        (s.perform (.request r)).1 = .response ((Probe.liveness report down).sent withBody)) ∨
      (s.reportObserved? (.request r) = none ∧
        ∃ e, (s.perform (.request r)).1 = .overflow e) := by
    intro r withBody target
    unfold reportObserved? perform respond
    dsimp only
    rw [target]
    dsimp only
    unfold healthz
    obtain ⟨result, s'⟩ := s.check s.setup.checkTimeout
    cases result with
    | error e => exact .inr ⟨rfl, e, rfl⟩
    | ok report => exact .inl ⟨report, s'.flags.shuttingDown, rfl, rfl⟩
  constructor
  · intro report observed
    obtain ⟨r, rfl⟩ : ∃ r, c = .request r := by
      unfold reportObserved? at observed
      split at observed
      · exact ⟨_, rfl⟩
      · cases observed
    obtain ⟨withBody, target⟩ : isLiveness r := by
      unfold reportObserved? at observed
      dsimp only at observed
      split at observed
      · exact ⟨_, ‹_›⟩
      · cases observed
    rcases liveness r withBody target with ⟨report', down, told, response⟩ | ⟨none, -⟩
    · rw [observed] at told
      cases told
      exact ⟨r, withBody, down, rfl, target, response⟩
    · rw [observed] at none
      cases none
  · rintro unobserved r rfl ⟨withBody, target⟩
    rcases liveness r withBody target with ⟨report, -, told, -⟩ | ⟨-, overflow⟩
    · rw [unobserved] at told
      cases told
    · exact overflow

/-- **The metrics count exactly what has happened.** Services share fresh metrics, and whatever
happens to them in whatever order, their checkers being asked in any order too, and whatever
somebody notes directly, the metrics tell the reports that were observed and the outcomes that were
recorded by shutdowns which publish metrics, or directly. A report is observed exactly when a
liveness request is answered by it; what is asked for in another way, a request that is never
answered and a shutdown that publishes nothing go unnoticed. And so it is of the commands that a
driver carries out: they observe the reports that its liveness requests are answered with, and
record the outcomes of the reports in its replies. -/
theorem metrics_count_what_happened :
    (∀ (setups : List (Setup × Time.Stamp)) (us : List Usage),
      let x := (Sharing.new setups).after us
      x.metrics.Counted ((Sharing.new setups).observations us)
        (x.recorded ++ us.filterMap Usage.label?) ∧
      (∀ w ∈ x.worlds, ∀ m, Observes w m) ∧
      ∀ k m, (∀ w, x.worlds[k]? = some w → Unnoticed w m) →
        (x.apply (.move k m)).metrics = x.metrics) ∧
    (∀ (setup : Setup) (clock : Time.Stamp) (cs : List Command),
      let s := Service.new setup clock
      (run cs s).2.metrics.Counted (reportsObserved cs s)
        (s.labelsTold (allReports (run cs s).1))) ∧
    ∀ (s : Service) (c : Command), ObservesOf s c := by
  refine ⟨fun setups us => ⟨?_, ?_, fun k m => Sharing.apply_unnoticed⟩, fun setup clock cs => ?_,
    observesOf⟩
  · obtain ⟨healthy, failures⟩ := (Sharing.new setups).after_observations us
    obtain ⟨labels, outcomes, perm⟩ := (Sharing.new setups).after_labels us
    have unrecorded : (Sharing.new setups).recorded = [] := by
      refine List.flatMap_eq_nil_iff.mpr fun w hw => ?_
      obtain ⟨p, -, rfl⟩ := List.mem_map.mp hw
      exact ite_self _
    rw [unrecorded, List.append_nil] at perm
    exact Metrics.counted_of healthy failures outcomes perm
  · have asked := Sharing.after_worlds (P := Asked) (fun w m h => apply_asked h m)
      (fun _ _ h => h) (x := Sharing.new setups) us fun w hw => by
        obtain ⟨p, -, rfl⟩ := List.mem_map.mp hw
        exact nofun
    exact fun w hw m => observes (asked w hw) m
  · obtain ⟨healthy, failures⟩ := run_observations cs (.new setup clock)
    have outcomes := run_labels cs (w := new setup clock) (new_inOrder setup clock)
      (new_scheduled setup clock) rfl
    exact Metrics.counted_of healthy failures outcomes (List.Perm.refl _)

/-- Two services that share their metrics. A request finds the database of one down, and both have
been shut down, but the call to the other, which publishes nothing, has not been looked at yet; when
it is, the metrics do not notice. -/
theorem two_services_counted :
    let x := (Sharing.new [(⟨1000, 100, true, ⟨"api", "test", ⟨none, none⟩⟩, .ascending⟩, ⟨0, 0⟩),
        (⟨1000, 100, false, ⟨"worker", "test", ⟨none, none⟩⟩, .ascending⟩, ⟨0, 0⟩)]).after
      [.move 0 (.act (.register
          ⟨"database", false, none, [], [.returns (.failed (.unhealthy "down"))]⟩)),
        .move 0 (.request healthzRequest), .move 0 .begin, .move 0 .go, .move 0 .go,
        .move 0 (.look 0), .move 0 (.answer 0),
        .move 0 (.addComponent ⟨"cache", none, [], .returns .ok⟩), .move 0 .call,
        .move 0 .begin, .move 0 .go, .move 0 .go, .move 0 .go, .move 0 (.lookCall 0),
        .move 1 (.addComponent ⟨"queue", none, [], .returns .ok⟩), .move 1 .call,
        .move 1 .begin, .move 1 .go, .move 1 .go, .move 1 .go,
        .note (.outcome "timeout")]
    x.metrics.failures.get? "database" = some 1 ∧ x.metrics.healthy = false ∧
    x.metrics.outcomes.get? "ok" = some 1 ∧ x.metrics.outcomes.get? "timeout" = some 1 ∧
    (x.apply (.move 1 (.lookCall 0))).worlds.map (·.collected.map (·.component)) =
      [["cache"], ["queue"]] ∧
    (x.apply (.move 1 (.lookCall 0))).metrics = x.metrics := by
  intro x
  obtain ⟨counted, -, unnoticed⟩ := metrics_count_what_happened.1 _ _
  refine ⟨counted.failures "database", counted.healthy, counted.outcomes "ok",
    counted.outcomes "timeout", rfl, unnoticed 1 (.lookCall 0) fun w hw => ?_⟩
  cases hw
  exact .lookCall rfl 0

end World

end ServiceHealth
