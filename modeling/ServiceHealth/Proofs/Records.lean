import ServiceHealth.Proofs.Aftermath

/-!
# What moves leave in the metrics and in the log

The metrics are changed in four ways: a report is observed, flags are published, the expiry of the
certificate is set and an outcome is counted. `Note` is one such change, and the metrics of a
service are what its notes make of them, one after the other. Calls to shut down note outcomes, and
write each of them to the log as well, as they collect them.

* `healthy_foldl`, `flags_foldl`, `failures_foldl`, `outcomes_foldl`: what becomes of each part.
* `poll_gains`: a look at a call records the outcomes that it adds to the call, and nothing else.
* `Leaves`, `apply_leaves`: **what every move leaves** in the metrics and in the log, and what the
  calls have collected.
* `notes_reports`, `notes_flags`, `notes_outcomes`: what a move notes of each kind.
-/

namespace ServiceHealth

open Service

/-! ## 1. Notes -/

namespace Metrics

/-- A change of the metrics: a report is observed, flags are published, the expiry of the
certificate is set, or an outcome is counted under a label. -/
inductive Note where
  | report (r : Health.Report)
  | flags (f : Health.Flags)
  | expiry (x : Decimal.Binary64)
  | outcome (label : String)

namespace Note

/-- The report that is observed. -/
def report? : Note → Option Health.Report
  | report r => some r
  | _ => none

/-- The flags that are published. -/
def flags? : Note → Option Health.Flags
  | flags f => some f
  | _ => none

/-- The label that is counted. -/
def outcome? : Note → Option String
  | outcome label => some label
  | _ => none

end Note

/-- The metrics after a note. -/
def note (m : Metrics) : Note → Metrics
  | .report r => m.observeReport r
  | .flags f => m.observeFlags f
  | .expiry x => m.setCertificateExpiry x
  | .outcome label => m.countOutcome label

/-- **The last report tells the state of health.** -/
theorem healthy_foldl (ns : List Note) (m : Metrics) : (ns.foldl note m).healthy =
    ((ns.filterMap Note.report?).getLast?.map (·.isHealthy)).getD m.healthy := by
  induction ns generalizing m with
  | nil => rfl
  | cons n ns ih =>
    rw [List.foldl_cons, ih]
    cases n with
    | report r =>
      rw [List.filterMap_cons_some (f := Note.report?) rfl, List.getLast?_cons]
      cases (ns.filterMap Note.report?).getLast? <;> rfl
    | _ => rfl

/-- **The flags are those that were published last.** -/
theorem flags_foldl (ns : List Note) (m : Metrics) : (ns.foldl note m).flags =
    ((ns.filterMap Note.flags?).getLast?).getD m.flags := by
  induction ns generalizing m with
  | nil => rfl
  | cons n ns ih =>
    rw [List.foldl_cons, ih]
    cases n with
    | flags f =>
      rw [List.filterMap_cons_some (f := Note.flags?) rfl, List.getLast?_cons]
      cases (ns.filterMap Note.flags?).getLast? <;> rfl
    | _ => rfl

/-- **Every report counts the checks that have failed in it.** -/
theorem failures_foldl (ns : List Note) (m : Metrics) : (ns.foldl note m).failures =
    ((ns.filterMap Note.report?).flatMap (·.failing)).foldl Keyed.increment m.failures := by
  induction ns generalizing m with
  | nil => rfl
  | cons n ns ih =>
    rw [List.foldl_cons, ih]
    cases n with
    | report r =>
      rw [List.filterMap_cons_some (f := Note.report?) rfl, List.flatMap_cons, List.foldl_append]
      rfl
    | _ => rfl

/-- **Every outcome is counted under its label.** -/
theorem outcomes_foldl (ns : List Note) (m : Metrics) : (ns.foldl note m).outcomes =
    (ns.filterMap Note.outcome?).foldl Keyed.increment m.outcomes := by
  induction ns generalizing m with
  | nil => rfl
  | cons n ns ih =>
    rw [List.foldl_cons, ih]
    cases n with
    | outcome label =>
      rw [List.filterMap_cons_some (f := Note.outcome?) rfl]
      rfl
    | _ => rfl

end Metrics

/-! ## 2. What a look at a call records -/

namespace Shutdown.Outcome

/-- What an outcome notes in the metrics. -/
def note (o : Outcome) : Metrics.Note := .outcome o.fate.kind.label

/-- What a logger writes of an outcome. -/
def record (o : Outcome) (logger : Log.Logger) : Log.Record :=
  match o.fate with
  | .stopped => logger.record .info "Component stopped" [.text "component" o.component]
  | .failed e =>
    logger.record .error "Component shutdown failed"
      [.text "component" o.component, .error e.message]
  | .timedOut =>
    logger.record .error "Component did not stop before shutdown deadline"
      [.text "component" o.component]

end Shutdown.Outcome

namespace Service

/-- What outcomes note in the metrics, if the shutdown publishes any. -/
def outcomeNotes (s : Service) (os : List Shutdown.Outcome) : List Metrics.Note :=
  if s.setup.publishes then os.map (·.note) else []

/-- Outcomes note nothing but labels. -/
theorem outcomeNotes_filterMap {α : Type} {f : Metrics.Note → Option α} (s : Service)
    (os : List Shutdown.Outcome) (other : ∀ label, f (.outcome label) = none) :
    (s.outcomeNotes os).filterMap f = [] := by
  unfold outcomeNotes
  split
  · rw [List.filterMap_map]
    exact List.filterMap_eq_nil_iff.mpr fun _ _ => other _
  · rfl

/-- The record of a withdrawal. -/
def withdrawalRecord (s : Service) : Log.Record :=
  s.setup.logger.record .info "Readiness withdrawn, stopping components"
    [⟨"components", .nat s.members.length⟩, ⟨"timeout", .span (.ofMillis s.setup.drainTimeout)⟩]

/-- What outcomes leave in the log. -/
def outcomeRecords (s : Service) (os : List Shutdown.Outcome) : List Log.Record :=
  os.map (·.record s.setup.logger)

@[simp] theorem outcomeNotes_nil (s : Service) : s.outcomeNotes [] = [] := ite_self _

@[simp] theorem outcomeRecords_nil (s : Service) : s.outcomeRecords [] = [] := rfl

theorem recordOutcome_eq (s : Service) (o : Shutdown.Outcome) : s.recordOutcome o = { s with
    log := s.log ++ s.outcomeRecords [o]
    metrics := (s.outcomeNotes [o]).foldl Metrics.note s.metrics } := by
  obtain ⟨component, fate⟩ := o
  unfold outcomeNotes
  by_cases publishes : s.setup.publishes = true
  · rw [if_pos publishes]
    cases fate <;> exact if_pos publishes
  · rw [if_neg publishes]
    cases fate <;> exact if_neg publishes

/-- **Outcomes are recorded in the log and in the metrics, one after the other.** -/
theorem recordOutcomes_eq (os : List Shutdown.Outcome) (s : Service) :
    os.foldl recordOutcome s = { s with
      log := s.log ++ s.outcomeRecords os
      metrics := (s.outcomeNotes os).foldl Metrics.note s.metrics } := by
  induction os generalizing s with
  | nil =>
    unfold outcomeNotes
    simp [outcomeRecords]
  | cons o os ih =>
    rw [List.foldl_cons, ih, recordOutcome_eq]
    unfold outcomeNotes outcomeRecords
    split <;> simp

/-- The outcomes that a call has collected. -/
def Call.collected : Call → List Shutdown.Outcome
  | .ignored => []
  | .collecting x => x.outcomes
  | .finished r => r.outcomes

/-- The names of the components that a call waits for. -/
def Call.awaited : Call → List String
  | .collecting x => x.pending.map (·.1)
  | _ => []

/-- The outcomes that a look at a call adds. -/
def Call.gains (c : Call) (s : Service) : List Shutdown.Outcome :=
  (c.poll s).1.collected.drop c.collected.length

/-- What is collected is recorded, in order, and no longer waited for. -/
theorem collect_records (deadline : Nat) (pending : List (String × JobId))
    (outcomes : List Shutdown.Outcome) (s : Service) :
    ∃ more, (collect deadline pending outcomes s).1.outcomes = outcomes ++ more ∧
      (collect deadline pending outcomes s).2 = more.foldl recordOutcome s ∧
      pending.map (·.1) = more.map (·.component) ++
        (collect deadline pending outcomes s).1.pending.map (·.1) := by
  induction pending generalizing outcomes s with
  | nil => exact ⟨[], (List.append_nil _).symm, rfl, rfl⟩
  | cons p rest ih =>
    obtain ⟨name, job⟩ := p
    unfold collect
    split
    · rename_i fate _
      obtain ⟨more, collected, recorded, names⟩ :=
        ih (outcomes ++ [⟨name, fate⟩]) (s.recordOutcome ⟨name, fate⟩)
      refine ⟨⟨name, fate⟩ :: more, ?_, recorded, congrArg (name :: ·) names⟩
      rw [collected, List.append_assoc]
      rfl
    · exact ⟨[], (List.append_nil _).symm, rfl, rfl⟩

/-- **A look at a call records the outcomes that it adds**: what the call has collected grows by
them, it waits for their components no longer, and the log and the metrics tell them. -/
theorem poll_gains (c : Call) (s : Service) :
    (c.poll s).1.collected = c.collected ++ c.gains s ∧
    c.awaited = (c.gains s).map (·.component) ++ (c.poll s).1.awaited ∧
    (c.poll s).2 = { s with
      log := s.log ++ s.outcomeRecords (c.gains s)
      metrics := (s.outcomeNotes (c.gains s)).foldl Metrics.note s.metrics
      phase := (c.poll s).2.phase } := by
  have idle : ∀ c : Call, c.poll s = (c, s) → c.gains s = [] := fun c h => by
    unfold Call.gains
    rw [h, List.drop_length]
  have unchanged : ∀ c : Call, c.poll s = (c, s) →
      (c.poll s).1.collected = c.collected ++ c.gains s ∧
      c.awaited = (c.gains s).map (·.component) ++ (c.poll s).1.awaited ∧
      (c.poll s).2 = { s with
        log := s.log ++ s.outcomeRecords (c.gains s)
        metrics := (s.outcomeNotes (c.gains s)).foldl Metrics.note s.metrics
        phase := (c.poll s).2.phase } := fun c h => by
    rw [idle c h, h]
    unfold outcomeNotes
    simp [outcomeRecords]
  cases c with
  | ignored => exact unchanged _ rfl
  | finished r => exact unchanged _ rfl
  | collecting x =>
    obtain ⟨more, collected, recorded, names⟩ :=
      collect_records x.deadline x.pending x.outcomes s
    have polled : ((Call.collecting x).poll s).1.collected = x.outcomes ++ more ∧
        x.pending.map (·.1) =
          more.map (·.component) ++ ((Call.collecting x).poll s).1.awaited ∧
        ((Call.collecting x).poll s).2 = { more.foldl recordOutcome s with
          phase := ((Call.collecting x).poll s).2.phase } := by
      unfold Call.poll
      dsimp only
      split
      · rename_i last
        rw [last] at names
        exact ⟨collected, names, by rw [recorded]⟩
      · exact ⟨collected, names, by rw [recorded]⟩
    have gains : (Call.collecting x).gains s = more := by
      unfold Call.gains
      rw [polled.1]
      exact List.drop_left
    rw [gains]
    refine ⟨polled.1, polled.2.1, ?_⟩
    rw [polled.2.2, recordOutcomes_eq]

end Service

namespace World

/-! ## 3. What moves leave -/

/-- The report that a move answers a liveness request with. -/
def reportGiven? (w : World) (m : Move) : Option Health.Report :=
  match w.turn, m with
  | none, .answer i =>
    match w.inquiries[i]? with
    | some ⟨some _, a, false⟩ => if a.isDone then some a.report else none
    | _ => none
  | _, _ => none

/-- The flags that a move publishes: those that a readiness probe has seen, or those of a
withdrawal. -/
def flagsPublished? (w : World) (m : Move) : Option Health.Flags :=
  match w.turn, m with
  | none, .request r =>
    match r.target with
    | .route .readyz _ => some w.service.flags
    | _ => none
  | none, .call =>
    if CanWithdraw w.service ∧ w.service.setup.publishes = true then some ⟨false, true⟩ else none
  | _, _ => none

/-- The expiry of the certificate that a move sets. -/
def expirySet? (w : World) (m : Move) : Option Decimal.Binary64 :=
  match w.turn, m with
  | none, .setCertificateExpiry x => some x
  | _, _ => none

/-- The outcomes that a move adds to a call. -/
def gains (w : World) (m : Move) : List Shutdown.Outcome :=
  match w.turn, m with
  | none, .call =>
    match w.service.startCall.1 with
    | .ok c => c.collected
    | .error _ => []
  | none, .lookCall i =>
    match w.calls[i]? with
    | some (.ok c) => c.gains w.service
    | _ => []
  | _, _ => []

/-- What a move notes in the metrics. -/
def notes (w : World) (m : Move) : List Metrics.Note :=
  (w.reportGiven? m).toList.map .report ++ (w.flagsPublished? m).toList.map .flags ++
    (w.expirySet? m).toList.map .expiry ++ w.service.outcomeNotes (w.gains m)

/-- What a move says in the log about the shutdown as a whole. -/
def announced (w : World) (m : Move) : List Log.Record :=
  match w.turn, m with
  | none, .call =>
    if w.service.phase ≠ .running then [w.service.lateRecord]
    else if CanWithdraw w.service then [w.service.withdrawalRecord] else []
  | _, _ => []

/-- The outcomes that a call has collected, if it has not broken off. -/
def collectedBy : Except Overflow Call → List Shutdown.Outcome
  | .ok c => c.collected
  | .error _ => []

/-- The outcomes that all calls have collected. -/
def collected (w : World) : List Shutdown.Outcome := w.calls.flatMap collectedBy

theorem notes_eq {w : World} {m : Move} (report : w.reportGiven? m = none)
    (expiry : w.expirySet? m = none) : w.notes m =
      (w.flagsPublished? m).toList.map .flags ++ w.service.outcomeNotes (w.gains m) := by
  unfold notes
  rw [report, expiry]
  exact congrArg (· ++ _) (List.append_nil _)

theorem notes_turn {w : World} {t : Turn} (ht : w.turn = some t) (m : Move) : w.notes m = [] := by
  unfold notes reportGiven? flagsPublished? expirySet? gains
  rw [ht]
  exact outcomeNotes_nil _

theorem notes_filterMap {α : Type} (f : Metrics.Note → Option α) (w : World) (m : Move) :
    (w.notes m).filterMap f =
      (w.reportGiven? m).toList.filterMap (fun r => f (.report r)) ++
      (w.flagsPublished? m).toList.filterMap (fun x => f (.flags x)) ++
      (w.expirySet? m).toList.filterMap (fun x => f (.expiry x)) ++
      (w.service.outcomeNotes (w.gains m)).filterMap f := by
  unfold notes
  rw [List.filterMap_append, List.filterMap_append, List.filterMap_append, List.filterMap_map,
    List.filterMap_map, List.filterMap_map]
  rfl

theorem notes_reports (w : World) (m : Move) :
    (w.notes m).filterMap Metrics.Note.report? = (w.reportGiven? m).toList := by
  rw [notes_filterMap, outcomeNotes_filterMap _ _ fun _ => rfl]
  cases w.reportGiven? m <;> cases w.flagsPublished? m <;> cases w.expirySet? m <;> rfl

theorem notes_flags (w : World) (m : Move) :
    (w.notes m).filterMap Metrics.Note.flags? = (w.flagsPublished? m).toList := by
  rw [notes_filterMap, outcomeNotes_filterMap _ _ fun _ => rfl]
  cases w.reportGiven? m <;> cases w.flagsPublished? m <;> cases w.expirySet? m <;> rfl

theorem notes_outcomes (w : World) (m : Move) : (w.notes m).filterMap Metrics.Note.outcome? =
    (w.service.outcomeNotes (w.gains m)).filterMap Metrics.Note.outcome? := by
  rw [notes_filterMap]
  cases w.reportGiven? m <;> cases w.flagsPublished? m <;> cases w.expirySet? m <;> rfl

/-- No job touches the metrics. -/
theorem step_metrics (t : Turn) (s : Service) : (t.step s).2.metrics = s.metrics := by
  rcases t.step_cases s with ⟨x, rest, -, -, e⟩ | ⟨_, _, _, -, -, e⟩ | ⟨-, e⟩
  · rw [e]
    cases x with
    | begin checker =>
      simp only [act, beginRun]
      split
      · split <;> rfl
      · rfl
    | perform a => cases a <;> rfl
    | _ => rfl
  · rw [e]
    exact (JobsOnly.hold s t.job _ _ _).metrics
  · rw [e]
    exact (closed_closeJob s t.job t.close).jobsOnly.metrics

theorem inquire_metrics (w : World) (request : Option Probe.Request) (timeout : Nat) :
    (w.inquire request timeout).service.metrics = w.service.metrics := by
  unfold inquire
  split
  · rfl
  · exact (JobsOnly.startAggregation _ _).metrics

theorem opening_collected (s : Service) (deadline : Nat) :
    (Call.collecting (s.opening deadline)).collected = [] := rfl

/-- **What a call leaves.** -/
theorem call_leaves {w : World} (free : w.turn = none) :
    w.call.service.metrics = (w.notes .call).foldl Metrics.note w.service.metrics ∧
    w.call.service.log =
      w.service.log ++ w.announced .call ++ w.service.outcomeRecords (w.gains .call) ∧
    w.call.collected = w.collected ++ w.gains .call := by
  obtain ⟨s, turn, inquiries, stops, calls⟩ := w
  obtain rfl : turn = none := free
  have notes := notes_eq (w := ⟨s, none, inquiries, stops, calls⟩) (m := .call) rfl rfl
  rw [notes]
  unfold flagsPublished? announced gains collected call
  dsimp only
  rcases startCall_cases s with ⟨late, h⟩ | ⟨running, hd, h⟩ | ⟨running, d, hd, h⟩
  · have unable : ¬ (CanWithdraw s ∧ s.setup.publishes = true) := fun k => late k.1.1
    rw [h, if_neg unable, if_pos late]
    dsimp only
    refine ⟨?_, ?_, ?_⟩
    · rw [Call.collected, outcomeNotes_nil]
      rfl
    · rw [Call.collected, outcomeRecords_nil, List.append_nil]
      rfl
    · rw [List.flatMap_append]
      rfl
  · have early : ¬ s.phase ≠ .running := fun late => late running
    have hopeless : ¬ CanWithdraw s := fun k => by
      have computed := k.2
      rw [hd] at computed
      cases computed
    have unable : ¬ (CanWithdraw s ∧ s.setup.publishes = true) := fun k => hopeless k.1
    rw [h, if_neg unable, if_neg early, if_neg hopeless]
    dsimp only
    refine ⟨?_, ?_, ?_⟩
    · rw [outcomeNotes_nil]
      rfl
    · rw [outcomeRecords_nil, List.append_nil, List.append_nil]
    · rw [List.flatMap_append]
      rfl
  · have early : ¬ s.phase ≠ .running := fun late => late running
    have can : CanWithdraw s := ⟨running, by rw [hd]; rfl⟩
    obtain ⟨grown, -, recorded⟩ := poll_gains (.collecting (s.opening d)) (s.teardownsStarted d)
    rw [opening_collected, List.nil_append] at grown
    rw [h, if_neg early, if_pos can]
    dsimp only
    rw [grown, recorded]
    refine ⟨?_, rfl, ?_⟩
    · rw [List.foldl_append, teardownsStarted_metrics]
      by_cases publishes : s.setup.publishes = true
      · rw [if_pos publishes, if_pos (And.intro can publishes)]
        rfl
      · have unable : ¬ (CanWithdraw s ∧ s.setup.publishes = true) := fun k => publishes k.2
        rw [if_neg publishes, if_neg unable]
        rfl
    · rw [List.flatMap_append, List.flatMap_singleton]
      exact congrArg _ grown

theorem gains_quiet {w : World} {m : Move} (called : m ≠ .call) (looked : ∀ i, m ≠ .lookCall i) :
    w.gains m = [] := by
  unfold gains
  split
  · exact absurd rfl called
  · exact absurd rfl (looked _)
  · rfl

theorem announced_quiet {w : World} {m : Move} (called : m ≠ .call) : w.announced m = [] := by
  unfold announced
  split
  · exact absurd rfl called
  · rfl

theorem gains_turn {w : World} {t : Turn} (ht : w.turn = some t) (m : Move) :
    w.gains m = [] ∧ w.announced m = [] := by
  unfold gains announced
  rw [ht]
  exact ⟨rfl, rfl⟩

/-- What a move notes that has nothing to do with calls. -/
theorem outside_metrics {w : World} (free : w.turn = none) {m : Move} (called : m ≠ .call)
    (looked : ∀ i, m ≠ .lookCall i) :
    (w.outside m).service.metrics = (w.notes m).foldl Metrics.note w.service.metrics := by
  unfold notes
  rw [gains_quiet called looked, outcomeNotes_nil, List.append_nil]
  obtain ⟨s, turn, inquiries, stops, calls⟩ := w
  obtain rfl : turn = none := free
  cases m with
  | act a => cases a <;> rfl
  | request r =>
    unfold outside receive flagsPublished? respond
    dsimp only
    cases target : r.target with
    | nowhere => rfl
    | refused => rfl
    | route route withBody =>
      cases route with
      | healthz => exact inquire_metrics _ _ _
      | readyz => rfl
      | metrics => rfl
  | ask timeout => exact inquire_metrics _ _ _
  | look i =>
    unfold outside look
    dsimp only
    split
    · exact (JobsOnly.pollAggregation _ _).metrics
    · rfl
  | answer i =>
    unfold outside answer reportGiven?
    dsimp only
    rcases inquiries[i]? with _ | ⟨_ | r, a, _ | _⟩
    · rfl
    · rfl
    · rfl
    · dsimp only
      split <;> rfl
    · rfl
  | stop task giveUp => exact ((JobsOnly.fire _ _).trans (.claim _ task)).metrics
  | call => exact absurd rfl called
  | lookCall i => exact absurd rfl (looked i)
  | begin => exact (JobsOnly.begin s).metrics
  | advance moment =>
    unfold outside
    dsimp only
    split <;> rfl
  | _ => rfl

/-- One of several lists grows. -/
theorem flatMap_set_perm {α β : Type} (f : α → List β) {xs : List α} {i : Nat} {a a' : α}
    (h : xs[i]? = some a) {more : List β} (grown : (f a').Perm (f a ++ more)) :
    ((xs.set i a').flatMap f).Perm (xs.flatMap f ++ more) := by
  induction xs generalizing i with
  | nil => cases h
  | cons x xs ih =>
    cases i with
    | zero =>
      cases h
      rw [List.set_cons_zero, List.flatMap_cons, List.flatMap_cons]
      refine (grown.append_right _).trans ?_
      rw [List.append_assoc, List.append_assoc]
      exact List.Perm.append_left _ List.perm_append_comm
    | succ i =>
      rw [List.set_cons_succ, List.flatMap_cons, List.flatMap_cons, List.append_assoc]
      exact List.Perm.append_left _ (ih h)

/-- **What a move leaves** in the metrics and in the log, and what the calls have collected. -/
structure Leaves (w : World) (m : Move) (w' : World) : Prop where
  setup : w'.service.setup = w.service.setup
  metrics : w'.service.metrics = (w.notes m).foldl Metrics.note w.service.metrics
  log : w'.service.log = w.service.log ++ w.announced m ++ w.service.outcomeRecords (w.gains m)
  collected : w'.collected.Perm (w.collected ++ w.gains m)

/-- A move that has nothing to do with calls. -/
theorem Leaves.quiet {w w' : World} {m : Move} (same : SameShutdown w.service w'.service)
    (calls : w'.calls = w.calls)
    (metrics : w'.service.metrics = (w.notes m).foldl Metrics.note w.service.metrics)
    (gains : w.gains m = []) (announced : w.announced m = []) : Leaves w m w' where
  setup := same.setup
  metrics := metrics
  log := by rw [same.log, gains, announced, outcomeRecords_nil, List.append_nil, List.append_nil]
  collected := by
    unfold World.collected
    rw [calls, gains, List.append_nil]

theorem lookCall_leaves {w : World} (free : w.turn = none) (i : Nat) :
    Leaves w (.lookCall i) (w.lookCall i) := by
  obtain ⟨s, turn, inquiries, stops, calls⟩ := w
  obtain rfl : turn = none := free
  have announced :=
    announced_quiet (w := ⟨s, none, inquiries, stops, calls⟩) (m := .lookCall i) nofun
  have notes := notes_eq (w := ⟨s, none, inquiries, stops, calls⟩) (m := .lookCall i) rfl rfl
  change _ = s.outcomeNotes _ at notes
  have nothing : ∀ c, calls[i]? = c → (∀ x, c ≠ some (.ok x)) →
      Leaves ⟨s, none, inquiries, stops, calls⟩ (.lookCall i)
        ⟨s, none, inquiries, stops, calls⟩ := by
    intro c hc other
    have gains : gains ⟨s, none, inquiries, stops, calls⟩ (.lookCall i) = [] := by
      unfold gains
      dsimp only
      split
      · rename_i x hx
        exact absurd (hc.symm.trans hx) (other x)
      · rfl
    exact .quiet (.refl _) rfl (by rw [notes, gains, outcomeNotes_nil]; rfl) gains announced
  unfold lookCall
  dsimp only
  split
  · rename_i c hc
    obtain ⟨grown, -, recorded⟩ := poll_gains c s
    have gains : gains ⟨s, none, inquiries, stops, calls⟩ (.lookCall i) = c.gains s := by
      unfold gains
      dsimp only
      rw [hc]
    refine ⟨?_, ?_, ?_, ?_⟩
    · rw [recorded]
    · rw [notes, gains, recorded]
    · rw [announced, gains, recorded, List.append_nil]
    · rw [gains]
      exact flatMap_set_perm collectedBy hc (.of_eq grown)
  · rename_i other
    exact nothing _ rfl fun x hx => other x hx

/-- **What every move leaves.** -/
theorem apply_leaves (w : World) (m : Move) : Leaves w m (w.apply m) := by
  rcases w.apply_cases m with ⟨free, e⟩ | ⟨t, ht, -, e⟩ | ⟨t, ht, -, e⟩
  · rw [e]
    by_cases called : m = .call
    · subst called
      obtain ⟨metrics, log, collected⟩ := call_leaves free
      refine ⟨?_, metrics, log, .of_eq collected⟩
      rcases call_cases w with ⟨-, h, -⟩ | ⟨-, -, h, -⟩ | ⟨d, -, -, h, -⟩
      · exact congrArg (·.service.setup) h
      · exact congrArg (·.service.setup) h
      · refine (congrArg (·.service.setup) h).trans ?_
        rw [(poll_gains _ _).2.2]
        rfl
    by_cases looked : ∃ i, m = .lookCall i
    · obtain ⟨i, rfl⟩ := looked
      exact lookCall_leaves free i
    · have quiet : ∀ i, m ≠ .lookCall i := fun i h => looked ⟨i, h⟩
      exact .quiet (outside_same w called quiet) (outside_phase w m called quiet).2
        (outside_metrics free called quiet) (gains_quiet called quiet) (announced_quiet called)
  · obtain ⟨gains, announced⟩ := gains_turn ht m
    rw [e]
    exact .quiet (.step t w.service) rfl (by rw [notes_turn ht]; exact step_metrics t w.service)
      gains announced
  · obtain ⟨gains, announced⟩ := gains_turn ht m
    rw [e]
    exact .quiet (.refl _) rfl (by rw [notes_turn ht]; rfl) gains announced

end World

namespace Service

/-! ## 4. What waiting leaves -/

theorem settle_metrics (s : Service) : s.settle.metrics = s.metrics :=
  settleLoop_induction (P := fun _ s' => s'.metrics = s.metrics)
    (fun s' h => (JobsOnly.begin s').metrics.trans h)
    (fun t s' h => (World.step_metrics t s').trans h) _ s rfl

section Waiting

variable {σ α : Type} {W : Waiter σ} {f : Metrics → α} {P : σ → Prop}

/-- **Of the metrics, whoever waits leaves alone what the looks leave alone.** -/
theorem awaitLoop_leaves
    (poll : ∀ st s, P st → P (W.poll st s).1 ∧ f (W.poll st s).2.metrics = f s.metrics)
    (fuel : Nat) (st : σ) (s : Service) (h : P st) :
    P (awaitLoop W fuel st s).1 ∧ f (awaitLoop W fuel st s).2.metrics = f s.metrics := by
  induction fuel generalizing st s with
  | zero => exact ⟨h, rfl⟩
  | succ fuel ih =>
    obtain ⟨first, kept⟩ := poll st s h
    obtain ⟨second, kept'⟩ := poll (W.poll st s).1 (W.poll st s).2.settle first
    rw [settle_metrics, kept] at kept'
    rw [awaitLoop_succ]
    dsimp only
    split
    · exact ⟨first, kept⟩
    · split
      · exact ⟨second, kept'⟩
      · split
        · obtain ⟨last, kept''⟩ := ih (W.poll (W.poll st s).1 (W.poll st s).2.settle).1
            (Service.advance _ _) second
          exact ⟨last, kept''.trans kept'⟩
        · exact ⟨second, kept'⟩

theorem await_leaves
    (poll : ∀ st s, P st → P (W.poll st s).1 ∧ f (W.poll st s).2.metrics = f s.metrics)
    (st : σ) (s : Service) (h : P st) :
    P (await W st s).1 ∧ f (await W st s).2.metrics = f s.metrics :=
  awaitLoop_leaves poll _ st s h

theorem await_metrics (poll : ∀ st s, (W.poll st s).2.metrics = s.metrics) (st : σ)
    (s : Service) : (await W st s).2.metrics = s.metrics :=
  (await_leaves (f := id) (P := fun _ => True) (fun st s _ => ⟨trivial, poll st s⟩) st s trivial).2

end Waiting

/-- Asking all checkers leaves the metrics alone. -/
theorem aggregating_metrics (as : List Aggregation) (s : Service) :
    (await aggregating as s).2.metrics = s.metrics :=
  await_metrics (fun as s => pollAggregations_rule (P := fun s' => s'.metrics = s.metrics)
    (fun _ _ kept => kept) as rfl) as s

theorem check_metrics (s : Service) (timeout : Nat) :
    (s.check timeout).2.metrics = s.metrics := by
  unfold check
  split
  · rfl
  · exact (aggregating_metrics _ _).trans (JobsOnly.startAggregation s _).metrics

end Service

end ServiceHealth
