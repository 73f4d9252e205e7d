import ServiceHealth.Proofs.Driver
import ServiceHealth.Proofs.Reach

/-!
# Readiness is withdrawn

The winning call writes both flags before it starts a teardown. What is observed after that, in
whatever order jobs, requests, aggregations and calls go on, depends on the flags as they have been
written since.

* `answered_readyz`, `answered_healthz`: what a probe is answered, by the flags at that moment.
* `flags_withdrawn`: the flags after a withdrawal, by what was written since.
* `Withdrawn`: the state that the winning call leaves, `after_withdrawn`: what keeps it.
* `fired_by`: who fires the signal of a task.
* `Down`, `Unready`: what is observed from then on; `ToldDown`, `ToldUnready`: what a run tells.
* `NeverDone`: nobody comes to do an action in a run.

So readiness is not given back once a shutdown has begun, and no teardown starts before it is
withdrawn.
-/

namespace ServiceHealth

open Service

namespace World

/-! ## 1. What probes are answered -/

/-- Every request that waits for an aggregation is one for liveness. -/
def Asked (w : World) : Prop := ∀ q ∈ w.inquiries, ∀ r, q.request = some r → isLiveness r

theorem inquire_asked {w : World} (h : Asked w) {request : Option Probe.Request}
    (live : ∀ r, request = some r → isLiveness r) (timeout : Nat) :
    Asked (w.inquire request timeout) := by
  rcases inquire_inquiries w request timeout with e | ⟨q, e, asks, -⟩ <;> intro p hp r hr <;>
    rw [e] at hp
  · exact h p hp r hr
  · rcases List.mem_append.mp hp with old | new
    · exact h p old r hr
    · rw [List.mem_singleton.mp new, asks] at hr
      exact live r hr

theorem outside_asked {w : World} (h : Asked w) (m : Move) : Asked (w.outside m) := by
  rcases outside_inquiries w m with
    same | ⟨request, timeout, e, live⟩ | ⟨i, q, q', hq, set, same, -, -⟩
  · intro p hp
    rw [same] at hp
    exact h p hp
  · rw [e]
    exact inquire_asked h live timeout
  · intro p hp r hr
    rw [set] at hp
    rcases List.mem_or_eq_of_mem_set hp with old | rfl
    · exact h p old r hr
    · exact h q (List.mem_of_getElem? hq) r (same ▸ hr)

theorem after_asked (setup : Setup) (clock : Time.Stamp) (ms : List Move) :
    Asked ((new setup clock).after ms) := by
  refine after_induction (P := Asked) (fun w m h => ?_) _ ms nofun
  unfold apply
  split
  · exact outside_asked h m
  · split <;> exact h

/-- **A readiness probe is answered by the flags at that moment.** -/
theorem answered_readyz {w : World} (asked : Asked w) {m : Move} {r : Probe.Request}
    {x : Probe.Response} (mem : .answered r x ∈ w.happenings m) {withBody : Bool}
    (target : r.target = .route .readyz withBody) :
    x = (Probe.readiness w.service.flags).sent withBody := by
  cases observed_of_mem mem with
  | answered free other h =>
    unfold respond at h
    rw [target] at h
    cases h
    rfl
  | checked free h done =>
    obtain ⟨b, live⟩ := asked _ (List.mem_of_getElem? h) r rfl
    rw [target] at live
    cases live

/-- **A liveness probe is answered by a report and by the shutdown flag at that moment.** -/
theorem answered_healthz {w : World} {m : Move} {r : Probe.Request} {x : Probe.Response}
    (mem : .answered r x ∈ w.happenings m) {withBody : Bool}
    (target : r.target = .route .healthz withBody) :
    ∃ report, x = (Probe.liveness report w.service.flags.shuttingDown).sent withBody := by
  cases observed_of_mem mem with
  | answered free other h => exact absurd ⟨withBody, target⟩ other
  | @checked i _ a free h done => exact ⟨a.report, livenessAnswer_eq target _ a⟩

theorem status_sent (x : Probe.Response) (withBody : Bool) :
    (x.sent withBody).status = x.status := by
  cases withBody <;> rfl

/-- The reports of the aggregations from a number on have flags with a property. -/
def Reporting (n : Nat) (P : Health.Flags → Prop) (w : World) : Prop :=
  ∀ (i : Nat) (q : Inquiry), n ≤ i → w.inquiries[i]? = some q → P q.aggregation.report.flags

/-- A report has the flags of the moment at which its aggregation was started. -/
theorem apply_reporting {n : Nat} {P : Health.Flags → Prop} {w : World} (h : Reporting n P w)
    (now : P w.service.flags) (m : Move) : Reporting n P (w.apply m) := by
  unfold apply
  split
  · intro k p le hp
    rcases outside_inquiries w m with
      same | ⟨request, timeout, asks, -⟩ | ⟨i, q, q', hq, set, -, flags, -⟩
    · rw [same] at hp
      exact h k p le hp
    · rw [asks] at hp
      rcases inquire_inquiries w request timeout with e | ⟨q, e, -, flags⟩ <;> rw [e] at hp
      · exact h k p le hp
      · by_cases lt : k < w.inquiries.length
        · rw [List.getElem?_append_left lt] at hp
          exact h k p le hp
        · rw [List.getElem?_append_right (Nat.le_of_not_lt lt)] at hp
          rw [List.mem_singleton.mp (List.mem_of_getElem? hp)]
          show P q.aggregation.flags
          rw [flags]
          exact now
    · rw [set] at hp
      by_cases e : i = k
      · subst e
        rw [List.getElem?_set_self (List.getElem?_eq_some_iff.mp hq).1] at hp
        obtain rfl := Option.some.inj hp
        show P q'.aggregation.flags
        rw [flags]
        exact h i q le hq
      · rw [List.getElem?_set_ne e] at hp
        exact h k p le hp
  · split <;> exact h

/-- **What the flags have from now on the reports have that are asked for from now on.** -/
theorem after_reporting {P : Health.Flags → Prop} {n : Nat} {v : World} (h : Reporting n P v)
    {ms : List Move} (still : ∀ p q, ms = p ++ q → P (v.after p).service.flags) :
    Reporting n P (v.after ms) := by
  induction ms generalizing v with
  | nil => exact h
  | cons m ms ih =>
    refine ih (apply_reporting h (still [] (m :: ms) rfl) m) fun p q split => ?_
    exact still (m :: p) q (by rw [split]; rfl)

theorem reporting_new (P : Health.Flags → Prop) (v : World) : Reporting v.inquiries.length P v := by
  intro i q le hq
  exact absurd (List.getElem?_eq_some_iff.mp hq).1 (Nat.not_lt.mpr le)

/-! ## 2. The flags after a withdrawal -/

theorem wrote_shuttingDown {hs : List Happening} (h : .did (.setShuttingDown false) ∉ hs)
    {f : Health.Flags} (down : f.shuttingDown = true) :
    (hs.foldl wrote f).shuttingDown = true := by
  induction hs generalizing f with
  | nil => exact down
  | cons x hs ih =>
    rw [List.mem_cons, not_or] at h
    refine ih h.2 ?_
    cases x with
    | did a =>
      cases a with
      | setShuttingDown value =>
        cases value with
        | false => exact absurd rfl h.1
        | true => rfl
      | _ => exact down
    | withdrew => rfl
    | _ => exact down

theorem wrote_ready {hs : List Happening} (h : .did (.setReady true) ∉ hs) {f : Health.Flags}
    (unready : f.ready = false) : (hs.foldl wrote f).ready = false := by
  induction hs generalizing f with
  | nil => exact unready
  | cons x hs ih =>
    rw [List.mem_cons, not_or] at h
    refine ih h.2 ?_
    cases x with
    | did a =>
      cases a with
      | setReady value =>
        cases value with
        | false => rfl
        | true => exact absurd rfl h.1
      | _ => exact unready
    | withdrew => rfl
    | _ => exact unready

/-- **The flags after a withdrawal, by what was written since.** -/
theorem flags_withdrawn {v : World} (hv : v.service.flags = ⟨false, true⟩) (ms : List Move) :
    (.did (.setShuttingDown false) ∉ v.history ms →
      (v.after ms).service.flags.shuttingDown = true) ∧
    (.did (.setReady true) ∉ v.history ms → (v.after ms).service.flags.ready = false) := by
  rw [after_flags, hv]
  exact ⟨fun h => wrote_shuttingDown h rfl, fun h => wrote_ready h rfl⟩

/-! ## 3. The state that a withdrawal leaves -/

/-- Readiness is withdrawn, and the gauges say so if the shutdown publishes metrics. -/
def Withdrawn (s : Service) : Prop :=
  s.flags = ⟨false, true⟩ ∧ (s.setup.publishes = true → s.metrics.flags = ⟨false, true⟩)

/-- Of what is fixed and of the gauges of the flags, a change leaves everything alone, or it
publishes the flags. -/
def Published (s s' : Service) : Prop :=
  s'.setup = s.setup ∧ (s'.metrics.flags = s.metrics.flags ∨ s'.metrics.flags = s.flags)

theorem jobsOnly_published {s s' : Service} (h : JobsOnly s s') : Published s s' :=
  ⟨h.setup, .inl (by rw [h.metrics])⟩

theorem poll_published (c : Call) (s : Service) : Published s (c.poll s).2 := by
  obtain ⟨_, _, _, e⟩ := poll_frame c s
  rw [e]
  exact ⟨rfl, .inl rfl⟩

theorem step_published (t : Turn) (s : Service) : Published s (t.step s).2 := by
  rcases t.step_cases s with ⟨x, rest, -, -, e⟩ | ⟨_, _, _, -, -, e⟩ | ⟨-, e⟩
  · rw [e]
    cases x with
    | begin checker =>
      simp only [act, beginRun]
      split
      · split <;> exact ⟨rfl, .inl rfl⟩
      · exact ⟨rfl, .inl rfl⟩
    | perform a => cases a <;> exact ⟨rfl, .inl rfl⟩
    | _ => exact ⟨rfl, .inl rfl⟩
  · rw [e]
    exact jobsOnly_published (.hold s t.job _ _ _)
  · rw [e]
    exact jobsOnly_published (closed_closeJob s t.job t.close).jobsOnly

theorem inquire_published (w : World) (request : Option Probe.Request) (timeout : Nat) :
    Published w.service (w.inquire request timeout).service := by
  unfold inquire
  split
  · exact jobsOnly_published (.refl _)
  · exact jobsOnly_published (.startAggregation _ _)

/-- What happens outside a turn publishes the flags or leaves the gauges alone, but for the call
that wins. -/
theorem outside_published (w : World) (m : Move) (h : .withdrew ∉ w.outsideHappenings m) :
    Published w.service (w.outside m).service := by
  cases m with
  | act a => cases a <;> exact ⟨rfl, .inl rfl⟩
  | request r =>
    unfold outside receive
    dsimp only
    split
    · exact inquire_published w _ _
    · rename_i hr
      have other : ¬ isLiveness r := fun ⟨b, hb⟩ => hr b hb
      rcases respond_frame w.service r other with e | e <;> rw [e]
      · exact jobsOnly_published (.refl _)
      · exact ⟨rfl, .inr rfl⟩
  | ask timeout => exact inquire_published w _ _
  | look i =>
    unfold outside look
    dsimp only
    split
    · exact jobsOnly_published (.pollAggregation _ _)
    · exact jobsOnly_published (.refl _)
  | answer i =>
    unfold outside answer
    dsimp only
    split
    · split <;> exact ⟨rfl, .inl rfl⟩
    · exact jobsOnly_published (.refl _)
  | stop task giveUp => exact jobsOnly_published ((JobsOnly.fire _ _).trans (.claim _ task))
  | call =>
    rcases call_cases w with ⟨-, e, -⟩ | ⟨-, -, e, -⟩ | ⟨d, -, -, -, k⟩
    · show Published w.service w.call.service
      rw [e]
      exact ⟨rfl, .inl rfl⟩
    · show Published w.service w.call.service
      rw [e]
      exact ⟨rfl, .inl rfl⟩
    · rw [k] at h
      exact absurd List.mem_cons_self h
  | lookCall i =>
    unfold outside lookCall
    dsimp only
    split
    · exact poll_published _ _
    · exact jobsOnly_published (.refl _)
  | begin => exact jobsOnly_published (.begin _)
  | advance moment =>
    unfold outside
    dsimp only
    split <;> exact ⟨rfl, .inl rfl⟩
  | _ => exact ⟨rfl, .inl rfl⟩

theorem apply_published (w : World) (m : Move) (h : .withdrew ∉ w.happenings m) :
    Published w.service (w.apply m).service := by
  unfold happenings at h
  unfold apply
  split at h
  · exact outside_published w m h
  · split
    · exact step_published _ _
    · exact jobsOnly_published (.refl _)

/-- **The winning call withdraws readiness.** -/
theorem call_withdrawn {w : World} (h : CanWithdraw w.service) : Withdrawn w.call.service := by
  obtain ⟨d, -, e⟩ := call_won h
  rw [e]
  obtain ⟨_, _, _, k⟩ :=
    poll_frame (.collecting (w.service.opening d)) (w.service.teardownsStarted d)
  rw [k]
  refine ⟨rfl, fun publishes => ?_⟩
  have on : w.service.setup.publishes = true := publishes
  show (w.service.teardownsStarted d).metrics.flags = _
  rw [teardownsStarted_metrics, if_pos on]
  rfl

theorem wrote_same {hs : List Happening} (h : ∀ x ∈ hs, x.writes = false) (quiet : .withdrew ∉ hs)
    (f : Health.Flags) : hs.foldl wrote f = f := by
  induction hs with
  | nil => rfl
  | cons x hs ih =>
    rw [List.mem_cons, not_or] at quiet
    rw [List.foldl_cons]
    have same : wrote f x = f := by
      have silent := h x List.mem_cons_self
      cases x with
      | did a =>
        cases a with
        | register c => rfl
        | _ => cases silent
      | withdrew => exact absurd rfl quiet.1
      | _ => rfl
    rw [same]
    exact ih (fun y hy => h y (List.mem_cons_of_mem _ hy)) quiet.2

/-- **A move that writes no flag leaves readiness withdrawn.** -/
theorem apply_withdrawn {w : World} (h : Withdrawn w.service) (late : w.service.phase ≠ .running)
    (m : Move) (silent : ∀ x ∈ w.happenings m, x.writes = false) :
    Withdrawn (w.apply m).service := by
  have quiet : .withdrew ∉ w.happenings m := fun k => late (withdrew_mem k).2.2.1
  obtain ⟨setup, gauges⟩ := apply_published w m quiet
  refine ⟨?_, fun publishes => ?_⟩
  · rw [apply_flags, wrote_same silent quiet]
    exact h.1
  · rw [setup] at publishes
    rcases gauges with e | e
    · rw [e]
      exact h.2 publishes
    · rw [e]
      exact h.1

theorem apply_late {w : World} (late : w.service.phase ≠ .running) (m : Move) :
    (w.apply m).service.phase ≠ .running := by
  have le := phase_le w [m]
  intro running
  rw [after_cons, after_nil, running] at le
  exact late (rank_eq_zero.mp (Nat.le_zero.mp le))

/-- **As long as nobody writes a flag, readiness stays withdrawn.** -/
theorem after_withdrawn {w : World} (h : Withdrawn w.service) (late : w.service.phase ≠ .running)
    (ms : List Move) (silent : ∀ x ∈ w.history ms, x.writes = false) :
    Withdrawn (w.after ms).service := by
  induction ms generalizing w with
  | nil => exact h
  | cons m ms ih =>
    refine ih (apply_withdrawn h late m fun x hx => silent x (List.mem_append_left _ hx))
      (apply_late late m) fun x hx => silent x (List.mem_append_right _ hx)

/-! ## 4. Who fires a signal -/

/-- Outside a turn only a call to stop a task fires a signal. -/
theorem outside_isFired (w : World) {m : Move} (h : ∀ k giveUp, m ≠ .stop k giveUp) (k : Nat) :
    (w.outside m).service.isFired k = w.service.isFired k := by
  by_cases hb : m = .begin
  · subst hb
    exact isFired_congr (begin_tasks _) k
  exact outside_rule (P := fun s => s.isFired k = w.service.isFired k) hb rfl
    (fun _ _ q e => (isFired_congr q.tasks k).trans e)
    (fun _ _ => rfl)
    (fun t _ => isFired_startTask w.service t k)
    (fun _ _ _ _ _ e => e)
    (fun _ _ _ e => e)
    (fun task giveUp e => absurd e (h task giveUp))
    (fun _ _ _ => rfl)
    (fun _ _ => rfl)

theorem isFired_told {s : Service} {task k : Nat} (before : s.isFired k = false)
    (after : ((s.fire task).claim task).2.isFired k = true) : task = k := by
  rw [isFired_claim, isFired_fire, before, Bool.false_or, Bool.and_eq_true] at after
  exact beq_iff_eq.mp after.1

theorem closed_isFired {s s' : Service} {job : JobId} {close : Close} (c : Closed s job close s')
    {k : Nat} (before : s.isFired k = false) (after : s'.isFired k = true) :
    close = .stopTask k := by
  have readied : ∀ {s' : Service}, Readied s close s' → s'.isFired k = true →
      close = .stopTask k := by
    intro s' r after
    cases r with
    | same => rw [before] at after; cases after
    | noted =>
      change s.isFired k = true at after
      rw [before] at after
      cases after
    | told task => rw [isFired_told before after]
  cases c with
  | concluded r => exact readied r after
  | hung =>
    change s.isFired k = true at after
    rw [before] at after
    cases after
  | joining r => exact readied r after

/-- **Who fires the signal of a task**: somebody who stops it, or its own teardown. -/
theorem fired_by {w : World} {m : Move} {k : Nat} (before : w.service.isFired k = false)
    (after : (w.apply m).service.isFired k = true) :
    (∃ giveUp, m = .stop k giveUp) ∨
      ∃ t, w.turn = some t ∧ t.close = .stopTask k ∧
        .invoked t.job w.service.flags ∈ w.happenings m := by
  unfold apply at after
  cases ht : w.turn with
  | none =>
    rw [ht] at after
    dsimp only at after
    by_cases stops : ∃ k' giveUp, m = .stop k' giveUp
    · obtain ⟨k', giveUp, rfl⟩ := stops
      have same : k' = k := isFired_told before after
      exact .inl ⟨giveUp, by rw [same]⟩
    · rw [outside_isFired w (fun k' g e => stops ⟨k', g, e⟩), before] at after
      cases after
  | some t =>
    rw [ht] at after
    dsimp only at after
    split at after
    · rcases t.step_cases w.service with ⟨x, rest, -, -, e⟩ | ⟨_, _, _, -, -, e⟩ | ⟨todo, e⟩
      · rw [e] at after
        change (w.service.act t.job t.who x).isFired k = true at after
        rw [isFired_congr (act_frame w.service t.job t.who x).2.2.2, before] at after
        cases after
      · rw [e] at after
        change w.service.isFired k = true at after
        rw [before] at after
        cases after
      · rw [e] at after
        have close := closed_isFired (closed_closeJob w.service t.job t.close) before after
        refine .inr ⟨t, rfl, close, ?_⟩
        unfold happenings
        rw [ht]
        dsimp only
        unfold Turn.happenings
        rw [todo, close]
        exact List.mem_singleton.mpr rfl
    · rw [before] at after
      cases after

/-! ## 5. From the withdrawal on -/

/-- The answer to a readiness probe while the service is shutting down. -/
def shuttingDownAnswer : Probe.Response :=
  ⟨503, some "text/plain; charset=utf-8", none, "shutting down"⟩

theorem readiness_down {f : Health.Flags} (h : f.shuttingDown = true) :
    Probe.readiness f = shuttingDownAnswer := by
  obtain ⟨ready, down⟩ := f
  cases h
  cases ready <;> rfl

theorem liveness_down (report : Health.Report) : (Probe.liveness report true).status = 503 := by
  cases h : report.isHealthy <;> simp [Probe.liveness, Probe.unavailable, h]

section Down

variable {v : World} {ms : List Move}

/-- **While the service is shutting down, every readiness probe is answered that it is.** -/
theorem readyz_down (asked : ∀ p, Asked (v.after p))
    (down : ∀ p q, ms = p ++ q → (v.after p).service.flags.shuttingDown = true)
    {r : Probe.Request} {withBody : Bool} {x : Probe.Response}
    (target : r.target = .route .readyz withBody) (mem : .answered r x ∈ v.history ms) :
    x = shuttingDownAnswer.sent withBody := by
  obtain ⟨p, m, q, rfl, here⟩ := mem_history mem
  rw [answered_readyz (asked p) here target, readiness_down (down p _ rfl)]

/-- **While the service is shutting down, no liveness probe is answered with success.** -/
theorem healthz_down (down : ∀ p q, ms = p ++ q → (v.after p).service.flags.shuttingDown = true)
    {r : Probe.Request} {withBody : Bool} {x : Probe.Response}
    (target : r.target = .route .healthz withBody) (mem : .answered r x ∈ v.history ms) :
    x.status = 503 := by
  obtain ⟨p, m, q, rfl, here⟩ := mem_history mem
  obtain ⟨report, rfl⟩ := answered_healthz here target
  rw [status_sent, down p _ rfl, liveness_down]

/-- What a teardown sees of the flags is what they are at that moment. -/
theorem invoked_flags {j : JobId} {f : Health.Flags} (mem : .invoked j f ∈ v.history ms) :
    ∃ p q, ms = p ++ q ∧ f = (v.after p).service.flags := by
  obtain ⟨p, m, q, rfl, here⟩ := mem_history mem
  cases observed_of_mem here with
  | invoked => exact ⟨p, _, rfl, rfl⟩

/-- The first step of a component's teardown notes the flags. -/
theorem noteStop_flags {t : Turn} (ht : v.turn = some t) {d : Nat} {rest : List Step}
    (todo : t.todo = .noteStop d :: rest) :
    (v.apply .go).service = v.service.note t.job t.who
      ("stop start left=" ++ toString (d - v.service.now) ++ " " ++ v.service.flags.text) := by
  unfold apply
  rw [ht]
  dsimp only
  unfold Turn.step
  rw [todo]
  rfl

end Down

theorem not_mem_earlier {v : World} {h : Happening} {p q : List Move}
    (absent : h ∉ v.history (p ++ q)) : h ∉ v.history p := fun mem =>
  absent (by rw [history_append]; exact List.mem_append_left _ mem)

/-- **What is observed of a service that is shutting down**: the flag stands, every readiness probe
is answered that it is shutting down, no liveness probe with success, and teardowns and reports see
it as well. -/
structure Down (v : World) (ms : List Move) : Prop where
  flag : (v.after ms).service.flags.shuttingDown = true
  readyz : ∀ r withBody x, r.target = .route .readyz withBody → .answered r x ∈ v.history ms →
    x = shuttingDownAnswer.sent withBody
  healthz : ∀ r withBody x, r.target = .route .healthz withBody → .answered r x ∈ v.history ms →
    x.status = 503
  teardowns : ∀ j f, .invoked j f ∈ v.history ms → f.shuttingDown = true
  reports : Reporting v.inquiries.length (·.shuttingDown = true) (v.after ms)

/-- **What is observed as long as readiness is not given back either.** -/
structure Unready (v : World) (ms : List Move) : Prop where
  flags : (v.after ms).service.flags = ⟨false, true⟩
  teardowns : ∀ j f, .invoked j f ∈ v.history ms → f = ⟨false, true⟩
  reports : Reporting v.inquiries.length (· = ⟨false, true⟩) (v.after ms)

/-- **What an answer tells of a service that is shutting down.** -/
structure ToldDown (c : Command) (a : Answer) : Prop where
  flags : ∀ f ∈ flagsTold a, f.shuttingDown = true
  sightings : ∀ x ∈ sightingsTold a, x.flags.shuttingDown = true ∧ x.response = shuttingDownAnswer
  readyz : ∀ r withBody x, c = .request r → a = .response x → r.target = .route .readyz withBody →
    x = shuttingDownAnswer.sent withBody
  healthz : ∀ r withBody x, c = .request r → a = .response x → r.target = .route .healthz withBody →
    x.status = 503

/-- What an answer tells as long as readiness is not given back either. -/
structure ToldUnready (a : Answer) : Prop where
  flags : ∀ f ∈ flagsTold a, f = ⟨false, true⟩
  sightings : ∀ x ∈ sightingsTold a, x.flags = ⟨false, true⟩

section Since

variable {setup : Setup} {clock : Time.Stamp} {before : List Move}

theorem apply_call_withdrawn (free : ((new setup clock).after before).turn = none)
    (wins : CanWithdraw ((new setup clock).after before).service) :
    Withdrawn (((new setup clock).after before).apply .call).service ∧
      (((new setup clock).after before).apply .call).service.phase ≠ .running := by
  rw [apply_free free]
  exact ⟨call_withdrawn wins, call_won_phase wins⟩

theorem since_asked (setup : Setup) (clock : Time.Stamp) (before p : List Move) :
    Asked ((((new setup clock).after before).apply .call).after p) := by
  have all := after_asked setup clock (before ++ .call :: p)
  rwa [after_append, after_cons] at all

/-- From the call that wins on the service is shutting down. -/
theorem down (free : ((new setup clock).after before).turn = none)
    (wins : CanWithdraw ((new setup clock).after before).service) (ms : List Move)
    (kept : .did (.setShuttingDown false) ∉
      (((new setup clock).after before).apply .call).history ms) :
    Down (((new setup clock).after before).apply .call) ms := by
  have still : ∀ p q, ms = p ++ q →
      ((((new setup clock).after before).apply .call).after p).service.flags.shuttingDown =
        true := by
    rintro p q rfl
    exact (flags_withdrawn (apply_call_withdrawn free wins).1.1 p).1 (not_mem_earlier kept)
  have asked := since_asked setup clock before
  refine ⟨still ms [] (List.append_nil ms).symm, fun r b x => readyz_down asked still,
    fun r b x => healthz_down still, fun j f mem => ?_,
    after_reporting (reporting_new _ _) still⟩
  obtain ⟨p, q, split, rfl⟩ := invoked_flags mem
  exact still p q split

/-- As long as nobody writes a flag readiness stays withdrawn. -/
theorem since_withdrawn (free : ((new setup clock).after before).turn = none)
    (wins : CanWithdraw ((new setup clock).after before).service) {ms : List Move}
    (silent : ∀ x ∈ (((new setup clock).after before).apply .call).history ms, x.writes = false)
    (p q : List Move) (split : ms = p ++ q) :
    Withdrawn ((((new setup clock).after before).apply .call).after p).service := by
  obtain ⟨written, late⟩ := apply_call_withdrawn free wins
  refine after_withdrawn written late p fun x hx => silent x ?_
  rw [split, history_append]
  exact List.mem_append_left _ hx

/-- If nobody writes that it is ready it is seen not to be. -/
theorem unready (free : ((new setup clock).after before).turn = none)
    (wins : CanWithdraw ((new setup clock).after before).service) (ms : List Move)
    (kept : .did (.setShuttingDown false) ∉
      (((new setup clock).after before).apply .call).history ms)
    (quiet : .did (.setReady true) ∉ (((new setup clock).after before).apply .call).history ms) :
    Unready (((new setup clock).after before).apply .call) ms := by
  have still : ∀ p q, ms = p ++ q →
      ((((new setup clock).after before).apply .call).after p).service.flags = ⟨false, true⟩ := by
    rintro p q rfl
    obtain ⟨down, unready⟩ := flags_withdrawn (apply_call_withdrawn free wins).1.1 p
    have first := unready (not_mem_earlier quiet)
    have second := down (not_mem_earlier kept)
    generalize (World.after _ p).service.flags = f at first second
    cases f
    cases first
    cases second
    rfl
  refine ⟨still ms [] (List.append_nil ms).symm, fun j f mem => ?_,
    after_reporting (reporting_new _ _) still⟩
  obtain ⟨p, q, split, rfl⟩ := invoked_flags mem
  exact still p q split

end Since

/-- **What is shown of moves after the call that wins** tells that the service is shutting down. -/
theorem Shown.down {v : World} {ms : List Move} {c : Command} {a : Answer} (h : Shown v ms c a)
    (down : ∀ p q, ms = p ++ q → Down v p) : ToldDown c a := by
  have all := down ms [] (List.append_nil ms).symm
  refine ⟨fun f hf => ?_, fun x hx => ?_, ?_, ?_⟩
  · obtain ⟨p, ⟨q, split⟩, rfl⟩ := h.flags f hf
    exact (down p q split.symm).flag
  · obtain ⟨p, ⟨q, split⟩, rfl⟩ := h.sightings x hx
    have set := (down p q split.symm).flag
    exact ⟨set, readiness_down set⟩
  · intro r b x hc ha target
    exact all.readyz r b x target (h.response r x hc ha)
  · intro r b x hc ha target
    exact all.healthz r b x target (h.response r x hc ha)

theorem Shown.unready {v : World} {ms : List Move} {c : Command} {a : Answer} (h : Shown v ms c a)
    (unready : ∀ p q, ms = p ++ q → Unready v p) : ToldUnready a := by
  refine ⟨fun f hf => ?_, fun x hx => ?_⟩
  · obtain ⟨p, ⟨q, split⟩, rfl⟩ := h.flags f hf
    exact (unready p q split.symm).flags
  · obtain ⟨p, ⟨q, split⟩, rfl⟩ := h.sightings x hx
    exact (unready p q split.symm).flags

/-- Where nothing comes in, nothing is left to anybody. -/
theorem leaves_of_brought {a : Health.Action Health.Checker} {ms : List Move}
    (h : ∀ m ∈ brought ms, Health.OutOfReach a m.leaves) :
    ∀ m ∈ ms, Health.OutOfReach a m.leaves := by
  intro m mem
  cases m with
  | act b => exact h _ (List.mem_filter.mpr ⟨mem, rfl⟩)
  | addComponent c => exact h _ (List.mem_filter.mpr ⟨mem, rfl⟩)
  | _ => nofun

/-- Nobody comes to do an action when a run goes on: no checker and no component that the commands
have brought has a script that leads to it, and none of the later commands does it. -/
structure NeverDone (a : Health.Action Health.Checker) (cs later : List Command) : Prop where
  leaves : ∀ m ∈ (cs ++ later).flatMap broughtBy, Health.OutOfReach a m.leaves
  acts : .act a ∉ later.flatMap broughtBy

/-- **What nobody comes to do is not done** after the call that a run goes on with. -/
theorem NeverDone.not_mem {a : Health.Action Health.Checker} {cs cs' : List Command}
    (h : NeverDone a cs cs') (setup : Setup) (clock : Time.Stamp) {before ms : List Move}
    (first : brought before = cs.flatMap broughtBy)
    (later : brought ms = cs'.flatMap broughtBy) :
    .did a ∉ (((new setup clock).after before).apply .call).history ms := by
  have leaves := h.leaves
  rw [List.flatMap_append] at leaves
  have called : ((new setup clock).after before).apply .call =
      (new setup clock).after (before ++ [.call]) := (after_append _ before [.call]).symm
  have begun : brought (before ++ [.call]) = cs.flatMap broughtBy := (brought_waits rfl).trans first
  have scheduled := new_scheduled setup clock
  have enlisted := new_enlisted setup clock
  rw [called]
  refine did_not_mem_history (after_scheduled _ _ scheduled) (after_enlisted _ _ enlisted)
    (after_unplanned scheduled enlisted (new_unplanned a setup clock) ?_) ?_ ?_
  · refine leaves_of_brought fun m mem => leaves m (List.mem_append_left _ ?_)
    rwa [begun] at mem
  · refine leaves_of_brought fun m mem => leaves m (List.mem_append_right _ ?_)
    rwa [later] at mem
  · intro mem
    refine h.acts ?_
    rw [← later]
    exact List.mem_filter.mpr ⟨mem, rfl⟩

/-- **Readiness is not given back once a shutdown has begun.** From the call that wins on, as long
as nobody writes that the service is not shutting down, it is seen to be, whatever checkers,
components and tasks do; and if nobody writes that it is ready either, it is seen not to be. The
answers of a run that goes on with such a call tell the same, and nobody writes what none of the
later commands writes and no command has brought a script for. -/
theorem readiness_never_given_back (setup : Setup) (clock : Time.Stamp) :
    (∀ before ms, ((new setup clock).after before).turn = none →
      CanWithdraw ((new setup clock).after before).service →
      let v := ((new setup clock).after before).apply .call
      v.service.flags = ⟨false, true⟩ ∧
      (.did (.setShuttingDown false) ∉ v.history ms →
        Down v ms ∧ (.did (.setReady true) ∉ v.history ms → Unready v ms))) ∧
    ∀ cs count probes cs', CanWithdraw (run cs (.new setup clock)).2 →
      ∃ before ms, ((new setup clock).after before).turn = none ∧
        ((new setup clock).after before).service = (run cs (.new setup clock)).2 ∧
        let v := ((new setup clock).after before).apply .call
        let later := run (.drain (count + 1) probes :: cs') (run cs (.new setup clock)).2
        (v.after ms).service = later.2 ∧
        (∀ a, NeverDone a cs cs' → .did a ∉ v.history ms) ∧
        (.did (.setShuttingDown false) ∉ v.history ms →
          ∀ p ∈ (Command.drain (count + 1) probes :: cs').zip later.1, ToldDown p.1 p.2.answer ∧
            (.did (.setReady true) ∉ v.history ms → ToldUnready p.2.answer)) := by
  refine ⟨fun before ms free wins => ⟨(apply_call_withdrawn free wins).1.1, fun kept =>
    ⟨down free wins ms kept, unready free wins ms kept⟩⟩, fun cs count probes cs' wins => ?_⟩
  obtain ⟨w, driven, free, service⟩ := run_driven cs (w := new setup clock) rfl
    (new_scheduled setup clock)
  obtain ⟨before, rfl, first, -⟩ := driven.moves
  change World.service _ = (run cs (.new setup clock)).2 at service
  rw [← service] at wins
  have scheduled := after_scheduled (new setup clock) before (new_scheduled setup clock)
  rw [free] at scheduled
  obtain ⟨ms, -, led, since, shown⟩ := run_drain_led free scheduled wins count probes cs'
  rw [service] at led shown
  refine ⟨before, ms, free, service, led,
    fun a never => never.not_mem setup clock first since,
    fun kept p hp => ⟨?_, fun quiet => ?_⟩⟩
  · refine (shown p hp).down fun q q' split => down free wins q ?_
    subst split
    exact not_mem_earlier kept
  · refine (shown p hp).unready fun q q' split => unready free wins q ?_ ?_
    · subst split
      exact not_mem_earlier kept
    · subst split
      exact not_mem_earlier quiet

/-- A service that is ready, with a cache that says so again when it is stopped, and a shutdown that
waits for nothing. -/
def hastyService : World :=
  (new ⟨1000, 0, true, ⟨"api", "test", ⟨none, none⟩⟩, .ascending⟩ ⟨0, 0⟩).after
    [.act (.setReady true), .addComponent ⟨"cache", none, [.setReady true], .returns .ok⟩]

/-- When the cache has written that the service is ready, a readiness probe is still answered that
it is shutting down. -/
theorem readiness_not_given_back_by_cache :
    hastyService.turn = none ∧ CanWithdraw hastyService.service ∧
    .did (.setShuttingDown false) ∉
      (hastyService.apply .call).history [.begin, .go, .go, .go, .go, .request readyzRequest] ∧
    ((hastyService.apply .call).after [.begin, .go, .go, .go, .go]).service.flags = ⟨true, true⟩ ∧
    .answered readyzRequest (shuttingDownAnswer.sent true) ∈
      (hastyService.apply .call).history [.begin, .go, .go, .go, .go, .request readyzRequest] := by
  have kept : .did (.setShuttingDown false) ∉
      (hastyService.apply .call).history [.begin, .go, .go, .go, .go, .request readyzRequest] := by
    intro mem
    rcases mem with _ | ⟨_, _ | ⟨_, _ | ⟨_, mem⟩⟩⟩
    cases mem
  obtain ⟨x, mem⟩ : ∃ x, .answered readyzRequest x ∈
      (hastyService.apply .call).history [.begin, .go, .go, .go, .go, .request readyzRequest] :=
    ⟨_, List.mem_of_getElem? (i := 2) rfl⟩
  obtain ⟨down, -⟩ := ((readiness_never_given_back _ _).1 _ _ rfl ⟨rfl, rfl⟩).2 kept
  rw [down.readyz _ _ _ readyzRequest_target mem] at mem
  exact ⟨rfl, ⟨rfl, rfl⟩, kept, rfl, mem⟩

/-- Whatever is invoked was started by a call that has withdrawn readiness. -/
theorem invoked_late (setup : Setup) (clock : Time.Stamp) (ms : List Move) {m : Move} {j : JobId}
    {f : Health.Flags} (mem : .invoked j f ∈ ((new setup clock).after ms).happenings m) :
    .withdrew ∈ (new setup clock).history ms := by
  refine Classical.byContradiction fun quiet => ?_
  -- without a withdrawal nothing is owed, so nothing can be paid
  obtain ⟨-, free⟩ := not_invoked_before setup clock ms quiet j
  have still : .withdrew ∉ ((new setup clock).after ms).happenings m := by
    intro k
    obtain ⟨rfl, -, -⟩ := withdrew_mem k
    cases observed_of_mem mem
  have scheduled := after_scheduled (new setup clock) ms (new_scheduled setup clock)
  have paid := apply_owed ((new setup clock).after ms) m scheduled still j
  have one : 0 < (((new setup clock).after ms).happenings m).countP (Happening.invokes j) :=
    List.countP_pos_iff.mpr ⟨_, mem, by simp [Happening.invokes]⟩
  omega

/-- **No teardown starts before readiness is withdrawn.** Whatever is invoked, and whatever signal
is fired but by a call to stop its task, comes after the call that has written both flags and the
gauges; and as long as nobody writes a flag after that, teardowns and probes see just that. -/
theorem withdrawn_before_teardown (setup : Setup) (clock : Time.Stamp) (ms : List Move) :
    let w := new setup clock
    (∀ m j f, .invoked j f ∈ (w.after ms).happenings m → .withdrew ∈ w.history ms) ∧
    (∀ m k, (w.after ms).service.isFired k = false →
      ((w.after ms).apply m).service.isFired k = true →
      (∃ giveUp, m = .stop k giveUp) ∨ .withdrew ∈ w.history ms) ∧
    ∀ before m after, ms = before ++ m :: after → .withdrew ∈ (w.after before).happenings m →
      let v := (w.after before).apply m
      Withdrawn v.service ∧
      ((∀ x ∈ v.history after, x.writes = false) →
        Withdrawn (v.after after).service ∧
        (∀ j f, .invoked j f ∈ v.history after → f = ⟨false, true⟩) ∧
        (∀ t d rest, (v.after after).turn = some t → t.todo = .noteStop d :: rest →
          ((v.after after).apply .go).service = (v.after after).service.note t.job t.who
            ("stop start left=" ++ toString (d - (v.after after).service.now) ++ " "
              ++ "ready=false shutting_down=true")) ∧
        (∀ r withBody x, r.target = .route .readyz withBody → .answered r x ∈ v.history after →
          x = shuttingDownAnswer.sent withBody) ∧
        (∀ r withBody x, r.target = .route .healthz withBody → .answered r x ∈ v.history after →
          x.status = 503)) := by
  intro w
  refine ⟨fun m j f mem => invoked_late setup clock ms mem, fun m k before after => ?_, ?_⟩
  · rcases fired_by before after with stops | ⟨t, -, -, mem⟩
    · exact .inl stops
    · exact .inr (invoked_late setup clock ms mem)
  · intro before m after split mem v
    obtain ⟨rfl, free, wins⟩ := withdrew_mem mem
    refine ⟨(apply_call_withdrawn free wins).1, fun silent => ?_⟩
    have still := since_withdrawn free wins silent
    have down : ∀ p q, after = p ++ q → (v.after p).service.flags.shuttingDown = true := by
      intro p q e
      rw [(still p q e).1]
    have asked := since_asked setup clock before
    have last := still after [] (List.append_nil _).symm
    refine ⟨last, fun j f mem => ?_, fun t d rest ht todo => ?_,
      fun r b x => readyz_down asked down, fun r b x => healthz_down down⟩
    · obtain ⟨p, q, e, rfl⟩ := invoked_flags mem
      exact (still p q e).1
    · have noted := noteStop_flags ht todo
      rw [last.1] at noted
      exact noted

/-- The cache is stopped when the shutdown has already given it up, and sees readiness withdrawn. -/
theorem cache_sees_readiness_withdrawn :
    .withdrew ∈ hastyService.happenings .call ∧
    (∀ x ∈ (hastyService.apply .call).history [.begin, .go], x.writes = false) ∧
    (hastyService.apply .call).service.phase = .stopped ∧
    .invoked 0 ⟨false, true⟩ ∈ (hastyService.apply .call).history [.begin, .go] := by
  have silent : ∀ x ∈ (hastyService.apply .call).history [.begin, .go], x.writes = false := by
    intro x hx
    rcases hx with _ | ⟨_, hx⟩
    · rfl
    · cases hx
  obtain ⟨f, mem⟩ : ∃ f, .invoked 0 f ∈ (hastyService.apply .call).history [.begin, .go] :=
    ⟨_, List.mem_of_getElem? (i := 0) rfl⟩
  have withdrew : .withdrew ∈ hastyService.happenings .call := List.mem_of_getElem? (i := 0) rfl
  obtain ⟨-, -, since⟩ := withdrawn_before_teardown _ _ _
  obtain ⟨-, seen⟩ := since _ _ _ rfl withdrew
  obtain ⟨-, invoked, -⟩ := seen silent
  rw [invoked _ _ mem] at mem
  exact ⟨withdrew, silent, rfl, mem⟩

end World

end ServiceHealth
