import ServiceHealth.Proofs.Documents
import ServiceHealth.Proofs.Snapshot
import ServiceHealth.Proofs.Withdrawal

/-!
# Liveness probes tell the truth

The answer to a liveness probe is put together from two moments. Its body is the report, with the
flags of the moment at which the probe came in; its status is decided when all checkers have been
heard, by their results and by the shutdown flag as it stands then. In between checkers run, and
they and everybody else may write the flags.

* `apply_wrote`: what is observed of a move has written the flags.
* `NeverSetBack`: nobody takes back that the service is shutting down. `NeverSetBack.last`: then the
  last moment knows of every earlier one.
* `Truthful`: a liveness probe is answered by a report and a flag. `answer_cases`, `answer_awaited`:
  whatever happens meanwhile it is answered so, and whoever waits for the answer gets it.
* `liveness_sound`: **a liveness probe is answered with success if and only if all is in order when
  the checkers have been heard**.
-/

namespace ServiceHealth

open Service

namespace World

/-! ## 1. Shutting down is not taken back -/

/-- Of one move at most one thing is observed. -/
theorem happenings_of_mem {w : World} {m : Move} {h : Happening} (mem : h ∈ w.happenings m) :
    w.happenings m = [h] := by
  have short : (w.happenings m).length ≤ 1 := by
    unfold happenings
    split
    · cases m with
      | request r =>
        unfold outsideHappenings answered
        dsimp only
        split
        · exact Nat.zero_le 1
        · split <;> simp
      | answer i =>
        unfold outsideHappenings answeredLater
        dsimp only
        split
        · split <;> simp
        · exact Nat.zero_le 1
      | call =>
        unfold outsideHappenings
        dsimp only
        split <;> simp
      | _ => simp [outsideHappenings]
    · split
      · unfold Turn.happenings
        split <;> simp
      · exact Nat.zero_le 1
  cases e : w.happenings m with
  | nil =>
    rw [e] at mem
    cases mem
  | cons x rest =>
    rw [e] at mem short
    obtain rfl : rest = [] := List.eq_nil_of_length_eq_zero (by simpa using short)
    rw [List.mem_singleton.mp mem]

/-- **What is observed of a move has written the flags.** -/
theorem apply_wrote {w : World} {m : Move} {h : Happening} (mem : h ∈ w.happenings m) :
    (w.apply m).service.flags = wrote w.service.flags h := by
  rw [apply_flags, happenings_of_mem mem]
  rfl

/-- The service is shutting down at some moment of a row of moves. -/
def DownMeanwhile (v : World) (ms : List Move) : Prop :=
  ∃ p q, ms = p ++ q ∧ (v.after p).service.flags.shuttingDown = true

/-- Nobody takes back that the service is shutting down: where the flag stands, every move leaves
it so. -/
def NeverSetBack (v : World) (ms : List Move) : Prop :=
  ∀ p m q, ms = p ++ m :: q → (v.after p).service.flags.shuttingDown = true →
    ((v.after p).apply m).service.flags.shuttingDown = true

section SetBack

variable {v : World} {ms : List Move}

/-- **What is never taken back stands in the end.** -/
theorem NeverSetBack.last (h : NeverSetBack v ms) (down : DownMeanwhile v ms) :
    (v.after ms).service.flags.shuttingDown = true := by
  obtain ⟨p, q, split, flag⟩ := down
  induction q generalizing p with
  | nil =>
    rw [split, List.append_nil]
    exact flag
  | cons m q ih =>
    refine ih (p ++ [m]) (by rw [split, List.append_assoc]; rfl) ?_
    rw [after_append]
    exact h p m q split flag

/-- Where nobody writes that the service is not shutting down, nobody takes it back. -/
theorem neverSetBack_of_unwritten (kept : .did (.setShuttingDown false) ∉ v.history ms) :
    NeverSetBack v ms := by
  rintro p m q rfl down
  rw [apply_flags]
  refine wrote_shuttingDown (fun mem => kept ?_) down
  rw [history_append]
  exact List.mem_append_right _ (List.mem_append_left _ mem)

/-- **A shutdown that begins meanwhile is seen meanwhile**: a call that wins, or anybody who writes
the flag. -/
theorem downMeanwhile_of_begun
    (begun : .withdrew ∈ v.history ms ∨ .did (.setShuttingDown true) ∈ v.history ms) :
    DownMeanwhile v ms := by
  have moment : ∀ h : Happening, (∀ f, (wrote f h).shuttingDown = true) → h ∈ v.history ms →
      DownMeanwhile v ms := by
    intro h writes mem
    obtain ⟨p, m, q, rfl, here⟩ := mem_history mem
    refine ⟨p ++ [m], q, by rw [List.append_assoc]; rfl, ?_⟩
    rw [after_append, after_cons, after_nil, apply_wrote here]
    exact writes _
  rcases begun with withdrew | written
  · exact moment _ (fun _ => rfl) withdrew
  · exact moment _ (fun _ => rfl) written

end SetBack

/-! ## 2. One answer -/

/-- An answer tells the truth about a report and about whether the service is shutting down: the
body is the report, unless it was asked for without, and the status is success if every result is
good and the service is not shutting down, and failure otherwise. -/
structure Truthful (withBody : Bool) (report : Health.Report) (down : Bool)
    (x : Probe.Response) : Prop where
  body : x.body = if withBody then report.text else ""
  success : x.status = 200 ↔
    (∀ name y, report.checks.get? name = some y → y.healthy = true) ∧ down = false
  failure : x.status = 503 ↔
    ¬((∀ name y, report.checks.get? name = some y → y.healthy = true) ∧ down = false)

theorem liveness_truthful (report : Health.Report) (down withBody : Bool) :
    Truthful withBody report down ((Probe.liveness report down).sent withBody) := by
  have success : ((Probe.liveness report down).sent withBody).status = 200 ↔
      (∀ name y, report.checks.get? name = some y → y.healthy = true) ∧ down = false := by
    rw [status_sent, Probe.liveness_status, report.isHealthy_iff_get?]
  have either : ((Probe.liveness report down).sent withBody).status = 503 ↔
      ¬((Probe.liveness report down).sent withBody).status = 200 := by
    rw [status_sent]
    unfold Probe.liveness Probe.unavailable Probe.ok
    dsimp only
    split <;> simp
  refine ⟨?_, success, either.trans (not_congr success)⟩
  cases withBody <;> rfl

section Answers

variable {w : World} {r : Probe.Request} {withBody : Bool} {deadline : Nat}

/-- **An answer comes from an aggregation that is over**, and from the shutdown flag at that
moment. -/
theorem answer_cases (target : r.target = .route .healthz withBody) {i : Nat} {q : Inquiry}
    (hq : w.inquiries[i]? = some q) {x : Probe.Response}
    (mem : .answered r x ∈ w.happenings (.answer i)) :
    q.aggregation.isDone = true ∧
      Truthful withBody q.aggregation.report w.service.flags.shuttingDown x := by
  cases observed_of_mem mem with
  | checked free here done =>
    rw [hq] at here
    cases here
    refine ⟨done, ?_⟩
    rw [livenessAnswer_eq target]
    exact liveness_truthful _ _ _

/-- **Whoever waits for the answer gets it**: the aggregation comes to an end, and the status is
decided by the flag as it stands then. -/
theorem answer_awaited (free : w.turn = none) (scheduled : Scheduled none w.service)
    (target : r.target = .route .healthz withBody)
    (computable : deadline? w.service.now w.service.setup.checkTimeout = some deadline) :
    ∃ ns x report, (w.service.respond r).1 = .ok x ∧
      (w.service.check w.service.setup.checkTimeout).1 = .ok report ∧
      ((w.apply (.request r)).after ns).service =
        (w.service.check w.service.setup.checkTimeout).2 ∧
      .answered r x ∈
        ((w.apply (.request r)).after ns).happenings (.answer w.inquiries.length) ∧
      Truthful withBody report
        (w.service.check w.service.setup.checkTimeout).2.flags.shuttingDown x := by
  obtain ⟨ns, a, s, -, ended, done, last⟩ := liveness_moves free scheduled target computable
  have checked : w.service.check w.service.setup.checkTimeout = (.ok a.report, s) := by
    unfold check
    rw [computable]
    dsimp only
    rw [ended]
    rfl
  rw [after_cons] at last
  rw [checked, respond_liveness target computable ended]
  obtain ⟨-, seen⟩ := answer_liveness
    (v := { w with service := s, inquiries := w.inquiries ++ [⟨some r, a, false⟩] })
    free List.getElem?_concat_length done
  refine ⟨ns, livenessAnswer s r a, a.report, rfl, rfl, by rw [last], ?_, ?_⟩
  · rw [last, seen]
    exact List.mem_singleton.mpr rfl
  · rw [livenessAnswer_eq target]
    exact liveness_truthful _ _ _

end Answers

/-! ## 3. Every answer -/

/-- **A liveness probe tells the truth.** Whatever checkers are registered, in whatever order they
are asked and whatever they or others do meanwhile, the answer has the report of the moment at which
the probe came in for a body; its status is success if every result in it is good and the service is
not shutting down when all checkers have been heard, and failure otherwise. So, if nobody takes it
back that the service is shutting down, success never comes with a report that says otherwise, and a
shutdown that begins while checkers are running turns this very answer into a failure. Whoever waits
for the answer gets it. -/
theorem liveness_sound (setup : Setup) (clock : Time.Stamp) (before : List Move)
    (r : Probe.Request) {withBody : Bool} {deadline : Nat}
    (free : ((new setup clock).after before).turn = none)
    (target : r.target = .route .healthz withBody)
    (computable : deadline? ((new setup clock).after before).service.now
      ((new setup clock).after before).service.setup.checkTimeout = some deadline) :
    let w := (new setup clock).after before
    let v := w.apply (.request r)
    let checked := w.service.check w.service.setup.checkTimeout
    (∀ ms x, .answered r x ∈ (v.after ms).happenings (.answer w.inquiries.length) →
      ∃ q, (v.after ms).inquiries[w.inquiries.length]? = some q ∧ q.aggregation.isDone = true ∧
        let report := q.aggregation.report
        report.time = w.service.clock ∧ report.flags = w.service.flags ∧
        report.checks.keys = w.service.checkerNames ∧
        Truthful withBody report (v.after ms).service.flags.shuttingDown x ∧
        (NeverSetBack v ms →
          (x.status = 200 → report.isHealthy = true ∧ report.flags.shuttingDown = false) ∧
          (DownMeanwhile v ms → x.status = 503) ∧
          (.withdrew ∈ v.history ms ∨ .did (.setShuttingDown true) ∈ v.history ms →
            x.status = 503))) ∧
    ∃ ns x report, (w.service.respond r).1 = .ok x ∧ checked.1 = .ok report ∧
      (v.after ns).service = checked.2 ∧
      .answered r x ∈ (v.after ns).happenings (.answer w.inquiries.length) ∧
      Truthful withBody report checked.2.flags.shuttingDown x := by
  intro w v checked
  have vouched : ResultsVouched w := after_resultsVouched setup clock before
  have asks : v = w.inquire (some r) w.service.setup.checkTimeout := by
    rw [inquire_eq computable]
    exact apply_liveness free target computable
  refine ⟨fun ms x mem => ?_, answer_awaited free (free ▸ vouched.scheduled) target computable⟩
  obtain ⟨q, hq, snapshot⟩ := inquire_snapshot vouched free computable (some r) ms
  rw [← asks] at hq snapshot
  obtain ⟨time, flags, keys, -⟩ := snapshot.report
  obtain ⟨done, answered⟩ := answer_cases target hq mem
  refine ⟨q, hq, done, time, flags, keys, answered, fun never => ?_⟩
  have failed : DownMeanwhile v ms → x.status = 503 := fun down =>
    answered.failure.mpr fun good => by
      rw [never.last down] at good
      exact absurd good.2 (by decide)
  refine ⟨fun success => ?_, failed, fun begun => failed (downMeanwhile_of_begun begun)⟩
  refine ⟨(Health.Report.isHealthy_iff_get? _).mpr (answered.success.mp success).1, ?_⟩
  rw [flags]
  cases start : w.service.flags.shuttingDown with
  | false => rfl
  | true =>
    -- the service was shutting down when the probe came in, so it is when the answer is given
    have same : v.service.flags = w.service.flags := by
      rw [asks]
      exact inquire_flags w _ _
    have fails := failed ⟨[], ms, rfl, by rw [after_nil, same]; exact start⟩
    rw [fails] at success
    cases success

/-- A ready service with a cache that begins to shut it down while it is asked. -/
def impatientService : World :=
  (new ⟨1000, 50, true, ⟨"api", "test", ⟨none, none⟩⟩, .ascending⟩ ⟨0, 0⟩).after
    [.act (.setReady true),
      .act (.register ⟨"cache", false, none, [.setShuttingDown true], [.returns .passed]⟩)]

/-- The cache is in order and the probe came in before the shutdown, and so says the report; but the
shutdown has begun meanwhile, and the answer is a failure. -/
theorem shutdown_begun_by_cache :
    let v := impatientService.apply (.request healthzRequest)
    let ms := [.begin, .go, .go, .go, .look 0]
    ∃ x report, .answered healthzRequest x ∈ (v.after ms).happenings (.answer 0) ∧
      .did (.setShuttingDown true) ∈ v.history ms ∧
      x.body = Health.Report.text report ∧ report.isHealthy = true ∧
      report.flags = ⟨true, false⟩ ∧ x.status = 503 := by
  intro v ms
  have kept : .did (.setShuttingDown false) ∉ v.history ms := by
    rintro (_ | ⟨_, mem⟩)
    cases mem
  obtain ⟨x, mem⟩ : ∃ x, .answered healthzRequest x ∈ (v.after ms).happenings (.answer 0) :=
    ⟨_, List.mem_of_getElem? (i := 0) rfl⟩
  have written : .did (.setShuttingDown true) ∈ v.history ms := List.mem_of_getElem? (i := 0) rfl
  have computable : deadline? impatientService.service.now
      impatientService.service.setup.checkTimeout = some 1000 := rfl
  obtain ⟨answers, -⟩ := liveness_sound _ _ _ healthzRequest
    (show impatientService.turn = none from rfl) healthzRequest_target computable
  obtain ⟨q, hq, -, -, flags, -, answered, steady⟩ := answers ms x mem
  have healthy : (v.after ms).inquiries[0]?.map (·.aggregation.report.isHealthy) = some true := by
    decide +kernel
  obtain ⟨-, -, begun⟩ := steady (neverSetBack_of_unwritten kept)
  refine ⟨x, q.aggregation.report, mem, written, answered.body, ?_, flags.trans rfl,
    begun (.inr written)⟩
  have found : (v.after ms).inquiries[0]? = some q := hq
  rw [found] at healthy
  exact Option.some.inj healthy

end World

end ServiceHealth
