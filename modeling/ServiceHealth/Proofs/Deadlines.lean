import ServiceHealth.Lifecycle
import ServiceHealth.Proofs.AllOrNothing
import ServiceHealth.Proofs.Outcomes

/-!
# When deadlines can be computed

The settings take any number of seconds for a timeout that is not zero and has 64 bits. A deadline
is the moment at which it is set plus such a timeout, and the last moment lies half as far away. So
whether a liveness probe is answered and whether a shutdown is carried out at all depends on the
moment; with the longest timeouts neither ever is.

* `timeouts_of_ofLookup`: what is known of the timeouts of settings that were read.
* `after_setup`: nothing changes how a service was set up.
* `respond_computable`, `respond_overflow`: when a liveness probe is answered.
* `drain_computable`, `drain_hopeless`: when the first shutdown has a report.
* `deadlines_computed_iff`: **both depend on nothing but the moment and the timeout**.
-/

namespace ServiceHealth

/-! ## 1. Timeouts of settings -/

namespace Text.Numeral

theorem scan_lt {limit value n : Nat} {cs : List Char} (small : value < limit)
    (h : scan limit value cs = .ok n) : n < limit := by
  induction cs generalizing value with
  | nil =>
    cases h
    exact small
  | cons c rest ih =>
    rw [scan_cons] at h
    split at h
    · cases h
    · split at h
      · rename_i fits
        exact ih fits h
      · cases h

/-- **What is read is below the limit.** -/
theorem read_lt {limit n : Nat} {cs : List Char} (pos : 0 < limit) (h : read limit cs = .ok n) :
    n < limit := by
  unfold read at h
  split at h
  · cases h
  · cases h
  · exact scan_lt pos h
  · exact scan_lt pos h

end Text.Numeral

namespace Settings

/-- A timeout that settings may have, in seconds. -/
def IsTimeout (seconds : Nat) : Prop := 0 < seconds ∧ seconds < Text.Numeral.limit64

/-- **A timeout that was read is not zero and has 64 bits.** -/
theorem readTimeout_isTimeout {lookup : Lookup} {v : Variable} {default seconds : Nat}
    (fits : default < Text.Numeral.limit64) (h : readTimeout lookup v default = .ok seconds) :
    IsTimeout seconds := by
  have small : ∀ {n}, readVariable lookup v default numberGrammar = .ok n →
      n < Text.Numeral.limit64 := by
    intro n read
    unfold readVariable at read
    split at read
    · cases read
      exact fits
    · rename_i value _
      split at read
      · rename_i a parsed
        cases read
        unfold numberGrammar at parsed
        split at parsed
        · rename_i m numeral
          cases parsed
          exact Text.Numeral.read_lt (by decide) numeral
        · cases parsed
      · cases read
  unfold readTimeout at h
  split at h
  · cases h
  · cases h
  · rename_i n read
    cases h
    exact ⟨Nat.succ_pos n, small read⟩

/-- What is known of the timeouts of settings that were read. -/
theorem timeouts_of_ofLookup {lookup : Lookup} {settings : Settings}
    (h : ofLookup lookup = .ok settings) :
    IsTimeout settings.checkTimeout ∧ IsTimeout settings.shutdownTimeout := by
  unfold ofLookup at h
  simp only [bind, Except.bind, pure, Except.pure] at h
  repeat' split at h
  all_goals cases h
  rename_i shutdown _ _ check _ _ _ _ _ _
  exact ⟨readTimeout_isTimeout (by decide) check, readTimeout_isTimeout (by decide) shutdown⟩

/-- How a service is set up with settings: timeouts are in milliseconds there. -/
def setup (settings : Settings) (publishes : Bool) (logger : Log.Logger) : Service.Setup where
  checkTimeout := settings.checkTimeout * 1000
  drainTimeout := settings.shutdownTimeout * 1000
  publishes := publishes
  logger := logger

end Settings

open Service

/-! ## 2. One deadline -/

namespace World

theorem apply_setup (w : World) (m : Move) : (w.apply m).service.setup = w.service.setup := by
  by_cases withdrew : .withdrew ∈ w.happenings m
  · obtain ⟨rfl, free, can⟩ := withdrew_mem withdrew
    obtain ⟨d, -, e⟩ := call_won can
    rw [apply_free free]
    show w.call.service.setup = _
    rw [e]
    exact (poll_published _ _).1
  · exact (apply_published w m withdrew).1

/-- **Nothing changes how a service was set up.** -/
theorem after_setup (setup : Setup) (clock : Time.Stamp) (ms : List Move) :
    ((new setup clock).after ms).service.setup = setup :=
  after_induction (P := fun w => w.service.setup = setup)
    (fun w m h => (apply_setup w m).trans h) _ ms rfl

/-- A liveness probe whose deadline cannot be computed is not answered, and changes nothing. -/
theorem respond_overflow {s : Service} {r : Probe.Request} {withBody : Bool}
    (target : r.target = .route .healthz withBody)
    (late : momentLimit ≤ s.now + s.setup.checkTimeout) : s.respond r = (.error .deadline, s) := by
  unfold respond healthz check
  rw [target, deadline?_eq_none.mpr late]
  rfl

/-- **When a liveness probe is answered**: if its deadline can be computed. -/
theorem respond_ok_iff {w : World} (free : w.turn = none) (scheduled : Scheduled none w.service)
    {r : Probe.Request} {withBody : Bool} (target : r.target = .route .healthz withBody) :
    (∃ x, (w.service.respond r).1 = .ok x) ↔
      w.service.now + w.service.setup.checkTimeout < momentLimit := by
  constructor
  · rintro ⟨x, answered⟩
    refine Nat.lt_of_not_le fun late => ?_
    rw [respond_overflow target late] at answered
    cases answered
  · intro early
    obtain ⟨x, s, -, answered, -⟩ := liveness_led free scheduled target (if_pos early)
    exact ⟨x, by rw [answered]⟩

/-- **When the first shutdown has a report**: if its deadline can be computed. -/
theorem drain_ok_iff {s : Service} (poised : Poised s) (running : s.phase = .running)
    (probes : List Nat) :
    (∃ d report, (s.drain 1 probes).1 = .ok d ∧ d.reports = [some report]) ↔
      s.now + s.setup.drainTimeout < momentLimit := by
  constructor
  · rintro ⟨d, report, drained, -⟩
    refine Nat.lt_of_not_le fun late => ?_
    rw [drain_hopeless ((hopeless_iff s).mpr ⟨running, late⟩)] at drained
    cases drained
  · intro early
    obtain ⟨d, drained, reports⟩ := drain_reports poised running (if_pos early) 0 probes
    exact ⟨d, _, drained, reports⟩

/-! ## 3. Deadlines of settings -/

/-- The program sets its service up with its settings. -/
theorem readyService_eq (settings : Settings) (clock : Time.Stamp) :
    Lifecycle.readyService settings clock =
      ((new (settings.setup true (Lifecycle.logger settings)) clock).after
        [.act (.register .certificate), .act (.register .connections),
          .addTask Lifecycle.serving, .act (.setReady true)]).service := rfl

/-- **Deadlines can be computed or not, depending on the moment and the timeout alone.** Settings
that were read have timeouts between one second and the largest number of 64 bits. A service that
is set up with them answers a liveness probe, and reports its first shutdown, if and only if the
moment at which this is asked of it and the timeout together stay below the last moment; otherwise
the deadline overflows, which leaves a probe without an answer and a shutdown in the middle. -/
theorem deadlines_computed_iff {lookup : Settings.Lookup} {settings : Settings}
    (read : Settings.ofLookup lookup = .ok settings) (publishes : Bool) (logger : Log.Logger)
    (clock : Time.Stamp) (ms : List Move)
    (free : ((new (settings.setup publishes logger) clock).after ms).turn = none) :
    let s := ((new (settings.setup publishes logger) clock).after ms).service
    (Settings.IsTimeout settings.checkTimeout ∧ Settings.IsTimeout settings.shutdownTimeout) ∧
    (∀ r withBody, r.target = .route .healthz withBody →
      ((∃ x, (s.respond r).1 = .ok x) ↔ s.now + settings.checkTimeout * 1000 < momentLimit) ∧
      (momentLimit ≤ s.now + settings.checkTimeout * 1000 →
        s.respond r = (.error .deadline, s))) ∧
    (s.phase = .running → ∀ probes,
      ((∃ d report, (s.drain 1 probes).1 = .ok d ∧ d.reports = [some report]) ↔
        s.now + settings.shutdownTimeout * 1000 < momentLimit) ∧
      (momentLimit ≤ s.now + settings.shutdownTimeout * 1000 →
        s.drain 1 probes = (.error .deadline, { s with phase := .draining }))) := by
  intro s
  have same : s.setup = settings.setup publishes logger := after_setup _ clock ms
  have check : s.setup.checkTimeout = settings.checkTimeout * 1000 := by rw [same]; rfl
  have down : s.setup.drainTimeout = settings.shutdownTimeout * 1000 := by rw [same]; rfl
  have scheduled := after_scheduled _ ms (new_scheduled (settings.setup publishes logger) clock)
  change Scheduled ((new (settings.setup publishes logger) clock).after ms).turn s at scheduled
  rw [free] at scheduled
  rw [← check, ← down]
  refine ⟨Settings.timeouts_of_ofLookup read, fun r withBody target => ⟨?_, ?_⟩,
    fun running probes => ⟨?_, fun late => ?_⟩⟩
  · exact respond_ok_iff free scheduled target
  · exact respond_overflow target
  · exact drain_ok_iff (after_poised _ clock ms free running) running probes
  · exact drain_hopeless ((hopeless_iff s).mpr ⟨running, late⟩) 0 probes

/-- Without any variable a liveness probe is answered and the first shutdown has a report. -/
theorem default_deadlines_computed :
    Settings.ofLookup (fun _ => none) = .ok Settings.default ∧
    (∃ x, ((Lifecycle.readyService Settings.default ⟨0, 0⟩).respond healthzRequest).1 = .ok x) ∧
    ∃ d report, ((Lifecycle.readyService Settings.default ⟨0, 0⟩).drain 1 []).1 = .ok d ∧
      d.reports = [some report] := by
  have read : Settings.ofLookup (fun _ => none) = .ok Settings.default := by decide +kernel
  obtain ⟨-, probes, shutdown⟩ := deadlines_computed_iff read true
    (Lifecycle.logger Settings.default) ⟨0, 0⟩
    [.act (.register .certificate), .act (.register .connections), .addTask Lifecycle.serving,
      .act (.setReady true)] rfl
  rw [← readyService_eq] at probes shutdown
  refine ⟨read, (probes _ _ healthzRequest_target).1.mpr ?_, (shutdown rfl []).1.mpr ?_⟩
  · decide +kernel
  · decide +kernel

/-- An environment with the longest timeouts. -/
def longestTimeouts : Settings.Lookup := fun name =>
  if name = Variable.checkTimeout.name ∨ name = Variable.shutdownTimeout.name then
    some "18446744073709551615"
  else none

/-- **There are settings with which no deadline can be computed**, although they are accepted: the
very first liveness probe is not answered, and the first shutdown breaks off. -/
theorem longest_timeouts_overflow :
    let settings : Settings := { Settings.default with
      checkTimeout := 18446744073709551615, shutdownTimeout := 18446744073709551615 }
    let s := Lifecycle.readyService settings ⟨0, 0⟩
    Settings.ofLookup longestTimeouts = .ok settings ∧ s.now = 0 ∧ s.phase = .running ∧
      (s.respond healthzRequest).1 = .error .deadline ∧ (s.drain 1 []).1 = .error .deadline ∧
      (s.drain 1 []).2.phase = .draining ∧ (s.drain 1 []).2.flags = ⟨true, false⟩ := by
  intro settings s
  have read : Settings.ofLookup longestTimeouts = .ok settings := by decide +kernel
  have hopeless : Hopeless s := (hopeless_iff s).mpr ⟨rfl, by decide +kernel⟩
  rw [respond_overflow healthzRequest_target (by decide +kernel), drain_hopeless hopeless]
  exact ⟨read, rfl, rfl, rfl, rfl, rfl, rfl⟩

end World

end ServiceHealth
