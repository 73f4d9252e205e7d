import ServiceHealth.Proofs.Exposed
import ServiceHealth.Proofs.Records
import ServiceHealth.Proofs.Withdrawal

/-!
# What the gauges of the flags tell

The gauges tell the flags that were published last. A readiness probe publishes the flags it has
seen, and the call that shuts the service down those of the withdrawal. A liveness probe publishes
none, although its report has the flags; so after one the gauges tell what they told before.

* `World.published`: the flags that moves publish, `after_gauges`: the gauges tell the last of them.
* `Probed`: a move answers a probe, which has seen certain flags. `GaugesTell`: what is shown.
* `gauges_tell_unless_unpublished`: **when the gauges tell what a probe has seen**.
* `liveness_probe_leaves_gauges`: a service for which they do not.
-/

namespace ServiceHealth

open Service Exposition

/-! ## 1. The gauges tell what was published last -/

/-- The gauges of the flags, as they are shown, tell certain flags. -/
def Metrics.GaugesTell (m : Metrics) (f : Health.Flags) : Prop :=
  (∀ x, m.Shows "tunnel_ready" x ↔ x = ⟨none, digit f.ready⟩) ∧
    ∀ x, m.Shows "tunnel_shutting_down" x ↔ x = ⟨none, digit f.shuttingDown⟩

theorem Metrics.gaugesTell_iff {m : Metrics} {f : Health.Flags} :
    m.GaugesTell f ↔ m.flags = f := by
  constructor
  · rintro ⟨ready, down⟩
    have ready := shows_ready.mp ((ready _).mpr rfl)
    have down := shows_shuttingDown.mp ((down _).mpr rfl)
    obtain ⟨r, d⟩ := f
    have r' := digit_inj (congrArg Sample.value ready)
    have d' := digit_inj (congrArg Sample.value down)
    dsimp only at r' d'
    rw [r', d']
  · rintro rfl
    exact ⟨fun _ => shows_ready, fun _ => shows_shuttingDown⟩

namespace World

/-- The flags that some moves publish, in order. -/
def published (w : World) : List Move → List Health.Flags
  | [] => []
  | m :: ms => (w.flagsPublished? m).toList ++ (w.apply m).published ms

/-- A move publishes flags or leaves the gauges alone. -/
theorem apply_gauges (w : World) (m : Move) : (w.apply m).service.metrics.flags =
    (w.flagsPublished? m).getD w.service.metrics.flags := by
  rw [(apply_leaves w m).metrics, Metrics.flags_foldl, notes_flags]
  cases w.flagsPublished? m <;> rfl

/-- **The gauges tell the flags that were published last.** -/
theorem after_gauges (w : World) (ms : List Move) : (w.after ms).service.metrics.flags =
    ((w.published ms).getLast?).getD w.service.metrics.flags := by
  induction ms generalizing w with
  | nil => rfl
  | cons m ms ih =>
    rw [after_cons, ih, apply_gauges, published, List.getLast?_append]
    cases ((w.apply m).published ms).getLast? <;> cases w.flagsPublished? m <;> rfl

/-! ## 2. Probes -/

/-- **A move answers a probe, which has seen certain flags**: a readiness probe those of that
moment, and a liveness probe those of its report. -/
inductive Probed (w : World) (m : Move) : Probe.Route → Health.Flags → Prop where
  | readyz {r : Probe.Request} {x : Probe.Response} {withBody : Bool}
      (target : r.target = .route .readyz withBody) (answered : .answered r x ∈ w.happenings m) :
      Probed w m .readyz w.service.flags
  | healthz {r : Probe.Request} {x : Probe.Response} {withBody : Bool} {report : Health.Report}
      {f : Health.Flags} (target : r.target = .route .healthz withBody)
      (answered : .answered r x ∈ w.happenings m) (given : w.reportGiven? m = some report)
      (seen : report.flags = f) : Probed w m .healthz f

/-- Whatever answers a readiness probe publishes the flags that it has seen. -/
theorem flagsPublished?_readyz {w : World} (asked : Asked w) {m : Move} {r : Probe.Request}
    {x : Probe.Response} {withBody : Bool} (target : r.target = .route .readyz withBody)
    (answered : .answered r x ∈ w.happenings m) :
    w.flagsPublished? m = some w.service.flags := by
  cases observed_of_mem answered with
  | answered free other h =>
    unfold flagsPublished?
    rw [free]
    dsimp only
    rw [target]
  | checked free h done =>
    obtain ⟨b, live⟩ := asked _ (List.mem_of_getElem? h) r rfl
    rw [target] at live
    cases live

/-- Whatever answers a liveness probe publishes no flags. -/
theorem flagsPublished?_healthz {w : World} {m : Move} {r : Probe.Request} {x : Probe.Response}
    {withBody : Bool} (target : r.target = .route .healthz withBody)
    (answered : .answered r x ∈ w.happenings m) : w.flagsPublished? m = none := by
  cases observed_of_mem answered with
  | answered free other h => exact absurd ⟨withBody, target⟩ other
  | checked free h done =>
    unfold flagsPublished?
    rw [free]

end World

namespace Service

/-- A driver's readiness probe publishes the flags it has seen. -/
theorem respond_readyz_flags (s : Service) {r : Probe.Request} {withBody : Bool}
    (target : r.target = .route .readyz withBody) : (s.respond r).2.metrics.flags = s.flags := by
  unfold respond
  rw [target]
  rfl

/-- A driver's liveness probe publishes no flags, whether it is answered or not. -/
theorem respond_healthz_flags (s : Service) {r : Probe.Request} {withBody : Bool}
    (target : r.target = .route .healthz withBody) :
    (s.respond r).2.metrics.flags = s.metrics.flags := by
  have checked := check_metrics s s.setup.checkTimeout
  unfold respond
  rw [target]
  show s.healthz.2.metrics.flags = s.metrics.flags
  unfold healthz
  split
  · rename_i h
    rw [h] at checked
    rw [checked]
  · rename_i h
    rw [h] at checked
    have flags := congrArg Metrics.flags checked
    exact flags

end Service

namespace World

/-- **The gauges tell the flags that a probe has seen, unless it is a liveness probe and these were
not the last to be published.** After a readiness probe they always tell them. After a liveness
probe they tell what was published last, by a readiness probe or by a withdrawal, and nothing else.
So it is in whatever order things happen; and so it is of the probes that a driver sends in a run.
What they tell is what a request for the metrics is answered. -/
theorem gauges_tell_unless_unpublished (setup : Setup) (clock : Time.Stamp) (ms : List Move)
    (m : Move) {route : Probe.Route} {f : Health.Flags}
    (probed : Probed ((new setup clock).after ms) m route f) :
    let last := (((new setup clock).published ms).getLast?).getD ⟨false, false⟩
    let after := ((new setup clock).after ms).apply m
    (after.service.metrics.GaugesTell f ↔ route = .readyz ∨ f = last) ∧
    (route = .healthz → ∀ f', after.service.metrics.GaugesTell f' ↔ f' = last) ∧
    (∀ r withBody, r.target = .route .metrics withBody → after.service.respond r =
      (.ok ((Probe.exposed (render after.service.metrics.families)).sent withBody),
        after.service)) ∧
    ∀ (cs : List Command) (r : Probe.Request) (withBody : Bool),
      let s := (run cs (.new setup clock)).2
      (r.target = .route .readyz withBody →
        (s.perform (.request r)).2.metrics.GaugesTell s.flags) ∧
      (r.target = .route .healthz withBody → ∀ f',
        (s.perform (.request r)).2.metrics.GaugesTell f' ↔ s.metrics.GaugesTell f') := by
  intro last after
  have told : ((new setup clock).after ms).service.metrics.flags = last := after_gauges _ ms
  have gauges : after.service.metrics.flags =
      (((new setup clock).after ms).flagsPublished? m).getD last := by
    rw [← told]
    exact apply_gauges _ m
  refine ⟨?_, ?_, fun r withBody target => respond_metrics _ target, fun cs r withBody => ⟨?_, ?_⟩⟩
  · rw [Metrics.gaugesTell_iff, gauges]
    cases probed with
    | readyz target answered =>
      rw [flagsPublished?_readyz (after_asked setup clock ms) target answered]
      exact iff_of_true rfl (.inl rfl)
    | healthz target answered =>
      rw [flagsPublished?_healthz target answered]
      exact ⟨fun e => .inr e.symm, fun h => (h.resolve_left nofun).symm⟩
  · intro live f'
    rw [Metrics.gaugesTell_iff, gauges]
    cases probed with
    | readyz target answered => cases live
    | healthz target answered =>
      rw [flagsPublished?_healthz target answered]
      exact eq_comm
  · intro target
    rw [perform_request, Metrics.gaugesTell_iff]
    exact respond_readyz_flags _ target
  · intro target f'
    rw [perform_request, Metrics.gaugesTell_iff, Metrics.gaugesTell_iff,
      respond_healthz_flags _ target]

/-- A ready service whose readiness has been probed: a liveness probe after that finds the gauges as
it has seen the flags. -/
theorem gauges_tell_probed_service :
    Probed ((new ⟨1000, 1000, true, ⟨"api", "test", ⟨none, none⟩⟩, .ascending⟩ ⟨0, 0⟩).after
      [.act (.setReady true), .request readyzRequest, .request healthzRequest]) (.answer 0)
        .healthz ⟨true, false⟩ ∧
    (((new ⟨1000, 1000, true, ⟨"api", "test", ⟨none, none⟩⟩, .ascending⟩ ⟨0, 0⟩).after
      [.act (.setReady true), .request readyzRequest, .request healthzRequest]).apply
        (.answer 0)).service.metrics.GaugesTell ⟨true, false⟩ := by
  have probed : Probed
      ((new ⟨1000, 1000, true, ⟨"api", "test", ⟨none, none⟩⟩, .ascending⟩ ⟨0, 0⟩).after
        [.act (.setReady true), .request readyzRequest, .request healthzRequest]) (.answer 0)
      .healthz ⟨true, false⟩ :=
    .healthz healthzRequest_target (List.mem_of_getElem? (i := 0) rfl) rfl rfl
  exact ⟨probed, (gauges_tell_unless_unpublished _ _ _ _ probed).1.mpr (.inr rfl)⟩

/-- A request for the metrics. -/
def metricsRequest : Probe.Request := ⟨"GET", "/metrics"⟩

/-- **The gauges do not tell the flags that every probe has seen.** The liveness probe of a service
that has just become ready reports it ready, but the metrics served right after that still show it
as not ready: no readiness probe has come before. -/
theorem liveness_probe_leaves_gauges :
    let w := (new ⟨1000, 1000, true, ⟨"api", "test", ⟨none, none⟩⟩, .ascending⟩ ⟨0, 0⟩).after
      [.act (.setReady true), .request healthzRequest]
    Probed w (.answer 0) .healthz ⟨true, false⟩ ∧
    w.service.flags = ⟨true, false⟩ ∧ (w.apply (.answer 0)).service.flags = ⟨true, false⟩ ∧
    ¬ (w.apply (.answer 0)).service.metrics.GaugesTell ⟨true, false⟩ ∧
    (w.apply (.answer 0)).service.metrics.Shows "tunnel_ready" ⟨none, "0"⟩ ∧
    (run [.setReady true, .request healthzRequest, .request metricsRequest]
      (.new ⟨1000, 1000, true, ⟨"api", "test", ⟨none, none⟩⟩, .ascending⟩ ⟨0, 0⟩)).1.map
          (·.answer) =
        [.flags ⟨true, false⟩,
          .response (Probe.liveness ⟨⟨0, 0⟩, ⟨true, false⟩, .empty⟩ false),
          .response (Probe.exposed (render
            (Metrics.families ⟨true, ⟨false, false⟩, .zero, .empty, .empty⟩)))] := by
  intro w
  have flags : (w.apply (.answer 0)).service.metrics.flags = ⟨false, false⟩ := rfl
  refine ⟨.healthz healthzRequest_target (List.mem_of_getElem? (i := 0) rfl) rfl rfl, rfl, rfl,
    ?_, Metrics.shows_ready.mpr (by rw [flags]; rfl), rfl⟩
  rw [Metrics.gaugesTell_iff, flags]
  nofun

end World

end ServiceHealth
