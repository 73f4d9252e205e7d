import ServiceHealth.Proofs.Harmless
import ServiceHealth.Proofs.Records

/-!
# Every request has its own effects and no others

A path and a method decide what a request asks for, and only three of the answers cost anything: a
liveness probe runs the checkers and notes the report in the metrics, a readiness probe notes the
flags, and a request for the metrics reads them. All other requests are turned away at once. To ask
for an answer without its body does not spare the service anything.

* `route?_eq_some`: which route a path leads to. `target_eq`: what a request asks for.
* `healthz_harmless`, `healthz_metrics_only`: what a liveness probe leaves alone.
* `respond_without_body`: **without its body the answer is the same, and so is what it costs**.
* `respond_route`, `respond_nowhere`, `respond_forbidden`: what becomes of each request.
  `respond_harmless`: no request moves anything.
* `requests_have_own_effects`: **what each request changes, and that it changes nothing else**.
-/

namespace ServiceHealth

/-! ## 1. What a request asks for -/

namespace Probe

/-- **Which route a path leads to**: the paths of the routes match exactly. -/
theorem route?_eq_some {r : Request} {route : Route} :
    r.route? = some route ↔ r.plainPath = route.path.toList := by
  have all : ∀ route : Route, route ∈ [Route.healthz, Route.readyz, Route.metrics] := by
    intro route
    cases route <;> decide
  have apart : ∀ x y : Route, x.path.toList = y.path.toList → x = y := by
    intro x y
    cases x <;> cases y <;> decide
  have matched : ∀ {x : Route}, r.route? = some x → x.path.toList = r.plainPath := by
    intro x found
    unfold Request.route? at found
    simpa using List.find?_some found
  constructor
  · exact fun found => (matched found).symm
  · intro path
    cases found : r.route? with
    | none =>
      have unmatched := List.find?_eq_none.mp found route (all route)
      exact absurd (decide_eq_true path.symm) unmatched
    | some x => rw [apart x route ((matched found).trans path)]

theorem route?_eq_none {r : Request} :
    r.route? = none ↔ ∀ route : Route, r.plainPath ≠ route.path.toList := by
  rw [Option.eq_none_iff_forall_ne_some]
  exact forall_congr' fun route => not_congr route?_eq_some

/-- **What a request asks for**, by its path and its method. -/
theorem target_eq {r : Request} {route : Route} (path : r.plainPath = route.path.toList) :
    r.target = if r.method = "GET" then .route route true
      else if r.method = "HEAD" then .route route false else .refused := by
  unfold Request.target Request.withBody?
  rw [route?_eq_some.mpr path]
  by_cases get : r.method = "GET"
  · rw [if_pos get, if_pos get]
  · rw [if_neg get, if_neg get]
    by_cases head : r.method = "HEAD"
    · rw [if_pos head, if_pos head]
    · rw [if_neg head, if_neg head]

/-- Whoever may ask for a route asks for it, with or without the body of the answer. -/
theorem target_of_allowed {r : Request} (route : Route) (path : r.plainPath = route.path.toList)
    (method : r.method = "GET" ∨ r.method = "HEAD") :
    ∃ withBody, r.target = .route route withBody := by
  rw [target_eq path]
  rcases method with get | head
  · exact ⟨true, if_pos get⟩
  · exact ⟨false, by rw [head]; rfl⟩

end Probe

namespace Service

variable {s : Service}

/-! ## 2. Liveness -/

/-- Whoever is harmless stays so when the metrics change. -/
theorem Harmless.withMetrics (h : Harmless none s) (metrics : Metrics) :
    Harmless none { s with metrics } :=
  ⟨h.jobs, nofun, h.checkers⟩

/-- **A liveness probe moves nothing** where nobody has anything to do to the service. -/
theorem healthz_harmless (h : Harmless none s) :
    Harmless none s.healthz.2 ∧ Unmoved s s.healthz.2 := by
  have checked := check_harmless h s.setup.checkTimeout
  unfold healthz
  split
  · rename_i e
    rw [e] at checked
    exact checked
  · rename_i e
    rw [e] at checked
    exact ⟨checked.1.withMetrics _, checked.2.trans (.replaced _ _ _ _ _ _)⟩

/-- **Of the metrics it changes at most the health and the counters of failed checks.** -/
theorem healthz_metrics_only (s : Service) :
    ∃ healthy failures, s.healthz.2.metrics = { s.metrics with healthy, failures } := by
  have kept := check_metrics s s.setup.checkTimeout
  unfold healthz
  split
  · rename_i checked
    rw [checked] at kept
    exact ⟨_, _, kept⟩
  · rename_i report _ checked
    rw [checked] at kept
    exact ⟨_, _, congrArg (·.observeReport report) kept⟩

/-! ## 3. Answers without their body -/

/-- **Without its body the answer is the same, and so is what it costs.** -/
theorem respond_without_body {get head : Probe.Request} {route : Probe.Route}
    (whole : get.target = .route route true) (bare : head.target = .route route false) :
    s.respond head = ((s.respond get).1.map (·.withoutBody), (s.respond get).2) := by
  unfold respond
  rw [whole, bare]
  cases route with
  | healthz =>
    dsimp only
    cases s.healthz.1 <;> rfl
  | readyz => rfl
  | metrics => rfl

/-- A path is asked for by HEAD as by GET. -/
theorem respond_head (s : Service) (path : String) :
    s.respond ⟨"HEAD", path⟩ =
      ((s.respond ⟨"GET", path⟩).1.map (·.withoutBody), (s.respond ⟨"GET", path⟩).2) := by
  cases found : Probe.Request.route? ⟨"GET", path⟩ with
  | none =>
    have nowhere : ∀ method, Probe.Request.target ⟨method, path⟩ = .nowhere := by
      intro method
      have same : Probe.Request.route? ⟨method, path⟩ = none := found
      unfold Probe.Request.target
      rw [same]
    unfold respond
    rw [nowhere, nowhere]
    rfl
  | some route =>
    have leads : Probe.Request.plainPath ⟨"GET", path⟩ = route.path.toList :=
      Probe.route?_eq_some.mp found
    exact respond_without_body (Probe.target_eq leads) (Probe.target_eq (r := ⟨"HEAD", path⟩) leads)

/-! ## 4. What requests change -/

section Respond

variable {r : Probe.Request} {route : Probe.Route} {withBody : Bool}

/-- **What asking for a route costs.** -/
theorem respond_route : r.target = .route route withBody → (s.respond r).2 =
    match route with
    | .healthz => s.healthz.2
    | .readyz => { s with metrics := s.metrics.observeFlags s.flags }
    | .metrics => s := by
  intro target
  unfold respond
  rw [target]
  cases route <;> rfl

/-- **No request moves anything** where nobody has anything to do to the service. -/
theorem respond_harmless (h : Harmless none s) (r : Probe.Request) :
    Harmless none (s.respond r).2 ∧ Unmoved s (s.respond r).2 := by
  rcases Probe.target_cases r with ⟨-, target⟩ | ⟨_, -, -, target⟩ | ⟨route, b, -, -, target⟩
  · rw [respond_refused s r (.inl target)]
    exact ⟨h, .refl s⟩
  · rw [respond_refused s r (.inr target)]
    exact ⟨h, .refl s⟩
  · rw [respond_route target]
    cases route with
    | healthz => exact healthz_harmless h
    | readyz => exact ⟨h.withMetrics _, .replaced s _ _ _ _ _⟩
    | metrics => exact ⟨h, .refl s⟩

/-- A path that leads nowhere. -/
theorem respond_nowhere (s : Service) (nowhere : ∀ route : Probe.Route,
    r.plainPath ≠ route.path.toList) : s.respond r = (.ok Probe.missing, s) := by
  unfold respond Probe.Request.target
  rw [Probe.route?_eq_none.mpr nowhere]

/-- A method that is not allowed. -/
theorem respond_forbidden (s : Service) (path : r.plainPath = route.path.toList)
    (get : r.method ≠ "GET") (head : r.method ≠ "HEAD") :
    s.respond r = (.ok Probe.forbidden, s) := by
  unfold respond
  rw [Probe.target_eq path, if_neg get, if_neg head]

end Respond

/-- **Every request has its own effects and no others.** Where no job that is under way and no
checker that is registered writes the flags, registers a checker or stops a task, no request moves
anything, and so it is for the next one. A liveness probe changes of the metrics only the health and
the counters of failed checks, a readiness probe nothing but the gauges of the flags, and a request
for the metrics nothing at all. A path that leads nowhere and a method that is not allowed are
turned away, and nothing has changed then, nor has a checker run. Whoever asks by HEAD gets what it
would get by GET, without the body, and leaves the service in the same state. -/
theorem requests_have_own_effects (s : Service) (h : Harmless none s) (r : Probe.Request) :
    (Unmoved s (s.respond r).2 ∧ Harmless none (s.respond r).2) ∧
    (r.method = "GET" ∨ r.method = "HEAD" →
      (r.plainPath = "/healthz".toList →
        ∃ healthy failures, (s.respond r).2.metrics = { s.metrics with healthy, failures }) ∧
      (r.plainPath = "/readyz".toList →
        (s.respond r).2 = { s with metrics := { s.metrics with flags := s.flags } }) ∧
      (r.plainPath = "/metrics".toList → (s.respond r).2 = s)) ∧
    ((∀ route : Probe.Route, r.plainPath ≠ route.path.toList) →
      ∃ x, s.respond r = (.ok x, s) ∧ x.status = 404) ∧
    (∀ route : Probe.Route, r.plainPath = route.path.toList →
      r.method ≠ "GET" → r.method ≠ "HEAD" →
      ∃ x, s.respond r = (.ok x, s) ∧ x.status = 405 ∧ x.allow = some "GET,HEAD") ∧
    ∀ path, (s.respond ⟨"HEAD", path⟩).2 = (s.respond ⟨"GET", path⟩).2 ∧
      (s.respond ⟨"HEAD", path⟩).1 =
        (s.respond ⟨"GET", path⟩).1.map fun x => { x with body := "" } := by
  refine ⟨(respond_harmless h r).symm,
    fun method => ⟨fun path => ?_, fun path => ?_, fun path => ?_⟩,
    fun nowhere => ⟨_, respond_nowhere s nowhere, rfl⟩,
    fun route path get head => ⟨_, respond_forbidden s path get head, rfl, rfl⟩, fun path => ?_⟩
  · obtain ⟨b, target⟩ := Probe.target_of_allowed .healthz path method
    rw [respond_route target]
    exact healthz_metrics_only s
  · obtain ⟨b, target⟩ := Probe.target_of_allowed .readyz path method
    exact respond_route target
  · obtain ⟨b, target⟩ := Probe.target_of_allowed .metrics path method
    exact respond_route target
  · rw [respond_head]
    exact ⟨rfl, rfl⟩

/-- A checker that takes twenty milliseconds and fails, asked by HEAD, and two requests that are
turned away. -/
theorem stale_cache_requested :
    let s := (new ⟨1000, 5000, true, ⟨"api", "test", ⟨none, none⟩⟩, .ascending⟩ ⟨0, 0⟩).register
      ⟨"cache", false, some 20, [], [.returns (.failed (.unhealthy "stale"))]⟩
    ((s.respond ⟨"HEAD", "/healthz"⟩).2.flags = s.flags ∧
      (s.respond ⟨"HEAD", "/healthz"⟩).2 = (s.respond ⟨"GET", "/healthz"⟩).2) ∧
    (∃ x, s.respond ⟨"POST", "/readyz?now"⟩ = (.ok x, s) ∧ x.status = 405 ∧
      x.allow = some "GET,HEAD") ∧
    ∃ x, s.respond ⟨"GET", "/health"⟩ = (.ok x, s) ∧ x.status = 404 := by
  intro s
  have harmless : Harmless none s := by
    refine ⟨nofun, nofun, fun name c hc => ?_⟩
    obtain ⟨e, he, rfl⟩ := registered?_mem hc
    rw [List.mem_singleton.mp he]
  obtain ⟨⟨unmoved, -⟩, -, -, -, alike⟩ := requests_have_own_effects s harmless ⟨"HEAD", "/healthz"⟩
  obtain ⟨-, -, -, refused, -⟩ := requests_have_own_effects s harmless ⟨"POST", "/readyz?now"⟩
  obtain ⟨-, -, missing, -⟩ := requests_have_own_effects s harmless ⟨"GET", "/health"⟩
  exact ⟨⟨unmoved.flags, (alike "/healthz").1⟩, refused .readyz rfl (by decide) (by decide),
    missing fun route => by cases route <;> decide⟩

end Service

end ServiceHealth
