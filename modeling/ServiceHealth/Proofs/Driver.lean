import ServiceHealth.Proofs.Moves

/-!
# Runs are orders of moves

A driver carries out commands, one after the other, and waits for each. Everything that happens
meanwhile is one of the moves of a world, and every flag, probe and report in a reply is what
somebody sees who looks after some of them. So what holds of all orders of moves holds of every run.

* `Shown`: what a reply tells of the moves.
* `step_led`, `run_driven`: **every command and every run is an order of moves**, and the replies
  show what they have led to.
* `run_drain_led`: the same of a run from the call on that shuts the service down.
-/

namespace ServiceHealth

open Service

namespace World

/-! ## 1. What an answer shows -/

/-- The flags that an answer tells. -/
def flagsTold : Answer → List Health.Flags
  | .flags f => [f]
  | .standing f _ => [f]
  | .report r => [r.flags]
  | .reports rs => rs.map (·.flags)
  | .drained _ f _ _ => [f]
  | _ => []

/-- What the probes that an answer tells of have seen. -/
def sightingsTold : Answer → List Sighting
  | .drained d _ _ _ => d.sightings
  | _ => []

/-- The reports of the calls to shut down that an answer tells of. -/
def reportsTold : Answer → List (Option Shutdown.Report)
  | .drained d _ _ _ => d.reports
  | _ => []

/-- The reports that the answers of a run tell of, in order. -/
def allReports (replies : List Reply) : List (Option Shutdown.Report) :=
  replies.flatMap fun r => reportsTold r.answer

/-- How many calls to shut down a command makes. -/
def callsMade : Command → Nat
  | .drain count _ => count
  | _ => 0

/-- The moves by which a command brings actions into the service. -/
def broughtBy : Command → List Move
  | .setReady value => [.act (.setReady value)]
  | .setShuttingDown value => [.act (.setShuttingDown value)]
  | .registerChecker c => [.act (.register c)]
  | .registerBuiltin _ _ => [.act (.register .certificate), .act (.register .connections)]
  | .registerComponent c => [.addComponent c]
  | _ => []

/-- **What an answer shows of the moves that were made for it.** -/
structure Shown (w : World) (ms : List Move) (c : Command) (a : Answer) : Prop where
  flags : ∀ f ∈ flagsTold a, Passes w ms (·.flags = f)
  sightings : ∀ x ∈ sightingsTold a, Passes w ms (x = glimpse ·)
  response : ∀ r x, c = .request r → a = .response x → .answered r x ∈ w.history ms

theorem Passes.later {w : World} {ms ns : List Move} {P : Service → Prop}
    (h : Passes (w.after ms) ns P) : Passes w (ms ++ ns) P := by
  obtain ⟨p, hp, k⟩ := h
  exact ⟨ms ++ p, (List.prefix_append_right_inj ms).mpr hp, by rw [after_append]; exact k⟩

/-- What is shown of later moves is shown of all. -/
theorem Shown.later {w : World} {ms ns : List Move} {c : Command} {a : Answer}
    (h : Shown (w.after ms) ns c a) : Shown w (ms ++ ns) c a where
  flags f hf := (h.flags f hf).later
  sightings x hx := (h.sightings x hx).later
  response r x hc ha := by
    rw [history_append]
    exact List.mem_append_right _ (h.response r x hc ha)

/-- What is shown of the first moves is shown of all. -/
theorem Shown.on {w : World} {ms ns : List Move} {c : Command} {a : Answer} (h : Shown w ms c a) :
    Shown w (ms ++ ns) c a where
  flags f hf := (h.flags f hf).on (List.prefix_append _ _)
  sightings x hx := (h.sightings x hx).on (List.prefix_append _ _)
  response r x hc ha := by
    rw [history_append]
    exact List.mem_append_left _ (h.response r x hc ha)

/-- **How a command is carried out by moves**: they lead to the service that the command leaves, by
them comes in what the command brings and nothing else, the answer shows what was seen on the way,
and calls to shut down have all returned, with the reports of the answer, unless the last of them
has broken off. -/
structure Carried (w : World) (c : Command) (a : Answer) (s : Service) (ms : List Move) : Prop where
  free : (w.after ms).turn = none
  service : (w.after ms).service = s
  brought : brought ms = broughtBy c
  shown : Shown w ms c a
  calls : ∃ cs, (w.after ms).calls = w.calls ++ cs ∧
    ((callsMade c ≠ 0 ∧ ∃ e, a = .overflow e) ∨
      ∃ ds : List Call, cs = ds.map .ok ∧ ds.length = callsMade c ∧
      reportsTold a = ds.map (·.report?) ∧ ∀ d ∈ ds, d.hasReturned = true)

/-- A command that is a move, or some moves, without a call to shut down. -/
theorem Carried.moved {w w' : World} {c : Command} {a : Answer} {ms : List Move}
    (h : w.after ms = w') (free : w'.turn = none) (brought : World.brought ms = broughtBy c)
    (shown : Shown w ms c a) (calls : w'.calls = w.calls) (made : callsMade c = 0)
    (untold : reportsTold a = []) : Carried w c a w'.service ms where
  free := by rw [h]; exact free
  service := by rw [h]
  brought := brought
  shown := shown
  calls := ⟨[], by rw [h, calls, List.append_nil], .inr ⟨[], rfl, made.symm, untold, nofun⟩⟩

/-- An answer that shows nothing but the flags as they are in the end. -/
theorem Shown.ending {w : World} {ms : List Move} {c : Command} {a : Answer}
    (flags : ∀ f ∈ flagsTold a, (w.after ms).service.flags = f) (unseen : sightingsTold a = [])
    (other : ∀ r, c ≠ .request r) : Shown w ms c a where
  flags f hf := ⟨ms, List.prefix_refl ms, flags f hf⟩
  sightings x hx := by rw [unseen] at hx; cases hx
  response r _ e := absurd e (other r)

/-- An answer that shows nothing but the flags as they were in the beginning. -/
theorem Shown.beginning {w : World} {ms : List Move} {c : Command} {a : Answer}
    (flags : ∀ f ∈ flagsTold a, w.service.flags = f) (unseen : sightingsTold a = [])
    (other : ∀ r, c ≠ .request r) : Shown w ms c a where
  flags f hf := ⟨[], List.nil_prefix, flags f hf⟩
  sightings x hx := by rw [unseen] at hx; cases hx
  response r _ e := absurd e (other r)

/-- An answer that shows nothing. -/
theorem Shown.nothing {w : World} {ms : List Move} {c : Command} {a : Answer}
    (flags : flagsTold a = []) (unseen : sightingsTold a = []) (other : ∀ r, c ≠ .request r) :
    Shown w ms c a :=
  .ending (fun f hf => by rw [flags] at hf; cases hf) unseen other

/-! ## 2. Commands -/

/-- A request other than for liveness. -/
theorem request_led {w : World} (free : w.turn = none) {r : Probe.Request} (other : ¬ isLiveness r)
    {x : Probe.Response} {s : Service} (h : w.service.respond r = (.ok x, s)) :
    Carried w (.request r) (.response x) s [.request r] := by
  have received : w.after [.request r] = { w with service := s } := by
    rw [after_cons, after_nil, apply_free free]
    unfold outside receive
    dsimp only
    split
    · rename_i b hb
      exact absurd ⟨b, hb⟩ other
    · rw [h]
  refine .moved received free rfl ⟨nofun, nofun, ?_⟩ rfl rfl rfl
  rintro _ _ ⟨⟩ ⟨⟩
  rw [history_cons, history_nil, List.append_nil]
  unfold happenings
  rw [free]
  dsimp only
  unfold outsideHappenings answered
  dsimp only
  split
  · rename_i b hb
    exact absurd ⟨b, hb⟩ other
  · rw [h]
    exact List.mem_singleton.mpr rfl

section Liveness

variable {w : World} {r : Probe.Request} {withBody : Bool} {deadline : Nat}

/-- A request for liveness begins with an aggregation. -/
theorem apply_liveness (free : w.turn = none) (target : r.target = .route .healthz withBody)
    (hd : deadline? w.service.now w.service.setup.checkTimeout = some deadline) :
    w.apply (.request r) = { w with
      service := (w.service.startAggregation deadline).2
      inquiries := w.inquiries ++ [⟨some r, (w.service.startAggregation deadline).1, false⟩] } := by
  rw [apply_free free]
  unfold outside receive
  dsimp only
  rw [target]
  dsimp only
  unfold inquire
  rw [hd]

theorem livenessAnswer_eq (target : r.target = .route .healthz withBody) (s : Service)
    (a : Aggregation) : livenessAnswer s r a =
      (Probe.liveness a.report s.flags.shuttingDown).sent withBody := by
  unfold livenessAnswer
  rw [Probe.withBody?_of_target target]
  rfl

/-- A driver that sends it awaits the aggregation and then answers. -/
theorem respond_liveness {s s' : Service} {a : Aggregation}
    (target : r.target = .route .healthz withBody)
    (hd : deadline? s.now s.setup.checkTimeout = some deadline)
    (ended : await aggregating [(s.startAggregation deadline).1] (s.startAggregation deadline).2 =
      ([a], s')) :
    s.respond r = (.ok (livenessAnswer s' r a),
      { s' with metrics := s'.metrics.observeReport a.report }) := by
  rw [livenessAnswer_eq target]
  unfold respond
  rw [target]
  dsimp only
  unfold healthz check
  rw [hd]
  dsimp only
  rw [ended]
  rfl

/-- When the aggregation is over the request is answered. -/
theorem answer_liveness {v : World} {i : Nat} {a : Aggregation} (free : v.turn = none)
    (here : v.inquiries[i]? = some ⟨some r, a, false⟩) (done : a.isDone = true) :
    v.apply (.answer i) = { v with
        service := { v.service with metrics := v.service.metrics.observeReport a.report }
        inquiries := v.inquiries.set i ⟨some r, a, true⟩ } ∧
      v.happenings (.answer i) = [.answered r (livenessAnswer v.service r a)] := by
  constructor
  · rw [apply_free free]
    unfold outside answer
    dsimp only
    rw [here]
    exact if_pos done
  · unfold happenings
    rw [free]
    dsimp only
    unfold outsideHappenings answeredLater
    dsimp only
    rw [here]
    exact if_pos done

/-- **Awaiting the aggregation is moves**, and nothing but the aggregation comes to an end. -/
theorem liveness_moves (free : w.turn = none) (scheduled : Scheduled none w.service)
    (target : r.target = .route .healthz withBody)
    (hd : deadline? w.service.now w.service.setup.checkTimeout = some deadline) :
    ∃ ns a s, brought ns = [] ∧ await aggregating [(w.service.startAggregation deadline).1]
        (w.service.startAggregation deadline).2 = ([a], s) ∧ a.isDone = true ∧
      w.after (.request r :: ns) =
        { w with service := s, inquiries := w.inquiries ++ [⟨some r, a, false⟩] } := by
  have asked := apply_liveness free target hd
  obtain ⟨a, s₁, started⟩ : ∃ a s₁, w.service.startAggregation deadline = (a, s₁) := ⟨_, _, rfl⟩
  rw [started] at asked ⊢
  have scheduled₁ : Scheduled none s₁ := by
    have kept := apply_scheduled w (.request r) (by rw [free]; exact scheduled)
    rw [asked] at kept
    rw [← free]
    exact kept
  obtain ⟨ns, waits, awaited⟩ := aggregating_led (some r) w.inquiries [a] (w.apply (.request r))
    (by rw [asked]; exact free) (by rw [asked]; rfl)
  rw [asked] at awaited
  dsimp only at awaited
  have done := aggregating_done [a] scheduled₁
  have flags := aggregating_flags [a] scheduled₁
  obtain ⟨as, s₂, ended⟩ : ∃ as s₂, await aggregating [a] s₁ = (as, s₂) := ⟨_, _, rfl⟩
  rw [ended] at awaited done flags
  obtain ⟨a', rfl⟩ : ∃ a', as = [a'] :=
    List.length_eq_one_iff.mp (by simpa using congrArg List.length flags)
  refine ⟨ns, a', s₂, waits, ended, done a' List.mem_cons_self, ?_⟩
  rw [after_cons, asked, awaited]
  rfl

/-- A request for liveness whose deadline can be computed. -/
theorem liveness_led (free : w.turn = none) (scheduled : Scheduled none w.service)
    (target : r.target = .route .healthz withBody)
    (hd : deadline? w.service.now w.service.setup.checkTimeout = some deadline) :
    ∃ x s ms, w.service.respond r = (.ok x, s) ∧ Carried w (.request r) (.response x) s ms := by
  obtain ⟨ns, a, s₂, waits, ended, done, before⟩ := liveness_moves free scheduled target hd
  have freeThen : (w.after (.request r :: ns)).turn = none := by rw [before]; exact free
  have here : (w.after (.request r :: ns)).inquiries[w.inquiries.length]? =
      some ⟨some r, a, false⟩ := by
    rw [before]
    exact getElem?_middle _ _ _
  obtain ⟨answers, seen⟩ := answer_liveness freeThen here done
  have last : w.after (.request r :: ns ++ [.answer w.inquiries.length]) = { w with
      service := { s₂ with metrics := s₂.metrics.observeReport a.report }
      inquiries := w.inquiries ++ [⟨some r, a, true⟩] } := by
    rw [after_append, after_cons, after_nil, answers, before]
    dsimp only
    rw [set_middle]
  have brings : brought (.request r :: ns ++ [.answer w.inquiries.length]) = [] :=
    (brought_waits rfl).trans waits
  refine ⟨_, _, _, respond_liveness target hd ended,
    .moved last free brings ⟨nofun, nofun, ?_⟩ rfl rfl rfl⟩
  rintro _ _ ⟨⟩ ⟨⟩
  rw [history_append]
  refine List.mem_append_right _ ?_
  rw [history_cons, history_nil, seen, before]
  exact List.mem_singleton.mpr rfl

end Liveness

/-- Asking all checkers some times at once. -/
theorem asks_led {w : World} (free : w.turn = none) (scheduled : Scheduled none w.service)
    (count : Nat) {timeout deadline : Nat}
    (hd : deadline? w.service.now timeout = some deadline) :
    ∃ ms inquiries, brought ms = [] ∧ w.after ms = { w with
        service := (await aggregating (startAggregations deadline count w.service).1
          (startAggregations deadline count w.service).2).2
        inquiries } ∧
      ∀ a ∈ (await aggregating (startAggregations deadline count w.service).1
        (startAggregations deadline count w.service).2).1, a.flags = w.service.flags := by
  have asked := startAggregations_led timeout count deadline free hd
  have flags := startAggregations_flags deadline count w.service
  have scheduled₁ :=
    after_scheduled w (List.replicate count (.ask timeout)) (by rw [free]; exact scheduled)
  rw [asked] at scheduled₁
  have scheduled₂ : Scheduled none (startAggregations deadline count w.service).2 := by
    rw [← free]
    exact scheduled₁
  obtain ⟨ns, waits, awaited⟩ := aggregating_led none w.inquiries
    (startAggregations deadline count w.service).1 (w.after (List.replicate count (.ask timeout)))
    (by rw [asked]; exact free) (by rw [asked])
  rw [asked] at awaited
  refine ⟨List.replicate count (.ask timeout) ++ ns, _,
    (brought_waits waits).trans (brought_replicate count rfl),
    by rw [after_append, asked, awaited], ?_⟩
  intro a ha
  have kept : a.flags ∈ (startAggregations deadline count w.service).1.map (·.flags) := by
    rw [← aggregating_flags _ scheduled₂]
    exact List.mem_map_of_mem ha
  obtain ⟨a', ha', e⟩ := List.mem_map.mp kept
  rw [← e]
  exact flags a' ha'

/-- Stopping a task. -/
theorem stopTask_led {w : World} (free : w.turn = none) (task count : Nat) (giveUp : Option Nat) :
    ∃ ms stops, brought ms = [] ∧ w.after ms =
      { w with service := (w.service.stopTask task count giveUp).2, stops } := by
  have made := startStops_led task giveUp count w.service.now free rfl
  obtain ⟨ns, waits, awaited⟩ := stopping_led w.stops _
    (w.after (List.replicate count (.stop task giveUp))) (by rw [made]; exact free) (by rw [made])
  rw [made] at awaited
  exact ⟨List.replicate count (.stop task giveUp) ++ ns, _,
    (brought_waits waits).trans (brought_replicate count rfl),
    by rw [after_append, made, awaited]; rfl⟩

/-- **Shutting down**, if no call breaks off. -/
theorem drain_led {w : World} (free : w.turn = none) (scheduled : Scheduled none w.service)
    {count : Nat} {cs : List Call} {s' : Service} (h : startCalls count w.service = (.ok cs, s'))
    (probes : List Nat) :
    ∃ d s ns, w.service.drain count probes = (.ok d, s) ∧ brought ns = [] ∧ ∀ log,
      Carried w (.drain count probes) (.drained d s.flags s.phase log) s
        (List.replicate count .call ++ ns) ∧
      Shown (w.after (List.replicate count .call)) ns (.drain count probes)
        (.drained d s.flags s.phase log) := by
  obtain ⟨made, length⟩ := startCalls_led count free h
  have scheduled' : Scheduled none s' := by
    have kept := after_scheduled w (List.replicate count .call) (by rw [free]; exact scheduled)
    rw [made] at kept
    rw [← free]
    exact kept
  obtain ⟨watch, hw⟩ : ∃ watch : Watch, watch =
      ⟨cs, none, probes.map fun d => ⟨wakeTime w.service.now d, none⟩⟩ := ⟨_, rfl⟩
  obtain ⟨ns, waits, awaited, seen⟩ := draining_led w.calls watch
    (w.after (List.replicate count .call))
    (by rw [made]; exact free) (by rw [made, hw]) (by
      rw [hw]
      intro l hl
      obtain ⟨_, -, rfl⟩ := List.mem_map.mp hl
      rfl)
  have service : (w.after (List.replicate count .call)).service = s' := by rw [made]
  rw [service] at awaited seen
  have honest : watch.Honest := by rw [hw]; exact nofun
  have returned := (draining_returned honest scheduled').1
  have same : (await draining watch s').1.calls.length = cs.length := by
    rw [draining_length watch scheduled', hw]
  generalize hlast : await draining watch s' = last at *
  let d : Drained := ⟨last.1.calls.map (·.report?), last.1.returned.getD last.2.now - w.service.now,
    last.1.lookouts.filterMap (·.seen)⟩
  have drained : w.service.drain count probes = (.ok d, last.2) := by
    unfold drain
    rw [h]
    dsimp only
    rw [← hw, hlast]
  refine ⟨d, last.2, ns, drained, waits, fun log => ?_⟩
  have shown : Shown (w.after (List.replicate count .call)) ns (.drain count probes)
      (.drained d last.2.flags last.2.phase log) := by
    refine ⟨fun f hf => ?_, fun x hx => ?_, nofun⟩
    · rw [List.mem_singleton.mp hf]
      exact ⟨ns, List.prefix_refl ns, by rw [awaited]⟩
    · obtain ⟨l, hl, hx⟩ := List.mem_filterMap.mp hx
      exact seen l hl x hx
  refine ⟨⟨?_, ?_, (brought_waits waits).trans (brought_replicate count rfl), shown.later, ?_⟩,
    shown⟩
  · rw [after_append, awaited, made]
    exact free
  · rw [after_append, awaited]
  · refine ⟨last.1.calls.map .ok, by rw [after_append, awaited], .inr ?_⟩
    exact ⟨_, rfl, same.trans length, rfl, returned⟩

/-- A command that changes nothing. -/
theorem Carried.idle {w : World} {c : Command} {a : Answer} (free : w.turn = none)
    (brings : broughtBy c = []) (shown : Shown w [] c a) (made : callsMade c = 0)
    (untold : reportsTold a = []) : Carried w c a w.service [] :=
  .moved (after_nil w) free brings.symm shown rfl made untold

theorem perform_check (s : Service) (timeout : Nat) :
    (s.perform (.check timeout)).2 = (s.check timeout).2 := by
  unfold perform
  dsimp only
  split <;> rename_i checked <;> rw [checked]

theorem perform_checkMany (s : Service) (count timeout : Nat) :
    (s.perform (.checkMany count timeout)).2 = (s.checkMany count timeout).2 := by
  unfold perform
  dsimp only
  split <;> rename_i checked <;> rw [checked]

theorem perform_request (s : Service) (r : Probe.Request) :
    (s.perform (.request r)).2 = (s.respond r).2 := by
  unfold perform
  dsimp only
  split <;> rename_i responded <;> rw [responded]

theorem perform_drain (s : Service) (count : Nat) (probes : List Nat) :
    (s.perform (.drain count probes)).2 = (s.drain count probes).2 := by
  unfold perform
  dsimp only
  split <;> rename_i drained <;> rw [drained]

theorem check_led {w : World} (free : w.turn = none) (scheduled : Scheduled none w.service)
    (timeout : Nat) : ∃ ms, Carried w (.check timeout) (w.service.perform (.check timeout)).1
      (w.service.perform (.check timeout)).2 ms := by
  cases hd : deadline? w.service.now timeout with
  | none =>
    have performed : w.service.perform (.check timeout) = (.overflow .deadline, w.service) := by
      unfold perform check
      dsimp only
      rw [hd]
    rw [performed]
    exact ⟨[], .idle free rfl (.nothing rfl rfl nofun) rfl rfl⟩
  | some deadline =>
    obtain ⟨ms, inquiries, waits, led, flags⟩ := asks_led free scheduled 1 hd
    have same : startAggregations deadline 1 w.service =
      ([(w.service.startAggregation deadline).1], (w.service.startAggregation deadline).2) := rfl
    rw [same] at led flags
    dsimp only at led flags
    generalize hlast : await aggregating [(w.service.startAggregation deadline).1]
      (w.service.startAggregation deadline).2 = last at led flags
    have performed : w.service.perform (.check timeout) =
        (.report (last.1.headD (w.service.startAggregation deadline).1).report, last.2) := by
      unfold perform check
      dsimp only
      rw [hd]
      dsimp only
      rw [hlast]
    rw [performed]
    refine ⟨ms, .moved led free waits (.beginning (fun f hf => ?_) rfl nofun) rfl rfl rfl⟩
    rw [List.mem_singleton.mp hf]
    cases has : last.1 with
    | nil => rfl
    | cons a as => exact (flags a (by rw [has]; exact List.mem_cons_self)).symm

theorem checkMany_led {w : World} (free : w.turn = none) (scheduled : Scheduled none w.service)
    (count timeout : Nat) : ∃ ms, Carried w (.checkMany count timeout)
      (w.service.perform (.checkMany count timeout)).1
      (w.service.perform (.checkMany count timeout)).2 ms := by
  cases hd : deadline? w.service.now timeout with
  | none =>
    have performed : w.service.perform (.checkMany count timeout) =
        (.overflow .deadline, w.service) := by
      unfold perform checkMany
      dsimp only
      rw [hd]
    rw [performed]
    exact ⟨[], .idle free rfl (.nothing rfl rfl nofun) rfl rfl⟩
  | some deadline =>
    obtain ⟨ms, inquiries, waits, led, flags⟩ := asks_led free scheduled count hd
    generalize hlast : await aggregating (startAggregations deadline count w.service).1
      (startAggregations deadline count w.service).2 = last at led flags
    have performed : w.service.perform (.checkMany count timeout) =
        (.reports (last.1.map (·.report)), last.2) := by
      unfold perform checkMany
      dsimp only
      rw [hd]
      dsimp only
      rw [hlast]
    rw [performed]
    refine ⟨ms, .moved led free waits (.beginning (fun f hf => ?_) rfl nofun) rfl rfl rfl⟩
    obtain ⟨r, hr, rfl⟩ := List.mem_map.mp hf
    obtain ⟨a, ha, rfl⟩ := List.mem_map.mp hr
    exact (flags a ha).symm

theorem respond_led {w : World} (free : w.turn = none) (scheduled : Scheduled none w.service)
    (r : Probe.Request) : ∃ ms, Carried w (.request r) (w.service.perform (.request r)).1
      (w.service.perform (.request r)).2 ms := by
  have ok : ∀ {x s}, w.service.respond r = (.ok x, s) →
      w.service.perform (.request r) = (.response x, s) := by
    intro x s h
    unfold perform
    dsimp only
    rw [h]
  by_cases live : isLiveness r
  · obtain ⟨withBody, target⟩ := live
    cases hd : deadline? w.service.now w.service.setup.checkTimeout with
    | some deadline =>
      obtain ⟨x, s, ms, responded, carried⟩ := liveness_led free scheduled target hd
      rw [ok responded]
      exact ⟨ms, carried⟩
    | none =>
      have performed : w.service.perform (.request r) = (.overflow .deadline, w.service) := by
        unfold perform respond
        dsimp only
        rw [target]
        dsimp only
        unfold healthz check
        rw [hd]
        rfl
      rw [performed]
      exact ⟨[], .idle free rfl ⟨nofun, nofun, nofun⟩ rfl rfl⟩
  · obtain ⟨x, hx⟩ : ∃ x, (w.service.respond r).1 = .ok x := by
      unfold respond
      split
      · exact ⟨_, rfl⟩
      · exact ⟨_, rfl⟩
      · rename_i b hb
        exact absurd ⟨b, hb⟩ live
      · exact ⟨_, rfl⟩
      · exact ⟨_, rfl⟩
    have responded : w.service.respond r = (.ok x, (w.service.respond r).2) := by rw [← hx]
    rw [ok responded]
    exact ⟨_, request_led free live responded⟩

theorem drain_carried {w : World} (free : w.turn = none) (scheduled : Scheduled none w.service)
    (count : Nat) (probes : List Nat) : ∃ ms, Carried w (.drain count probes)
      (w.service.perform (.drain count probes)).1
      (w.service.perform (.drain count probes)).2 ms := by
  obtain ⟨r, s', h⟩ : ∃ r s', startCalls count w.service = (r, s') := ⟨_, _, rfl⟩
  cases r with
  | ok cs =>
    obtain ⟨d, s, ns, drained, -, carried⟩ := drain_led free scheduled h probes
    have performed : w.service.perform (.drain count probes) =
        (.drained d s.flags s.phase (s.log.drop w.service.log.length), s) := by
      unfold perform
      dsimp only
      rw [drained]
    rw [performed]
    exact ⟨_, (carried _).1⟩
  | error e =>
    have performed : w.service.perform (.drain count probes) = (.overflow e, s') := by
      unfold perform drain
      dsimp only
      rw [h]
    obtain ⟨ns, cs, waits, led⟩ := startCalls_error_led count free h
    rw [performed]
    refine ⟨ns, by rw [led]; exact free, by rw [led], waits, .nothing rfl rfl nofun,
      cs ++ [.error e], by rw [led], .inl ⟨?_, e, rfl⟩⟩
    rintro rfl
    cases h

/-- **Every command is carried out by moves.** -/
theorem step_led {w : World} (free : w.turn = none) (scheduled : Scheduled none w.service)
    (c : Command) :
    ∃ ms, Carried w c (w.service.perform c).1 (w.service.perform c).2 ms := by
  have one : ∀ m, w.after [m] = w.outside m := fun m => by
    rw [after_cons, after_nil, apply_free free]
  cases c with
  | setReady value =>
    refine ⟨_, .moved (one (.act (.setReady value))) free rfl
      (.ending (fun f hf => ?_) rfl nofun) rfl rfl rfl⟩
    rw [List.mem_singleton.mp hf, one]
    rfl
  | setShuttingDown value =>
    refine ⟨_, .moved (one (.act (.setShuttingDown value))) free rfl
      (.ending (fun f hf => ?_) rfl nofun) rfl rfl rfl⟩
    rw [List.mem_singleton.mp hf, one]
    rfl
  | state =>
    refine ⟨[], .idle free rfl (.ending (fun f hf => ?_) rfl nofun) rfl rfl⟩
    rw [List.mem_singleton.mp hf]
    rfl
  | registerChecker c =>
    exact ⟨_, .moved (one (.act (.register c))) free rfl (.nothing rfl rfl nofun) rfl rfl rfl⟩
  | registerBuiltin certificate minConnections =>
    have both : w.after [.act (.register .certificate), .act (.register .connections)] =
        { w with service := (w.service.register .certificate).register .connections } := by
      rw [after_cons, apply_free free]
      exact apply_free (w := w.outside (.act (.register .certificate))) free _
    exact ⟨_, .moved both free rfl (.nothing rfl rfl nofun) rfl rfl rfl⟩
  | names => exact ⟨[], .idle free rfl (.nothing rfl rfl nofun) rfl rfl⟩
  | describe => exact ⟨[], .idle free rfl (.nothing rfl rfl nofun) rfl rfl⟩
  | check timeout => exact check_led free scheduled timeout
  | checkMany count timeout => exact checkMany_led free scheduled count timeout
  | request r => exact respond_led free scheduled r
  | setTime t => exact ⟨_, .moved (one (.setTime t)) free rfl (.nothing rfl rfl nofun) rfl rfl rfl⟩
  | setCertificateExpiry x =>
    exact ⟨_, .moved (one (.setCertificateExpiry x)) free rfl (.nothing rfl rfl nofun) rfl rfl rfl⟩
  | sleep duration =>
    obtain ⟨ns, waits, led⟩ := sleep_led w free duration
    exact ⟨ns, .moved led rfl waits (.nothing rfl rfl nofun) rfl rfl rfl⟩
  | events => exact ⟨_, .moved (one .readEvents) free rfl (.nothing rfl rfl nofun) rfl rfl rfl⟩
  | registerComponent c =>
    exact ⟨_, .moved (one (.addComponent c)) free rfl (.nothing rfl rfl nofun) rfl rfl rfl⟩
  | registerTask t =>
    exact ⟨_, .moved (one (.addTask t)) free rfl (.nothing rfl rfl nofun) rfl rfl rfl⟩
  | isFinished name => exact ⟨[], .idle free rfl (.nothing rfl rfl nofun) rfl rfl⟩
  | stopTask task count giveUp =>
    obtain ⟨ms, stops, waits, led⟩ := stopTask_led free task count giveUp
    exact ⟨ms, .moved led free waits (.nothing rfl rfl nofun) rfl rfl rfl⟩
  | drain count probes => exact drain_carried free scheduled count probes

/-! ## 3. Runs -/

/-- **A run is an order of moves**: one row of moves for each command, with its answer. -/
inductive Driven : World → List Command → List Reply → World → Prop where
  | nil (w : World) : Driven w [] [] w
  | cons {w w' : World} {c : Command} {reply : Reply} {s : Service} {ms : List Move}
      {cs : List Command} {replies : List Reply} (carried : Carried w c reply.answer s ms)
      (rest : Driven (w.after ms) cs replies w') : Driven w (c :: cs) (reply :: replies) w'

theorem run_cons (c : Command) (cs : List Command) (s : Service) :
    run (c :: cs) s = (⟨(s.perform c).1, (s.perform c).2.now - s.now⟩ :: (run cs (s.perform c).2).1,
      (run cs (s.perform c).2).2) := rfl

/-- **Every run is an order of moves.** -/
theorem run_driven (cs : List Command) {w : World} (free : w.turn = none)
    (scheduled : Scheduled none w.service) : ∃ w', Driven w cs (run cs w.service).1 w' ∧
      w'.turn = none ∧ w'.service = (run cs w.service).2 := by
  induction cs generalizing w with
  | nil => exact ⟨w, .nil w, free, rfl⟩
  | cons c cs ih =>
    obtain ⟨ms, carried⟩ := step_led free scheduled c
    have scheduled' : Scheduled none (w.after ms).service := by
      have kept := after_scheduled w ms (by rw [free]; exact scheduled)
      rwa [carried.free] at kept
    obtain ⟨w', rest, free', service⟩ := ih carried.free scheduled'
    rw [carried.service] at rest service
    rw [run_cons]
    exact ⟨w', .cons carried rest, free', service⟩

/-- The moves of a run, what comes in by them, and what its answers show of them. -/
theorem Driven.moves {w w' : World} {cs : List Command} {replies : List Reply}
    (h : Driven w cs replies w') : ∃ ms, w.after ms = w' ∧ brought ms = cs.flatMap broughtBy ∧
      ∀ p ∈ cs.zip replies, Shown w ms p.1 p.2.answer := by
  induction h with
  | nil => exact ⟨[], rfl, rfl, fun p hp => by cases hp⟩
  | @cons w w' c reply s ms cs replies carried rest ih =>
    obtain ⟨ns, led, brings, shown⟩ := ih
    refine ⟨ms ++ ns, by rw [after_append, led], ?_, fun p hp => ?_⟩
    · rw [brought_append, carried.brought, brings, List.flatMap_cons]
    rcases List.mem_cons.mp hp with rfl | hp
    · exact carried.shown.on
    · exact (shown p hp).later

/-- **A run that begins with calls one of which wins** is an order of moves that begins with that
call; by the moves after it comes in what the commands bring, and the answers show only these. -/
theorem run_drain_led {w : World} (free : w.turn = none) (scheduled : Scheduled none w.service)
    (can : CanWithdraw w.service) (count : Nat) (probes : List Nat) (cs : List Command) :
    ∃ ns, ((w.apply .call).after ns).turn = none ∧
      ((w.apply .call).after ns).service = (run (.drain (count + 1) probes :: cs) w.service).2 ∧
      brought ns = cs.flatMap broughtBy ∧
      ∀ p ∈ (Command.drain (count + 1) probes :: cs).zip
          (run (.drain (count + 1) probes :: cs) w.service).1,
        Shown (w.apply .call) ns p.1 p.2.answer := by
  obtain ⟨d, hd⟩ := Option.isSome_iff_exists.mp can.2
  obtain ⟨log, wins⟩ := startCalls_wins count can.1 hd
  obtain ⟨drained, s, ns, h, waits, carried⟩ := drain_led free scheduled wins probes
  have performed : w.service.perform (.drain (count + 1) probes) =
      (.drained drained s.flags s.phase (s.log.drop w.service.log.length), s) := by
    unfold perform
    dsimp only
    rw [h]
  have ran : run (.drain (count + 1) probes :: cs) w.service =
      (⟨.drained drained s.flags s.phase (s.log.drop w.service.log.length),
        s.now - w.service.now⟩ :: (run cs s).1, (run cs s).2) := by
    rw [run_cons, performed]
  obtain ⟨first, shown⟩ := carried (s.log.drop w.service.log.length)
  have whole : w.after (List.replicate (count + 1) .call ++ ns) =
      (w.apply .call).after (List.replicate count .call ++ ns) := rfl
  have begun : w.after (List.replicate (count + 1) .call) =
      (w.apply .call).after (List.replicate count .call) := rfl
  rw [begun] at shown
  have scheduled' : Scheduled none (w.after (List.replicate (count + 1) .call ++ ns)).service := by
    have kept :=
      after_scheduled w (List.replicate (count + 1) .call ++ ns) (by rw [free]; exact scheduled)
    rwa [first.free] at kept
  obtain ⟨w', driven, free', service⟩ := run_driven cs first.free scheduled'
  obtain ⟨ms, led, brings, rest⟩ := driven.moves
  rw [first.service] at service rest
  rw [whole] at led rest
  refine ⟨List.replicate count .call ++ ns ++ ms, ?_, ?_, ?_, fun p hp => ?_⟩
  · rw [after_append, led]
    exact free'
  · rw [after_append, led, service, ran]
  · rw [brought_waiting ((brought_waits waits).trans (brought_replicate count rfl)), brings]
  · rw [ran] at hp
    rcases List.mem_cons.mp hp with rfl | hp
    · exact shown.later.on
    · exact (rest p hp).later

/-- In a run no call to shut down has broken off because its deadline could not be computed. -/
def Unbroken (cs : List Command) (replies : List Reply) : Prop :=
  ∀ p ∈ cs.zip replies, callsMade p.1 ≠ 0 → ∀ e, p.2.answer ≠ .overflow e

/-- **The calls to shut down that a run has made**, if none has broken off: they have all returned,
and their reports are those of the answers. -/
theorem Driven.calls {w w' : World} {cs : List Command} {replies : List Reply}
    (h : Driven w cs replies w')
    (kept : Unbroken cs replies) :
    ∃ ds : List Call, w'.calls = w.calls ++ ds.map .ok ∧ ds.length = (cs.map callsMade).sum ∧
      allReports replies = ds.map (·.report?) ∧
      ∀ d ∈ ds, d.hasReturned = true := by
  induction h with
  | nil => exact ⟨[], (List.append_nil _).symm, rfl, rfl, nofun⟩
  | @cons w w' c reply s ms cs replies carried rest ih =>
    obtain ⟨ds, calls, length, reports, returned⟩ :=
      ih fun p hp => kept p (List.mem_cons_of_mem _ hp)
    obtain ⟨ds₀, calls₀, broken | ⟨ds₁, rfl, length₁, reports₁, returned₁⟩⟩ := carried.calls
    · obtain ⟨made, e, he⟩ := broken
      exact absurd he (kept _ List.mem_cons_self made e)
    · refine ⟨ds₁ ++ ds, ?_, ?_, ?_, fun d hd => ?_⟩
      · rw [calls, calls₀, List.map_append, List.append_assoc]
      · rw [List.length_append, length, length₁, List.map_cons, List.sum_cons]
      · rw [List.map_append, ← reports, ← reports₁]
        rfl
      · exact (List.mem_append.mp hd).elim (returned₁ d) (returned d)

end World

end ServiceHealth
