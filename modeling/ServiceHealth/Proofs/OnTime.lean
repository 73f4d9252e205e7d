import ServiceHealth.Proofs.Driver
import ServiceHealth.Proofs.Outcomes
import ServiceHealth.Proofs.Snapshot

/-!
# A clock that waits for the jobs

Any move may follow any other, so time may pass while a job could go on, or past the end of a sleep.
The clock of a driver does neither: it stands until nobody can go on, and then jumps no further than
to the next moment at which a sleep ends. Moves whose clock does so are on time.

* `OnTime`: moves that are on time. `onTime_of_now`: so are all in which no time passes.
* `Reaches`: a world is reached from another on time.
* `await_reaches`: **whoever waits lets time pass on time**.
* `run_reaches`, `drain_reaches`: every run comes to its end on time, and one that shuts the service
  down does so from the winning call on.
-/

namespace ServiceHealth

namespace Service

/-- Whether time may pass to a moment: nobody can go on, and no sleep ends before. -/
def MayPass (s : Service) (moment : Nat) : Prop :=
  s.queue = [] ∧ ∀ n ∈ s.sleepEnds, moment ≤ n

instance (s : Service) (moment : Nat) : Decidable (s.MayPass moment) :=
  inferInstanceAs (Decidable (_ ∧ _))

theorem MayPass.sleeps {s : Service} {moment : Nat} (h : s.MayPass moment) {i : JobId} {j : Job}
    (hj : s.jobs[i]? = some j) {n : Nat} (hs : j.state = .sleeping n) : moment ≤ n :=
  h.2 n (mem_sleepEnds.mpr ⟨j, List.mem_of_getElem? hj, hs⟩)

/-- The next moment at which something happens may come when nobody can go on. -/
theorem mayPass_next {σ : Type} {W : Waiter σ} {st : σ} {s : Service} (scheduled : Scheduled none s)
    (empty : s.queue = []) {m : Nat} (next : nextMoment? W st s = some m) : s.MayPass m := by
  refine ⟨empty, fun n mem => ?_⟩
  obtain ⟨j, hj, asleep⟩ := mem_sleepEnds.mp mem
  obtain ⟨i, hi⟩ := List.mem_iff_getElem?.mp hj
  obtain ⟨-, -, first, -⟩ := nextMoment?_eq_some next
  exact first n mem (scheduled.asleep i j n hi asleep)

end Service

open Service

namespace World

/-! ## 1. Moves on time -/

/-- Whether a move is on time: if time passes, it may pass so far. -/
def Timely (w : World) (m : Move) : Prop :=
  w.service.now < (w.apply m).service.now → w.service.MayPass (w.apply m).service.now

instance (w : World) (m : Move) : Decidable (w.Timely m) := inferInstanceAs (Decidable (_ → _))

/-- Whether some moves are on time. -/
def OnTime (w : World) : List Move → Prop
  | [] => True
  | m :: ms => w.Timely m ∧ (w.apply m).OnTime ms

instance decidableOnTime (w : World) : (ms : List Move) → Decidable (w.OnTime ms)
  | [] => isTrue trivial
  | m :: ms =>
    have := decidableOnTime (w.apply m) ms
    inferInstanceAs (Decidable (_ ∧ _))

@[simp] theorem onTime_nil (w : World) : w.OnTime [] := trivial

@[simp] theorem onTime_cons (w : World) (m : Move) (ms : List Move) :
    w.OnTime (m :: ms) ↔ w.Timely m ∧ (w.apply m).OnTime ms := Iff.rfl

theorem onTime_append (w : World) (ms ns : List Move) :
    w.OnTime (ms ++ ns) ↔ w.OnTime ms ∧ (w.after ms).OnTime ns := by
  induction ms generalizing w with
  | nil => simp
  | cons m ms ih => simp [ih, and_assoc]

/-- Time does not go back. -/
theorem after_now (w : World) (ms : List Move) : w.service.now ≤ (w.after ms).service.now :=
  after_induction (P := fun w' => w.service.now ≤ w'.service.now)
    (fun w' m le => Nat.le_trans le (apply_now w' m)) w ms (Nat.le_refl _)

/-- **Moves in which no time passes are on time.** -/
theorem onTime_of_now {w : World} {ms : List Move}
    (same : (w.after ms).service.now = w.service.now) : w.OnTime ms := by
  induction ms generalizing w with
  | nil => exact onTime_nil w
  | cons m ms ih =>
    have first := apply_now w m
    have rest := after_now (w.apply m) ms
    rw [after_cons] at same
    exact ⟨fun later => by omega, ih (by omega)⟩

/-- A world is reached from another on time. -/
def Reaches (w w' : World) : Prop := ∃ ms, w.OnTime ms ∧ w.after ms = w'

theorem Reaches.refl (w : World) : Reaches w w := ⟨[], onTime_nil w, rfl⟩

theorem Reaches.trans {w w' w'' : World} (h : Reaches w w') (k : Reaches w' w'') :
    Reaches w w'' := by
  obtain ⟨ms, timely, rfl⟩ := h
  obtain ⟨ns, timely', rfl⟩ := k
  exact ⟨ms ++ ns, (onTime_append w ms ns).mpr ⟨timely, timely'⟩, after_append w ms ns⟩

theorem reaches_of_now {w w' : World} {ms : List Move} (h : w.after ms = w')
    (same : w'.service.now = w.service.now) : Reaches w w' := by
  subst h
  exact ⟨ms, onTime_of_now same, rfl⟩

theorem reaches_of_apply {w w' : World} {m : Move} (h : w.apply m = w')
    (same : w'.service.now = w.service.now) : Reaches w w' := by
  subst h
  exact ⟨[m], onTime_of_now same, rfl⟩

theorem Reaches.scheduled {w w' : World} (h : Reaches w w') (free : w.turn = none)
    (scheduled : Scheduled none w.service) (free' : w'.turn = none) :
    Scheduled none w'.service := by
  obtain ⟨ms, -, rfl⟩ := h
  have kept := after_scheduled w ms (by rw [free]; exact scheduled)
  rwa [free'] at kept

/-! ## 2. Waiting -/

/-- A service is brought about on time in a world that keeps what a waiter has as `R` says. -/
def Brought {σ : Type} (w : World) (R : σ → World → Prop) (st : σ) (s : Service) : Prop :=
  ∃ v, Reaches w v ∧ v.turn = none ∧ v.service = s ∧ R st v

section Waiting

variable {σ : Type} {W : Waiter σ} {w : World} {R : σ → World → Prop}

theorem brought_settle {st : σ} {s : Service} (h : Brought w R st s)
    (keep : ∀ v s, R st v → R st (v.withService s)) : Brought w R st s.settle := by
  obtain ⟨v, reached, free, rfl, here⟩ := h
  obtain ⟨ns, -, settled⟩ := settle_led v free
  exact ⟨_, reached.trans (reaches_of_now settled (settle_now v.service)), rfl, rfl, keep v _ here⟩

theorem brought_advance {st : σ} {s : Service} (h : Brought w R st s) (scheduled : Scheduled none s)
    (empty : s.queue = []) (keep : ∀ v s, R st v → R st (v.withService s)) {m : Nat}
    (next : nextMoment? W st s = some m) : Brought w R st (s.advance m) := by
  obtain ⟨v, reached, free, rfl, here⟩ := h
  have passes : v.after [.advance m] = v.withService (v.service.advance m) := by
    rw [after_cons, after_nil, apply_free free]
    unfold outside
    dsimp only
    rw [if_pos (nextMoment?_eq_some next).1, withService, ← free]
  have timely : v.OnTime [.advance m] := by
    refine ⟨fun _ => ?_, onTime_nil _⟩
    rw [← after_nil (v.apply _), ← after_cons, passes]
    exact mayPass_next scheduled empty next
  exact ⟨_, reached.trans ⟨_, timely, passes⟩, rfl, rfl, keep v _ here⟩

/-- **Whoever waits lets time pass on time**, if looking is moves. -/
theorem await_reaches (calm : W.Calm)
    (poll : ∀ st v, v.turn = none → R st v → ∃ ns, (v.after ns).turn = none ∧
      (v.after ns).service = (W.poll st v.service).2 ∧ R (W.poll st v.service).1 (v.after ns))
    (keep : ∀ st v s, R st v → R st (v.withService s)) (st : σ) (free : w.turn = none)
    (scheduled : Scheduled none w.service) (h : R st w) :
    Brought w R (await W st w.service).1 (await W st w.service).2 := by
  have looked : ∀ st s, Scheduled none s → Brought w R st s →
      Brought w R (W.poll st s).1 (W.poll st s).2 := by
    rintro st _ - ⟨v, reached, free, rfl, here⟩
    obtain ⟨ns, free', service, kept⟩ := poll st v free here
    have still : (v.after ns).service.now = v.service.now := by rw [service, calm.now]
    exact ⟨_, reached.trans (reaches_of_now rfl still), free', service, kept⟩
  exact (await_rule calm looked (fun st s _ q _ => brought_settle q (keep st))
    (fun st s _ scheduled q _ empty next => brought_advance q scheduled empty (keep st) next)
    st w.service scheduled ⟨w, .refl w, free, rfl, h⟩).1

end Waiting

/-! ## 3. What a driver waits for -/

theorem pause_calm : pause.Calm where
  now _ _ := rfl
  queue _ _ := rfl
  naps _ _ := Nat.le_refl _
  scheduled _ _ h := h
  moments _ _ := List.Sublist.refl _

theorem poll_deadline (c : StopCall) (s : Service) : (c.poll s).deadline = c.deadline := by
  unfold StopCall.poll
  repeat' split
  all_goals rfl

theorem stopping_calm : stopping.Calm where
  now _ _ := rfl
  queue _ _ := rfl
  naps _ _ := Nat.le_refl _
  scheduled _ _ h := h
  moments calls s := by
    have same : (calls.map (·.poll s)).filterMap (·.deadline) = calls.filterMap (·.deadline) := by
      rw [List.filterMap_map]
      exact congrArg (List.filterMap · calls) (funext fun c => poll_deadline c s)
    show List.Sublist ((calls.map (·.poll s)).filterMap (·.deadline)) _
    rw [same]
    exact List.Sublist.refl _

/-- Sending probes is moves. -/
theorem probes_led (ls : List Lookout) (w : World) (free : w.turn = none) :
    ∃ ns, w.after ns = { w with service := (pollLookouts ls w.service).2 } := by
  induction ls generalizing w with
  | nil => exact ⟨[], rfl⟩
  | cons l ls ih =>
    have sent : ∃ ns, w.after ns = { w with service := (l.poll w.service).2 } := by
      unfold Lookout.poll
      split
      · exact ⟨[], rfl⟩
      · split
        · refine ⟨[.request readyzRequest], ?_⟩
          rw [after_cons, after_nil, apply_free free]
          unfold outside receive respond
          dsimp only
          rw [readyzRequest_target]
        · exact ⟨[], rfl⟩
    obtain ⟨ns, first⟩ := sent
    obtain ⟨ns', rest⟩ := ih (w.after ns) (by rw [first]; exact free)
    refine ⟨ns ++ ns', ?_⟩
    rw [after_append, rest, first]
    rfl

section Awaiting

variable {w : World} (free : w.turn = none) (scheduled : Scheduled none w.service)

include free scheduled

theorem sleep_reaches (duration : Nat) : ∃ v, Reaches w v ∧ v.turn = none ∧
    v.service = w.service.sleep duration := by
  obtain ⟨v, reached, free', service, -⟩ := await_reaches (R := fun _ _ => True) pause_calm
    (fun _ v free _ => ⟨[], free, rfl, trivial⟩) (fun _ _ _ _ => trivial)
    (wakeTime w.service.now duration, false) free scheduled trivial
  exact ⟨v, reached, free', service⟩

theorem aggregating_reaches {request : Option Probe.Request} {before : List Inquiry}
    {as : List Aggregation} (inquiries : w.inquiries = before ++ as.map (⟨request, ·, false⟩)) :
    ∃ v, Reaches w v ∧ v.turn = none ∧ v.service = (await aggregating as w.service).2 ∧
      v.inquiries = before ++ (await aggregating as w.service).1.map (⟨request, ·, false⟩) := by
  obtain ⟨v, reached, free', service, kept⟩ := await_reaches
    (R := fun as v => v.inquiries = before ++ as.map (⟨request, ·, false⟩)) aggregating_calm
    (fun as v free here => by
      obtain ⟨ns, -, looked⟩ := pollAggregations_led request as before v free here
      exact ⟨ns, by rw [looked]; exact free, by rw [looked]; rfl, by rw [looked]; rfl⟩)
    (fun _ _ _ here => by exact here) as free scheduled inquiries
  exact ⟨v, reached, free', service, kept⟩

theorem stopping_reaches {before calls : List StopCall} (stops : w.stops = before ++ calls) :
    ∃ v, Reaches w v ∧ v.turn = none ∧ v.service = (await stopping calls w.service).2 := by
  obtain ⟨v, reached, free', service, -⟩ := await_reaches
    (R := fun calls v => v.stops = before ++ calls) stopping_calm
    (fun calls v free here => by
      obtain ⟨ns, -, looked⟩ := pollStops_led calls before v free here
      exact ⟨ns, by rw [looked]; exact free, by rw [looked]; rfl, by rw [looked]; rfl⟩)
    (fun _ _ _ here => by exact here) calls free scheduled stops
  exact ⟨v, reached, free', service⟩

theorem draining_reaches {before : List (Except Overflow Call)} {watch : Watch}
    (calls : w.calls = before ++ watch.calls.map .ok) :
    ∃ v, Reaches w v ∧ v.turn = none ∧ v.service = (await draining watch w.service).2 ∧
      v.calls = before ++ (await draining watch w.service).1.calls.map .ok := by
  obtain ⟨v, reached, free', service, kept⟩ := await_reaches
    (R := fun watch v => v.calls = before ++ watch.calls.map .ok) draining_calm
    (fun watch v free here => by
      obtain ⟨ns, -, looked⟩ := pollCalls_led watch.calls before v free here
      obtain ⟨ns', sent⟩ := probes_led watch.lookouts (v.after ns) (by rw [looked]; exact free)
      refine ⟨ns ++ ns', ?_⟩
      rw [after_append, sent, looked]
      exact ⟨free, rfl, rfl⟩)
    (fun _ _ _ here => by exact here) watch free scheduled calls
  exact ⟨v, reached, free', service, kept⟩

end Awaiting

/-! ## 4. Commands -/

theorem startAggregations_now (deadline count : Nat) (s : Service) :
    (startAggregations deadline count s).2.now = s.now := by
  induction count generalizing s with
  | zero => rfl
  | succ count ih => exact (ih _).trans (JobsOnly.startAggregation s deadline).now

theorem startStops_now (task : Nat) (deadline : Option Nat) (count : Nat) (s : Service) :
    (startStops task deadline count s).2.now = s.now := by
  induction count generalizing s with
  | zero => rfl
  | succ count ih => exact (ih _).trans ((JobsOnly.fire s task).trans (.claim _ task)).now

theorem startCall_now (s : Service) : s.startCall.2.now = s.now := by
  rcases startCall_cases s with ⟨-, e⟩ | ⟨-, -, e⟩ | ⟨-, d, -, e⟩
  · rw [e]
    rfl
  · rw [e]
  · obtain ⟨_, _, _, looked⟩ := poll_frame (.collecting (s.opening d)) (s.teardownsStarted d)
    rw [e, looked]
    rfl

theorem startCalls_now (count : Nat) (s : Service) : (startCalls count s).2.now = s.now := by
  induction count generalizing s with
  | zero => rfl
  | succ count ih =>
    have first := startCall_now s
    unfold startCalls
    split
    · rename_i made
      rw [made] at first
      exact first
    · rename_i s₁ made
      rw [made] at first
      have rest := ih s₁
      split <;>
      · rename_i later
        rw [later] at rest
        exact rest.trans first

section Commands

variable {w : World} (free : w.turn = none) (scheduled : Scheduled none w.service)

include free

/-- A single move in which no time passes. -/
theorem outside_reaches {m : Move} (hb : m ≠ .begin)
    (same : (w.outside m).service.now = w.service.now) :
    ∃ v, Reaches w v ∧ v.turn = none ∧ v.service = (w.outside m).service := by
  have moved : w.after [m] = w.outside m := by rw [after_cons, after_nil, apply_free free]
  exact ⟨_, reaches_of_now moved same, outside_turn w m hb free, rfl⟩

include scheduled

theorem asks_reaches (count : Nat) {timeout deadline : Nat}
    (hd : deadline? w.service.now timeout = some deadline) :
    ∃ v, Reaches w v ∧ v.turn = none ∧
      v.service = (await aggregating (startAggregations deadline count w.service).1
        (startAggregations deadline count w.service).2).2 := by
  have asked := startAggregations_led timeout count deadline free hd
  have timely : Reaches w (w.after (List.replicate count (.ask timeout))) :=
    reaches_of_now rfl (by rw [asked]; exact startAggregations_now deadline count w.service)
  have free' : (w.after (List.replicate count (.ask timeout))).turn = none := by
    rw [asked]
    exact free
  obtain ⟨v, reached, still, service, -⟩ :=
    aggregating_reaches free' (timely.scheduled free scheduled free') (by rw [asked])
  rw [asked] at service
  exact ⟨v, timely.trans reached, still, service⟩

theorem stopTask_reaches (task count : Nat) (giveUp : Option Nat) :
    ∃ v, Reaches w v ∧ v.turn = none ∧ v.service = (w.service.stopTask task count giveUp).2 := by
  have made := startStops_led task giveUp count w.service.now free rfl
  have timely : Reaches w (w.after (List.replicate count (.stop task giveUp))) :=
    reaches_of_now rfl (by rw [made]; exact startStops_now task _ count w.service)
  have free' : (w.after (List.replicate count (.stop task giveUp))).turn = none := by
    rw [made]
    exact free
  obtain ⟨v, reached, still, service⟩ :=
    stopping_reaches free' (timely.scheduled free scheduled free') (by rw [made])
  rw [made] at service
  exact ⟨v, timely.trans reached, still, service⟩

theorem liveness_reaches {r : Probe.Request} {withBody : Bool} {deadline : Nat}
    (target : r.target = .route .healthz withBody)
    (hd : deadline? w.service.now w.service.setup.checkTimeout = some deadline) :
    ∃ v, Reaches w v ∧ v.turn = none ∧ v.service = (w.service.respond r).2 := by
  have asked := apply_liveness free target hd
  obtain ⟨a, s₁, started⟩ : ∃ a s₁, w.service.startAggregation deadline = (a, s₁) := ⟨_, _, rfl⟩
  rw [started] at asked
  have started_now := (JobsOnly.startAggregation w.service deadline).now
  rw [started] at started_now
  have timely : Reaches w (w.apply (.request r)) :=
    reaches_of_apply rfl (by rw [asked]; exact started_now)
  have free' : (w.apply (.request r)).turn = none := by
    rw [asked]
    exact free
  have scheduled' := timely.scheduled free scheduled free'
  have inquiries : (w.apply (.request r)).inquiries =
      w.inquiries ++ [a].map (⟨some r, ·, false⟩) := by
    rw [asked]
    rfl
  obtain ⟨v, reached, still, service, kept⟩ := aggregating_reaches free' scheduled' inquiries
  rw [asked] at service kept scheduled'
  dsimp only at service kept scheduled'
  have done := aggregating_done [a] scheduled'
  have flags := aggregating_flags [a] scheduled'
  obtain ⟨as, s₂, ended⟩ : ∃ as s₂, await aggregating [a] s₁ = (as, s₂) := ⟨_, _, rfl⟩
  rw [ended] at service kept done flags
  obtain ⟨a', rfl⟩ : ∃ a', as = [a'] :=
    List.length_eq_one_iff.mp (by simpa using congrArg List.length flags)
  have here : v.inquiries[w.inquiries.length]? = some ⟨some r, a', false⟩ := by
    rw [kept]
    exact getElem?_middle _ _ _
  obtain ⟨answers, -⟩ := answer_liveness still here (done a' List.mem_cons_self)
  refine ⟨_, (timely.trans reached).trans (reaches_of_apply answers rfl), still, ?_⟩
  rw [respond_liveness target hd (by rw [started]; exact ended), service]

theorem request_reaches (r : Probe.Request) :
    ∃ v, Reaches w v ∧ v.turn = none ∧ v.service = (w.service.respond r).2 := by
  by_cases live : isLiveness r
  · obtain ⟨withBody, target⟩ := live
    cases hd : deadline? w.service.now w.service.setup.checkTimeout with
    | some deadline => exact liveness_reaches free scheduled target hd
    | none =>
      refine ⟨w, .refl w, free, ?_⟩
      unfold respond
      rw [target]
      dsimp only
      unfold healthz check
      rw [hd]
  · have received : (w.outside (.request r)).service = (w.service.respond r).2 := by
      unfold outside receive
      dsimp only
      split
      · rename_i b target
        exact absurd ⟨b, target⟩ live
      · rfl
    have same : (w.outside (.request r)).service.now = w.service.now := by
      rcases respond_frame w.service r live with e | e <;> rw [received, e]
    rw [← received]
    exact outside_reaches free nofun same

/-- **A driver that shuts the service down lets time pass on time**, from its calls on. -/
theorem watched_reaches {count : Nat} {cs : List Call} {s' : Service}
    (made : startCalls count w.service = (.ok cs, s')) (probes : List Nat) :
    ∃ v d, ∃ ds : List Call, Reaches (w.after (List.replicate count .call)) v ∧ v.turn = none ∧
      w.service.drain count probes = (.ok d, v.service) ∧ v.calls = w.calls ++ ds.map .ok ∧
      d.reports = ds.map (·.report?) := by
  obtain ⟨called, -⟩ := startCalls_led count free made
  have now := startCalls_now count w.service
  rw [made] at now
  have timely : Reaches w (w.after (List.replicate count .call)) :=
    reaches_of_now rfl (by rw [called]; exact now)
  have free' : (w.after (List.replicate count .call)).turn = none := by
    rw [called]
    exact free
  have calls : (w.after (List.replicate count .call)).calls = w.calls ++
      (Watch.mk cs none (probes.map fun d => ⟨wakeTime w.service.now d, none⟩)).calls.map .ok := by
    rw [called]
  obtain ⟨v, reached, still, service, kept⟩ :=
    draining_reaches free' (timely.scheduled free scheduled free') calls
  rw [called] at service kept
  dsimp only at service kept
  have drained : ∃ d, w.service.drain count probes = (.ok d, v.service) ∧
      d.reports = (await draining ⟨cs, none, probes.map fun d => ⟨wakeTime w.service.now d, none⟩⟩
        s').1.calls.map (·.report?) := by
    unfold drain
    rw [made, service]
    exact ⟨_, rfl, rfl⟩
  obtain ⟨d, drained, reports⟩ := drained
  exact ⟨v, d, _, reached, still, drained, kept, reports⟩

/-- **Every command is carried out on time.** -/
theorem perform_reaches (c : Command) :
    ∃ v, Reaches w v ∧ v.turn = none ∧ v.service = (w.service.perform c).2 := by
  have idle : ∃ v, Reaches w v ∧ v.turn = none ∧ v.service = w.service := ⟨w, .refl w, free, rfl⟩
  cases c with
  | setReady value => exact outside_reaches free (m := .act (.setReady value)) nofun rfl
  | setShuttingDown value =>
    exact outside_reaches free (m := .act (.setShuttingDown value)) nofun rfl
  | registerChecker c => exact outside_reaches free (m := .act (.register c)) nofun rfl
  | registerBuiltin certificate minConnections =>
    have both : w.after [.act (.register .certificate), .act (.register .connections)] =
        { w with service := (w.service.register .certificate).register .connections } := by
      rw [after_cons, apply_free free]
      exact apply_free (w := w.outside (.act (.register .certificate))) free _
    exact ⟨_, reaches_of_now both rfl, free, rfl⟩
  | check timeout =>
    rw [perform_check]
    unfold check
    cases hd : deadline? w.service.now timeout with
    | none => exact idle
    | some deadline => exact asks_reaches free scheduled 1 hd
  | checkMany count timeout =>
    rw [perform_checkMany]
    unfold checkMany
    cases hd : deadline? w.service.now timeout with
    | none => exact idle
    | some deadline => exact asks_reaches free scheduled count hd
  | request r =>
    rw [perform_request]
    exact request_reaches free scheduled r
  | setTime t => exact outside_reaches free (m := .setTime t) nofun rfl
  | setCertificateExpiry x =>
    exact outside_reaches free (m := .setCertificateExpiry x) nofun rfl
  | sleep duration => exact sleep_reaches free scheduled duration
  | events => exact outside_reaches free (m := .readEvents) nofun rfl
  | registerComponent c => exact outside_reaches free (m := .addComponent c) nofun rfl
  | registerTask t => exact outside_reaches free (m := .addTask t) nofun rfl
  | stopTask task count giveUp => exact stopTask_reaches free scheduled task count giveUp
  | drain count probes =>
    rw [perform_drain]
    obtain ⟨r, s', made⟩ : ∃ r s', startCalls count w.service = (r, s') := ⟨_, _, rfl⟩
    have now := startCalls_now count w.service
    rw [made] at now
    cases r with
    | ok cs =>
      obtain ⟨v, d, -, reached, free', drained, -⟩ := watched_reaches free scheduled made probes
      obtain ⟨called, -⟩ := startCalls_led count free made
      have timely : Reaches w (w.after (List.replicate count .call)) :=
        reaches_of_now rfl (by rw [called]; exact now)
      exact ⟨v, timely.trans reached, free', by rw [drained]⟩
    | error e =>
      obtain ⟨ns, cs, -, led⟩ := startCalls_error_led count free made
      refine ⟨_, reaches_of_now led now, free, ?_⟩
      unfold drain
      rw [made]
  | _ => exact idle

/-! ## 5. Runs -/

/-- **Every run comes to its end on time.** -/
theorem run_reaches (cs : List Command) :
    ∃ v, Reaches w v ∧ v.turn = none ∧ v.service = (run cs w.service).2 := by
  induction cs generalizing w with
  | nil => exact ⟨w, .refl w, free, rfl⟩
  | cons c cs ih =>
    obtain ⟨v, reached, free', service⟩ := perform_reaches free scheduled c
    obtain ⟨v', reached', free'', service'⟩ := ih free' (reached.scheduled free scheduled free')
    rw [service] at service'
    exact ⟨v', reached.trans reached', free'', service'⟩

end Commands

/-- A call takes no time. -/
theorem call_now {w : World} (free : w.turn = none) :
    (w.apply .call).service.now = w.service.now := by
  have called : w.apply .call = _ := (apply_free free .call).trans (call_of rfl)
  rw [called]
  exact startCall_now w.service

theorem call_timely {w : World} (free : w.turn = none) : w.Timely .call := fun later =>
  absurd later (Nat.not_lt.mpr (Nat.le_of_eq (call_now free)))

/-- **Calls made at once to a service that can be shut down**: the first gets its report, which is
the first in the answer, and from that call on the driver lets time pass on time. -/
theorem drain_reaches {w : World} (free : w.turn = none) (poised : Poised w.service)
    (can : CanWithdraw w.service) (count : Nat) (probes : List Nat) :
    ∃ v d r, Reaches (w.apply .call) v ∧ v.turn = none ∧
      w.service.drain (count + 1) probes = (.ok d, v.service) ∧ d.reports.head? = some (some r) ∧
      v.calls[w.calls.length]? = some (.ok (.finished r)) := by
  obtain ⟨deadline, hd⟩ := Option.isSome_iff_exists.mp can.2
  obtain ⟨log, made⟩ := startCalls_wins count can.1 hd
  obtain ⟨v, d, ds, reached, free', drained, calls, reports⟩ :=
    watched_reaches free poised.scheduled made probes
  obtain ⟨d', drained', first⟩ := drain_reports poised can.1 hd count probes
  have same : d = d' := by
    rw [drained] at drained'
    exact Except.ok.inj drained'
  rw [← same, reports] at first
  obtain ⟨c, rest, rfl⟩ : ∃ c rest, ds = c :: rest := by
    cases ds with
    | nil => cases first
    | cons c rest => exact ⟨c, rest, rfl⟩
  have reported := (List.cons.inj first).1
  obtain ⟨r, rfl⟩ : ∃ r, c = .finished r := by
    cases c with
    | finished r => exact ⟨r, rfl⟩
    | _ => cases reported
  have begun : (w.apply .call).after (List.replicate count .call) =
      w.after (List.replicate (count + 1) .call) := rfl
  obtain ⟨called, -⟩ := startCalls_led (count + 1) free made
  have now := startCalls_now (count + 1) w.service
  rw [made] at now
  have timely : Reaches (w.apply .call) (w.after (List.replicate (count + 1) .call)) :=
    reaches_of_now begun (by rw [called]; exact now.trans (call_now free).symm)
  exact ⟨v, d, r, timely.trans reached, free', drained, by rw [reports]; rfl,
    by rw [calls]; exact getElem?_middle _ _ _⟩

end World

end ServiceHealth
