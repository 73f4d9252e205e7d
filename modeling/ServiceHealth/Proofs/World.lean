import ServiceHealth.Proofs.Call

/-!
# Everything that is under way

A service is shared. Its jobs take their turns; calls to shut down and to stop tasks, aggregations
and requests are under way at the same time; and whoever drives it writes flags and registers
checkers and components in between. A world is a service with all of that, and a move is one thing
that happens to it without interruption. Any move may follow any other outside the turn of a job,
so a list of moves is an order of events without regard to who waits for whom; the order in which
the commands of a driver are carried out is one of them.

* `World.apply`, `World.after`: what moves do, built from the operations of the service.
* `World.happenings`, `World.history`: what is observed of them.
* `apply_cases`: a move is something from outside, a step of the turn, or nothing.
* `outside_rule`: what happens outside a turn keeps whatever its elementary changes keep.
* `observed_of_mem`: which move is observed as what.
* `after_flags`: the flags are what the history has written.
-/

namespace ServiceHealth

open Service

/-! ## 1. Worlds and moves -/

/-- An aggregation that is under way, with the liveness request that it is to answer, if it is for
one, and whether that was answered. -/
structure Inquiry where
  request : Option Probe.Request
  aggregation : Aggregation
  isAnswered : Bool

/-- A service with everything that is under way: the turn of the job that is running, and the
aggregations, the calls to stop a task and the calls to shut down, the first one first. -/
structure World where
  service : Service
  turn : Option Turn
  inquiries : List Inquiry
  stops : List StopCall
  calls : List (Except Overflow Call)

/-- One thing that happens without interruption. From outside, somebody writes a flag, registers
something, sets the time of day or the expiry of the certificate, or asks for the events; a request
comes in, and all but liveness requests are answered at once; somebody asks all checkers, or makes a
call to stop a task or to shut down. What is under way is looked at, and the liveness request of an
aggregation that is over is answered. The next job takes its turn (`begin`), or the job that is
running does its next step (`go`). Time passes. -/
inductive Move where
  | act (a : Health.Action Health.Checker)
  | addComponent (c : Shutdown.Component)
  | addTask (t : Shutdown.Task)
  | setTime (t : Time.Stamp)
  | setCertificateExpiry (x : Decimal.Binary64)
  | readEvents
  | request (r : Probe.Request)
  | ask (timeout : Nat)
  | look (inquiry : Nat)
  | answer (inquiry : Nat)
  | stop (task : Nat) (giveUp : Option Nat)
  | lookStop (stop : Nat)
  | call
  | lookCall (call : Nat)
  | begin
  | go
  | advance (moment : Nat)

/-- What can be observed of a move: a job or someone from outside has written a flag or registered a
checker, a call to shut down has withdrawn readiness, a request was answered, or a teardown has done
its first step, with the flags at that moment. -/
inductive Happening where
  | did (a : Health.Action Health.Checker)
  | withdrew
  | answered (r : Probe.Request) (x : Probe.Response)
  | invoked (job : JobId) (flags : Health.Flags)

/-- Whether somebody has written a flag. -/
def Happening.writes : Happening → Bool
  | .did (.setReady _) => true
  | .did (.setShuttingDown _) => true
  | _ => false

/-- What can be observed of the next step of a turn. -/
def Service.Turn.happenings (t : Turn) (s : Service) : List Happening :=
  match t.todo, t.close with
  | .perform a :: _, _ => [.did a]
  | .noteStop _ :: _, _ => [.invoked t.job s.flags]
  | [], .stopTask _ => [.invoked t.job s.flags]
  | _, _ => []

namespace World

/-- A world in which nothing has happened. -/
def new (setup : Setup) (clock : Time.Stamp) : World := ⟨.new setup clock, none, [], [], []⟩

/-- An aggregation is started, for a request or for somebody else. -/
def inquire (w : World) (request : Option Probe.Request) (timeout : Nat) : World :=
  match deadline? w.service.now timeout with
  | none => w
  | some deadline =>
    let (a, s) := w.service.startAggregation deadline
    { w with service := s, inquiries := w.inquiries ++ [⟨request, a, false⟩] }

/-- A request comes in. -/
def receive (w : World) (r : Probe.Request) : World :=
  match r.target with
  | .route .healthz _ => w.inquire (some r) w.service.setup.checkTimeout
  | _ => { w with service := (w.service.respond r).2 }

/-- An aggregation is looked at. -/
def look (w : World) (i : Nat) : World :=
  match w.inquiries[i]? with
  | some q =>
    let (a, s) := q.aggregation.poll w.service
    { w with service := s, inquiries := w.inquiries.set i { q with aggregation := a } }
  | none => w

/-- The liveness request of an aggregation that is over is answered. -/
def answer (w : World) (i : Nat) : World :=
  match w.inquiries[i]? with
  | some ⟨some r, a, false⟩ =>
    if a.isDone then
      { w with
        service := { w.service with metrics := w.service.metrics.observeReport a.report }
        inquiries := w.inquiries.set i ⟨some r, a, true⟩ }
    else w
  | _ => w

/-- A call to stop a task is made. -/
def stop (w : World) (task : Nat) (giveUp : Option Nat) : World :=
  let (awaited, s) := (w.service.fire task).claim task
  let call := StopCall.poll ⟨awaited, giveUp.map (wakeTime w.service.now), none⟩ s
  { w with service := s, stops := w.stops ++ [call] }

/-- A call to shut down is made. -/
def call (w : World) : World :=
  match w.service.startCall with
  | (.ok c, s) => { w with service := s, calls := w.calls ++ [.ok c] }
  | (.error e, s) => { w with service := s, calls := w.calls ++ [.error e] }

/-- A call to shut down is looked at. -/
def lookCall (w : World) (i : Nat) : World :=
  match w.calls[i]? with
  | some (.ok c) =>
    let (c, s) := c.poll w.service
    { w with service := s, calls := w.calls.set i (.ok c) }
  | _ => w

/-- What a move does that is not part of a turn. -/
def outside (w : World) : Move → World
  | .act a => { w with service := w.service.performAction a }
  | .addComponent c =>
    { w with service := { w.service with members := w.service.members ++ [.component c] } }
  | .addTask t =>
    let (task, s) := w.service.startTask t
    { w with service := { s with members := s.members ++ [.task task] } }
  | .setTime t => { w with service := { w.service with clock := t } }
  | .setCertificateExpiry x =>
    { w with service := { w.service with metrics := w.service.metrics.setCertificateExpiry x } }
  | .readEvents =>
    { w with service := { w.service with reported := w.service.events.length } }
  | .request r => w.receive r
  | .ask timeout => w.inquire none timeout
  | .look i => w.look i
  | .answer i => w.answer i
  | .stop task giveUp => w.stop task giveUp
  | .lookStop i => { w with stops := w.stops.modify i (·.poll w.service) }
  | .call => w.call
  | .lookCall i => w.lookCall i
  | .begin => { w with turn := (Turn.begin w.service).1, service := (Turn.begin w.service).2 }
  | .go => w
  | .advance moment =>
    if w.service.now < moment then { w with service := w.service.advance moment } else w

/-- What a move does. While a job is running nothing but its steps can happen. -/
def apply (w : World) (m : Move) : World :=
  match w.turn with
  | none => w.outside m
  | some t =>
    match m with
    | .go => { w with turn := (t.step w.service).1, service := (t.step w.service).2 }
    | _ => w

/-- What can be observed of a request that comes in: the answer, if it is given at once. -/
def answered (w : World) (r : Probe.Request) : List Happening :=
  match r.target with
  | .route .healthz _ => []
  | _ =>
    match (w.service.respond r).1 with
    | .ok x => [.answered r x]
    | .error _ => []

/-- The answer to a liveness request whose aggregation is over. -/
def livenessAnswer (s : Service) (r : Probe.Request) (a : Aggregation) : Probe.Response :=
  (Probe.liveness a.report s.flags.shuttingDown).sent (r.withBody?.getD true)

/-- What can be observed when the liveness request of an aggregation is answered. -/
def answeredLater (w : World) (i : Nat) : List Happening :=
  match w.inquiries[i]? with
  | some ⟨some r, a, false⟩ =>
    if a.isDone then [.answered r (livenessAnswer w.service r a)] else []
  | _ => []

/-- Whether a call to shut down would win, and its deadline could be computed. -/
def CanWithdraw (s : Service) : Prop :=
  s.phase = .running ∧ (deadline? s.now s.setup.drainTimeout).isSome

instance (s : Service) : Decidable (CanWithdraw s) := inferInstanceAs (Decidable (_ ∧ _))

/-- What can be observed of a move that is not part of a turn. -/
def outsideHappenings (w : World) : Move → List Happening
  | .act a => [.did a]
  | .request r => w.answered r
  | .answer i => w.answeredLater i
  | .call => if CanWithdraw w.service then [.withdrew] else []
  | _ => []

/-- What can be observed of a move. -/
def happenings (w : World) (m : Move) : List Happening :=
  match w.turn with
  | none => w.outsideHappenings m
  | some t =>
    match m with
    | .go => t.happenings w.service
    | _ => []

/-- The world after some moves. -/
def after (w : World) : List Move → World
  | [] => w
  | m :: ms => (w.apply m).after ms

/-- What can be observed of some moves, in order. -/
def history (w : World) : List Move → List Happening
  | [] => []
  | m :: ms => w.happenings m ++ (w.apply m).history ms

@[simp] theorem after_nil (w : World) : w.after [] = w := rfl

@[simp] theorem after_cons (w : World) (m : Move) (ms : List Move) :
    w.after (m :: ms) = (w.apply m).after ms := rfl

@[simp] theorem history_nil (w : World) : w.history [] = [] := rfl

@[simp] theorem history_cons (w : World) (m : Move) (ms : List Move) :
    w.history (m :: ms) = w.happenings m ++ (w.apply m).history ms := rfl

/-- While no job has its turn a move is what it does outside a turn. -/
theorem apply_free {w : World} (free : w.turn = none) (m : Move) : w.apply m = w.outside m := by
  unfold apply
  rw [free]

theorem apply_go {w : World} {t : Turn} (ht : w.turn = some t) : w.apply .go =
    { w with turn := (t.step w.service).1, service := (t.step w.service).2 } := by
  unfold apply
  rw [ht]

/-- In a turn nothing but its steps happens. -/
theorem apply_wait {w : World} {t : Turn} (ht : w.turn = some t) {m : Move} (other : m ≠ .go) :
    w.apply m = w := by
  unfold apply
  rw [ht]
  cases m <;> first | rfl | exact absurd rfl other

/-- **What a move is**: something from outside, a step of the turn, or nothing. -/
theorem apply_cases (w : World) (m : Move) :
    (w.turn = none ∧ w.apply m = w.outside m) ∨
    (∃ t, w.turn = some t ∧ m = .go ∧
      w.apply m = { w with turn := (t.step w.service).1, service := (t.step w.service).2 }) ∨
    ∃ t, w.turn = some t ∧ m ≠ .go ∧ w.apply m = w := by
  cases ht : w.turn with
  | none => exact .inl ⟨rfl, apply_free ht m⟩
  | some t =>
    by_cases go : m = .go
    · subst go
      exact .inr (.inl ⟨t, rfl, rfl, apply_go ht⟩)
    · exact .inr (.inr ⟨t, rfl, go, apply_wait ht go⟩)

theorem after_append (w : World) (ms ns : List Move) :
    w.after (ms ++ ns) = (w.after ms).after ns := by
  induction ms generalizing w with
  | nil => rfl
  | cons m ms ih => exact ih _

theorem history_append (w : World) (ms ns : List Move) :
    w.history (ms ++ ns) = w.history ms ++ (w.after ms).history ns := by
  induction ms generalizing w with
  | nil => rfl
  | cons m ms ih => rw [List.cons_append, history_cons, ih, history_cons, List.append_assoc]; rfl

/-- **What every move keeps holds of every world that moves lead to.** -/
theorem after_induction {P : World → Prop} (apply : ∀ w m, P w → P (w.apply m)) (w : World)
    (ms : List Move) (h : P w) : P (w.after ms) := by
  induction ms generalizing w with
  | nil => exact h
  | cons m ms ih => exact ih _ (apply w m h)

end World

/-! ## 2. The frames of what happens from outside -/

namespace Service.JobsOnly

theorem startTask (s : Service) (t : Shutdown.Task) : JobsOnly s (s.startTask t).2 :=
  .replaced s _ _ _ _

theorem startRuns (deadline : Nat) (xs : List (String × Nat)) (s : Service) :
    JobsOnly s (startRuns deadline xs s).2 := by
  induction xs generalizing s with
  | nil => exact .refl s
  | cons x xs ih => exact (JobsOnly.spawn s _).trans (ih _)

theorem startAggregation (s : Service) (deadline : Nat) :
    JobsOnly s (s.startAggregation deadline).2 := .startRuns deadline _ s

theorem pollEntry (deadline : Nat) (e : Entry) (s : Service) :
    JobsOnly s (e.poll deadline s).2 := by
  unfold Entry.poll
  split
  · exact .refl s
  · split
    · exact .refl s
    · split
      · exact .abort s _
      · exact .refl s

theorem pollEntries (deadline : Nat) (es : List Entry) (s : Service) :
    JobsOnly s (pollEntries deadline es s).2 := by
  induction es generalizing s with
  | nil => exact .refl s
  | cons e es ih => exact (pollEntry deadline e s).trans (ih _)

theorem pollAggregation (a : Aggregation) (s : Service) : JobsOnly s (a.poll s).2 :=
  .pollEntries a.deadline a.entries s

end Service.JobsOnly

namespace World

/-- Whether a request is one for liveness, which is answered later. -/
def isLiveness (r : Probe.Request) : Prop := ∃ withBody, r.target = .route .healthz withBody

/-- **A request other than for liveness changes at most the gauges of the flags.** -/
theorem respond_frame (s : Service) (r : Probe.Request) (h : ¬ isLiveness r) :
    (s.respond r).2 = s ∨
      (s.respond r).2 = { s with metrics := s.metrics.observeFlags s.flags } := by
  unfold respond
  split
  · exact .inl rfl
  · exact .inl rfl
  · rename_i withBody k
    exact absurd ⟨withBody, k⟩ h
  · exact .inr rfl
  · exact .inl rfl

/-- **What becomes of a call to shut down in a world.** -/
theorem call_cases (w : World) :
    (w.service.phase ≠ .running ∧
      w.call = { w with
        service :=
          w.service.logged .debug "Shutdown already triggered, ignoring duplicate trigger" []
        calls := w.calls ++ [.ok .ignored] } ∧
      w.outsideHappenings .call = []) ∨
    (w.service.phase = .running ∧ deadline? w.service.now w.service.setup.drainTimeout = none ∧
      w.call = { w with
        service := { w.service with phase := .draining }
        calls := w.calls ++ [.error .deadline] } ∧
      w.outsideHappenings .call = []) ∨
    (∃ d, w.service.phase = .running ∧
      deadline? w.service.now w.service.setup.drainTimeout = some d ∧
      w.call = { w with
        service := ((Call.collecting (w.service.opening d)).poll (w.service.teardownsStarted d)).2
        calls := w.calls ++
          [.ok ((Call.collecting (w.service.opening d)).poll (w.service.teardownsStarted d)).1] } ∧
      w.outsideHappenings .call = [.withdrew]) := by
  have said : ∀ hs, (if CanWithdraw w.service then [Happening.withdrew] else []) = hs →
      w.outsideHappenings .call = hs := fun hs h => h
  unfold call
  rcases startCall_cases w.service with ⟨late, h⟩ | ⟨running, hd, h⟩ | ⟨running, d, hd, h⟩
  · exact .inl ⟨late, by rw [h], said _ (if_neg fun k => late k.1)⟩
  · refine .inr (.inl ⟨running, hd, by rw [h], said _ (if_neg fun k => ?_)⟩)
    rw [CanWithdraw, hd] at k
    exact absurd k.2 (by decide)
  · exact .inr (.inr ⟨d, running, hd, by rw [h], said _ (if_pos ⟨running, by rw [hd]; rfl⟩)⟩)

/-- Only the beginning of a turn gives a job its turn. -/
theorem outside_turn (w : World) (m : Move) (hm : m ≠ .begin) (h : w.turn = none) :
    (w.outside m).turn = none := by
  have same : ∀ w' : World, w'.turn = w.turn → w'.turn = none := fun w' e => e.trans h
  cases m with
  | begin => exact absurd rfl hm
  | request r =>
    apply same
    unfold outside receive inquire
    dsimp only
    repeat' split
    all_goals rfl
  | ask timeout =>
    apply same
    unfold outside inquire
    dsimp only
    split <;> rfl
  | look i =>
    apply same
    unfold outside look
    dsimp only
    split <;> rfl
  | answer i =>
    apply same
    unfold outside answer
    dsimp only
    repeat' split
    all_goals rfl
  | call =>
    apply same
    rcases call_cases w with ⟨-, e, -⟩ | ⟨-, -, e, -⟩ | ⟨d, -, -, e, -⟩ <;>
    · unfold outside
      rw [e]
  | lookCall i =>
    apply same
    unfold outside lookCall
    dsimp only
    split <;> rfl
  | advance moment =>
    apply same
    unfold outside
    dsimp only
    split <;> rfl
  | _ => exact same _ rfl

/-- The jobs of the runs that somebody waits for. -/
def Inquired (w : World) (job : JobId) : Prop :=
  ∃ q ∈ w.inquiries, ∃ e ∈ q.aggregation.entries, e.job = job

/-- The second state differs from the first neither in its jobs and their queue nor in its tasks,
its members and its clock. -/
structure Quiet (s s' : Service) : Prop where
  jobs : s'.jobs = s.jobs
  queue : s'.queue = s.queue
  tasks : s'.tasks = s.tasks
  members : s'.members = s.members
  now : s'.now = s.now

theorem quiet_poll (c : Call) (s : Service) : Quiet s (c.poll s).2 := by
  obtain ⟨_, _, _, e⟩ := poll_frame c s
  rw [e]
  exact ⟨rfl, rfl, rfl, rfl, rfl⟩

/-- A checker is the one that is registered under some name, with its number. -/
def Listed (s : Service) (number : Nat) (c : Health.Checker) : Prop :=
  (∃ name, (name, number) ∈ s.roster.entries) ∧ ∀ e, s.checkers[number]? = some e → c = e.checker

section OutsideRule

variable {P : Service → Prop}

theorem startRuns_rule {base : Service}
    (spawn : ∀ s number c d, Listed base number c → P s → P (s.spawn (.ofRun number c d)))
    (deadline : Nat) (xs : List (String × Nat)) (listed : ∀ x ∈ xs, x ∈ base.roster.entries)
    {s : Service} (same : s.checkers = base.checkers) (h : P s) :
    P (startRuns deadline xs s).2 := by
  induction xs generalizing s with
  | nil => exact h
  | cons x xs ih =>
    have here : ∃ name, (name, x.2) ∈ base.roster.entries := ⟨x.1, listed x List.mem_cons_self⟩
    unfold startRuns
    refine ih (fun y hy => listed y (List.mem_cons_of_mem _ hy)) same ?_
    split
    · rename_i e he
      refine spawn s _ _ _ ⟨here, fun e' he' => ?_⟩ h
      rw [← same, he] at he'
      cases he'
      rfl
    · rename_i absent
      refine spawn s _ _ _ ⟨here, fun e' he' => ?_⟩ h
      rw [← same, absent] at he'
      cases he'

theorem pollEntries_rule (deadline : Nat) (es : List Entry) {s : Service}
    (abort : ∀ s, ∀ e ∈ es, P s → P (s.abort e.job)) (h : P s) :
    P (pollEntries deadline es s).2 := by
  induction es generalizing s with
  | nil => exact h
  | cons e es ih =>
    refine ih (fun s e' he' => abort s e' (List.mem_cons_of_mem _ he')) ?_
    split
    · exact h
    · split
      · exact h
      · split
        · exact abort s e List.mem_cons_self h
        · exact h

theorem inquire_rule {w : World}
    (spawn : ∀ s number c d, Listed w.service number c → P s → P (s.spawn (.ofRun number c d)))
    (h : P w.service) (request : Option Probe.Request) (timeout : Nat) :
    P (w.inquire request timeout).service := by
  unfold inquire
  split
  · exact h
  · exact startRuns_rule spawn _ _ (fun _ hx => w.service.rollCall_perm.mem_iff.mp hx) rfl h

/-- **What happens outside a turn keeps whatever its elementary changes keep.** -/
theorem outside_rule {w : World} {m : Move} (hm : m ≠ .begin) (h : P w.service)
    (quiet : ∀ s s', Quiet s s' → P s → P s')
    (component : ∀ c, m = .addComponent c →
      P { w.service with members := w.service.members ++ [.component c] })
    (task : ∀ t, m = .addTask t → P { (w.service.startTask t).2 with
      members := w.service.members ++ [.task w.service.tasks.length] })
    (spawn : ∀ s number c d, Listed w.service number c → P s → P (s.spawn (.ofRun number c d)))
    (abort : ∀ s job, Inquired w job → P s → P (s.abort job))
    (told : ∀ k giveUp, m = .stop k giveUp → P ((w.service.fire k).claim k).2)
    (teardowns : m = .call → CanWithdraw w.service → ∀ d, P (w.service.teardownsStarted d))
    (advance : ∀ moment, w.service.now < moment → P (w.service.advance moment)) :
    P (w.outside m).service := by
  have still : ∀ s', Quiet w.service s' → P s' := fun s' q => quiet _ s' q h
  cases m with
  | act a => cases a <;> exact still _ ⟨rfl, rfl, rfl, rfl, rfl⟩
  | addComponent c => exact component c rfl
  | addTask t => exact task t rfl
  | request r =>
    unfold outside receive
    dsimp only
    split
    · exact inquire_rule spawn h _ _
    · rename_i hr
      have other : ¬ isLiveness r := fun ⟨b, hb⟩ => hr b hb
      rcases respond_frame w.service r other with e | e <;> rw [e]
      · exact h
      · exact still _ ⟨rfl, rfl, rfl, rfl, rfl⟩
  | ask timeout => exact inquire_rule spawn h _ _
  | look i =>
    unfold outside look
    dsimp only
    split
    · rename_i q hq
      refine pollEntries_rule _ _ (fun s e he => abort s e.job ?_) h
      exact ⟨q, List.mem_of_getElem? hq, e, he, rfl⟩
    · exact h
  | answer i =>
    unfold outside answer
    dsimp only
    split
    · split
      · exact still _ ⟨rfl, rfl, rfl, rfl, rfl⟩
      · exact h
    · exact h
  | stop k giveUp => exact told k giveUp rfl
  | call =>
    show P w.call.service
    rcases call_cases w with ⟨-, e, -⟩ | ⟨-, -, e, -⟩ | ⟨d, running, hd, e, -⟩
    · rw [e]
      exact still _ ⟨rfl, rfl, rfl, rfl, rfl⟩
    · rw [e]
      exact still _ ⟨rfl, rfl, rfl, rfl, rfl⟩
    · rw [e]
      exact quiet _ _ (quiet_poll _ _) (teardowns rfl ⟨running, by rw [hd]; rfl⟩ d)
  | lookCall i =>
    unfold outside lookCall
    dsimp only
    split
    · exact still _ (quiet_poll _ _)
    · exact h
  | begin => exact absurd rfl hm
  | advance moment =>
    unfold outside
    dsimp only
    split
    · rename_i later
      exact advance moment later
    · exact h
  | _ => exact still _ ⟨rfl, rfl, rfl, rfl, rfl⟩

end OutsideRule

theorem pollEntries_jobs (deadline : Nat) (es : List Entry) (s : Service) :
    (pollEntries deadline es s).1.map (·.job) = es.map (·.job) := by
  induction es generalizing s with
  | nil => rfl
  | cons e es ih =>
    have here : (e.poll deadline s).1.job = e.job := by
      unfold Entry.poll
      repeat' split
      all_goals rfl
    simp only [pollEntries, List.map_cons, ih, here]

/-- An aggregation is started with the flags of that moment, unless its deadline cannot be
computed. -/
theorem inquire_inquiries (w : World) (request : Option Probe.Request) (timeout : Nat) :
    (w.inquire request timeout).inquiries = w.inquiries ∨
      ∃ q, (w.inquire request timeout).inquiries = w.inquiries ++ [q] ∧ q.request = request ∧
        q.aggregation.flags = w.service.flags := by
  unfold inquire
  split
  · exact .inl rfl
  · exact .inr ⟨_, rfl, rfl, rfl⟩

/-- **What becomes of the aggregations outside a turn**: one is started, one goes on, or all stay as
they are. -/
theorem outside_inquiries (w : World) (m : Move) :
    (w.outside m).inquiries = w.inquiries ∨
    (∃ request timeout, w.outside m = w.inquire request timeout ∧
      ∀ r, request = some r → isLiveness r) ∨
    ∃ (i : Nat) (q q' : Inquiry), w.inquiries[i]? = some q ∧
      (w.outside m).inquiries = w.inquiries.set i q' ∧ q'.request = q.request ∧
      q'.aggregation.flags = q.aggregation.flags ∧
      q'.aggregation.entries.map (·.job) = q.aggregation.entries.map (·.job) := by
  cases m with
  | request r =>
    unfold outside receive
    dsimp only
    split
    · rename_i withBody live
      exact .inr (.inl ⟨some r, _, rfl, fun r' e => by cases e; exact ⟨withBody, live⟩⟩)
    · exact .inl rfl
  | ask timeout => exact .inr (.inl ⟨none, timeout, rfl, nofun⟩)
  | look i =>
    unfold outside look
    dsimp only
    split
    · rename_i q hq
      exact .inr (.inr ⟨i, q, _, hq, rfl, rfl, rfl, pollEntries_jobs _ _ _⟩)
    · exact .inl rfl
  | answer i =>
    unfold outside answer
    dsimp only
    split
    · rename_i r a hq
      split
      · exact .inr (.inr ⟨i, _, _, hq, rfl, rfl, rfl, rfl⟩)
      · exact .inl rfl
    · exact .inl rfl
  | call =>
    rcases call_cases w with ⟨-, e, -⟩ | ⟨-, -, e, -⟩ | ⟨d, -, -, e, -⟩ <;>
    · left
      show w.call.inquiries = _
      rw [e]
  | lookCall i =>
    unfold outside lookCall
    dsimp only
    split <;> exact .inl rfl
  | advance moment =>
    unfold outside
    dsimp only
    split <;> exact .inl rfl
  | _ => exact .inl rfl

/-! ## 3. What is observed -/

/-- **What can be observed of which move**, and in which state. -/
inductive Observed (w : World) : Move → Happening → Prop where
  | acted (a : Health.Action Health.Checker) (free : w.turn = none) : Observed w (.act a) (.did a)
  | performed {t : Turn} {a : Health.Action Health.Checker} {rest : List Step}
      (ht : w.turn = some t) (todo : t.todo = .perform a :: rest) : Observed w .go (.did a)
  | withdrew (free : w.turn = none) (can : CanWithdraw w.service) : Observed w .call .withdrew
  | answered {r : Probe.Request} {x : Probe.Response} (free : w.turn = none)
      (other : ¬ isLiveness r) (h : (w.service.respond r).1 = .ok x) :
      Observed w (.request r) (.answered r x)
  | checked {i : Nat} {r : Probe.Request} {a : Aggregation} (free : w.turn = none)
      (h : w.inquiries[i]? = some ⟨some r, a, false⟩) (done : a.isDone = true) :
      Observed w (.answer i) (.answered r (livenessAnswer w.service r a))
  | invoked {t : Turn} (ht : w.turn = some t)
      (starts : (∃ d rest, t.todo = .noteStop d :: rest) ∨
        (t.todo = [] ∧ ∃ k, t.close = .stopTask k)) :
      Observed w .go (.invoked t.job w.service.flags)

theorem observed_outside {w : World} (free : w.turn = none) {m : Move} {h : Happening}
    (mem : h ∈ w.outsideHappenings m) : Observed w m h := by
  cases m with
  | act a =>
    rw [List.mem_singleton.mp mem]
    exact .acted a free
  | request r =>
    unfold outsideHappenings World.answered at mem
    dsimp only at mem
    split at mem
    · cases mem
    · rename_i other
      split at mem
      · rename_i x hx
        rw [List.mem_singleton.mp mem]
        exact .answered free (fun ⟨b, hb⟩ => other b hb) hx
      · cases mem
  | answer i =>
    unfold outsideHappenings answeredLater at mem
    dsimp only at mem
    split at mem
    · rename_i r a hq
      split at mem
      · rename_i done
        rw [List.mem_singleton.mp mem]
        exact .checked free hq done
      · cases mem
    · cases mem
  | call =>
    unfold outsideHappenings at mem
    dsimp only at mem
    split at mem
    · rename_i can
      rw [List.mem_singleton.mp mem]
      exact .withdrew free can
    · cases mem
  | _ => cases mem

theorem observed_step {w : World} {t : Turn} (ht : w.turn = some t) {h : Happening}
    (mem : h ∈ t.happenings w.service) : Observed w .go h := by
  unfold Turn.happenings at mem
  split at mem
  · rename_i todo
    rw [List.mem_singleton.mp mem]
    exact .performed ht todo
  · rename_i todo
    rw [List.mem_singleton.mp mem]
    exact .invoked ht (.inl ⟨_, _, todo⟩)
  · rename_i todo close
    rw [List.mem_singleton.mp mem]
    exact .invoked ht (.inr ⟨todo, _, close⟩)
  · cases mem

/-- **Nothing else is observed.** -/
theorem observed_of_mem {w : World} {m : Move} {h : Happening} (mem : h ∈ w.happenings m) :
    Observed w m h := by
  unfold happenings at mem
  split at mem
  · rename_i free
    exact observed_outside free mem
  · rename_i t ht
    split at mem
    · exact observed_step ht mem
    · cases mem

/-- What is in a history was observed of one of its moves. -/
theorem mem_history {w : World} {ms : List Move} {h : Happening} (mem : h ∈ w.history ms) :
    ∃ before m after, ms = before ++ m :: after ∧ h ∈ (w.after before).happenings m := by
  induction ms generalizing w with
  | nil => cases mem
  | cons m ms ih =>
    rcases List.mem_append.mp mem with here | later
    · exact ⟨[], m, ms, rfl, here⟩
    · obtain ⟨before, m', after, rfl, h⟩ := ih later
      exact ⟨m :: before, m', after, rfl, h⟩

/-! ## 4. The flags are what was written -/

/-- The flags after a happening. -/
def wrote (f : Health.Flags) : Happening → Health.Flags
  | .did (.setReady value) => { f with ready := value }
  | .did (.setShuttingDown value) => { f with shuttingDown := value }
  | .withdrew => ⟨false, true⟩
  | _ => f

theorem performAction_flags (s : Service) (a : Health.Action Health.Checker) :
    (s.performAction a).flags = wrote s.flags (.did a) := by cases a <;> rfl

theorem inquire_flags (w : World) (request : Option Probe.Request) (timeout : Nat) :
    (w.inquire request timeout).service.flags = w.service.flags := by
  unfold inquire
  split
  · rfl
  · exact (JobsOnly.startAggregation _ _).flags

theorem receive_flags (w : World) (r : Probe.Request) :
    (w.receive r).service.flags = (w.answered r).foldl wrote w.service.flags := by
  unfold receive answered
  split
  · exact inquire_flags w _ _
  · rename_i hr
    have other : ¬ isLiveness r := fun ⟨b, hb⟩ => hr b hb
    have flags : (w.service.respond r).2.flags = w.service.flags := by
      rcases respond_frame w.service r other with h | h <;> rw [h]
    split <;> exact flags

theorem look_flags (w : World) (i : Nat) : (w.look i).service.flags = w.service.flags := by
  unfold look
  split
  · exact (JobsOnly.pollAggregation _ _).flags
  · rfl

theorem answer_flags (w : World) (i : Nat) :
    (w.answer i).service.flags = (w.answeredLater i).foldl wrote w.service.flags := by
  unfold answer answeredLater
  split
  · split <;> rfl
  · rfl

theorem poll_flags (c : Call) (s : Service) : (c.poll s).2.flags = s.flags := by
  obtain ⟨_, _, _, h⟩ := poll_frame c s
  rw [h]

theorem call_flags (w : World) :
    w.call.service.flags = (w.outsideHappenings .call).foldl wrote w.service.flags := by
  rcases call_cases w with ⟨-, h, k⟩ | ⟨-, -, h, k⟩ | ⟨d, -, -, h, k⟩
  · rw [h, k]
    rfl
  · rw [h, k]
    rfl
  · rw [h, k]
    exact poll_flags _ _

theorem lookCall_flags (w : World) (i : Nat) :
    (w.lookCall i).service.flags = w.service.flags := by
  unfold lookCall
  split
  · exact poll_flags _ _
  · rfl

/-- A step of a turn writes no flag but by an action. -/
theorem step_flags (t : Turn) (s : Service) :
    (t.step s).2.flags = (t.happenings s).foldl wrote s.flags := by
  rcases t.step_cases s with ⟨x, rest, ht, -, h⟩ | ⟨x, rest, state, ht, hx, h⟩ | ⟨ht, h⟩
  · rw [h]
    unfold Turn.happenings
    rw [ht]
    cases x with
    | begin checker =>
      simp only [act, beginRun]
      split
      · split <;> rfl
      · rfl
    | perform a => exact performAction_flags s a
    | _ => rfl
  · rw [h]
    unfold Turn.happenings
    rw [ht]
    rcases holdUp?_cases hx with ⟨d, rfl, -, -⟩ | ⟨k, rfl, -, -⟩ <;> rfl
  · rw [h, (closed_closeJob s t.job t.close).jobsOnly.flags]
    unfold Turn.happenings
    rw [ht]
    cases t.close <;> rfl

theorem outside_flags (w : World) (m : Move) :
    (w.outside m).service.flags = (w.outsideHappenings m).foldl wrote w.service.flags := by
  cases m with
  | act a => exact performAction_flags w.service a
  | addTask t => exact (JobsOnly.startTask w.service t).flags
  | request r => exact receive_flags w r
  | ask timeout => exact inquire_flags w _ _
  | look i => exact look_flags w i
  | answer i => exact answer_flags w i
  | stop task giveUp => exact ((JobsOnly.fire _ _).trans (.claim _ task)).flags
  | call => exact call_flags w
  | lookCall i => exact lookCall_flags w i
  | begin => exact (JobsOnly.begin w.service).flags
  | advance moment =>
    unfold outside
    dsimp only
    split <;> rfl
  | _ => rfl

theorem apply_flags (w : World) (m : Move) :
    (w.apply m).service.flags = (w.happenings m).foldl wrote w.service.flags := by
  unfold apply happenings
  split
  · exact outside_flags w m
  · split
    · exact step_flags _ _
    · rfl

/-- **The flags are what the history has written.** -/
theorem after_flags (w : World) (ms : List Move) :
    (w.after ms).service.flags = (w.history ms).foldl wrote w.service.flags := by
  induction ms generalizing w with
  | nil => rfl
  | cons m ms ih => rw [after_cons, history_cons, List.foldl_append, ih, apply_flags]

end World

end ServiceHealth
