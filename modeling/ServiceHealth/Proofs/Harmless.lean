import ServiceHealth.Proofs.Checking
import ServiceHealth.Proofs.Line

/-!
# What checks leave alone

A job writes the flags or registers a checker only where its script says so, and tells a task to
stop only at its close. Where nobody has such a script, neither those whose jobs are under way nor
the checkers that are registered, jobs may take as many turns and as much time as they like: the
flags, the checkers, the tasks and the shutdown stay what they are.

* `Unmoved`: what two states of a service have in common if only jobs have gone on in between.
* `Harmless`: nobody has anything to do to the service. `step_harmless`, `begin_harmless`: a turn
  keeps it so and moves nothing.
* `await_keeps`: what looks, turns and moments keep, waiting keeps.
* `check_harmless`, `checkMany_harmless`: **where nobody has anything to do to the service, a check
  moves nothing**.
-/

namespace ServiceHealth

namespace Service

/-! ## 1. The frame -/

/-- Whoever is registered is one of all checkers. -/
theorem registered?_mem {s : Service} {name : String} {c : Health.Checker}
    (h : s.registered? name = some c) : ∃ e ∈ s.checkers, e.checker = c := by
  obtain ⟨e, he, rfl⟩ := Option.map_eq_some_iff.mp h
  obtain ⟨n, -, he⟩ := Option.bind_eq_some_iff.mp he
  exact ⟨e, List.mem_of_getElem? he, rfl⟩

/-- The second state differs from the first at most in the time, in its jobs and their queue, in
the events, in the runs of the checkers and in the metrics. -/
structure Unmoved (s s' : Service) : Prop where
  setup : s'.setup = s.setup
  clock : s'.clock = s.clock
  flags : s'.flags = s.flags
  roster : s'.roster = s.roster
  checkers : s'.checkers.map (·.checker) = s.checkers.map (·.checker)
  members : s'.members = s.members
  phase : s'.phase = s.phase
  tasks : s'.tasks = s.tasks
  reported : s'.reported = s.reported
  log : s'.log = s.log

namespace Unmoved

variable {s s' s'' : Service}

/-- Replacing what the frame does not look at stays inside it. -/
theorem replaced (s : Service) (now : Nat) (jobs : List Job) (queue : List JobId)
    (events : List Event) (metrics : Metrics) :
    Unmoved s { s with now, jobs, queue, events, metrics } :=
  ⟨rfl, rfl, rfl, rfl, rfl, rfl, rfl, rfl, rfl, rfl⟩

protected theorem refl (s : Service) : Unmoved s s := .replaced s _ _ _ _ _

protected theorem trans (h : Unmoved s s') (k : Unmoved s' s'') : Unmoved s s'' where
  setup := k.setup.trans h.setup
  clock := k.clock.trans h.clock
  flags := k.flags.trans h.flags
  roster := k.roster.trans h.roster
  checkers := k.checkers.trans h.checkers
  members := k.members.trans h.members
  phase := k.phase.trans h.phase
  tasks := k.tasks.trans h.tasks
  reported := k.reported.trans h.reported
  log := k.log.trans h.log

theorem of_jobsOnly (h : JobsOnly s s') (tasks : s'.tasks = s.tasks) : Unmoved s s' :=
  ⟨h.setup, h.clock, h.flags, h.roster, congrArg _ h.checkers, h.members, h.phase, tasks,
    h.reported, h.log⟩

/-- Under every name the same checker is registered. -/
theorem registered (h : Unmoved s s') (name : String) :
    s'.registered? name = s.registered? name := by
  have through : ∀ s : Service, s.registered? name =
      (s.roster.get? name).bind fun n => (s.checkers.map (·.checker))[n]? := by
    intro s
    unfold registered? enrolled?
    cases s.roster.get? name with
    | none => rfl
    | some n => exact (List.getElem?_map ..).symm
  rw [through, through, h.roster, h.checkers]

end Unmoved

/-! ## 2. Jobs that do nothing to the service -/

/-- As long as a job can go on, it has no action to do and no task to stop. -/
def Job.Harmless (j : Job) : Prop :=
  j.state.isOver = false →
    (∀ a, Step.perform a ∉ j.todo) ∧ ∀ task, j.close ≠ .stopTask task

theorem Job.Harmless.woken {j : Job} (h : j.Harmless) {p : JobState → Bool}
    (held : ∀ state, p state = true → state.isBlocked = true) : (j.woken p).Harmless := by
  cases wakes : p j.state with
  | false =>
    rw [Job.woken_eq_self wakes]
    exact h
  | true =>
    have going : j.state.isOver = false := by
      have blocked := held _ wakes
      cases hs : j.state <;> rw [hs] at blocked <;> first | rfl | cases blocked
    intro _
    rw [Job.woken_todo, Job.woken_close]
    exact h going

/-- The run of a checker that takes no action. -/
theorem ofRun_harmless (number : Nat) {c : Health.Checker} (passive : c.actions = [])
    (deadline : Nat) : (Job.ofRun number c deadline).Harmless := by
  intro _
  refine ⟨fun a mem => ?_, nofun⟩
  rcases List.mem_cons.mp mem with e | mem
  · cases e
  · rw [passive] at mem
    rcases List.mem_append.mp mem with sleep | act
    · obtain ⟨d, -, e⟩ := Option.map_eq_some_iff.mp (Option.mem_toList.mp sleep)
      cases e
    · cases act

/-- **Nobody has anything to do to the service**: no job that is under way, nor whoever has its
turn, nor a checker that is registered. -/
structure Harmless (turn : Option Turn) (s : Service) : Prop where
  jobs : ∀ j ∈ s.jobs, j.Harmless
  turn : ∀ t, turn = some t →
    (∀ a, Step.perform a ∉ t.todo) ∧ ∀ task, t.close ≠ .stopTask task
  checkers : ∀ name c, s.registered? name = some c → c.actions = []

section Turns

variable {s s' : Service} {t : Turn}

/-- Where nothing has moved, the same checkers take no action. -/
theorem Harmless.passive {turn : Option Turn} (h : Harmless turn s) (unmoved : Unmoved s s') :
    ∀ name c, s'.registered? name = some c → c.actions = [] := by
  intro name c hc
  rw [unmoved.registered] at hc
  exact h.checkers name c hc

theorem harmless_updateJob (h : ∀ j ∈ s.jobs, j.Harmless) (job : JobId) {f : Job → Job}
    (keeps : ∀ j : Job, j.Harmless → (f j).Harmless) :
    ∀ j ∈ (s.updateJob job f).jobs, j.Harmless := by
  intro j hj
  obtain ⟨i, hi⟩ := List.getElem?_of_mem hj
  rw [updateJob_getElem?] at hi
  obtain ⟨j', hj', rfl⟩ := Option.map_eq_some_iff.mp hi
  split
  · exact keeps j' (h j' (List.mem_of_getElem? hj'))
  · exact h j' (List.mem_of_getElem? hj')

theorem harmless_wake (h : ∀ j ∈ s.jobs, j.Harmless) {p : JobState → Bool}
    (held : ∀ state, p state = true → state.isBlocked = true) :
    ∀ j ∈ (s.wake p).jobs, j.Harmless := by
  intro j hj
  obtain ⟨j', hj', rfl⟩ := List.mem_map.mp hj
  exact (h j' hj').woken held

/-- A job that was brought to its close, or waits there for another one, is harmless. -/
theorem closed_harmless {job : JobId} {close : Close} (h : ∀ j ∈ s.jobs, j.Harmless)
    (other : ∀ task, close ≠ .stopTask task) (c : Closed s job close s') :
    (∀ j ∈ s'.jobs, j.Harmless) ∧ Unmoved s s' := by
  -- only the close that stops a task tells it so
  have readied : ∀ {s₁}, Readied s close s₁ → s₁.jobs = s.jobs ∧ s₁.tasks = s.tasks := by
    intro s₁ r
    cases r with
    | same => exact ⟨rfl, rfl⟩
    | noted => exact ⟨rfl, rfl⟩
    | told task => exact absurd rfl (other task)
  have frame := c.jobsOnly
  cases c with
  | @concluded s₁ r result =>
    obtain ⟨jobs, tasks⟩ := readied r
    refine ⟨?_, .of_jobsOnly frame tasks⟩
    refine harmless_wake (harmless_updateJob (by rw [jobs]; exact h) _ fun j _ => ?_)
      (joins_isBlocked job)
    intro going
    cases going
  | hung close' same =>
    subst same
    exact ⟨harmless_updateJob h _ fun j _ _ => ⟨fun _ => List.not_mem_nil, other⟩,
      .of_jobsOnly frame rfl⟩
  | joining r awaited =>
    obtain ⟨jobs, tasks⟩ := readied r
    exact ⟨harmless_updateJob (by rw [jobs]; exact h) _ fun j _ _ =>
      ⟨fun _ => List.not_mem_nil, nofun⟩, .of_jobsOnly frame tasks⟩

/-- What a step leaves that is no action and does not hold its job up. -/
theorem act_unmoved (s : Service) (job : JobId) (who : String) {x : Step}
    (passive : ∀ a, x ≠ .perform a) : Unmoved s (s.act job who x) := by
  cases x with
  | begin n =>
    have runs : ∀ es : List Enrolled,
        (es.modify n fun e => { e with runs := e.runs ++ [job] }).map (·.checker) =
          es.map (·.checker) := by
      intro es
      refine List.ext_getElem? fun k => ?_
      simp only [List.getElem?_map, List.getElem?_modify]
      cases es[k]? with
      | none => rfl
      | some e => by_cases h : n = k <;> simp [h]
    unfold act beginRun
    dsimp only
    split
    · split <;> exact ⟨rfl, rfl, rfl, rfl, runs _, rfl, rfl, rfl, rfl, rfl⟩
    · exact ⟨rfl, rfl, rfl, rfl, runs _, rfl, rfl, rfl, rfl, rfl⟩
  | perform a => exact absurd rfl (passive a)
  | _ => exact .replaced s _ _ _ _ _

/-- **A step of a turn moves nothing** where nobody has anything to do to the service. -/
theorem step_harmless (h : Harmless (some t) s) :
    Harmless (t.step s).1 (t.step s).2 ∧ Unmoved s (t.step s).2 := by
  obtain ⟨passive, other⟩ := h.turn t rfl
  rcases t.step_cases s with ⟨x, rest, ht, -, e⟩ | ⟨x, rest, state, ht, -, e⟩ | ⟨-, e⟩
  · rw [ht] at passive
    have unmoved := act_unmoved s t.job t.who (x := x) fun a k =>
      passive a (k ▸ List.mem_cons_self)
    rw [e]
    refine ⟨⟨?_, ?_, h.passive unmoved⟩, unmoved⟩
    · rw [(act_frame s t.job t.who x).1]
      exact h.jobs
    · rintro _ ⟨⟩
      exact ⟨fun a mem => passive a (List.mem_cons_of_mem _ mem), other⟩
  · rw [ht] at passive
    rw [e]
    refine ⟨⟨?_, nofun, h.checkers⟩, .of_jobsOnly (.hold s _ _ _ _) rfl⟩
    exact harmless_updateJob h.jobs _ fun j _ _ =>
      ⟨fun a mem => passive a (List.mem_cons_of_mem _ mem), other⟩
  · obtain ⟨jobs, unmoved⟩ := closed_harmless h.jobs other (closed_closeJob s t.job t.close)
    rw [e]
    exact ⟨⟨jobs, nofun, h.passive unmoved⟩, unmoved⟩

/-- Whoever takes its turn has nothing to do to the service either. -/
theorem begin_harmless (h : Harmless none s) :
    Harmless (Turn.begin s).1 (Turn.begin s).2 ∧ Unmoved s (Turn.begin s).2 := by
  have unmoved : Unmoved s (Turn.begin s).2 := .of_jobsOnly (.begin s) (begin_tasks s)
  refine ⟨⟨?_, fun t ht => ?_, h.passive unmoved⟩, unmoved⟩
  · rw [begin_jobs]
    exact h.jobs
  · obtain ⟨j, hj, ready, close, todo⟩ := Turn.begin_eq_some ht
    rw [← close, ← todo]
    exact h.jobs j (List.mem_of_getElem? hj) (by rw [ready]; rfl)

/-- **All turns until the queue is empty move nothing.** -/
theorem settle_harmless (h : Harmless none s) : Harmless none s.settle ∧ Unmoved s s.settle :=
  settleLoop_induction (P := fun turn s' => Harmless turn s' ∧ Unmoved s s')
    (fun _ ⟨k, unmoved⟩ => (begin_harmless k).imp_right unmoved.trans)
    (fun _ _ ⟨k, unmoved⟩ => (step_harmless k).imp_right unmoved.trans) _ s ⟨h, .refl s⟩

theorem advance_harmless (h : Harmless none s) (moment : Nat) :
    Harmless none (s.advance moment) ∧ Unmoved s (s.advance moment) :=
  ⟨⟨harmless_wake (s := { s with now := moment }) h.jobs (sleepsUntil_isBlocked moment), nofun,
    h.checkers⟩, .replaced s _ _ _ _ _⟩

end Turns

/-! ## 3. Waiting -/

/-- **What looks, turns and moments keep, waiting keeps.** -/
theorem await_keeps {σ : Type} {W : Waiter σ} {P : Service → Prop}
    (poll : ∀ st s, P s → P (W.poll st s).2) (settle : ∀ s : Service, P s → P s.settle)
    (advance : ∀ (s : Service) moment, P s → P (s.advance moment)) (st : σ) {s : Service}
    (h : P s) : P (await W st s).2 := by
  unfold await
  generalize s.effort + (W.moments st).length + 1 = fuel
  induction fuel generalizing st s with
  | zero => exact h
  | succ fuel ih =>
    have first := poll st s h
    have second := poll (W.poll st s).1 _ (settle _ first)
    rw [awaitLoop_succ]
    dsimp only
    split
    · exact first
    · split
      · exact second
      · split
        · exact ih _ (advance _ _ second)
        · exact second

section Checks

variable {s : Service}

/-- The runs of the checkers that are registered do nothing to the service. -/
theorem startRuns_harmless (h : Harmless none s) (deadline : Nat) :
    Harmless none (startRuns deadline s.rollCall s).2 ∧
      Unmoved s (startRuns deadline s.rollCall s).2 := by
  rw [startRuns_eq]
  refine ⟨⟨fun j hj => ?_, nofun, h.checkers⟩, .replaced s _ _ _ _ _⟩
  rcases List.mem_append.mp hj with old | new
  · exact h.jobs j old
  · obtain ⟨⟨name, number⟩, mem, rfl⟩ := List.mem_map.mp new
    unfold runJob
    cases he : s.checkers[number]? with
    | none => exact ofRun_harmless number rfl deadline
    | some e =>
      refine ofRun_harmless number (h.checkers name e.checker ?_) deadline
      unfold registered? enrolled?
      rw [Keyed.get?_eq_some.mpr (s.rollCall_perm.mem_iff.mp mem), Option.bind_some, he]
      rfl

theorem pollAggregations_harmless (as : List Aggregation) (h : Harmless none s) :
    Harmless none (pollAggregations as s).2 ∧ Unmoved s (pollAggregations as s).2 := by
  refine pollAggregations_rule (P := fun s' => Harmless none s' ∧ Unmoved s s') ?_ as ⟨h, .refl s⟩
  rintro s' job ⟨k, unmoved⟩
  refine ⟨⟨harmless_updateJob k.jobs job fun j hj => ?_, nofun, k.checkers⟩,
    unmoved.trans (.of_jobsOnly (.abort s' job) rfl)⟩
  split
  · exact hj
  · intro going
    cases going

/-- **Whoever waits for aggregations moves nothing.** -/
theorem aggregating_harmless (as : List Aggregation) (h : Harmless none s) :
    Harmless none (await aggregating as s).2 ∧ Unmoved s (await aggregating as s).2 :=
  await_keeps (P := fun s' => Harmless none s' ∧ Unmoved s s')
    (fun as _ ⟨k, unmoved⟩ => (pollAggregations_harmless as k).imp_right unmoved.trans)
    (fun _ ⟨k, unmoved⟩ => (settle_harmless k).imp_right unmoved.trans)
    (fun _ moment ⟨k, unmoved⟩ => (advance_harmless k moment).imp_right unmoved.trans) as
    ⟨h, .refl s⟩

/-- **A check moves nothing** where nobody has anything to do to the service. -/
theorem check_harmless (h : Harmless none s) (timeout : Nat) :
    Harmless none (s.check timeout).2 ∧ Unmoved s (s.check timeout).2 := by
  unfold check
  split
  · exact ⟨h, .refl s⟩
  · rename_i deadline _
    obtain ⟨started, unmoved⟩ := startRuns_harmless h deadline
    exact (aggregating_harmless [_] started).imp_right unmoved.trans

theorem startAggregations_harmless (h : Harmless none s) (deadline count : Nat) :
    Harmless none (startAggregations deadline count s).2 ∧
      Unmoved s (startAggregations deadline count s).2 := by
  induction count generalizing s with
  | zero => exact ⟨h, .refl s⟩
  | succ count ih =>
    obtain ⟨started, unmoved⟩ := startRuns_harmless h deadline
    exact (ih started).imp_right unmoved.trans

/-- **Nor do several checks at once.** -/
theorem checkMany_harmless (h : Harmless none s) (count timeout : Nat) :
    Harmless none (s.checkMany count timeout).2 ∧ Unmoved s (s.checkMany count timeout).2 := by
  unfold checkMany
  split
  · exact ⟨h, .refl s⟩
  · rename_i deadline _
    obtain ⟨started, unmoved⟩ := startAggregations_harmless h deadline count
    exact (aggregating_harmless _ started).imp_right unmoved.trans

end Checks

end Service

end ServiceHealth
