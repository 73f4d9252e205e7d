import ServiceHealth.Service.Command

/-!
# Turns, step by step

`proceed` carries a turn out at one go. Here a turn is cut into its steps, so that what holds at
every moment of it can be stated: `Turn.begin` takes the next job from the queue, `Turn.step` does
one step of its script, and `proceed`, `resume` and `settleLoop` are these two in a row.

* `proceed_induction`, `settleLoop_induction`: what a step keeps is kept by a turn and by all turns
  until the queue is empty.
* `JobsOnly`: the frame of everything that touches nothing but jobs, queue, tasks and events, and
  which operations stay inside it.
* `Turn.step_cases`: the four things a step of a turn can do.
-/

namespace ServiceHealth.Service

/-! ## 1. Turns -/

/-- The turn of a job, as far as it is not over: the job, the name under which it notes what it
does, how it comes to its close, and the steps it has still to do. -/
structure Turn where
  job : JobId
  who : String
  close : Close
  todo : List Step

namespace Turn

/-- Does the next step of a turn, or brings the job to its close. The turn is over when the job is
held up or closed. -/
def step (t : Turn) (s : Service) : Option Turn × Service :=
  match t.todo with
  | [] => (none, s.closeJob t.job t.close)
  | x :: rest =>
    match s.holdUp? x with
    | some state => (none, s.hold t.job rest t.close state)
    | none => (some { t with todo := rest }, s.act t.job t.who x)

/-- Takes the next job from the queue. It has its turn if it can go on. -/
def begin (s : Service) : Option Turn × Service :=
  match s.queue with
  | [] => (none, s)
  | job :: rest =>
    (match s.jobs[job]? with
      | some j => if j.state = .ready then some ⟨job, j.who, j.close, j.todo⟩ else none
      | none => none,
      { s with queue := rest })

end Turn

/-- Whoever has its turn can go on, and its turn is what it has still to do. -/
theorem Turn.begin_eq_some {s : Service} {t : Turn} (h : (Turn.begin s).1 = some t) :
    ∃ j, s.jobs[t.job]? = some j ∧ j.state = .ready ∧ j.close = t.close ∧ j.todo = t.todo := by
  unfold Turn.begin at h
  split at h
  · cases h
  · dsimp only at h
    split at h
    · rename_i j hj
      split at h
      · rename_i ready
        cases h
        exact ⟨j, hj, ready, rfl, rfl⟩
      · cases h
    · cases h

/-- **What every step of a turn keeps is kept by the turn.** -/
theorem proceed_induction {P : Option Turn → Service → Prop}
    (step : ∀ t s, P (some t) s → P (t.step s).1 (t.step s).2) (job : JobId) (who : String)
    (close : Close) (todo : List Step) (s : Service) (h : P (some ⟨job, who, close, todo⟩) s) :
    P none (proceed job who close todo s) := by
  induction todo generalizing s with
  | nil => exact step _ s h
  | cons x rest ih =>
    have hx := step _ s h
    unfold Turn.step at hx
    cases hold : s.holdUp? x with
    | some state =>
      rw [proceed_cons_hold hold]
      simpa only [hold] using hx
    | none =>
      rw [proceed_cons_act hold]
      exact ih _ (by simpa only [hold] using hx)

/-- The turn of the next job, from its beginning. -/
theorem resume_eq {s : Service} {job : JobId} {rest : List JobId} (hq : s.queue = job :: rest) :
    resume { s with queue := rest } job =
      match (Turn.begin s).1 with
      | some t => proceed t.job t.who t.close t.todo (Turn.begin s).2
      | none => (Turn.begin s).2 := by
  unfold resume Turn.begin
  rw [hq]
  dsimp only
  cases hj : s.jobs[job]? with
  | none => rfl
  | some j => by_cases ready : j.state = .ready <;> simp only [ready, if_true, if_false]

theorem resume_induction {P : Option Turn → Service → Prop}
    (step : ∀ t s, P (some t) s → P (t.step s).1 (t.step s).2) {s : Service} {job : JobId}
    {rest : List JobId} (hq : s.queue = job :: rest)
    (h : P (Turn.begin s).1 (Turn.begin s).2) : P none (resume { s with queue := rest } job) := by
  rw [resume_eq hq]
  cases ht : (Turn.begin s).1 with
  | none =>
    rw [ht] at h
    exact h
  | some t =>
    rw [ht] at h
    exact proceed_induction step _ _ _ _ _ h

/-- **What beginning a turn and every step of a turn keep is kept by all turns together.** -/
theorem settleLoop_induction {P : Option Turn → Service → Prop}
    (begins : ∀ s, P none s → P (Turn.begin s).1 (Turn.begin s).2)
    (step : ∀ t s, P (some t) s → P (t.step s).1 (t.step s).2) (fuel : Nat) (s : Service)
    (h : P none s) : P none (settleLoop fuel s) := by
  induction fuel generalizing s with
  | zero => exact h
  | succ fuel ih =>
    unfold settleLoop
    split
    · exact h
    · rename_i job rest hq
      exact ih _ (resume_induction step hq (begins s h))

/-! ## 2. Jobs after an elementary change -/

theorem result?_eq_some {s : Service} {i : JobId} {r : Result} :
    s.result? i = some r ↔ ∃ j, s.jobs[i]? = some j ∧ j.state = .ended r := by
  unfold result?
  constructor
  · intro h
    split at h
    · rename_i j hj
      split at h
      · rename_i r' hr
        cases h
        exact ⟨j, hj, hr⟩
      · cases h
    · cases h
  · rintro ⟨j, hj, hr⟩
    simp [hj, hr]

/-- A job after the jobs in a state have been woken. -/
def Job.woken (p : JobState → Bool) (j : Job) : Job :=
  if p j.state then { j with state := .ready } else j

@[simp] theorem Job.woken_todo (p : JobState → Bool) (j : Job) : (j.woken p).todo = j.todo := by
  unfold Job.woken
  split <;> rfl

@[simp] theorem Job.woken_close (p : JobState → Bool) (j : Job) : (j.woken p).close = j.close := by
  unfold Job.woken
  split <;> rfl

theorem Job.woken_state (p : JobState → Bool) (j : Job) :
    (j.woken p).state = if p j.state then .ready else j.state := by
  unfold Job.woken
  split <;> rfl

theorem wake_getElem? (s : Service) (p : JobState → Bool) (i : JobId) :
    (s.wake p).jobs[i]? = (s.jobs[i]?).map (Job.woken p) := by
  simp only [wake, List.getElem?_map]
  rfl

theorem updateJob_getElem? (s : Service) (job : JobId) (f : Job → Job) (i : JobId) :
    (s.updateJob job f).jobs[i]? = (s.jobs[i]?).map fun j => if job = i then f j else j := by
  simp only [updateJob, List.getElem?_modify]
  rfl

theorem mem_jobsIn {s : Service} {p : JobState → Bool} {i : JobId} :
    i ∈ s.jobsIn p ↔ ∃ j, s.jobs[i]? = some j ∧ p j.state = true := by
  unfold jobsIn
  rw [List.mem_filter, List.mem_range]
  constructor
  · rintro ⟨_, h⟩
    split at h
    · rename_i j hj
      exact ⟨j, hj, h⟩
    · cases h
  · rintro ⟨j, hj, hp⟩
    obtain ⟨hlt, _⟩ := List.getElem?_eq_some_iff.mp hj
    exact ⟨hlt, by simpa only [hj] using hp⟩

@[simp] theorem jobs_wake_length (s : Service) (p : JobState → Bool) :
    (s.wake p).jobs.length = s.jobs.length := by simp [wake]

@[simp] theorem jobs_updateJob_length (s : Service) (job : JobId) (f : Job → Job) :
    (s.updateJob job f).jobs.length = s.jobs.length := by simp [updateJob]

/-! ## 3. The frame -/

/-- The second state differs from the first at most in its jobs and their queue, in its tasks and
in the events. -/
structure JobsOnly (s s' : Service) : Prop where
  setup : s'.setup = s.setup
  now : s'.now = s.now
  clock : s'.clock = s.clock
  flags : s'.flags = s.flags
  roster : s'.roster = s.roster
  checkers : s'.checkers = s.checkers
  metrics : s'.metrics = s.metrics
  members : s'.members = s.members
  phase : s'.phase = s.phase
  reported : s'.reported = s.reported
  log : s'.log = s.log

namespace JobsOnly

/-- Replacing jobs, queue, tasks and events stays inside the frame. -/
theorem replaced (s : Service) (jobs : List Job) (queue : List JobId) (tasks : List RunningTask)
    (events : List Event) : JobsOnly s { s with jobs, queue, tasks, events } :=
  ⟨rfl, rfl, rfl, rfl, rfl, rfl, rfl, rfl, rfl, rfl, rfl⟩

protected theorem refl (s : Service) : JobsOnly s s := .replaced s _ _ _ _

protected theorem trans {s s' s'' : Service} (h : JobsOnly s s') (k : JobsOnly s' s'') :
    JobsOnly s s'' where
  setup := k.setup.trans h.setup
  now := k.now.trans h.now
  clock := k.clock.trans h.clock
  flags := k.flags.trans h.flags
  roster := k.roster.trans h.roster
  checkers := k.checkers.trans h.checkers
  metrics := k.metrics.trans h.metrics
  members := k.members.trans h.members
  phase := k.phase.trans h.phase
  reported := k.reported.trans h.reported
  log := k.log.trans h.log

theorem note (s : Service) (job : JobId) (who what : String) : JobsOnly s (s.note job who what) :=
  .replaced s _ _ _ _

theorem spawn (s : Service) (j : Job) : JobsOnly s (s.spawn j) := .replaced s _ _ _ _

theorem abort (s : Service) (job : JobId) : JobsOnly s (s.abort job) := .replaced s _ _ _ _

theorem fire (s : Service) (task : Nat) : JobsOnly s (s.fire task) := .replaced s _ _ _ _

theorem claim (s : Service) (task : Nat) : JobsOnly s (s.claim task).2 := by
  unfold Service.claim
  split <;> exact .replaced s _ _ _ _

theorem conclude (s : Service) (job : JobId) (r : Result) : JobsOnly s (s.conclude job r) :=
  .replaced s _ _ _ _

theorem hold (s : Service) (job : JobId) (todo : List Step) (close : Close) (state : JobState) :
    JobsOnly s (s.hold job todo close state) := .replaced s _ _ _ _

theorem begin (s : Service) : JobsOnly s (Turn.begin s).2 := by
  unfold Turn.begin
  split <;> exact .replaced s _ _ _ _

end JobsOnly

/-! ## 4. What a step of a turn can do -/

/-- **The three things a step of a turn can do**: do something and go on, be held up, or come to
the close of its job. -/
theorem Turn.step_cases (t : Turn) (s : Service) :
    (∃ x rest, t.todo = x :: rest ∧ s.holdUp? x = none ∧
      t.step s = (some { t with todo := rest }, s.act t.job t.who x)) ∨
    (∃ x rest state, t.todo = x :: rest ∧ s.holdUp? x = some state ∧
      t.step s = (none, s.hold t.job rest t.close state)) ∨
    (t.todo = [] ∧ t.step s = (none, s.closeJob t.job t.close)) := by
  unfold Turn.step
  cases h : t.todo with
  | nil => exact .inr (.inr ⟨rfl, rfl⟩)
  | cons x rest =>
    cases k : s.holdUp? x with
    | none => exact .inl ⟨x, rest, rfl, k, by simp only [k]⟩
    | some state => exact .inr (.inl ⟨x, rest, state, rfl, k, by simp only [k]⟩)

/-- **Only a sleep and a signal that has not been fired hold a job up.** -/
theorem holdUp?_cases {s : Service} {x : Step} {state : JobState} (h : s.holdUp? x = some state) :
    (∃ d, x = .sleep d ∧ d ≠ 0 ∧ state = .sleeping (wakeTime s.now d)) ∨
    (∃ k, x = .awaitSignal k ∧ s.isFired k = false ∧ state = .awaiting k) := by
  unfold holdUp? at h
  split at h
  · rename_i d
    split at h
    · cases h
    · rename_i hd
      cases h
      exact .inl ⟨d, rfl, hd, rfl⟩
  · rename_i k
    split at h
    · cases h
    · rename_i hk
      cases h
      exact .inr ⟨k, rfl, by simpa using hk, rfl⟩
  · cases h

theorem now_lt_wakeTime {now d : Nat} (h : d ≠ 0) : now < wakeTime now d := by
  unfold wakeTime deadline? farFuture
  split
  · simp only [Option.getD_some]
    omega
  · simp only [Option.getD_none]
    omega

/-- The state in which a job comes to its close: an event may have been noted, or the task it is to
stop has been told so and taken on. -/
inductive Readied (s : Service) : Close → Service → Prop where
  | same (close : Close) : Readied s close s
  | noted (close : Close) (job : JobId) (who what : String) :
      Readied s close (s.note job who what)
  | told (task : Nat) : Readied s (.stopTask task) ((s.fire task).claim task).2

theorem Readied.jobsOnly {s s' : Service} {close : Close} (h : Readied s close s') :
    JobsOnly s s' := by
  cases h with
  | same => exact .refl s
  | noted _ job who what => exact .note s job who what
  | told task => exact (JobsOnly.fire s task).trans (.claim _ task)

/-- The tasks after one was told to stop and taken on. -/
theorem told_tasks (s : Service) (task : Nat) :
    ((s.fire task).claim task).2.tasks =
      s.tasks.modify task fun t => { t with fired := true, claimed := true } := by
  unfold claim
  have fired : (s.fire task).tasks = s.tasks.modify task fun t => { t with fired := true } := rfl
  apply List.ext_getElem?
  intro k
  split
  · simp only [updateTask, fired, List.getElem?_modify]
    cases s.tasks[k]? with
    | none => rfl
    | some t => by_cases e : task = k <;> simp [e]
  · rename_i untold
    simp only [fired, List.getElem?_modify] at untold ⊢
    cases hk : s.tasks[k]? with
    | none => rfl
    | some t =>
      by_cases e : task = k
      · rw [e, hk] at untold
        cases untold
      · simp [e]

/-- **Who gets the body of a task**: the first to take it on. -/
theorem claim_fst (s : Service) (task : Nat) :
    ((s.fire task).claim task).1 =
      (s.tasks[task]?).bind fun t => if t.claimed then none else some t.body := by
  unfold claim
  have fired : (s.fire task).tasks = s.tasks.modify task fun t => { t with fired := true } := rfl
  rw [fired, List.getElem?_modify]
  cases s.tasks[task]? with
  | none => rfl
  | some t => simp

/-- How a job without steps leaves the service: it has given its result, it never goes on, or it
waits for the end of another job. -/
inductive Closed (s : Service) (job : JobId) (close : Close) : Service → Prop where
  | concluded {s' : Service} (h : Readied s close s') (r : Result) :
      Closed s job close (s'.conclude job r)
  | hung (close' : Close) (h : close = close') (k : ∀ task, close' ≠ .stopTask task) :
      Closed s job close (s.hold job [] close' .hung)
  | joining {s' : Service} (h : Readied s close s') (awaited : JobId)
      (k : s'.result? awaited = none)
      (e : close = .join awaited ∨ ∃ task t, close = .stopTask task ∧ s'.tasks[task]? = some t ∧
        t.fired = true ∧ t.body = awaited) :
      Closed s job close (s'.hold job [] (.join awaited) (.joining awaited))

theorem closed_join {s s' : Service} {close : Close} (h : Readied s close s') (job : JobId)
    {awaited : JobId} (e : close = .join awaited ∨ ∃ task t, close = .stopTask task ∧
      s'.tasks[task]? = some t ∧ t.fired = true ∧ t.body = awaited) :
    Closed s job close (s'.closeJoin job awaited) := by
  unfold closeJoin
  split
  · exact .concluded h _
  · rename_i k
    exact .joining h awaited k e

theorem closed_run (s : Service) (job : JobId) (checker deadline : Nat) :
    Closed s job (.verdict checker deadline) (s.closeRun job checker deadline) := by
  unfold closeRun
  split
  · exact .concluded (.same _) _
  · rename_i e _
    have noted : Readied s (.verdict checker deadline)
        (if e.checker.noted then s.note job e.checker.name "check end" else s) := by
      split
      · exact .noted _ _ _ _
      · exact .same _
    simp only
    split
    · exact .concluded noted _
    · exact .concluded noted _
    · exact .concluded (.same _) _
    · exact .hung _ rfl (fun task h => by cases h)

/-- **A job without steps gives its result, hangs, or waits for another job.** -/
theorem closed_closeJob (s : Service) (job : JobId) (close : Close) :
    Closed s job close (s.closeJob job close) := by
  cases close with
  | verdict checker deadline => exact closed_run s job checker deadline
  | ending e =>
    cases e with
    | returns r => exact .concluded (.same _) _
    | panics p => exact .concluded (.same _) _
    | hangs => exact .hung _ rfl (fun task h => by cases h)
  | stopTask task =>
    have told : Readied s (.stopTask task) ((s.fire task).claim task).2 := .told task
    unfold closeJob
    simp only
    split
    · rename_i body s' h
      have gets := claim_fst s task
      have tasks := told_tasks s task
      rw [h] at told gets tasks
      obtain ⟨t, ht, body⟩ := Option.bind_eq_some_iff.mp gets.symm
      refine closed_join told job
        (.inr ⟨task, { t with fired := true, claimed := true }, rfl, ?_, rfl, ?_⟩)
      · rw [tasks, List.getElem?_modify, ht]
        simp
      · split at body
        · cases body
        · exact Option.some.inj body
    · rename_i s' h
      rw [h] at told
      exact .concluded told _
  | join awaited => exact closed_join (.same _) job (.inl rfl)

theorem Closed.jobsOnly {s s' : Service} {job : JobId} {close : Close}
    (h : Closed s job close s') : JobsOnly s s' := by
  cases h with
  | concluded h r => exact h.jobsOnly.trans (.conclude _ job r)
  | hung => exact .hold s job _ _ _
  | joining h => exact h.jobsOnly.trans (.hold _ job _ _ _)

end ServiceHealth.Service
