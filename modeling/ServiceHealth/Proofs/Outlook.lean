import ServiceHealth.Proofs.Draining
import ServiceHealth.Proofs.Tasks

/-!
# What will have ended by the deadline

What a teardown gives, and when, is decided when it is started: its steps take the time they take,
whatever else runs. `foresee` reads off a service what a job will have given before the deadline of
the shutdown. As long as the deadline has not come, neither turns nor moments change it, so in the
end it is what is collected.

* `Job.outlook`: for a job that waits for no other.
* `foresee`: for a teardown, which may wait for the body of a task.
* `step_foreseen`, `advance_foreseen`: it is kept, with the invariant `Foreseen`.
-/

namespace ServiceHealth

/-- What an ending gives to whoever waits for it. -/
def Shutdown.Ending.gives? : Shutdown.Ending → Option Shutdown.Result
  | .returns r => some r
  | .panics p => some (.error (.panicked p.report))
  | .hangs => none

namespace Service

/-! ## 1. Jobs by themselves -/

/-- When steps begun at a moment are done, if no signal is waited for. -/
def finish : List Step → Nat → Nat
  | [], m => m
  | .sleep d :: rest, m => finish rest (if d = 0 then m else wakeTime m d)
  | _ :: rest, m => finish rest m

/-- What a job gives that ends in a way of its own. -/
def Close.gives? : Close → Option Shutdown.Result
  | .ending e => e.gives?
  | _ => none

/-- The moment at which a job goes on, if it can. -/
def JobState.goesOn? (now : Nat) : JobState → Option Nat
  | .ready | .awaiting _ | .joining _ => some now
  | .sleeping m => some m
  | .hung | .ended _ | .aborted => none

/-- What a job that waits for no other will have given before a deadline. -/
def Job.outlook (deadline now : Nat) (j : Job) : Option Shutdown.Result :=
  match j.state with
  | .ended r => some r.asStop
  | state => (state.goesOn? now).bind fun m =>
    if finish j.todo m < deadline then j.close.gives? else none

theorem le_finish (todo : List Step) (m : Nat) : m ≤ finish todo m := by
  induction todo generalizing m with
  | nil => exact Nat.le_refl m
  | cons x rest ih =>
    cases x with
    | sleep d =>
      refine Nat.le_trans ?_ (ih _)
      split
      · exact Nat.le_refl m
      · rename_i hd
        exact Nat.le_of_lt (now_lt_wakeTime hd)
    | _ => exact ih m

/-- A step that does not hold its job up takes no time. -/
theorem finish_act {s : Service} {x : Step} (h : s.holdUp? x = none) (rest : List Step) :
    finish (x :: rest) s.now = finish rest s.now := by
  cases x with
  | sleep d =>
    have zero : d = 0 := Decidable.byContradiction fun hd => by simp [holdUp?, hd] at h
    simp [finish, zero]
  | _ => rfl

theorem Job.outlook_of_going {deadline now m : Nat} {j : Job}
    (h : j.state.goesOn? now = some m) :
    j.outlook deadline now = if finish j.todo m < deadline then j.close.gives? else none := by
  unfold Job.outlook
  cases hs : j.state <;> rw [hs] at h <;> cases h <;> rfl

theorem Job.outlook_ended {deadline now : Nat} {j : Job} {r : Result} (h : j.state = .ended r) :
    j.outlook deadline now = some r.asStop := by
  unfold Job.outlook
  rw [h]

theorem Job.outlook_stuck {deadline now : Nat} {j : Job} (h : j.state.goesOn? now = none)
    (unfinished : ∀ r, j.state ≠ .ended r) : j.outlook deadline now = none := by
  unfold Job.outlook
  cases hs : j.state with
  | ended r => exact absurd hs (unfinished r)
  | hung => rfl
  | aborted => rfl
  | _ =>
    rw [hs] at h
    cases h

theorem JobState.le_goesOn {now m : Nat} {state : JobState} (h : state.goesOn? now = some m)
    (awake : ∀ k, state = .sleeping k → now ≤ k) : now ≤ m := by
  cases hs : state with
  | sleeping k =>
    rw [hs] at h
    cases h
    exact awake _ hs
  | _ =>
    rw [hs] at h
    cases h <;> exact Nat.le_refl now

/-- What has not ended when the deadline has come does not end before it. -/
theorem Job.outlook_late {deadline now : Nat} {j : Job} (late : deadline ≤ now)
    (awake : ∀ m, j.state = .sleeping m → now ≤ m) (unfinished : ∀ r, j.state ≠ .ended r) :
    j.outlook deadline now = none := by
  cases h : j.state.goesOn? now with
  | none => exact Job.outlook_stuck h unfinished
  | some m =>
    have := JobState.le_goesOn h awake
    have := le_finish j.todo m
    rw [Job.outlook_of_going h, if_neg (by omega)]

/-- Whether a job waits for a signal or for another job. -/
def JobState.waits : JobState → Bool
  | .awaiting _ | .joining _ => true
  | _ => false

/-- A job as the turn of another one leaves it: as it was, or no longer waiting. -/
inductive Stirred (j : Job) : Job → Prop where
  | same : Stirred j j
  | woken (h : j.state.waits = true) : Stirred j { j with state := .ready }

theorem Stirred.trans {j j' j'' : Job} (h : Stirred j j') (k : Stirred j' j'') : Stirred j j'' := by
  cases h with
  | same => exact k
  | woken w =>
    cases k with
    | same => exact .woken w
    | woken w' => exact .woken w

theorem stirred_woken {p : JobState → Bool} (hp : ∀ state, p state = true → state.waits = true)
    (j : Job) : Stirred j (j.woken p) := by
  unfold Job.woken
  split
  · rename_i h
    exact .woken (hp _ h)
  · exact .same

theorem Stirred.outlook {j j' : Job} (h : Stirred j j') (deadline now : Nat) :
    j'.outlook deadline now = j.outlook deadline now := by
  cases h with
  | same => rfl
  | woken w =>
    have before : j.state.goesOn? now = some now := by
      cases hs : j.state <;> rw [hs] at w <;> cases w <;> rfl
    rw [Job.outlook_of_going before]
    rfl

theorem Stirred.close {j j' : Job} (h : Stirred j j') : j'.close = j.close := by cases h <;> rfl

theorem Stirred.ended {j j' : Job} (h : Stirred j j') {r : Result} :
    j'.state = .ended r ↔ j.state = .ended r := by
  cases h with
  | same => exact Iff.rfl
  | woken w =>
    constructor
    · nofun
    · intro e
      rw [e] at w
      cases w

/-! ## 2. What a turn does to the other jobs -/

theorem awaits_waits (task : Nat) (state : JobState) (h : JobState.awaits task state = true) :
    state.waits = true := by
  cases state <;> first | rfl | cases h

theorem joins_waits (job : JobId) (state : JobState) (h : JobState.joins job state = true) :
    state.waits = true := by
  cases state <;> first | rfl | cases h

theorem told_stirred (s : Service) (task : Nat) {i : JobId} {j : Job} (hj : s.jobs[i]? = some j) :
    ∃ j', ((s.fire task).claim task).2.jobs[i]? = some j' ∧ Stirred j j' := by
  refine ⟨j.woken (JobState.awaits task), ?_, stirred_woken (awaits_waits task) j⟩
  rw [(claim_frame _ task).1, fire, wake_getElem?]
  show (s.jobs[i]?).map _ = _
  rw [hj]
  rfl

theorem Readied.stirred {s s' : Service} {close : Close} (r : Readied s close s') {i : JobId}
    {j : Job} (hj : s.jobs[i]? = some j) : ∃ j', s'.jobs[i]? = some j' ∧ Stirred j j' := by
  cases r with
  | same => exact ⟨j, hj, .same⟩
  | noted => exact ⟨j, hj, .same⟩
  | told task => exact told_stirred s task hj

theorem conclude_stirred (s : Service) {job : JobId} (r : Result) {i : JobId} {j : Job}
    (hj : s.jobs[i]? = some j) (ne : job ≠ i) :
    ∃ j', (s.conclude job r).jobs[i]? = some j' ∧ Stirred j j' := by
  refine ⟨j.woken (JobState.joins job), ?_, stirred_woken (joins_waits job) j⟩
  rw [conclude_getElem?, hj, Option.map_some, if_neg ne]

theorem hold_stirred (s : Service) {job : JobId} (todo : List Step) (close : Close)
    (state : JobState) {i : JobId} {j : Job} (hj : s.jobs[i]? = some j) (ne : job ≠ i) :
    ∃ j', (s.hold job todo close state).jobs[i]? = some j' ∧ Stirred j j' := by
  refine ⟨j, ?_, .same⟩
  rw [hold_getElem?, hj, Option.map_some, if_neg ne]

theorem closed_stirred {s s' : Service} {job : JobId} {close : Close}
    (c : Closed s job close s') {i : JobId} {j : Job} (hj : s.jobs[i]? = some j) (ne : job ≠ i) :
    ∃ j', s'.jobs[i]? = some j' ∧ Stirred j j' := by
  cases c with
  | concluded r =>
    obtain ⟨j₁, hj₁, st₁⟩ := r.stirred hj
    obtain ⟨j₂, hj₂, st₂⟩ := conclude_stirred _ _ hj₁ ne
    exact ⟨j₂, hj₂, st₁.trans st₂⟩
  | hung close' => exact hold_stirred s _ _ _ hj ne
  | joining r =>
    obtain ⟨j₁, hj₁, st₁⟩ := r.stirred hj
    obtain ⟨j₂, hj₂, st₂⟩ := hold_stirred _ _ _ _ hj₁ ne
    exact ⟨j₂, hj₂, st₁.trans st₂⟩

/-- **The turn of a job leaves every other as it was, or no longer waiting.** -/
theorem step_stirred (t : Turn) (s : Service) {i : JobId} {j : Job} (hj : s.jobs[i]? = some j)
    (ne : t.job ≠ i) : ∃ j', (t.step s).2.jobs[i]? = some j' ∧ Stirred j j' := by
  rcases t.step_cases s with ⟨x, rest, -, -, e⟩ | ⟨x, rest, state, -, -, e⟩ | ⟨-, e⟩
  · rw [e]
    exact ⟨j, by rw [(act_frame s t.job t.who x).1]; exact hj, .same⟩
  · rw [e]
    exact hold_stirred s rest t.close state hj ne
  · rw [e]
    exact closed_stirred (closed_closeJob s t.job t.close) hj ne

theorem Readied.tasks {s s' : Service} {close : Close} (r : Readied s close s') {k : Nat}
    (other : close ≠ .stopTask k) : s'.tasks[k]? = s.tasks[k]? := by
  cases r with
  | same => rfl
  | noted => rfl
  | told task =>
    have ne : task ≠ k := fun e => other (by rw [e])
    rw [told_tasks, List.getElem?_modify]
    cases s.tasks[k]? with
    | none => rfl
    | some t => simp [ne]

theorem Closed.tasks {s s' : Service} {job : JobId} {close : Close} (c : Closed s job close s')
    {k : Nat} (other : close ≠ .stopTask k) : s'.tasks[k]? = s.tasks[k]? := by
  cases c with
  | concluded r => exact r.tasks other
  | hung => rfl
  | joining r => exact r.tasks other

/-- Only the teardown of a task changes it. -/
theorem step_tasks (t : Turn) (s : Service) {k : Nat} (other : t.close ≠ .stopTask k) :
    (t.step s).2.tasks[k]? = s.tasks[k]? := by
  rcases t.step_cases s with ⟨x, rest, -, -, e⟩ | ⟨x, rest, state, -, -, e⟩ | ⟨-, e⟩
  · rw [e]
    exact congrArg (·[k]?) (act_frame s t.job t.who x).2.2.2
  · rw [e]
    rfl
  · rw [e]
    exact (closed_closeJob s t.job t.close).tasks other

/-! ## 3. What a turn does to its own job -/

section Own

variable {t : Turn} {s : Service} {deadline : Nat}

/-- The turn of a job that waits for no other does not change what it will have given. -/
theorem step_own (h : Scheduled (some t) s) (early : s.now < deadline) {j : Job}
    (hj : s.jobs[t.job]? = some j) (timing : finish t.todo s.now = finish j.todo s.now)
    (own : ∃ e, j.close = .ending e) :
    ∃ j', (t.step s).2.jobs[t.job]? = some j' ∧
      j'.outlook deadline s.now = j.outlook deadline s.now := by
  obtain ⟨j₀, hj₀, ready, close, -⟩ := h.seated t rfl
  rw [hj] at hj₀
  cases hj₀
  have before : j.outlook deadline s.now =
      if finish t.todo s.now < deadline then j.close.gives? else none := by
    rw [timing]
    exact Job.outlook_of_going (by rw [ready]; rfl)
  rcases t.step_cases s with ⟨x, rest, -, -, e⟩ | ⟨x, rest, state, ht, hx, e⟩ | ⟨ht, e⟩
  · rw [e]
    exact ⟨j, by rw [(act_frame s t.job t.who x).1]; exact hj, rfl⟩
  · rw [e]
    refine ⟨{ j with todo := rest, close := t.close, state }, ?_, ?_⟩
    · rw [hold_getElem?, hj, Option.map_some, if_pos rfl]
    · rw [before, ht, close]
      rcases holdUp?_cases hx with ⟨d, rfl, hd, rfl⟩ | ⟨k, rfl, -, rfl⟩
      · rw [Job.outlook_of_going (m := wakeTime s.now d) rfl]
        simp only [finish, hd, if_false]
      · rw [Job.outlook_of_going (m := s.now) rfl]
        rfl
  · obtain ⟨ending, hc⟩ := own
    have done : j.outlook deadline s.now = j.close.gives? := by
      rw [before, ht]
      exact if_pos early
    rw [e, done, ← close, hc]
    cases ending with
    | returns r =>
      refine ⟨{ j with todo := [], state := .ended (.stopped r) }, ?_, rfl⟩
      show (s.conclude t.job _).jobs[t.job]? = _
      rw [conclude_getElem?, hj, Option.map_some, if_pos rfl]
    | panics p =>
      refine ⟨{ j with todo := [], state := .ended (.panicked p) }, ?_, rfl⟩
      show (s.conclude t.job _).jobs[t.job]? = _
      rw [conclude_getElem?, hj, Option.map_some, if_pos rfl]
    | hangs =>
      refine ⟨{ j with todo := [], close := .ending .hangs, state := .hung }, ?_, rfl⟩
      show (s.hold t.job [] _ _).jobs[t.job]? = _
      rw [hold_getElem?, hj, Option.map_some, if_pos rfl]

/-- **A step of a turn does not change what a job will have given that waits for no other.** -/
theorem step_outlook (h : Scheduled (some t) s) (early : s.now < deadline)
    (timing : ∀ j, s.jobs[t.job]? = some j → finish t.todo s.now = finish j.todo s.now)
    {i : JobId} {j : Job} (hj : s.jobs[i]? = some j) (own : ∃ e, j.close = .ending e) :
    ∃ j', (t.step s).2.jobs[i]? = some j' ∧
      j'.outlook deadline s.now = j.outlook deadline s.now := by
  by_cases e : t.job = i
  · subst e
    exact step_own h early hj (timing j hj) own
  · obtain ⟨j', hj', st⟩ := step_stirred t s hj e
    exact ⟨j', hj', st.outlook deadline s.now⟩

/-- After a step that does not end the turn, what is left of it takes as long as before. -/
theorem step_timing
    (timing : ∀ j, s.jobs[t.job]? = some j → finish t.todo s.now = finish j.todo s.now)
    {t' : Turn} (ht' : (t.step s).1 = some t') {j : Job}
    (hj : (t.step s).2.jobs[t'.job]? = some j) :
    finish t'.todo (t.step s).2.now = finish j.todo (t.step s).2.now := by
  rcases t.step_cases s with ⟨x, rest, ht, hx, e⟩ | ⟨_, _, _, -, -, e⟩ | ⟨-, e⟩
  · rw [e] at ht' hj ⊢
    cases ht'
    obtain ⟨jobs, -, now, -⟩ := act_frame s t.job t.who x
    rw [jobs] at hj
    rw [now, ← timing j hj, ht]
    exact (finish_act hx rest).symm
  · rw [e] at ht'
    cases ht'
  · rw [e] at ht'
    cases ht'

end Own

theorem closeJoin_cases (s : Service) (job awaited : JobId) :
    (∃ r, s.result? awaited = some r ∧
      s.closeJoin job awaited = s.conclude job (.stopped r.asStop)) ∨
    (s.result? awaited = none ∧
      s.closeJoin job awaited = s.hold job [] (.join awaited) (.joining awaited)) := by
  unfold closeJoin
  cases s.result? awaited with
  | some r => exact .inl ⟨r, rfl, rfl⟩
  | none => exact .inr ⟨rfl, rfl⟩

/-- **What the teardown of a task comes to**: the task was taken on before, or its body is waited
for. -/
theorem closeStop_cases (s : Service) (job : JobId) (task : Nat) :
    ((∀ t, s.tasks[task]? = some t → t.claimed = true) ∧
      s.closeJob job (.stopTask task) =
        ((s.fire task).claim task).2.conclude job (.stopped .ok)) ∨
    (∃ t, s.tasks[task]? = some t ∧ t.claimed = false ∧
      s.closeJob job (.stopTask task) = ((s.fire task).claim task).2.closeJoin job t.body) := by
  have gets := claim_fst s task
  unfold closeJob
  dsimp only
  generalize (s.fire task).claim task = claimed at gets ⊢
  obtain ⟨body, s'⟩ := claimed
  dsimp only at gets
  subst gets
  cases ht : s.tasks[task]? with
  | none => exact .inl ⟨nofun, rfl⟩
  | some t =>
    cases hc : t.claimed with
    | true =>
      refine .inl ⟨fun t' e => by cases e; exact hc, ?_⟩
      simp only [Option.bind_some, hc, if_true]
    | false =>
      refine .inr ⟨t, rfl, hc, ?_⟩
      simp only [Option.bind_some, hc, Bool.false_eq_true, if_false]

/-! ## 4. Teardowns -/

/-- What the job with a number will have given, if it waits for no other. -/
def outlookOf (deadline : Nat) (s : Service) (i : JobId) : Option Shutdown.Result :=
  (s.jobs[i]?).bind (Job.outlook deadline s.now)

/-- What a call to stop a task will have given if it is made now. -/
def stopOutlook (deadline : Nat) (s : Service) (task : Nat) : Option Shutdown.Result :=
  match s.tasks[task]? with
  | some t => if t.claimed then some .ok else s.outlookOf deadline t.body
  | none => some .ok

/-- What a job will have given that may have to stop a task. -/
def Job.foresee (deadline : Nat) (s : Service) (j : Job) : Option Shutdown.Result :=
  match j.state, j.close with
  | .ended r, _ => some r.asStop
  | _, .stopTask k => if s.now < deadline then s.stopOutlook deadline k else none
  | _, .join b => s.outlookOf deadline b
  | _, _ => j.outlook deadline s.now

/-- What the teardown with a number will have given. -/
def foresee (deadline : Nat) (s : Service) (i : JobId) : Option Shutdown.Result :=
  (s.jobs[i]?).bind (Job.foresee deadline s)

/-- What is left to do for a teardown: steps of its own, none of which is to wait for a signal; to
stop a task; or to wait for the body of the task that it has stopped. -/
inductive Plan (j : Job) : Prop where
  | own (close : ∃ e, j.close = .ending e) (todo : ∀ k, .awaitSignal k ∉ j.todo)
    (state : ∀ k, j.state ≠ .awaiting k)
  | stop (k : Nat) (close : j.close = .stopTask k) (todo : j.todo = [])
    (state : j.state = .ready ∨ ∃ r, j.state = .ended r)
  | join (b : JobId) (close : j.close = .join b) (todo : j.todo = [])
    (state : j.state = .ready ∨ j.state = .joining b ∨ ∃ r, j.state = .ended r)

theorem Job.foresee_ended {deadline : Nat} {s : Service} {j : Job} {r : Result}
    (h : j.state = .ended r) : j.foresee deadline s = some r.asStop := by
  unfold Job.foresee
  rw [h]

theorem Job.foresee_own {deadline : Nat} {s : Service} {j : Job} (h : ∃ e, j.close = .ending e) :
    j.foresee deadline s = j.outlook deadline s.now := by
  obtain ⟨e, h⟩ := h
  cases hs : j.state with
  | ended r => rw [Job.foresee_ended hs, Job.outlook_ended hs]
  | _ =>
    unfold Job.foresee
    rw [hs, h]

theorem Job.foresee_stop {deadline : Nat} {s : Service} {j : Job} {k : Nat}
    (h : j.close = .stopTask k) (unfinished : ∀ r, j.state ≠ .ended r) :
    j.foresee deadline s = if s.now < deadline then s.stopOutlook deadline k else none := by
  unfold Job.foresee
  rw [h]
  cases hs : j.state with
  | ended r => exact absurd hs (unfinished r)
  | _ => rfl

theorem Job.foresee_join {deadline : Nat} {s : Service} {j : Job} {b : JobId}
    (h : j.close = .join b) (unfinished : ∀ r, j.state ≠ .ended r) :
    j.foresee deadline s = s.outlookOf deadline b := by
  unfold Job.foresee
  rw [h]
  cases hs : j.state with
  | ended r => exact absurd hs (unfinished r)
  | _ => rfl

theorem foresee_of {deadline : Nat} {s : Service} {i : JobId} {j : Job} (h : s.jobs[i]? = some j) :
    s.foresee deadline i = j.foresee deadline s := by
  unfold foresee
  rw [h]
  rfl

theorem outlookOf_ended {deadline : Nat} {s : Service} {b : JobId} {r : Result}
    (h : s.result? b = some r) : s.outlookOf deadline b = some r.asStop := by
  obtain ⟨j, hj, hs⟩ := result?_eq_some.mp h
  unfold outlookOf
  rw [hj]
  exact Job.outlook_ended hs

theorem foresee_congr {s s' : Service} (jobs : s'.jobs = s.jobs) (now : s'.now = s.now)
    (tasks : s'.tasks = s.tasks) (deadline : Nat) (i : JobId) :
    s'.foresee deadline i = s.foresee deadline i := by
  unfold foresee Job.foresee stopOutlook outlookOf
  rw [jobs, now, tasks]

/-- **The invariant of a service that is shutting down before the deadline.** The teardowns are the
jobs from `lo` on, and what they will have given is what was foreseen. -/
structure Foreseen (deadline : Nat) (X : JobId → Option Shutdown.Result) (lo hi : Nat)
    (turn : Option Turn) (s : Service) : Prop where
  scheduled : Scheduled turn s
  haveBodies : TasksHaveBodies s
  timing : ∀ t, turn = some t → ∀ j, s.jobs[t.job]? = some j →
    finish t.todo s.now = finish j.todo s.now
  plans : ∀ (i : Nat) (j : Job), lo ≤ i → i < hi → s.jobs[i]? = some j → Plan j
  stops : ∀ (i : Nat) (j : Job) (k : Nat), s.jobs[i]? = some j → j.close = .stopTask k →
    (∀ r, j.state ≠ .ended r) → lo ≤ i ∧ i < hi
  alone : ∀ (i i' : Nat) (j j' : Job) (k : Nat), s.jobs[i]? = some j → s.jobs[i']? = some j' →
    j.close = .stopTask k → j'.close = .stopTask k → (∀ r, j.state ≠ .ended r) →
    (∀ r, j'.state ≠ .ended r) → i = i'
  outlook : ∀ i : Nat, lo ≤ i → i < hi → s.foresee deadline i = X i

section Steps

variable {deadline lo hi : Nat} {X : JobId → Option Shutdown.Result} {s : Service} {t : Turn}

theorem Foreseen.congr {turn : Option Turn} {s' : Service} (h : Foreseen deadline X lo hi turn s)
    (jobs : s'.jobs = s.jobs) (queue : s'.queue = s.queue) (now : s'.now = s.now)
    (tasks : s'.tasks = s.tasks) (members : s'.members = s.members) :
    Foreseen deadline X lo hi turn s' where
  scheduled := h.scheduled.congr jobs queue now (isFired_congr tasks)
  haveBodies := h.haveBodies.congr jobs tasks members
  timing := by rw [jobs, now]; exact h.timing
  plans := by rw [jobs]; exact h.plans
  stops := by rw [jobs]; exact h.stops
  alone := by rw [jobs]; exact h.alone
  outlook i le lt := by
    rw [foresee_congr jobs now tasks]
    exact h.outlook i le lt

theorem begin_foreseen (h : Foreseen deadline X lo hi none s) :
    Foreseen deadline X lo hi (Turn.begin s).1 (Turn.begin s).2 := by
  have jobs := begin_jobs s
  have frame := JobsOnly.begin s
  have tasks := begin_tasks s
  have kept : Foreseen deadline X lo hi none { (Turn.begin s).2 with queue := s.queue } :=
    h.congr jobs rfl frame.now tasks frame.members
  refine ⟨begin_scheduled h.scheduled, kept.haveBodies.congr rfl rfl rfl, ?_, kept.plans,
    kept.stops, kept.alone, kept.outlook⟩
  intro t ht j hj
  obtain ⟨j', hj', -, -, todo⟩ := Turn.begin_eq_some ht
  rw [jobs, hj'] at hj
  cases hj
  rw [todo]

theorem Stirred.plan {j j' : Job} (st : Stirred j j') (h : Plan j) : Plan j' := by
  cases st with
  | same => exact h
  | woken w =>
    cases h with
    | own close todo state => exact .own close todo nofun
    | stop k close todo state =>
      rcases state with e | ⟨r, e⟩ <;> rw [e] at w <;> cases w
    | join b close todo state => exact .join b close todo (.inl rfl)

/-- What a job of its own will have given is not changed by a step. -/
theorem step_outlookOf (h : Foreseen deadline X lo hi (some t) s) (early : s.now < deadline)
    {b : JobId} {j : Job} (hj : s.jobs[b]? = some j) (own : ∃ e, j.close = .ending e) :
    (t.step s).2.outlookOf deadline b = s.outlookOf deadline b := by
  obtain ⟨j', hj', same⟩ := step_outlook h.scheduled early (h.timing t rfl) hj own
  unfold outlookOf
  rw [hj, hj', step_now]
  exact same

theorem step_stopOutlook (h : Foreseen deadline X lo hi (some t) s) (early : s.now < deadline)
    {k : Nat} (other : t.close ≠ .stopTask k) :
    (t.step s).2.stopOutlook deadline k = s.stopOutlook deadline k := by
  unfold stopOutlook
  rw [step_tasks t s other]
  cases hk : s.tasks[k]? with
  | none => rfl
  | some x =>
    obtain ⟨j, hj, isBody⟩ := h.haveBodies.bodies k x hk
    dsimp only
    rw [step_outlookOf h early hj isBody.close]

/-- The teardown of a task that has its turn is the only one for this task. -/
theorem Foreseen.other (h : Foreseen deadline X lo hi (some t) s) {i : Nat} {j : Job} {k : Nat}
    (hj : s.jobs[i]? = some j) (close : j.close = .stopTask k)
    (unfinished : ∀ r, j.state ≠ .ended r) (ne : t.job ≠ i) : t.close ≠ .stopTask k := by
  intro e
  obtain ⟨j₀, hj₀, ready, close₀, -⟩ := h.scheduled.seated t rfl
  refine ne (h.alone t.job i j₀ j k hj₀ hj (close₀.trans e) close (fun r => ?_) unfinished)
  rw [ready]
  nofun

/-- A step of another's turn does not change what a teardown will have given. -/
theorem step_foresee_other (h : Foreseen deadline X lo hi (some t) s) (early : s.now < deadline)
    {i : Nat} {j : Job} (hj : s.jobs[i]? = some j) (plan : Plan j) (ne : t.job ≠ i) :
    (t.step s).2.foresee deadline i = s.foresee deadline i := by
  obtain ⟨j', hj', st⟩ := step_stirred t s hj ne
  rw [foresee_of hj, foresee_of hj']
  by_cases ended : ∃ r, j.state = .ended r
  · obtain ⟨r, hr⟩ := ended
    rw [Job.foresee_ended hr, Job.foresee_ended (st.ended.mpr hr)]
  · have unfinished : ∀ r, j.state ≠ .ended r := fun r hr => ended ⟨r, hr⟩
    have unfinished' : ∀ r, j'.state ≠ .ended r := fun r hr => ended ⟨r, st.ended.mp hr⟩
    have close' := st.close
    cases plan with
    | own close =>
      rw [Job.foresee_own close, Job.foresee_own (by rw [close']; exact close), step_now]
      exact st.outlook deadline s.now
    | stop k close =>
      rw [Job.foresee_stop close unfinished, Job.foresee_stop (close'.trans close) unfinished',
        step_now, step_stopOutlook h early (h.other hj close unfinished ne)]
    | join b close =>
      obtain ⟨k, x, hk, rfl, -⟩ := h.haveBodies.joins i j b hj close
      obtain ⟨jb, hjb, isBody⟩ := h.haveBodies.bodies k x hk
      rw [Job.foresee_join close unfinished, Job.foresee_join (close'.trans close) unfinished']
      exact step_outlookOf h early hjb isBody.close

/-- The plan and the outlook of a teardown that comes to its close. -/
theorem closeJoin_foresee (deadline : Nat) {s' : Service} {job : JobId} (awaited : JobId) {j : Job}
    (hj : s'.jobs[job]? = some j) {x : Option Shutdown.Result}
    (known : ∀ r, s'.result? awaited = some r → x = some r.asStop)
    (waiting : s'.result? awaited = none →
      (s'.hold job [] (.join awaited) (.joining awaited)).outlookOf deadline awaited = x) :
    ∃ j', (s'.closeJoin job awaited).jobs[job]? = some j' ∧
      j'.foresee deadline (s'.closeJoin job awaited) = x ∧
      (j.close = .join awaited ∨ (∃ k, j.close = .stopTask k) → Plan j') := by
  rcases closeJoin_cases s' job awaited with ⟨r, hr, e⟩ | ⟨hr, e⟩
  · rw [e, known r hr]
    refine ⟨{ j with todo := [], state := .ended (.stopped r.asStop) }, ?_, rfl, ?_⟩
    · rw [conclude_getElem?, hj, Option.map_some, if_pos rfl]
    · rintro (c | ⟨k, c⟩)
      · exact .join awaited c rfl (.inr (.inr ⟨_, rfl⟩))
      · exact .stop k c rfl (.inr ⟨_, rfl⟩)
  · rw [e]
    refine ⟨{ j with todo := [], close := .join awaited, state := .joining awaited }, ?_, ?_, ?_⟩
    · rw [hold_getElem?, hj, Option.map_some, if_pos rfl]
    · rw [Job.foresee_join rfl (by intro r e; cases e)]
      exact waiting hr
    · exact fun _ => .join awaited rfl rfl (.inr (.inl rfl))

theorem Plan.evolve {s' : Service} {j j' : Job} (own : ∃ e, j.close = .ending e)
    (todo : ∀ k, .awaitSignal k ∉ j.todo) (state : ∀ k, j.state ≠ .awaiting k)
    (e : j.Evolves s' j') : Plan j' := by
  obtain ⟨ending, close⟩ := own
  refine .own ?_ (fun k hk => todo k (e.todo.subset hk)) fun k hk => ?_
  · rcases e.close with c | ⟨_, _, c, -⟩
    · exact ⟨ending, c.trans close⟩
    · rw [close] at c
      cases c
  · exact (e.awaiting k hk).elim (state k) (todo k)

/-- What is left of a teardown, and what it will have given, after a step of its own turn. -/
def Kept (deadline : Nat) (t : Turn) (s : Service) (j : Job) : Prop :=
  ∃ j', (t.step s).2.jobs[t.job]? = some j' ∧
    j'.foresee deadline (t.step s).2 = j.foresee deadline s ∧ Plan j'

section Kept

variable {t : Turn} {s : Service} {j : Job}

theorem kept_own (h : Foreseen deadline X lo hi (some t) s) (early : s.now < deadline)
    (hj : s.jobs[t.job]? = some j) (own : ∃ e, j.close = .ending e)
    (todo : ∀ k, .awaitSignal k ∉ j.todo) (state : ∀ k, j.state ≠ .awaiting k) :
    Kept deadline t s j := by
  obtain ⟨j', hj', same⟩ := step_own h.scheduled early hj (h.timing t rfl j hj) own
  obtain ⟨j₁, hj₁, e⟩ := (step_evolves h.scheduled).jobs _ _ hj'
  rw [hj] at hj₁
  cases hj₁
  refine ⟨j', hj', ?_, .evolve own todo state e⟩
  have own' : ∃ e, j'.close = .ending e := by
    obtain ⟨ending, c⟩ := own
    rcases e.close with c' | ⟨_, _, c', -⟩
    · exact ⟨ending, c'.trans c⟩
    · rw [c] at c'
      cases c'
  rw [Job.foresee_own own', Job.foresee_own own, step_now]
  exact same

theorem kept_join (h : Foreseen deadline X lo hi (some t) s)
    (hj : s.jobs[t.job]? = some j) (unfinished : ∀ r, j.state ≠ .ended r) {b : JobId}
    (close : j.close = .join b) (same : j.close = t.close)
    (closes : t.step s = (none, s.closeJob t.job t.close)) : Kept deadline t s j := by
  have tc : t.close = .join b := same.symm.trans close
  obtain ⟨r, hr⟩ := Option.isSome_iff_exists.mp (h.scheduled.ripe tc)
  have known := closeJoin_foresee deadline b hj (x := s.outlookOf deadline b)
    (fun r hr => outlookOf_ended hr) (fun unknown => by rw [unknown] at hr; cases hr)
  obtain ⟨j', hj', same, plan'⟩ := known
  unfold Kept
  rw [closes, tc, Job.foresee_join close unfinished]
  exact ⟨j', hj', same, plan' (.inl close)⟩

/-- A task that was taken on by somebody is stopped at once. -/
theorem stopOutlook_taken {task : Nat} (taken : ∀ x, s.tasks[task]? = some x → x.claimed = true) :
    s.stopOutlook deadline task = some .ok := by
  unfold stopOutlook
  cases hk : s.tasks[task]? with
  | none => rfl
  | some x =>
    dsimp only
    rw [if_pos (taken x hk)]

/-- Any other is stopped when its body has ended. -/
theorem stopOutlook_free {task : Nat} {x : RunningTask} (hx : s.tasks[task]? = some x)
    (free : x.claimed = false) : s.stopOutlook deadline task = s.outlookOf deadline x.body := by
  unfold stopOutlook
  rw [hx]
  dsimp only
  rw [free]
  rfl

theorem kept_stop (h : Foreseen deadline X lo hi (some t) s) (early : s.now < deadline)
    (hj : s.jobs[t.job]? = some j) (unfinished : ∀ r, j.state ≠ .ended r) {k : Nat}
    (close : j.close = .stopTask k) (same : j.close = t.close)
    (closes : t.step s = (none, s.closeJob t.job t.close)) : Kept deadline t s j := by
  have tc : t.close = .stopTask k := same.symm.trans close
  obtain ⟨j₁, hj₁, st⟩ := told_stirred s k hj
  have close₁ : j₁.close = .stopTask k := st.close.trans close
  unfold Kept
  rw [Job.foresee_stop close unfinished, if_pos early]
  rcases closeStop_cases s t.job k with ⟨taken, e⟩ | ⟨x, hx, free, e⟩
  · rw [stopOutlook_taken taken, closes, tc, e]
    refine ⟨{ j₁ with todo := [], state := .ended (.stopped .ok) }, ?_, rfl, ?_⟩
    · rw [conclude_getElem?, hj₁, Option.map_some, if_pos rfl]
    · exact .stop k close₁ rfl (.inr ⟨_, rfl⟩)
  · -- from now on the teardown waits for the body, which goes on as before
    obtain ⟨jb, hjb, isBody⟩ := h.haveBodies.bodies k x hx
    have kept := step_outlookOf h early hjb isBody.close
    rw [closes, tc, e] at kept
    have result : ((s.fire k).claim k).2.result? x.body = s.result? x.body := by
      rw [result?_congr (claim_frame _ k).1, fire, result?_wake _ _ fun _ => rfl]
      rfl
    have joins := closeJoin_foresee deadline x.body hj₁ (x := s.outlookOf deadline x.body)
      (fun r hr => outlookOf_ended (result ▸ hr))
      (fun unknown => by
        rcases closeJoin_cases ((s.fire k).claim k).2 t.job x.body with ⟨r, hr, -⟩ | ⟨-, e'⟩
        · rw [unknown] at hr
          cases hr
        · rw [← e']
          exact kept)
    obtain ⟨j', hj', same, plan'⟩ := joins
    rw [stopOutlook_free hx free, closes, tc, e]
    exact ⟨j', hj', same, plan' (.inr ⟨k, close₁⟩)⟩

/-- **A step of its own turn does not change what a teardown will have given.** -/
theorem step_foresee_self (h : Foreseen deadline X lo hi (some t) s) (early : s.now < deadline)
    (hj : s.jobs[t.job]? = some j) (plan : Plan j) : Kept deadline t s j := by
  obtain ⟨j₀, hj₀, ready, same, todo₀⟩ := h.scheduled.seated t rfl
  rw [hj] at hj₀
  cases hj₀
  have unfinished : ∀ r, j.state ≠ .ended r := fun r e => by rw [ready] at e; cases e
  -- a teardown that stops a task or waits for its body has no steps left
  have closes : j.todo = [] → t.step s = (none, s.closeJob t.job t.close) := by
    intro empty
    rw [empty] at todo₀
    unfold Turn.step
    rw [List.suffix_nil.mp todo₀]
  cases plan with
  | own own todo state => exact kept_own h early hj own todo state
  | stop k close todo => exact kept_stop h early hj unfinished close same (closes todo)
  | join b close todo => exact kept_join h hj unfinished close same (closes todo)

end Kept

/-- Whoever still has to stop a task after a step had to before it. -/
theorem step_stops (h : Scheduled (some t) s) {i : JobId} {j' : Job} {k : Nat}
    (hj' : (t.step s).2.jobs[i]? = some j') (close : j'.close = .stopTask k)
    (unfinished : ∀ r, j'.state ≠ .ended r) :
    ∃ j, s.jobs[i]? = some j ∧ j.close = .stopTask k ∧ ∀ r, j.state ≠ .ended r := by
  obtain ⟨j, hj, e⟩ := (step_evolves h).jobs i j' hj'
  refine ⟨j, hj, ?_, fun r hr => ?_⟩
  · rcases e.close with c | ⟨_, _, -, -, -, c⟩
    · exact c.symm.trans close
    · rw [close] at c
      cases c
  · have ne : t.job ≠ i := by
      rintro rfl
      obtain ⟨j₀, hj₀, ready, -⟩ := h.seated t rfl
      rw [hj] at hj₀
      cases hj₀
      rw [ready] at hr
      cases hr
    obtain ⟨j₁, hj₁, st⟩ := step_stirred t s hj ne
    rw [hj'] at hj₁
    cases hj₁
    exact unfinished r (st.ended.mpr hr)

/-- **Before the deadline, a step of a turn keeps what is foreseen.** -/
theorem step_foreseen (h : Foreseen deadline X lo hi (some t) s) (early : s.now < deadline) :
    Foreseen deadline X lo hi (t.step s).1 (t.step s).2 := by
  have ev := step_evolves h.scheduled
  have teardown : ∀ (i : Nat) (j' : Job), lo ≤ i → i < hi → (t.step s).2.jobs[i]? = some j' →
      Plan j' ∧ (t.step s).2.foresee deadline i = s.foresee deadline i := by
    intro i j' le lt hj'
    obtain ⟨j, hj, -⟩ := ev.jobs i j' hj'
    have plan := h.plans i j le lt hj
    by_cases own : t.job = i
    · subst own
      obtain ⟨j₁, hj₁, same, plan'⟩ := step_foresee_self h early hj plan
      rw [hj'] at hj₁
      cases hj₁
      exact ⟨plan', by rw [foresee_of hj, foresee_of hj', same]⟩
    · obtain ⟨j₁, hj₁, st⟩ := step_stirred t s hj own
      rw [hj'] at hj₁
      cases hj₁
      exact ⟨st.plan plan, step_foresee_other h early hj plan own⟩
  refine ⟨step_scheduled h.scheduled, h.haveBodies.evolve ev (step_members t s), ?_, ?_, ?_, ?_, ?_⟩
  · intro t' ht' j hj
    exact step_timing (h.timing t rfl) ht' hj
  · intro i j' le lt hj'
    exact (teardown i j' le lt hj').1
  · intro i j' k hj' close unfinished
    obtain ⟨j, hj, close, unfinished⟩ := step_stops h.scheduled hj' close unfinished
    exact h.stops i j k hj close unfinished
  · intro i i' j₁' j₂' k h₁ h₂ c₁ c₂ u₁ u₂
    obtain ⟨j₁, h₁, c₁, u₁⟩ := step_stops h.scheduled h₁ c₁ u₁
    obtain ⟨j₂, h₂, c₂, u₂⟩ := step_stops h.scheduled h₂ c₂ u₂
    exact h.alone i i' j₁ j₂ k h₁ h₂ c₁ c₂ u₁ u₂
  · intro i le lt
    rw [← h.outlook i le lt]
    cases hj' : (t.step s).2.jobs[i]? with
    | some j' => exact (teardown i j' le lt hj').2
    | none =>
      have absent : s.jobs[i]? = none := by
        rw [List.getElem?_eq_none_iff] at hj' ⊢
        rw [← ev.length]
        exact hj'
      unfold foresee
      rw [hj', absent]
      rfl

/-- **Before the deadline, all turns together keep what is foreseen.** -/
theorem settle_foreseen (h : Foreseen deadline X lo hi none s) (early : s.now < deadline) :
    Foreseen deadline X lo hi none s.settle :=
  (settleLoop_induction
    (P := fun turn s' => Foreseen deadline X lo hi turn s' ∧ s'.now = s.now)
    (fun s' k => ⟨begin_foreseen k.1, (JobsOnly.begin s').now.trans k.2⟩)
    (fun t s' k => ⟨step_foreseen k.1 (by rw [k.2]; exact early), (step_now t s').trans k.2⟩)
    _ s ⟨h, rfl⟩).1

/-! ## 5. The next moment -/

/-- When nobody can go on and the next moment comes, a job that waits for no signal and for no
other job will have given what it would have given. -/
theorem outlook_advance {s : Service} {m : Nat} {j : Job} (deadline : Nat)
    (idle : j.state ≠ .ready) (unheld : j.state.waits = false)
    (next : ∀ n, j.state = .sleeping n → m ≤ n) :
    (j.woken (JobState.sleepsUntil m)).outlook deadline m = j.outlook deadline s.now := by
  cases hs : j.state with
  | ready => exact absurd hs idle
  | awaiting k =>
    rw [hs] at unheld
    cases unheld
  | joining b =>
    rw [hs] at unheld
    cases unheld
  | sleeping n =>
    have le := next n hs
    rw [Job.outlook_of_going (j := j) (m := n) (by rw [hs]; rfl)]
    by_cases now : n ≤ m
    · have eq : n = m := Nat.le_antisymm now le
      have wakes : JobState.sleepsUntil m j.state = true := by simp [hs, JobState.sleepsUntil, now]
      have ready : (j.woken (JobState.sleepsUntil m)).state = .ready := by
        rw [Job.woken_state, if_pos wakes]
      rw [Job.outlook_of_going (m := m) (by rw [ready]; rfl), Job.woken_todo, Job.woken_close, eq]
    · have sleeps : JobState.sleepsUntil m j.state = false := by
        simp [hs, JobState.sleepsUntil, now]
      rw [Job.woken_eq_self sleeps]
      exact Job.outlook_of_going (by rw [hs]; rfl)
  | ended r => rw [Job.woken_eq_self (by rw [hs]; rfl), Job.outlook_ended hs, Job.outlook_ended hs]
  | _ =>
    have unfinished : ∀ r, j.state ≠ .ended r := fun r e => by
      rw [hs] at e
      cases e
    rw [Job.woken_eq_self (by rw [hs]; rfl), Job.outlook_stuck (by rw [hs]; rfl) unfinished,
      Job.outlook_stuck (by rw [hs]; rfl) unfinished]

theorem Plan.woken {j : Job} (h : Plan j) (s : Service) (m : Nat) :
    Plan (j.woken (JobState.sleepsUntil m)) := by
  by_cases wakes : JobState.sleepsUntil m j.state = true
  · cases h with
    | own close todo state => exact .evolve close todo state (j.evolves_woken s _)
    | stop k close todo state =>
      rcases state with e | ⟨r, e⟩ <;> rw [e] at wakes <;> cases wakes
    | join b close todo state =>
      rcases state with e | e | ⟨r, e⟩ <;> rw [e] at wakes <;> cases wakes
  · rw [Job.woken_eq_self (by simpa using wakes)]
    exact h

/-- A job of its own waits for nobody, unless for a signal that has not been fired. -/
theorem Scheduled.unheld {turn : Option Turn} (scheduled : Scheduled turn s) {b : JobId} {j : Job}
    (hj : s.jobs[b]? = some j) (own : ∃ e, j.close = .ending e)
    (heard : ∀ k, j.state = .awaiting k → s.isFired k = true) : j.state.waits = false := by
  cases hs : j.state with
  | awaiting k =>
    have fired := heard k hs
    rw [scheduled.awaiting b j k hj hs] at fired
    cases fired
  | joining b' =>
    obtain ⟨_, c⟩ := own
    rw [(scheduled.joining b j b' hj hs).1] at c
    cases c
  | _ => rfl

/-- The body that a teardown waits for is a job of its own and waits for no signal. -/
theorem TasksHaveBodies.awaited (h : TasksHaveBodies s) {i b : JobId} {j : Job}
    (hj : s.jobs[i]? = some j) (close : j.close = .join b) :
    ∃ jb, s.jobs[b]? = some jb ∧ (∃ e, jb.close = .ending e) ∧ ∀ k, jb.state = .awaiting k →
    s.isFired k = true := by
  obtain ⟨k, x, hk, rfl, fired⟩ := h.joins i j b hj close
  obtain ⟨jb, hjb, isBody⟩ := h.bodies k x hk
  refine ⟨jb, hjb, isBody.close, fun k' hk' => ?_⟩
  rw [isBody.awaiting k' hk']
  unfold isFired
  rw [hk]
  exact fired

/-- When nobody can go on, a job of its own is not changed by the next moment in what it will have
given. -/
theorem outlookOf_advance (scheduled : Scheduled none s) (empty : s.queue = []) {m : Nat}
    (next : ∀ n ∈ s.sleepEnds, s.now < n → m ≤ n) {b : JobId} {j : Job}
    (hj : s.jobs[b]? = some j) (own : ∃ e, j.close = .ending e)
    (heard : ∀ k, j.state = .awaiting k → s.isFired k = true) :
    (s.advance m).outlookOf deadline b = s.outlookOf deadline b := by
  have idle := scheduled.idle empty hj
  have unheld := scheduled.unheld hj own heard
  have later : ∀ n, j.state = .sleeping n → m ≤ n := fun n hs =>
    next n (mem_sleepEnds.mpr ⟨j, List.mem_of_getElem? hj, hs⟩) (scheduled.asleep b j n hj hs)
  unfold outlookOf
  have woken : (s.advance m).jobs[b]? = some (j.woken (JobState.sleepsUntil m)) := by
    rw [advance_getElem?, hj]
    rfl
  rw [woken, hj]
  exact outlook_advance deadline idle unheld later

/-- When nobody can go on, the next moment does not change what a teardown will have given. -/
theorem advance_foresee (h : Foreseen deadline X lo hi none s) (empty : s.queue = []) {m : Nat}
    (next : ∀ n ∈ s.sleepEnds, s.now < n → m ≤ n) {i : Nat} (le : lo ≤ i) (lt : i < hi) :
    (s.advance m).foresee deadline i = s.foresee deadline i := by
  cases hj : s.jobs[i]? with
  | none =>
    unfold foresee
    rw [advance_getElem?, hj]
    rfl
  | some j =>
    have hj' : (s.advance m).jobs[i]? = some (j.woken (JobState.sleepsUntil m)) := by
      rw [advance_getElem?, hj]
      rfl
    rw [foresee_of hj, foresee_of hj']
    by_cases ended : ∃ r, j.state = .ended r
    · obtain ⟨r, hr⟩ := ended
      rw [Job.woken_eq_self (by rw [hr]; rfl), Job.foresee_ended hr, Job.foresee_ended hr]
    have unfinished : ∀ r, j.state ≠ .ended r := fun r hr => ended ⟨r, hr⟩
    have unfinished' : ∀ r, (j.woken (JobState.sleepsUntil m)).state ≠ .ended r := by
      intro r
      rw [Job.woken_state]
      split
      · nofun
      · exact unfinished r
    have close' := j.woken_close (JobState.sleepsUntil m)
    cases h.plans i j le lt hj with
    | own close todo state =>
      have own' : ∃ e, (j.woken (JobState.sleepsUntil m)).close = .ending e := by
        rw [close']
        exact close
      have kept : (s.advance m).outlookOf deadline i = s.outlookOf deadline i :=
        outlookOf_advance h.scheduled empty next hj close fun k hk => absurd hk (state k)
      unfold outlookOf at kept
      rw [hj, hj'] at kept
      rw [Job.foresee_own close, Job.foresee_own own']
      exact kept
    | stop k close todo state =>
      exact state.elim (absurd · (h.scheduled.idle empty hj))
        fun ⟨r, hr⟩ => absurd hr (unfinished r)
    | join b close todo state =>
      rw [Job.foresee_join close unfinished, Job.foresee_join (close'.trans close) unfinished']
      obtain ⟨jb, hjb, own, heard⟩ := h.haveBodies.awaited hj close
      exact outlookOf_advance h.scheduled empty next hjb own heard

/-- **When nobody can go on, the next moment keeps what is foreseen.** -/
theorem advance_foreseen (h : Foreseen deadline X lo hi none s) (empty : s.queue = []) {m : Nat}
    (next : ∀ n ∈ s.sleepEnds, s.now < n → m ≤ n) :
    Foreseen deadline X lo hi none (s.advance m) := by
  have stops : ∀ (i : Nat) (j' : Job) (k : Nat), (s.advance m).jobs[i]? = some j' →
      j'.close = .stopTask k → (∀ r, j'.state ≠ .ended r) →
      ∃ j, s.jobs[i]? = some j ∧ j.close = .stopTask k ∧ ∀ r, j.state ≠ .ended r := by
    intro i j' k hj' close unfinished
    rw [advance_getElem?] at hj'
    obtain ⟨j, hj, rfl⟩ := Option.map_eq_some_iff.mp hj'
    refine ⟨j, hj, (j.woken_close _).symm.trans close, fun r hr => unfinished r ?_⟩
    rw [Job.woken_eq_self (by rw [hr]; rfl)]
    exact hr
  refine ⟨advance_scheduled h.scheduled m, ?_, nofun, ?_, ?_, ?_, ?_⟩
  · have later : TasksHaveBodies { s with now := m } := h.haveBodies.congr rfl rfl rfl
    exact later.evolve (evolves_wake _ _) rfl
  · intro i j' le lt hj'
    rw [advance_getElem?] at hj'
    obtain ⟨j, hj, rfl⟩ := Option.map_eq_some_iff.mp hj'
    exact (h.plans i j le lt hj).woken s m
  · intro i j' k hj' close unfinished
    obtain ⟨j, hj, close, unfinished⟩ := stops i j' k hj' close unfinished
    exact h.stops i j k hj close unfinished
  · intro i i' j₁' j₂' k h₁ h₂ c₁ c₂ u₁ u₂
    obtain ⟨j₁, h₁, c₁, u₁⟩ := stops i j₁' k h₁ c₁ u₁
    obtain ⟨j₂, h₂, c₂, u₂⟩ := stops i' j₂' k h₂ c₂ u₂
    exact h.alone i i' j₁ j₂ k h₁ h₂ c₁ c₂ u₁ u₂
  · intro i le lt
    rw [← h.outlook i le lt]
    exact advance_foresee h empty next le lt

end Steps

end Service

end ServiceHealth
