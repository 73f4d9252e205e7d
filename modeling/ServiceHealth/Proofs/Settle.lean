import Mathlib.Algebra.Ring.Nat
import ServiceHealth.Proofs.Scheduled

/-!
# The queue runs empty

`settle` gives a number of turns that is fixed beforehand. It is enough: every turn takes a job from
the queue, and whoever joins the queue again has been held up before, of which a script has only so
many steps. `stamina` counts the turns that are left.

* `load_updateJob`, `load_wake`: sums over the jobs of a service.
* `step_stamina`: a step of a turn does not add to the turns that are left.
* `settle_queue`: **after `settle` nobody is left in the queue**.
-/

namespace ServiceHealth.Service

/-! ## 1. Sums over jobs -/

/-- The sum of a number for each job. -/
def load (f : Job → Nat) (s : Service) : Nat := (s.jobs.map f).sum

theorem sum_map_modify {α : Type} (f : α → Nat) (g : α → α) (xs : List α) (i : Nat) (a : α)
    (h : xs[i]? = some a) : ((xs.modify i g).map f).sum + f a = (xs.map f).sum + f (g a) := by
  induction xs generalizing i with
  | nil => cases h
  | cons x xs ih =>
    cases i with
    | zero =>
      cases h
      simp only [List.modify_zero_cons, List.map_cons, List.sum_cons]
      omega
    | succ i =>
      have rest := ih i h
      simp only [List.modify_succ_cons, List.map_cons, List.sum_cons]
      omega

theorem load_congr {s s' : Service} (h : s'.jobs = s.jobs) (f : Job → Nat) :
    load f s' = load f s := by
  unfold load
  rw [h]

theorem load_updateJob (f : Job → Nat) (s : Service) {job : JobId} {j : Job}
    (h : s.jobs[job]? = some j) (g : Job → Job) :
    load f (s.updateJob job g) + f j = load f s + f (g j) :=
  sum_map_modify f g s.jobs job j h

theorem load_wake (f : Job → Nat) (s : Service) (p : JobState → Bool)
    (h : ∀ j, f (j.woken p) ≤ f j) : load f (s.wake p) ≤ load f s := by
  have le : ∀ js : List Job, ((js.map (Job.woken p)).map f).sum ≤ (js.map f).sum := by
    intro js
    induction js with
    | nil => exact Nat.le_refl _
    | cons j js ih =>
      simp only [List.map_cons, List.sum_cons]
      exact Nat.add_le_add (h j) ih
  exact le s.jobs

theorem load_le (f g : Job → Nat) (h : ∀ j, f j ≤ g j) (s : Service) : load f s ≤ load g s := by
  unfold load
  induction s.jobs with
  | nil => exact Nat.le_refl _
  | cons j js ih =>
    simp only [List.map_cons, List.sum_cons]
    exact Nat.add_le_add (h j) ih

/-- As many numbers are woken as there are jobs in the state. -/
theorem jobsIn_length (s : Service) (p : JobState → Bool) :
    (s.jobsIn p).length = s.jobs.countP fun j => p j.state := by
  have count : ∀ js : List Job,
      (({ s with jobs := js } : Service).jobsIn p).length = js.countP fun j => p j.state := by
    intro js
    unfold jobsIn
    dsimp only
    induction js with
    | nil => rfl
    | cons j js ih =>
      rw [List.length_cons, List.range_succ_eq_map, List.filter_cons, List.filter_map,
        List.countP_cons, ← ih]
      by_cases h : p j.state = true <;> simp [h, Function.comp_def]
  exact count s.jobs

/-! ## 2. The turns that are left -/

/-- Whether a job is held up and can go on again. -/
def JobState.isBlocked : JobState → Bool
  | .sleeping _ | .awaiting _ | .joining _ => true
  | _ => false

/-- Whether a job without steps may still have to wait at its close. -/
def Close.left : Close → Nat
  | .join _ => 0
  | _ => 1

/-- How many turns a job can have from now on, not counting one it stands in the queue for. -/
def Job.turnsLeft (j : Job) : Nat :=
  match j.state with
  | .ready => j.todo.length + j.close.left
  | .sleeping _ | .awaiting _ | .joining _ => j.todo.length + j.close.left + 1
  | .hung | .ended _ | .aborted => 0

theorem Job.turnsLeft_ready {j : Job} (h : j.state = .ready) :
    j.turnsLeft = j.todo.length + j.close.left := by
  unfold Job.turnsLeft
  rw [h]

theorem Job.turnsLeft_blocked {j : Job} (h : j.state.isBlocked = true) :
    j.turnsLeft = j.todo.length + j.close.left + 1 := by
  unfold Job.turnsLeft
  cases hs : j.state with
  | sleeping m => rfl
  | awaiting k => rfl
  | joining b => rfl
  | _ =>
    rw [hs] at h
    cases h

/-- How many turns there can be from now on. -/
def stamina (s : Service) : Nat := s.queue.length + load Job.turnsLeft s

theorem stamina_le (s : Service) : s.stamina ≤ s.queue.length + s.effort := by
  refine Nat.add_le_add_left (load_le Job.turnsLeft (fun j => j.todo.length + 2) (fun j => ?_) s) _
  have left : j.close.left ≤ 1 := by cases j.close <;> simp [Close.left]
  unfold Job.turnsLeft
  split <;> omega

/-- Waking takes a turn from each job that is woken and puts it in the queue. -/
theorem stamina_wake (s : Service) (p : JobState → Bool)
    (hp : ∀ state, p state = true → state.isBlocked = true) : (s.wake p).stamina = s.stamina := by
  have one : ∀ js : List Job, (js.countP fun j => p j.state) +
      ((js.map (Job.woken p)).map Job.turnsLeft).sum = (js.map Job.turnsLeft).sum := by
    intro js
    induction js with
    | nil => rfl
    | cons j js ih =>
      have here : (if p j.state then 1 else 0) + (j.woken p).turnsLeft = j.turnsLeft := by
        by_cases h : p j.state = true
        · have woken : (j.woken p).state = .ready := by rw [Job.woken_state, if_pos h]
          rw [if_pos h, Job.turnsLeft_ready woken, Job.turnsLeft_blocked (hp _ h),
            Job.woken_todo, Job.woken_close]
          omega
        · rw [if_neg h, Job.woken_eq_self (by simpa using h), Nat.zero_add]
      simp only [List.countP_cons, List.map_cons, List.sum_cons]
      omega
  have woken := one s.jobs
  unfold stamina load
  have queue : (s.wake p).queue.length = s.queue.length + s.jobs.countP fun j => p j.state := by
    unfold wake
    rw [List.length_append, jobsIn_length]
  have jobs : (s.wake p).jobs = s.jobs.map (Job.woken p) := rfl
  rw [queue, jobs]
  omega

theorem stamina_congr {s s' : Service} (jobs : s'.jobs = s.jobs) (queue : s'.queue = s.queue) :
    s'.stamina = s.stamina := by
  unfold stamina
  rw [queue, load_congr jobs]

theorem awaits_isBlocked (task : Nat) (state : JobState) (h : JobState.awaits task state = true) :
    state.isBlocked = true := by
  cases state <;> first | rfl | cases h

theorem joins_isBlocked (job : JobId) (state : JobState) (h : JobState.joins job state = true) :
    state.isBlocked = true := by
  cases state <;> first | rfl | cases h

theorem Readied.stamina {s s' : Service} {close : Close} (r : Readied s close s') :
    s'.stamina = s.stamina := by
  cases r with
  | same => rfl
  | noted => rfl
  | told task =>
    obtain ⟨jobs, queue, -⟩ := claim_frame (s.fire task) task
    rw [stamina_congr jobs queue]
    exact stamina_wake _ _ (awaits_isBlocked task)

/-- A job that leaves its turn with no more turns than it had. -/
theorem stamina_updateJob (s : Service) {job : JobId} {j : Job} (h : s.jobs[job]? = some j)
    (g : Job → Job) (le : (g j).turnsLeft ≤ j.turnsLeft) :
    (s.updateJob job g).stamina ≤ s.stamina := by
  have sum := load_updateJob Job.turnsLeft s h g
  unfold stamina
  have queue : (s.updateJob job g).queue = s.queue := rfl
  rw [queue]
  omega

theorem closed_stamina {t : Turn} {s s' : Service} (h : Scheduled (some t) s)
    (c : Closed s t.job t.close s') : s'.stamina ≤ s.stamina := by
  cases c with
  | concluded r result =>
    obtain ⟨j, hj, -, -, -⟩ := (r.scheduled h).seated t rfl
    unfold conclude
    rw [stamina_wake _ _ (joins_isBlocked t.job), ← r.stamina]
    exact stamina_updateJob _ hj _ (Nat.zero_le _)
  | hung =>
    obtain ⟨j, hj, -, -, -⟩ := h.seated t rfl
    exact stamina_updateJob _ hj _ (Nat.zero_le _)
  | joining r awaited k e =>
    obtain ⟨j, hj, ready, close, -⟩ := (r.scheduled h).seated t rfl
    rw [← r.stamina]
    refine stamina_updateJob _ hj _ ?_
    rcases e with e | ⟨task, _, e, -⟩
    · -- whoever waits for another job has its turn only when that has ended
      have ripe := (r.scheduled h).ripe e
      rw [k] at ripe
      cases ripe
    · rw [Job.turnsLeft_ready ready, close, e]
      exact Nat.succ_le_succ (Nat.zero_le _)

/-- **A step of a turn does not add to the turns that are left.** -/
theorem step_stamina {t : Turn} {s : Service} (h : Scheduled (some t) s) :
    (t.step s).2.stamina ≤ s.stamina := by
  rcases t.step_cases s with ⟨x, rest, -, -, e⟩ | ⟨x, rest, state, ht, hx, e⟩ | ⟨-, e⟩
  · rw [e]
    obtain ⟨jobs, queue, -⟩ := act_frame s t.job t.who x
    exact Nat.le_of_eq (stamina_congr jobs queue)
  · rw [e]
    obtain ⟨j, hj, ready, close, todo⟩ := h.seated t rfl
    refine stamina_updateJob s hj _ ?_
    rw [ht] at todo
    have shorter : rest.length + 1 ≤ j.todo.length := todo.length_le
    rw [Job.turnsLeft_ready ready, close]
    rcases holdUp?_cases hx with ⟨d, -, -, rfl⟩ | ⟨k, -, -, rfl⟩
    · show rest.length + t.close.left + 1 ≤ _
      omega
    · show rest.length + t.close.left + 1 ≤ _
      omega
  · rw [e]
    exact closed_stamina h (closed_closeJob s t.job t.close)

theorem begin_stamina {s : Service} {job : JobId} {rest : List JobId} (hq : s.queue = job :: rest) :
    (Turn.begin s).2.stamina + 1 = s.stamina := by
  unfold Turn.begin stamina load
  rw [hq]
  simp only [List.length_cons]
  omega

/-! ## 3. The queue -/

/-- **Fuel for as many turns as are left is enough.** -/
theorem settleLoop_queue (fuel : Nat) {s : Service} (h : Scheduled none s)
    (enough : s.stamina ≤ fuel) :
    (settleLoop fuel s).queue = [] := by
  induction fuel generalizing s with
  | zero =>
    have zero : s.queue.length = 0 := by
      unfold stamina at enough
      omega
    exact List.length_eq_zero_iff.mp zero
  | succ fuel ih =>
    unfold settleLoop
    split
    · assumption
    · rename_i job rest hq
      have popped := begin_stamina hq
      have turn : Scheduled none (resume { s with queue := rest } job) ∧
          (resume { s with queue := rest } job).stamina ≤ fuel :=
        resume_induction (P := fun turn s => Scheduled turn s ∧ s.stamina ≤ fuel)
          (fun t s k => ⟨step_scheduled k.1, Nat.le_trans (step_stamina k.1) k.2⟩) hq
          ⟨begin_scheduled h, by omega⟩
      exact ih turn.1 turn.2

/-- **After `settle` nobody is left in the queue.** -/
theorem settle_queue {s : Service} (h : Scheduled none s) : s.settle.queue = [] :=
  settleLoop_queue _ h s.stamina_le

theorem settle_scheduled {s : Service} (h : Scheduled none s) : Scheduled none s.settle :=
  settleLoop_scheduled _ h

end ServiceHealth.Service
