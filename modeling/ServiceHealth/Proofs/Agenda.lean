import ServiceHealth.Proofs.Deeds
import ServiceHealth.Proofs.OnTime
import ServiceHealth.Proofs.Prompt

/-!
# What a job does, and when

What a job does, and when, is fixed by its script: its steps follow each other, a sleep takes the
time it takes, and a wait for a signal lasts until the signal is fired. Whatever else runs and
whoever else waits has no part in it, as long as the clock waits for the jobs.

* `agenda`: the steps of a script with their moments, and the close after them, at its end (`ends`).
* `ByItself`: a job that goes its own way. `after_byItself`: nobody takes it off.
* `did_due`: **what such a job does and what is due then are together what was due before**.
* `did_rest`: when nobody can go on, it has done what was due until then and nothing else.
-/

namespace ServiceHealth

namespace Service

/-! ## 1. Agendas -/

/-- When a step is done that begins at a moment, if the signal it waits for is fired at `signal`. -/
def Step.doneAt (signal moment : Nat) : Step → Nat
  | .sleep d => if d = 0 then moment else wakeTime moment d
  | .awaitSignal _ => max moment signal
  | _ => moment

/-- The steps of a script that begins at a moment, each with its own moment, and the close after
them. -/
def agenda (signal : Nat) : List Step → Nat → List (Nat × Option Step)
  | [], m => [(m, none)]
  | x :: rest, m => (m, some x) :: agenda signal rest (x.doneAt signal m)

/-- The moment at which a job goes on, if it can or will. -/
def JobState.resumes? (signal now : Nat) : JobState → Option Nat
  | .ready => some now
  | .sleeping m => some m
  | .awaiting _ => some signal
  | _ => none

/-- What a job has still to do. -/
def Job.due (signal now : Nat) (j : Job) : List (Nat × Option Step) :=
  match j.state.resumes? signal now with
  | some m => agenda signal j.todo m
  | none => []

/-- What the job with a number has still to do. -/
def dueOf (signal : Nat) (s : Service) (i : JobId) : List (Nat × Option Step) :=
  match s.jobs[i]? with
  | some j => j.due signal s.now
  | none => []

theorem dueOf_of {signal : Nat} {s : Service} {i : JobId} {j : Job} (hj : s.jobs[i]? = some j) :
    s.dueOf signal i = j.due signal s.now := by
  unfold dueOf
  rw [hj]

theorem Job.due_of {signal now m : Nat} {j : Job} (h : j.state.resumes? signal now = some m) :
    j.due signal now = agenda signal j.todo m := by
  unfold Job.due
  rw [h]

theorem Job.due_none {signal now : Nat} {j : Job} (h : j.state.resumes? signal now = none) :
    j.due signal now = [] := by
  unfold Job.due
  rw [h]

theorem agenda_ne_nil (signal : Nat) (todo : List Step) (m : Nat) : agenda signal todo m ≠ [] := by
  cases todo <;> exact List.cons_ne_nil _ _

theorem le_doneAt (signal moment : Nat) (x : Step) : moment ≤ x.doneAt signal moment := by
  cases x with
  | sleep d =>
    show moment ≤ if d = 0 then moment else wakeTime moment d
    split
    · exact Nat.le_refl _
    · rename_i hd
      exact Nat.le_of_lt (now_lt_wakeTime hd)
  | awaitSignal k => exact Nat.le_max_left _ _
  | _ => exact Nat.le_refl _

/-- Nothing in an agenda comes before it begins. -/
theorem le_of_mem_agenda {signal m : Nat} {todo : List Step} {x : Nat × Option Step}
    (mem : x ∈ agenda signal todo m) : m ≤ x.1 := by
  induction todo generalizing m with
  | nil =>
    rw [List.mem_singleton.mp mem]
  | cons y rest ih =>
    rcases List.mem_cons.mp mem with rfl | later
    · exact Nat.le_refl m
    · exact Nat.le_trans (le_doneAt signal m y) (ih later)

/-- When a script is done that begins at a moment. -/
def ends (signal : Nat) (todo : List Step) (m : Nat) : Nat :=
  todo.foldl (fun m x => x.doneAt signal m) m

/-- An agenda ends with the close. -/
theorem ends_mem (signal : Nat) (todo : List Step) (m : Nat) :
    (ends signal todo m, none) ∈ agenda signal todo m := by
  induction todo generalizing m with
  | nil => exact List.mem_singleton.mpr rfl
  | cons x rest ih => exact List.mem_cons_of_mem _ (ih (x.doneAt signal m))

/-- Nothing in an agenda comes after its end. -/
theorem le_ends {signal m : Nat} {todo : List Step} {x : Nat × Option Step}
    (mem : x ∈ agenda signal todo m) : x.1 ≤ ends signal todo m := by
  induction todo generalizing m with
  | nil =>
    rw [List.mem_singleton.mp mem]
    exact Nat.le_refl m
  | cons y rest ih =>
    rcases List.mem_cons.mp mem with rfl | later
    · exact Nat.le_trans (le_doneAt signal m y) (le_of_mem_agenda (ends_mem signal rest _))
    · exact ih later

theorem ends_append (signal : Nat) (xs ys : List Step) (m : Nat) :
    ends signal (xs ++ ys) m = ends signal ys (ends signal xs m) := List.foldl_append

theorem ends_work (signal : Nat) (delay : Option Nat)
    (actions : List (Health.Action Health.Checker)) (m : Nat) :
    ends signal (work delay actions) m = afterDelay m delay := by
  have performs : ∀ m, ends signal (actions.map Step.perform) m = m := by
    induction actions with
    | nil => exact fun _ => rfl
    | cons a actions ih => exact fun m => ih m
  unfold work
  rw [ends_append, performs]
  cases delay <;> rfl

/-- When a signal has been fired, whoever waits for it goes on at once. -/
theorem ends_eq_finish {signal m : Nat} (told : signal ≤ m) (todo : List Step) :
    ends signal todo m = finish todo m := by
  induction todo generalizing m with
  | nil => rfl
  | cons x rest ih =>
    have later := ih (Nat.le_trans told (le_doneAt signal m x))
    cases x with
    | sleep d => exact later
    | awaitSignal k =>
      have here : Step.doneAt signal m (.awaitSignal k) = m := Nat.max_eq_left told
      show ends signal rest (Step.doneAt signal m (.awaitSignal k)) = _
      rw [here]
      exact ih told
    | _ => exact later

/-! ## 2. Jobs that go their own way -/

/-- Whether a job can or will go on. -/
def JobState.goesOn : JobState → Bool
  | .ready | .sleeping _ | .awaiting _ => true
  | _ => false

theorem JobState.resumes_of_goesOn {state : JobState} (goes : state.goesOn = true)
    (signal now : Nat) : ∃ m, state.resumes? signal now = some m := by
  cases state with
  | ready => exact ⟨now, rfl⟩
  | sleeping m => exact ⟨m, rfl⟩
  | awaiting k => exact ⟨signal, rfl⟩
  | _ => cases goes

end Service

/-- Where a job stands that has ended in a way of its own. -/
def Shutdown.Ending.leaves : Shutdown.Ending → Service.JobState
  | .returns r => .ended (.stopped r)
  | .panics p => .ended (.panicked p)
  | .hangs => .hung

namespace Service

/-- Whoever has ended in its own way has nothing to do any more. -/
theorem Job.due_left {ending : Shutdown.Ending} {j : Job} (left : j.state = ending.leaves)
    (signal now : Nat) : j.due signal now = [] :=
  Job.due_none (by rw [left]; cases ending <;> rfl)

/-- A job goes on or has ended in its own way, and waits for no signal but certain ones. -/
structure Heeds (signals : Nat → Prop) (ending : Shutdown.Ending) (j : Job) : Prop where
  close : j.close = .ending ending
  stands : j.state.goesOn = true ∨ j.state = ending.leaves
  waits : ∀ k, .awaitSignal k ∈ j.todo → signals k
  awaiting : ∀ k, j.state = .awaiting k → signals k

section Heeds

variable {signals : Nat → Prop} {ending : Shutdown.Ending} {j : Job}

theorem Heeds.unjoined (h : Heeds signals ending j) (b : JobId) : j.state ≠ .joining b := by
  intro state
  rcases h.stands with goes | leaves
  · rw [state] at goes
    cases goes
  · rw [state] at leaves
    cases ending <;> cases leaves

/-- Whoever has nothing to do any more has ended in its way. -/
theorem Heeds.ended (h : Heeds signals ending j) {signal now : Nat}
    (nothing : j.due signal now = []) : j.state = ending.leaves := by
  rcases h.stands with goes | leaves
  · obtain ⟨m, resumes⟩ := JobState.resumes_of_goesOn goes signal now
    rw [Job.due_of resumes] at nothing
    exact absurd nothing (agenda_ne_nil signal j.todo m)
  · exact leaves

/-- A job that is woken, in whatever way, goes on. -/
theorem Heeds.ready (h : Heeds signals ending j) :
    Heeds signals ending { j with state := .ready } :=
  ⟨h.close, .inl rfl, h.waits, nofun⟩

theorem Heeds.woken (h : Heeds signals ending j) (p : JobState → Bool) :
    Heeds signals ending (j.woken p) := by
  unfold Job.woken
  split
  · exact h.ready
  · exact h

end Heeds

/-- A job of its own as others leave it: as it was, or no longer waiting for a signal that has been
fired. -/
inductive Roused (s' : Service) (j : Job) : Job → Prop where
  | same : Roused s' j j
  | heard {k : Nat} (state : j.state = .awaiting k) (fired : s'.isFired k = true) :
      Roused s' j { j with state := .ready }

theorem Roused.congr {s s' : Service} {j j' : Job} (h : Roused s j j')
    (fired : ∀ k, s'.isFired k = s.isFired k) : Roused s' j j' := by
  cases h with
  | same => exact .same
  | heard state told => exact .heard state ((fired _).trans told)

theorem Roused.heeds {signals : Nat → Prop} {ending : Shutdown.Ending} {s' : Service} {j j' : Job}
    (h : Roused s' j j') (heeds : Heeds signals ending j) : Heeds signals ending j' := by
  cases h with
  | same => exact heeds
  | heard => exact heeds.ready

section Others

variable {s : Service} {i : JobId} {j : Job} (hj : s.jobs[i]? = some j)
  (known : ∀ k, j.state = .awaiting k → k < s.tasks.length)

include hj known

theorem told_roused (task : Nat) : ∃ j', ((s.fire task).claim task).2.jobs[i]? = some j' ∧
    Roused ((s.fire task).claim task).2 j j' := by
  have woken : ((s.fire task).claim task).2.jobs[i]? = some (j.woken (JobState.awaits task)) := by
    rw [(claim_frame _ task).1, fire, wake_getElem?]
    show (s.jobs[i]?).map _ = _
    rw [hj]
    rfl
  refine ⟨_, woken, ?_⟩
  by_cases waits : JobState.awaits task j.state = true
  · have state : j.state = .awaiting task := by
      cases hs : j.state <;> rw [hs] at waits <;> simp_all [JobState.awaits]
    have there := known task state
    have fired : ((s.fire task).claim task).2.isFired task = true := by
      unfold isFired
      rw [told_tasks, List.getElem?_modify_eq, List.getElem?_eq_getElem there]
      rfl
    unfold Job.woken
    rw [if_pos waits]
    exact .heard state fired
  · rw [Job.woken_eq_self (by simpa using waits)]
    exact .same

theorem Readied.roused {s' : Service} {close : Close} (r : Readied s close s') :
    ∃ j', s'.jobs[i]? = some j' ∧ Roused s' j j' := by
  cases r with
  | same => exact ⟨j, hj, .same⟩
  | noted => exact ⟨j, hj, .same⟩
  | told task => exact told_roused hj known task

/-- **The turn of another job rouses one of its own at most by firing its signal.** -/
theorem step_roused (t : Turn) (unjoined : ∀ b, j.state ≠ .joining b) (ne : t.job ≠ i) :
    ∃ j', (t.step s).2.jobs[i]? = some j' ∧ Roused (t.step s).2 j j' := by
  have held : ∀ (s' : Service) (j' : Job) todo close state, s'.jobs[i]? = some j' →
      (s'.hold t.job todo close state).jobs[i]? = some j' := by
    intro s' j' todo close state h
    rw [hold_getElem?, h, Option.map_some, if_neg ne]
  rcases t.step_cases s with ⟨x, rest, -, -, e⟩ | ⟨x, rest, state, -, -, e⟩ | ⟨-, e⟩
  · rw [e]
    exact ⟨j, by rw [(act_frame s t.job t.who x).1]; exact hj, .same⟩
  · rw [e]
    exact ⟨j, held s j rest t.close state hj, .same⟩
  · rw [e]
    have closed := closed_closeJob s t.job t.close
    generalize s.closeJob t.job t.close = s' at closed
    cases closed with
    | @concluded s₁ r result =>
      obtain ⟨j', hj', roused⟩ := r.roused hj known
      have unjoined' : JobState.joins t.job j'.state = false := by
        cases roused with
        | same =>
          cases hs : j.state with
          | joining b => exact absurd hs (unjoined b)
          | _ => rfl
        | heard => rfl
      refine ⟨j', ?_, roused.congr (isFired_congr rfl)⟩
      rw [conclude_getElem?, hj', Option.map_some, if_neg ne, Job.woken_eq_self unjoined']
    | hung close' => exact ⟨j, held s j _ _ _ hj, .same⟩
    | @joining s₁ r awaited =>
      obtain ⟨j', hj', roused⟩ := r.roused hj known
      exact ⟨j', held s₁ j' _ _ _ hj', roused.congr (isFired_congr rfl)⟩

end Others

/-! ## 3. The turn of such a job -/

section Own

variable {signals : Nat → Prop} {ending : Shutdown.Ending} {t : Turn} {s : Service} {j : Job}

/-- **What becomes of a job of its own in its turn**: it has done a step, is held up, or has ended.
-/
theorem step_self (scheduled : Scheduled (some t) s) (hj : s.jobs[t.job]? = some j)
    (heeds : Heeds signals ending j) :
    (∃ x rest, t.todo = x :: rest ∧ s.holdUp? x = none ∧
      (t.step s).1 = some { t with todo := rest } ∧ (t.step s).2.jobs[t.job]? = some j) ∨
    (∃ x rest state, t.todo = x :: rest ∧ s.holdUp? x = some state ∧ (t.step s).1 = none ∧
      (t.step s).2.jobs[t.job]? = some { j with todo := rest, state }) ∨
    (t.todo = [] ∧ (t.step s).1 = none ∧
      (t.step s).2.jobs[t.job]? = some { j with todo := [], state := ending.leaves }) := by
  obtain ⟨j₀, hj₀, -, same, -⟩ := scheduled.seated t rfl
  rw [hj] at hj₀
  cases hj₀
  rcases t.step_cases s with ⟨x, rest, ht, hx, e⟩ | ⟨x, rest, state, ht, hx, e⟩ | ⟨ht, e⟩
  · rw [e]
    exact .inl ⟨x, rest, ht, hx, rfl, by rw [(act_frame s t.job t.who x).1]; exact hj⟩
  · rw [e]
    refine .inr (.inl ⟨x, rest, state, ht, hx, rfl, ?_⟩)
    rw [hold_getElem?, hj, Option.map_some, if_pos rfl, ← same]
  · have closes : s.closeJob t.job t.close = s.closeEnding t.job ending := by
      rw [← same, heeds.close]
      rfl
    rw [e, closes]
    refine .inr (.inr ⟨ht, rfl, ?_⟩)
    cases ending with
    | returns r =>
      show (s.conclude t.job _).jobs[t.job]? = _
      rw [conclude_getElem?, hj, Option.map_some, if_pos rfl]
      rfl
    | panics p =>
      show (s.conclude t.job _).jobs[t.job]? = _
      rw [conclude_getElem?, hj, Option.map_some, if_pos rfl]
      rfl
    | hangs =>
      show (s.hold t.job [] _ _).jobs[t.job]? = _
      rw [hold_getElem?, hj, Option.map_some, if_pos rfl, ← heeds.close]
      rfl

/-- It is still a job of its own then. -/
theorem Heeds.self (scheduled : Scheduled (some t) s) (hj : s.jobs[t.job]? = some j)
    (heeds : Heeds signals ending j) :
    ∃ j', (t.step s).2.jobs[t.job]? = some j' ∧ Heeds signals ending j' := by
  obtain ⟨j₀, hj₀, -, -, todo⟩ := scheduled.seated t rfl
  rw [hj] at hj₀
  cases hj₀
  rcases step_self scheduled hj heeds with ⟨x, rest, ht, -, -, kept⟩ |
    ⟨x, rest, state, ht, hx, -, held⟩ | ⟨-, -, closed⟩
  · exact ⟨j, kept, heeds⟩
  · have script : ∀ y ∈ x :: rest, y ∈ j.todo := fun y mem => todo.subset (ht ▸ mem)
    refine ⟨_, held, heeds.close, .inl ?_, fun k hk => ?_, fun k hk => ?_⟩
    · rcases holdUp?_cases hx with ⟨d, -, -, rfl⟩ | ⟨k, -, -, rfl⟩ <;> rfl
    · exact heeds.waits k (script _ (List.mem_cons_of_mem _ hk))
    · rcases holdUp?_cases hx with ⟨d, -, -, rfl⟩ | ⟨k', rfl, -, rfl⟩
      · cases hk
      · cases hk
        exact heeds.waits k (script _ List.mem_cons_self)
  · refine ⟨_, closed, heeds.close, .inr rfl, nofun, fun k hk => ?_⟩
    cases ending <;> cases hk

end Own

end Service

open Service

namespace World

/-- What a job has still to do in a world. -/
def due (signal : Nat) (w : World) (i : JobId) : List (Nat × Option Step) :=
  match w.turn with
  | some t => if t.job = i then agenda signal t.todo w.service.now else w.service.dueOf signal i
  | none => w.service.dueOf signal i

/-- What a job does, and when, among the deeds of all. -/
def did (i : JobId) (ds : List Deed) : List (Nat × Option Step) :=
  (ds.filter (·.job = i)).map fun d => (d.moment, d.step)

/-- A job goes its own way and ends in its own: it waits for no signal but certain ones, of tasks
that there are, and nobody asks for its result who might give it up. -/
structure ByItself (signals : Nat → Prop) (ending : Shutdown.Ending) (w : World) (i : JobId) :
    Prop where
  scheduled : Scheduled w.turn w.service
  unasked : ¬ Inquired w i
  known : ∀ k, signals k → k < w.service.tasks.length
  job : ∃ j, w.service.jobs[i]? = some j ∧ Heeds signals ending j

/-- The signals that a job waits for are fired at a certain moment: not before, and then they are.
-/
def Rung (signals : Nat → Prop) (signal : Nat) (s : Service) : Prop :=
  ∀ k, signals k → (s.isFired k = false → s.now ≤ signal) ∧ (s.isFired k = true → signal ≤ s.now)

theorem due_free {w : World} (free : w.turn = none) (signal : Nat) (i : JobId) :
    w.due signal i = w.service.dueOf signal i := by
  unfold due
  rw [free]

theorem due_turn {w : World} {t : Turn} (ht : w.turn = some t) (signal : Nat) (i : JobId) :
    w.due signal i =
      if t.job = i then agenda signal t.todo w.service.now else w.service.dueOf signal i := by
  unfold due
  rw [ht]

/-! ## 4. What happens outside a turn -/

/-- A job as a move from outside leaves it: roused at most by its signal, or woken by the clock. -/
def Left (w : World) (i : JobId) (j : Job) (s : Service) : Prop :=
  ∃ j', s.jobs[i]? = some j' ∧ (s.now = w.service.now ∧ Roused s j j' ∨
    w.service.now < s.now ∧ j' = j.woken (JobState.sleepsUntil s.now))

theorem outside_left {w : World} (m : Move) {i : JobId} {j : Job} (unasked : ¬ Inquired w i)
    (hj : w.service.jobs[i]? = some j)
    (known : ∀ k, j.state = .awaiting k → k < w.service.tasks.length) :
    Left w i j (w.outside m).service := by
  have still : Left w i j w.service := ⟨j, hj, .inl ⟨rfl, .same⟩⟩
  have kept : ∀ s s' : Service, s'.jobs[i]? = s.jobs[i]? → s'.now = s.now →
      (∀ k, s'.isFired k = s.isFired k) → Left w i j s → Left w i j s' := by
    rintro s s' jobs now fired ⟨j', hj', same | woken⟩
    · exact ⟨j', jobs.trans hj', .inl ⟨now.trans same.1, same.2.congr fired⟩⟩
    · exact ⟨j', jobs.trans hj', .inr (by rw [now]; exact woken)⟩
  have spawned : ∀ (s : Service) (new : Job), Left w i j s → Left w i j (s.spawn new) := by
    rintro s new ⟨j', hj', h⟩
    exact kept s _ ((spawn_getElem?_old hj').trans hj'.symm) rfl (isFired_congr rfl) ⟨j', hj', h⟩
  by_cases hb : m = .begin
  · subst hb
    exact kept w.service _ (congrArg (·[i]?) (begin_jobs w.service)) (JobsOnly.begin w.service).now
      (isFired_congr (begin_tasks w.service)) still
  refine outside_rule (P := Left w i j) hb still
    (fun s s' q => kept s s' (by rw [q.jobs]) q.now (isFired_congr q.tasks))
    (fun _ _ => ⟨j, hj, .inl ⟨rfl, .same⟩⟩) (fun t _ => ?_) (fun s number c d _ => spawned s _)
    (fun s job asked h => ?_) (fun k _ _ => ?_) (fun _ _ d => ?_) (fun moment later => ?_)
  · exact ⟨j, spawn_getElem?_old hj, .inl ⟨rfl, .same⟩⟩
  · have other : job ≠ i := by
      rintro rfl
      exact unasked asked
    refine kept s _ ?_ rfl (isFired_congr rfl) h
    unfold abort
    rw [updateJob_getElem?]
    cases s.jobs[i]? <;> simp [other]
  · obtain ⟨j', hj', roused⟩ := told_roused hj known k
    exact ⟨j', hj', .inl ⟨(claim_frame _ k).2.2, roused⟩⟩
  · refine ⟨j, ?_, .inl ⟨rfl, .same⟩⟩
    rw [teardownsStarted_jobs, List.getElem?_append_left (List.getElem?_eq_some_iff.mp hj).1]
    exact hj
  · exact ⟨_, by rw [advance_getElem?, hj]; rfl, .inr ⟨later, rfl⟩⟩

/-- Outside a turn a task is started by the move that does so and by nothing else. -/
theorem outside_tasks_count (w : World) {m : Move} (other : ∀ t, m ≠ .addTask t) :
    (w.outside m).service.tasks.length = w.service.tasks.length := by
  by_cases hb : m = .begin
  · subst hb
    exact congrArg List.length (begin_tasks w.service)
  refine outside_rule (P := fun s => s.tasks.length = w.service.tasks.length) hb rfl
    (fun _ _ q same => by rw [q.tasks]; exact same) (fun _ _ => rfl) (fun t e => absurd e (other t))
    (fun _ _ _ _ _ same => same) (fun _ _ _ same => same) (fun k _ _ => ?_) (fun _ _ _ => rfl)
    (fun _ _ => rfl)
  rw [told_tasks, List.length_modify]

theorem outside_tasks_length (w : World) (m : Move) :
    w.service.tasks.length ≤ (w.outside m).service.tasks.length := by
  by_cases added : ∃ t, m = .addTask t
  · obtain ⟨t, rfl⟩ := added
    simp [outside, startTask]
  · exact Nat.le_of_eq (outside_tasks_count w fun t e => added ⟨t, e⟩).symm

/-- Nobody begins to ask for the result of a job that was there before. -/
theorem outside_inquired {w : World} {m : Move} {i : JobId} (there : i < w.service.jobs.length)
    (asked : Inquired (w.outside m) i) : Inquired w i := by
  rcases outside_inquiries w m with same | ⟨request, timeout, e, -⟩ |
    ⟨n, q, q', hq, e, -, -, jobs⟩
  · obtain ⟨q, mem, asks⟩ := asked
    exact ⟨q, same ▸ mem, asks⟩
  · rw [e] at asked
    rcases inquire_inquired asked with old | ⟨new, -⟩
    · exact old
    · exact absurd there (Nat.not_lt.mpr new)
  · obtain ⟨p, mem, x, hx, job⟩ := asked
    rw [e] at mem
    rcases List.mem_or_eq_of_mem_set mem with old | rfl
    · exact ⟨p, old, x, hx, job⟩
    · have among : i ∈ q.aggregation.entries.map (·.job) := by
        rw [← jobs, ← job]
        exact List.mem_map_of_mem hx
      obtain ⟨x', hx', job'⟩ := List.mem_map.mp among
      exact ⟨q, List.mem_of_getElem? hq, x', hx', job'⟩

/-! ## 5. Moves -/

/-- Nothing but a turn that begins makes one. -/
theorem apply_turn {w : World} (free : w.turn = none) {m : Move} (hb : m ≠ .begin) :
    (w.apply m).turn = none := by
  rw [apply_free free]
  exact outside_turn w m hb free

/-- Time passes outside a turn. -/
theorem free_of_later {w : World} {m : Move} (later : w.service.now < (w.apply m).service.now) :
    w.turn = none := by
  rcases w.apply_cases m with ⟨free, -⟩ | ⟨t, -, -, e⟩ | ⟨t, -, -, e⟩
  · exact free
  · rw [e] at later
    exact absurd later (Nat.not_lt.mpr (Nat.le_of_eq (step_now t w.service)))
  · rw [e] at later
    exact absurd later (Nat.lt_irrefl _)

theorem apply_begin {w : World} (free : w.turn = none) : w.apply .begin =
    { w with turn := (Turn.begin w.service).1, service := (Turn.begin w.service).2 } :=
  apply_free free .begin

section Moves

variable {signals : Nat → Prop} {ending : Shutdown.Ending} {signal : Nat} {w : World} {i : JobId}

/-- **Nobody takes a job off that goes its own way.** -/
theorem apply_byItself (h : ByItself signals ending w i) (m : Move) :
    ByItself signals ending (w.apply m) i := by
  obtain ⟨scheduled, unasked, known, j, hj, heeds⟩ := h
  have scheduled' := apply_scheduled w m scheduled
  have told : ∀ k, j.state = .awaiting k → k < w.service.tasks.length := fun k hk =>
    known k (heeds.awaiting k hk)
  rcases w.apply_cases m with ⟨-, e⟩ | ⟨t, ht, -, e⟩ | ⟨t, -, -, e⟩
  · rw [e] at scheduled' ⊢
    have there := (List.getElem?_eq_some_iff.mp hj).1
    refine ⟨scheduled', fun asked => unasked (outside_inquired there asked),
      fun k hk => Nat.lt_of_lt_of_le (known k hk) (outside_tasks_length w m), ?_⟩
    obtain ⟨j', hj', ⟨-, roused⟩ | ⟨-, woken⟩⟩ := outside_left m unasked hj told
    · exact ⟨j', hj', roused.heeds heeds⟩
    · exact ⟨j', hj', woken ▸ heeds.woken _⟩
  · rw [ht] at scheduled
    rw [e] at scheduled' ⊢
    refine ⟨scheduled', unasked, fun k hk => ?_, ?_⟩
    · exact Nat.lt_of_lt_of_eq (known k hk) (step_evolves scheduled).count.symm
    · by_cases own : t.job = i
      · subst own
        exact heeds.self scheduled hj
      · obtain ⟨j', hj', roused⟩ := step_roused hj told t heeds.unjoined own
        exact ⟨j', hj', roused.heeds heeds⟩
  · rw [e]
    exact ⟨scheduled, unasked, known, j, hj, heeds⟩

/-- A job that is roused by its signal is roused when the signal is fired. -/
theorem due_roused {s s' : Service} {j j' : Job} (roused : Roused s' j j')
    (heeds : Heeds signals ending j)
    (scheduled : ∀ k, j.state = .awaiting k → s.isFired k = false) (now : s'.now = s.now)
    (rung : Rung signals signal s) (rung' : Rung signals signal s') :
    j'.due signal s'.now = j.due signal s.now := by
  cases roused with
  | same => rw [now]
  | @heard k state fired =>
    have before := (rung k (heeds.awaiting k state)).1 (scheduled k state)
    have after := (rung' k (heeds.awaiting k state)).2 fired
    have moment : s'.now = signal := by omega
    rw [Job.due_of (j := j) (by rw [state]; rfl), moment]
    exact Job.due_of rfl

/-- **What a job does in its turn is what was due first.** -/
theorem due_self {t : Turn} (h : ByItself signals ending w t.job) (ht : w.turn = some t)
    (rung : Rung signals signal w.service) :
    (w.service.now, t.todo.head?) :: (w.apply .go).due signal t.job = w.due signal t.job := by
  obtain ⟨scheduled, -, -, j, hj, heeds⟩ := h
  rw [ht] at scheduled
  obtain ⟨j₀, hj₀, -, -, todo⟩ := scheduled.seated t rfl
  rw [hj] at hj₀
  cases hj₀
  rw [due_turn ht, if_pos rfl, apply_go ht]
  have now := step_now t w.service
  rcases step_self scheduled hj heeds with ⟨x, rest, hx, acts, turn, kept⟩ |
    ⟨x, rest, state, hx, holds, turn, held⟩ | ⟨hx, turn, closed⟩
  · rw [due_turn turn, if_pos rfl, hx, now]
    have done : x.doneAt signal w.service.now = w.service.now := by
      cases x with
      | sleep d =>
        have zero : d = 0 := Decidable.byContradiction fun hd => by simp [holdUp?, hd] at acts
        exact if_pos zero
      | awaitSignal k =>
        have fired : w.service.isFired k = true := by simpa [holdUp?] using acts
        have waits : signals k := heeds.waits k (todo.subset (hx ▸ List.mem_cons_self))
        exact Nat.max_eq_left ((rung k waits).2 fired)
      | _ => rfl
    show _ = (_, _) :: agenda signal rest (x.doneAt signal w.service.now)
    rw [done]
    rfl
  · rw [due_free turn, dueOf_of held, hx]
    have done : Job.due signal (t.step w.service).2.now { j with todo := rest, state } =
        agenda signal rest (x.doneAt signal w.service.now) := by
      rcases holdUp?_cases holds with ⟨d, rfl, hd, rfl⟩ | ⟨k, rfl, unfired, rfl⟩
      · refine (Job.due_of (m := wakeTime w.service.now d) rfl).trans ?_
        show _ = agenda signal rest (if d = 0 then w.service.now else wakeTime w.service.now d)
        rw [if_neg hd]
      · refine (Job.due_of (m := signal) rfl).trans ?_
        have waits : signals k := heeds.waits k (todo.subset (hx ▸ List.mem_cons_self))
        show _ = agenda signal rest (max w.service.now signal)
        rw [Nat.max_eq_right ((rung k waits).1 unfired)]
    rw [done]
    rfl
  · rw [due_free turn, dueOf_of closed, hx]
    have nothing : Job.due signal (t.step w.service).2.now
        { j with todo := [], state := ending.leaves } = [] := Job.due_left rfl signal _
    rw [nothing]
    rfl

/-- When time passes on time, it does not change what is due. -/
theorem due_woken {s : Service} {j : Job} (scheduled : Scheduled none s) (hj : s.jobs[i]? = some j)
    {moment : Nat} (pass : s.MayPass moment) :
    (j.woken (JobState.sleepsUntil moment)).due signal moment = j.due signal s.now := by
  have idle := scheduled.idle pass.1 hj
  cases hs : j.state with
  | ready => exact absurd hs idle
  | sleeping n =>
    have le := pass.sleeps hj hs
    rw [Job.due_of (j := j) (m := n) (by rw [hs]; rfl)]
    by_cases here : n ≤ moment
    · have same : n = moment := Nat.le_antisymm here le
      have ready : (j.woken (JobState.sleepsUntil moment)).state = .ready := by
        rw [Job.woken_state, if_pos (by simp [hs, JobState.sleepsUntil, here])]
      rw [Job.due_of (m := moment) (by rw [ready]; rfl), Job.woken_todo, same]
    · rw [Job.woken_eq_self (by simp [hs, JobState.sleepsUntil, here])]
      exact Job.due_of (by rw [hs]; rfl)
  | awaiting k =>
    have same : ∀ now, j.due signal now = agenda signal j.todo signal := fun now =>
      Job.due_of (by rw [hs]; rfl)
    rw [Job.woken_eq_self (by rw [hs]; rfl), same, same]
  | _ =>
    rw [Job.woken_eq_self (by rw [hs]; rfl), Job.due_none (by rw [hs]; rfl),
      Job.due_none (by rw [hs]; rfl)]

/-- Outside a turn what is due stays so, if the move is on time. -/
theorem due_outside (h : ByItself signals ending w i) (free : w.turn = none) {m : Move}
    (timely : w.Timely m) (rung : Rung signals signal w.service)
    (rung' : Rung signals signal (w.apply m).service) :
    (w.apply m).due signal i = w.due signal i := by
  obtain ⟨scheduled, unasked, known, j, hj, heeds⟩ := h
  rw [free] at scheduled
  rw [due_free free, dueOf_of hj]
  by_cases hb : m = .begin
  · subst hb
    rw [apply_begin free]
    have now := (JobsOnly.begin w.service).now
    cases ht : (Turn.begin w.service).1 with
    | none =>
      rw [due_free rfl, dueOf_of (j := j) (by rw [begin_jobs]; exact hj), now]
    | some t =>
      rw [due_turn rfl, now]
      split
      · rename_i own
        subst own
        -- whoever begins a turn can go on, and its turn is what it has still to do
        obtain ⟨j', hj', ready, -, todo⟩ := Turn.begin_eq_some ht
        rw [hj] at hj'
        cases hj'
        rw [← todo]
        exact (Job.due_of (by rw [ready]; rfl)).symm
      · rw [dueOf_of (j := j) (by rw [begin_jobs]; exact hj), now]
  · obtain ⟨j', hj', change⟩ := outside_left m unasked hj fun k hk => known k (heeds.awaiting k hk)
    rw [← apply_free free] at hj' change
    rw [due_free (apply_turn free hb), dueOf_of hj']
    rcases change with ⟨now, roused⟩ | ⟨later, rfl⟩
    · exact due_roused roused heeds (fun k => scheduled.awaiting i j k hj) now rung rung'
    · exact due_woken scheduled hj (timely later)

theorem did_cons_self (i : JobId) (moment : Nat) (x : Option Step) :
    did i [⟨moment, i, x⟩] = [(moment, x)] := by simp [did]

theorem did_cons_other {i job : JobId} (ne : job ≠ i) (moment : Nat) (x : Option Step) :
    did i [⟨moment, job, x⟩] = [] := by simp [did, ne]

theorem did_append (i : JobId) (ds es : List Deed) : did i (ds ++ es) = did i ds ++ did i es := by
  simp [did]

/-- **What a job does in a move and what is due then are what was due before.** -/
theorem apply_due (h : ByItself signals ending w i) {m : Move} (timely : w.Timely m)
    (rung : Rung signals signal w.service) (rung' : Rung signals signal (w.apply m).service) :
    did i (w.deedsOf m) ++ (w.apply m).due signal i = w.due signal i := by
  cases ht : w.turn with
  | none =>
    rw [deedsOf_free ht]
    exact due_outside h ht timely rung rung'
  | some t =>
    by_cases go : m = .go
    · subst go
      rw [deedsOf_go ht]
      by_cases own : t.job = i
      · subst own
        rw [did_cons_self]
        exact due_self h ht rung
      · rw [did_cons_other own, List.nil_append, due_turn ht, if_neg own]
        rw [apply_go ht] at rung' ⊢
        obtain ⟨scheduled, -, known, j, hj, heeds⟩ := h
        obtain ⟨j', hj', roused⟩ := step_roused hj (fun k hk => known k (heeds.awaiting k hk)) t
          heeds.unjoined own
        have still : World.due signal { w with
            turn := (t.step w.service).1, service := (t.step w.service).2 } i =
            (t.step w.service).2.dueOf signal i := by
          unfold due
          rcases t.step_cases w.service with ⟨_, rest, -, -, e⟩ | ⟨_, _, _, -, -, e⟩ | ⟨-, e⟩
          · rw [e]
            exact if_neg own
          · rw [e]
          · rw [e]
        rw [still, dueOf_of hj, dueOf_of hj']
        exact due_roused roused heeds (fun k => scheduled.awaiting i j k hj) (step_now t w.service)
          rung
          rung'
    · rw [deedsOf_wait go, apply_wait ht go]
      rfl

/-! ## 6. All moves together -/

theorem after_byItself (h : ByItself signals ending w i) (ms : List Move) :
    ByItself signals ending (w.after ms) i :=
  after_induction (P := fun v => ByItself signals ending v i) (fun _ m k => apply_byItself k m) w
    ms h

/-- **What a job of its own does and what is due then are together what was due before**, in
whatever happens on time. -/
theorem did_due {ms : List Move} (h : ByItself signals ending w i) (timely : w.OnTime ms)
    (rung : ∀ p, p <+: ms → Rung signals signal (w.after p).service) :
    did i (w.deeds ms) ++ (w.after ms).due signal i = w.due signal i := by
  induction ms generalizing w with
  | nil => rfl
  | cons m ms ih =>
    have later : ∀ p, p <+: ms → Rung signals signal ((w.apply m).after p).service :=
      fun p hp => rung (m :: p) ((List.prefix_cons_inj m).mpr hp)
    have first := apply_due h timely.1 (rung [] List.nil_prefix) (later [] List.nil_prefix)
    rw [deeds_cons, did_append, List.append_assoc, after_cons,
      ih (apply_byItself h m) timely.2 later, first]

/-- Whatever is done is done at a moment that has come. -/
theorem moment_of_deeds {ms : List Move} {d : Deed} (mem : d ∈ w.deeds ms) :
    w.service.now ≤ d.moment ∧ d.moment ≤ (w.after ms).service.now := by
  induction ms generalizing w with
  | nil => cases mem
  | cons m ms ih =>
    have first := apply_now w m
    rcases List.mem_append.mp mem with here | later
    · have moment : d.moment = w.service.now := by
        unfold deedsOf at here
        split at here
        · rw [List.mem_singleton.mp here]
        · cases here
      have rest := after_now (w.apply m) ms
      rw [after_cons]
      omega
    · obtain ⟨from', until'⟩ := ih later
      exact ⟨Nat.le_trans first from', until'⟩

theorem moment_of_did {ms : List Move} {x : Nat × Option Step} (mem : x ∈ did i (w.deeds ms)) :
    x.1 ≤ (w.after ms).service.now := by
  obtain ⟨d, hd, rfl⟩ := List.mem_map.mp mem
  exact (moment_of_deeds (List.mem_filter.mp hd).1).2

/-- Nobody has a turn and nobody waits for one. -/
def AtRest (w : World) : Prop := w.turn = none ∧ w.service.queue = []

/-- **When nobody can go on, a job that waits for no signal has done what was due until then, and
nothing else.** -/
theorem did_rest {ms : List Move} (h : ByItself signals ending w i) (timely : w.OnTime ms)
    (rung : ∀ p, p <+: ms → Rung signals signal (w.after p).service) (rest : (w.after ms).AtRest)
    (heard : ∀ k, signals k → (w.after ms).service.isFired k = true) :
    did i (w.deeds ms) = (w.due signal i).filter (·.1 ≤ (w.after ms).service.now) ∧
      (w.after ms).due signal i =
        (w.due signal i).filter fun x => ¬ x.1 ≤ (w.after ms).service.now := by
  have sum := did_due h timely rung
  obtain ⟨scheduled, -, -, j, hj, heeds⟩ := after_byItself h ms
  rw [rest.1] at scheduled
  have done : ∀ x ∈ did i (w.deeds ms), x.1 ≤ (w.after ms).service.now := fun _ => moment_of_did
  have open_ : ∀ x ∈ (w.after ms).due signal i, ¬ x.1 ≤ (w.after ms).service.now := by
    intro x mem
    rw [due_free rest.1, dueOf_of hj] at mem
    cases hs : j.state with
    | ready => exact absurd hs (scheduled.idle rest.2 hj)
    | sleeping n =>
      have asleep := scheduled.asleep i j n hj hs
      rw [Job.due_of (m := n) (by rw [hs]; rfl)] at mem
      have later := le_of_mem_agenda mem
      omega
    | awaiting k =>
      have fired := heard k (heeds.awaiting k hs)
      rw [scheduled.awaiting i j k hj hs] at fired
      cases fired
    | _ =>
      rw [Job.due_none (by rw [hs]; rfl)] at mem
      cases mem
  have none_done : (did i (w.deeds ms)).filter (fun x => ¬ x.1 ≤ (w.after ms).service.now) = [] :=
    List.filter_eq_nil_iff.mpr fun x mem => by simpa using done x mem
  have none_open : ((w.after ms).due signal i).filter (·.1 ≤ (w.after ms).service.now) = [] :=
    List.filter_eq_nil_iff.mpr fun x mem => by simpa using open_ x mem
  have all_done : (did i (w.deeds ms)).filter (·.1 ≤ (w.after ms).service.now) =
      did i (w.deeds ms) := List.filter_eq_self.mpr fun x mem => by simpa using done x mem
  have all_open : ((w.after ms).due signal i).filter (fun x => ¬ x.1 ≤ (w.after ms).service.now) =
      (w.after ms).due signal i := List.filter_eq_self.mpr fun x mem => by simpa using open_ x mem
  rw [← sum, List.filter_append, List.filter_append, all_done, none_open, none_done, all_open]
  simp

end Moves

end World

end ServiceHealth
