import ServiceHealth.Proofs.Scheduled

/-!
# Tasks and their bodies

Jobs are never taken away and tasks never exchanged: a job only does away with steps, and a task
keeps its body. So the body of a task stays a job that ends by itself and waits for no signal but
that of the task, and whoever waits for another job waits for the body of a task that was told to
stop.

* `Evolves`: how a service can go on from another, with `step_evolves` for the steps of a turn.
* `TasksHaveBodies`: the invariant, `after_tasksHaveBodies`: it holds in every world.
-/

namespace ServiceHealth

namespace Service

/-! ## 1. How jobs and tasks go on -/

/-- How a job can go on: it has done some of its steps, and may wait for the body of the task it
had to stop. -/
structure Job.Evolves (s' : Service) (j j' : Job) : Prop where
  todo : j'.todo <:+ j.todo
  close : j'.close = j.close ∨ ∃ (k : Nat) (t : RunningTask), j.close = .stopTask k ∧
    s'.tasks[k]? = some t ∧ t.fired = true ∧ j'.close = .join t.body
  awaiting : ∀ k, j'.state = .awaiting k → j.state = .awaiting k ∨ .awaitSignal k ∈ j.todo

/-- How a service can go on without new jobs and tasks. -/
structure Evolves (s s' : Service) : Prop where
  jobs : ∀ (i : JobId) (j' : Job), s'.jobs[i]? = some j' →
    ∃ j, s.jobs[i]? = some j ∧ j.Evolves s' j'
  length : s'.jobs.length = s.jobs.length
  tasks : ∀ (k : Nat) (t : RunningTask), s.tasks[k]? = some t →
    ∃ t', s'.tasks[k]? = some t' ∧ t'.body = t.body ∧ (t.fired = true → t'.fired = true)
  count : s'.tasks.length = s.tasks.length

theorem Job.Evolves.refl (s : Service) (j : Job) : j.Evolves s j :=
  ⟨List.suffix_refl _, .inl rfl, fun _ => .inl⟩

theorem Evolves.of_eq {s s' : Service} (jobs : s'.jobs = s.jobs) (tasks : s'.tasks = s.tasks) :
    Evolves s s' where
  jobs i j' h := ⟨j', by rw [← jobs]; exact h, .refl _ _⟩
  length := by rw [jobs]
  tasks k t h := ⟨t, by rw [tasks]; exact h, rfl, id⟩
  count := by rw [tasks]

theorem Evolves.refl (s : Service) : Evolves s s := .of_eq rfl rfl

theorem Evolves.trans {s s' s'' : Service} (h : Evolves s s') (k : Evolves s' s'') :
    Evolves s s'' where
  jobs := by
    intro i j'' hj''
    obtain ⟨j', hj', e'⟩ := k.jobs i j'' hj''
    obtain ⟨j, hj, e⟩ := h.jobs i j' hj'
    refine ⟨j, hj, e'.todo.trans e.todo, ?_, ?_⟩
    · rcases e.close with c | ⟨n, t, stops, ht, fired, c⟩
      · rw [← c]
        exact e'.close
      · obtain ⟨t', ht', body, still⟩ := k.tasks n t ht
        refine .inr ⟨n, t', stops, ht', still fired, ?_⟩
        rcases e'.close with c' | ⟨_, _, stops', -⟩
        · rw [c', c, body]
        · rw [c] at stops'
          cases stops'
    · intro n hn
      rcases e'.awaiting n hn with a | a
      · exact e.awaiting n a
      · exact .inr (e.todo.subset a)
  length := k.length.trans h.length
  tasks := by
    intro n t ht
    obtain ⟨t', ht', body, fired⟩ := h.tasks n t ht
    obtain ⟨t'', ht'', body', fired'⟩ := k.tasks n t' ht'
    exact ⟨t'', ht'', body'.trans body, fun f => fired' (fired f)⟩
  count := k.count.trans h.count

theorem Job.evolves_woken (s : Service) (p : JobState → Bool) (j : Job) :
    j.Evolves s (j.woken p) := by
  refine ⟨j.woken_todo p ▸ List.suffix_refl _, .inl (j.woken_close p), ?_⟩
  intro k hk
  exact .inl (Job.of_woken hk nofun).1

theorem evolves_wake (s : Service) (p : JobState → Bool) : Evolves s (s.wake p) where
  jobs := by
    intro i j' hj'
    obtain ⟨j, hj, rfl⟩ := woken_of hj'
    exact ⟨j, hj, j.evolves_woken _ p⟩
  length := jobs_wake_length s p
  tasks k t h := ⟨t, h, rfl, id⟩
  count := rfl

/-- A change of one job. -/
theorem evolves_updateJob (s : Service) {job : JobId} (f : Job → Job)
    (h : ∀ j, s.jobs[job]? = some j → j.Evolves s (f j)) : Evolves s (s.updateJob job f) where
  jobs := by
    intro i j' hj'
    rw [updateJob_getElem?] at hj'
    obtain ⟨j, hj, rfl⟩ := Option.map_eq_some_iff.mp hj'
    refine ⟨j, hj, ?_⟩
    split
    · rename_i e
      subst e
      exact ⟨(h j hj).todo, (h j hj).close, (h j hj).awaiting⟩
    · exact .refl _ _
  length := jobs_updateJob_length s job f
  tasks k t h := ⟨t, h, rfl, id⟩
  count := rfl

theorem evolves_told (s : Service) (task : Nat) : Evolves s ((s.fire task).claim task).2 where
  jobs := by
    intro i j' hj'
    rw [(claim_frame _ task).1, fire, wake_getElem?] at hj'
    obtain ⟨j, hj, rfl⟩ := Option.map_eq_some_iff.mp hj'
    exact ⟨j, hj, j.evolves_woken _ _⟩
  length := by
    rw [(claim_frame _ task).1]
    exact jobs_wake_length _ _
  tasks := by
    intro k t ht
    rw [told_tasks, List.getElem?_modify, ht]
    by_cases e : task = k
    · exact ⟨{ t with fired := true, claimed := true }, by simp [e], rfl, fun _ => rfl⟩
    · exact ⟨t, by simp [e], rfl, id⟩
  count := by rw [told_tasks, List.length_modify]

theorem Readied.evolves {s s' : Service} {close : Close} (r : Readied s close s') :
    Evolves s s' := by
  cases r with
  | same => exact .refl s
  | noted => exact .of_eq rfl rfl
  | told task => exact evolves_told s task

theorem closed_evolves {t : Turn} {s s' : Service} (h : Scheduled (some t) s)
    (c : Closed s t.job t.close s') : Evolves s s' := by
  cases c with
  | concluded r =>
    refine r.evolves.trans ((evolves_updateJob _ _ fun j _ => ?_).trans (evolves_wake _ _))
    exact ⟨List.nil_suffix, .inl rfl, nofun⟩
  | hung close' hc =>
    refine evolves_updateJob _ _ fun j hj => ?_
    obtain ⟨j', hj', -, close, -⟩ := h.seated t rfl
    rw [hj] at hj'
    cases hj'
    exact ⟨List.nil_suffix, .inl (hc.symm.trans close.symm), nofun⟩
  | joining r awaited k e =>
    refine r.evolves.trans (evolves_updateJob _ _ fun j hj => ?_)
    obtain ⟨j', hj', -, close, -⟩ := (r.scheduled h).seated t rfl
    rw [hj] at hj'
    cases hj'
    refine ⟨List.nil_suffix, ?_, nofun⟩
    rcases e with e | ⟨task, x, stops, hx, fired, body⟩
    · exact .inl (e.symm.trans close.symm)
    · exact .inr ⟨task, x, close.trans stops, hx, fired, by rw [body]⟩

/-- **What a step of a turn does to jobs and tasks.** -/
theorem step_evolves {t : Turn} {s : Service} (h : Scheduled (some t) s) :
    Evolves s (t.step s).2 := by
  rcases t.step_cases s with ⟨x, rest, -, -, e⟩ | ⟨x, rest, state, ht, hx, e⟩ | ⟨-, e⟩
  · rw [e]
    obtain ⟨jobs, -, -, tasks⟩ := act_frame s t.job t.who x
    exact .of_eq jobs tasks
  · rw [e]
    refine evolves_updateJob s _ fun j hj => ?_
    obtain ⟨j', hj', -, close, todo⟩ := h.seated t rfl
    rw [hj] at hj'
    cases hj'
    rw [ht] at todo
    refine ⟨(List.suffix_cons x rest).trans todo, .inl close.symm, ?_⟩
    intro k hk
    rcases holdUp?_cases hx with ⟨_, -, -, rfl⟩ | ⟨_, rfl, -, rfl⟩
    · cases hk
    · cases hk
      exact .inr (todo.subset List.mem_cons_self)
  · rw [e]
    exact closed_evolves h (closed_closeJob s t.job t.close)

theorem step_members (t : Turn) (s : Service) : (t.step s).2.members = s.members := by
  rcases t.step_cases s with ⟨x, rest, -, -, e⟩ | ⟨_, _, _, -, -, e⟩ | ⟨-, e⟩
  · rw [e]
    cases x with
    | begin checker =>
      simp only [act, beginRun]
      split
      · split <;> rfl
      · rfl
    | perform a => cases a <;> rfl
    | _ => rfl
  · rw [e]
    rfl
  · rw [e]
    exact (closed_closeJob s t.job t.close).jobsOnly.members

theorem begin_evolves (s : Service) : Evolves s (Turn.begin s).2 :=
  .of_eq (begin_jobs s) (begin_tasks s)

theorem abort_evolves (s : Service) (job : JobId) : Evolves s (s.abort job) := by
  refine evolves_updateJob s _ fun j _ => ?_
  split
  · exact .refl _ _
  · exact ⟨List.suffix_refl _, .inl rfl, nofun⟩

/-! ## 2. The bodies of tasks -/

/-- The body of a task ends by itself and waits for no signal but that of the task. -/
structure IsBody (task : Nat) (j : Job) : Prop where
  close : ∃ e, j.close = .ending e
  waits : ∀ k, .awaitSignal k ∈ j.todo → k = task
  awaiting : ∀ k, j.state = .awaiting k → k = task

theorem ofBody_isBody (task : Nat) (t : Shutdown.Task) : IsBody task (.ofBody task t) where
  close := ⟨_, rfl⟩
  waits k h := by
    simp only [Job.ofBody, work, List.mem_cons, List.mem_append] at h
    rcases h with h | (h | h) | h
    · cases h
    · split at h
      · simp at h
        exact h
      · cases h
    · cases hd : t.delay <;> simp [hd] at h
    · cases ht : t.ending <;> simp [ht] at h
  awaiting k h := by cases h

theorem IsBody.evolve {task : Nat} {s' : Service} {j j' : Job} (h : IsBody task j)
    (e : j.Evolves s' j') : IsBody task j' where
  close := by
    obtain ⟨ending, close⟩ := h.close
    rcases e.close with c | ⟨_, _, stops, -⟩
    · exact ⟨ending, c.trans close⟩
    · rw [close] at stops
      cases stops
  waits k hk := h.waits k (e.todo.subset hk)
  awaiting k hk := (e.awaiting k hk).elim (h.awaiting k) (h.waits k)

/-- The task of a member, if it is one. -/
def Member.task? : Member → Option Nat
  | .component _ => none
  | .task k => some k

/-- **Every task has its body.** The job of a body is that of its task, whoever waits for another
job waits for the body of a task that was told to stop, and no task is registered twice. -/
structure TasksHaveBodies (s : Service) : Prop where
  bodies : ∀ (k : Nat) (t : RunningTask), s.tasks[k]? = some t →
    ∃ j, s.jobs[t.body]? = some j ∧ IsBody k j
  joins : ∀ (i : JobId) (j : Job) (b : JobId), s.jobs[i]? = some j → j.close = .join b →
    ∃ (k : Nat) (t : RunningTask), s.tasks[k]? = some t ∧ t.body = b ∧ t.fired = true
  known : ∀ k ∈ s.members.filterMap Member.task?, k < s.tasks.length
  single : (s.members.filterMap Member.task?).Nodup

theorem new_tasksHaveBodies (setup : Setup) (clock : Time.Stamp) :
    TasksHaveBodies (.new setup clock) where
  bodies _ _ h := by cases h
  joins _ _ _ h := by cases h
  known _ h := by cases h
  single := List.nodup_nil

theorem TasksHaveBodies.evolve {s s' : Service} (h : TasksHaveBodies s) (e : Evolves s s')
    (members : s'.members = s.members) : TasksHaveBodies s' where
  bodies := by
    intro k t' ht'
    have lt : k < s.tasks.length := by
      rw [← e.count]
      exact (List.getElem?_eq_some_iff.mp ht').1
    obtain ⟨t'', ht'', body, -⟩ := e.tasks k _ (List.getElem?_eq_getElem lt)
    rw [ht'] at ht''
    cases ht''
    obtain ⟨j, hj, isBody⟩ := h.bodies k _ (List.getElem?_eq_getElem lt)
    have lt' : t'.body < s'.jobs.length := by
      rw [body, e.length]
      exact (List.getElem?_eq_some_iff.mp hj).1
    obtain ⟨j₀, hj₀, ev⟩ := e.jobs t'.body _ (List.getElem?_eq_getElem lt')
    rw [body, hj] at hj₀
    cases hj₀
    exact ⟨_, List.getElem?_eq_getElem lt', isBody.evolve ev⟩
  joins := by
    intro i j' b hj' hb
    obtain ⟨j, hj, ev⟩ := e.jobs i j' hj'
    rcases ev.close with c | ⟨k, t, -, ht, fired, c⟩
    · obtain ⟨k, t, ht, body, fired⟩ := h.joins i j b hj (c.symm.trans hb)
      obtain ⟨t', ht', body', fired'⟩ := e.tasks k t ht
      exact ⟨k, t', ht', body'.trans body, fired' fired⟩
    · rw [hb] at c
      cases c
      exact ⟨k, t, ht, rfl, fired⟩
  known := by rw [members, e.count]; exact h.known
  single := by rw [members]; exact h.single

/-- A change that touches neither jobs nor tasks nor members. -/
theorem TasksHaveBodies.congr {s s' : Service} (h : TasksHaveBodies s) (jobs : s'.jobs = s.jobs)
    (tasks : s'.tasks = s.tasks) (members : s'.members = s.members) : TasksHaveBodies s' :=
  h.evolve (.of_eq jobs tasks) members

theorem TasksHaveBodies.spawn {s : Service} (h : TasksHaveBodies s) {new : Job}
    (fresh : Fresh new) : TasksHaveBodies (s.spawn new) where
  bodies k t ht := by
    obtain ⟨j, hj, isBody⟩ := h.bodies k t ht
    exact ⟨j, spawn_getElem?_old hj, isBody⟩
  joins i j b hj hb := by
    rcases spawn_getElem? hj with old | ⟨-, rfl⟩
    · exact h.joins i j b old hb
    · exact absurd hb (fresh.free b)
  known := h.known
  single := h.single

theorem TasksHaveBodies.startTask {s : Service} (h : TasksHaveBodies s) (t : Shutdown.Task) :
    TasksHaveBodies { (s.startTask t).2 with
      members := (s.startTask t).2.members ++ [.task (s.startTask t).1] } := by
  have spawned := h.spawn (ofBody_fresh s.tasks.length t)
  refine ⟨?_, ?_, ?_, ?_⟩
  · intro k x hx
    change (s.tasks ++ [_])[k]? = some x at hx
    rw [List.getElem?_append] at hx
    split at hx
    · exact spawned.bodies k x hx
    · rename_i le
      obtain ⟨lt, hx⟩ := List.getElem?_eq_some_iff.mp hx
      have last : k = s.tasks.length := by
        simp only [List.length_singleton] at lt
        omega
      subst last
      simp only [Nat.sub_self, List.getElem_cons_zero] at hx
      subst hx
      refine ⟨_, ?_, ofBody_isBody s.tasks.length t⟩
      show (s.jobs ++ [_])[s.jobs.length]? = _
      simp
  · intro i j b hj hb
    obtain ⟨k, x, hx, body, fired⟩ := spawned.joins i j b hj hb
    have old : s.tasks[k]? = some x := hx
    refine ⟨k, x, ?_, body, fired⟩
    show (s.tasks ++ [_])[k]? = some x
    rw [List.getElem?_append_left (List.getElem?_eq_some_iff.mp old).1]
    exact old
  · intro k hk
    change k ∈ (s.members ++ [Member.task s.tasks.length]).filterMap Member.task? at hk
    show k < (s.tasks ++ [_]).length
    rw [List.filterMap_append, List.mem_append] at hk
    rw [List.length_append, List.length_singleton]
    rcases hk with hk | hk
    · have := h.known k hk
      omega
    · simp [Member.task?] at hk
      omega
  · show ((s.members ++ [Member.task s.tasks.length]).filterMap Member.task?).Nodup
    rw [List.filterMap_append, List.nodup_append]
    refine ⟨h.single, by simp [Member.task?], ?_⟩
    intro k hk k' hk' e
    have := h.known k hk
    simp [Member.task?] at hk'
    omega

theorem TasksHaveBodies.addComponent {s : Service} (h : TasksHaveBodies s)
    (c : Shutdown.Component) :
    TasksHaveBodies { s with members := s.members ++ [.component c] } := by
  have still : (s.members ++ [Member.component c]).filterMap Member.task? =
      s.members.filterMap Member.task? := by
    rw [List.filterMap_append, List.filterMap_cons_none rfl, List.filterMap_nil, List.append_nil]
  refine ⟨h.bodies, h.joins, ?_, ?_⟩
  · show ∀ k ∈ (s.members ++ [Member.component c]).filterMap Member.task?, _
    rw [still]
    exact h.known
  · show ((s.members ++ [Member.component c]).filterMap Member.task?).Nodup
    rw [still]
    exact h.single

theorem TasksHaveBodies.teardownsStarted {s : Service} (h : TasksHaveBodies s) (deadline : Nat) :
    TasksHaveBodies (s.teardownsStarted deadline) := by
  have each : ∀ (ms : List Member) (s : Service), TasksHaveBodies s →
      TasksHaveBodies (startTeardowns deadline ms s).2 := by
    intro ms
    induction ms with
    | nil => exact fun _ h => h
    | cons m ms ih =>
      intro s h
      simp only [startTeardowns, startTeardown_eq]
      exact ih _ (h.spawn (teardown_fresh s deadline m))
  have started := each s.members s h
  rw [startTeardowns_eq] at started
  exact started.congr rfl rfl rfl

end Service

/-! ## 3. Worlds -/

namespace World

open Service

theorem outside_tasksHaveBodies {w : World} (h : TasksHaveBodies w.service) (m : Move) :
    TasksHaveBodies (w.outside m).service := by
  by_cases hb : m = .begin
  · subst hb
    exact h.evolve (begin_evolves _) (JobsOnly.begin _).members
  exact outside_rule hb h
    (fun _ _ q h => h.congr q.jobs q.tasks q.members)
    (fun c _ => h.addComponent c)
    (fun t _ => h.startTask t)
    (fun _ _ _ _ _ h => h.spawn (ofRun_fresh _ _ _))
    (fun s job _ h => h.evolve (abort_evolves s job) rfl)
    (fun k _ _ => h.evolve (evolves_told _ k) ((JobsOnly.fire _ _).trans (.claim _ k)).members)
    (fun _ _ d => h.teardownsStarted d)
    (fun moment _ =>
      have later : TasksHaveBodies { w.service with now := moment } := h.congr rfl rfl rfl
      later.evolve (evolves_wake _ _) rfl)

/-- **In every world the tasks are haveBodies.** -/
theorem after_tasksHaveBodies (w : World) (ms : List Move) (scheduled : Scheduled w.turn w.service)
    (h : TasksHaveBodies w.service) : TasksHaveBodies (w.after ms).service := by
  induction ms generalizing w with
  | nil => exact h
  | cons m ms ih =>
    refine ih (w.apply m) (apply_scheduled w m scheduled) ?_
    unfold apply
    split
    · exact outside_tasksHaveBodies h m
    · rename_i t ht
      split
      · rw [ht] at scheduled
        exact h.evolve (step_evolves scheduled) (step_members t _)
      · exact h

end World

end ServiceHealth
