import ServiceHealth.Proofs.World

/-!
# Scheduled services

At every moment every job is where the scheduler looks for it: whoever can go on has its turn or
stands in the queue, a sleep ends in the future, nobody waits for a signal that has been fired or
for a job that has ended. `Scheduled` says so, also in the middle of a turn.

* `step_scheduled`, `begin_scheduled`: a turn keeps it.
* `apply_scheduled`, `after_scheduled`: every move keeps it, so it holds in every world.
-/

namespace ServiceHealth

namespace Service

/-! ## 1. The invariant -/

/-- Whether a job has given its result or was given up. -/
def JobState.isOver : JobState → Bool
  | .ended _ => true
  | .aborted => true
  | _ => false

/-- **Every job is where the scheduler looks for it.** Whoever can go on stands in the queue or has
its turn; whoever sleeps wakes later than now; whoever waits for a signal or for another job waits
for what has not come yet; and the turn is that of a job that can go on, with the end of its
script. -/
structure Scheduled (turn : Option Turn) (s : Service) : Prop where
  queued : ∀ (i : JobId) (j : Job), s.jobs[i]? = some j → j.state = .ready →
    i ∈ s.queue ∨ ∃ t, turn = some t ∧ t.job = i
  asleep : ∀ (i : JobId) (j : Job) m, s.jobs[i]? = some j → j.state = .sleeping m → s.now < m
  awaiting : ∀ (i : JobId) (j : Job) k, s.jobs[i]? = some j → j.state = .awaiting k →
    s.isFired k = false
  joining : ∀ (i : JobId) (j : Job) b, s.jobs[i]? = some j → j.state = .joining b →
    j.close = .join b ∧ s.result? b = none
  joined : ∀ (i : JobId) (j : Job) b, s.jobs[i]? = some j → j.close = .join b →
    j.state = .joining b ∨ (s.result? b).isSome ∨ j.state.isOver
  seated : ∀ t, turn = some t →
    ∃ j, s.jobs[t.job]? = some j ∧ j.state = .ready ∧ j.close = t.close ∧ t.todo <:+ j.todo

/-- When nobody has a turn and nobody waits for one, nobody can go on. -/
theorem Scheduled.idle {s : Service} (h : Scheduled none s) (empty : s.queue = []) {i : JobId}
    {j : Job} (hj : s.jobs[i]? = some j) : j.state ≠ .ready := by
  intro e
  rcases h.queued i j hj e with k | ⟨_, k, -⟩
  · rw [empty] at k
    cases k
  · cases k

theorem isFired_congr {s s' : Service} (h : s'.tasks = s.tasks) (k : Nat) :
    s'.isFired k = s.isFired k := by
  unfold isFired
  rw [h]

theorem result?_congr {s s' : Service} (h : s'.jobs = s.jobs) (i : JobId) :
    s'.result? i = s.result? i := by
  unfold result?
  rw [h]

theorem result?_eq_none {s : Service} {i : JobId} :
    s.result? i = none ↔ ∀ j r, s.jobs[i]? = some j → j.state ≠ .ended r := by
  constructor
  · intro h j r hj hr
    rw [result?_eq_some.mpr ⟨j, hj, hr⟩] at h
    cases h
  · intro h
    cases hr : s.result? i with
    | none => rfl
    | some r =>
      obtain ⟨j, hj, hs⟩ := result?_eq_some.mp hr
      exact absurd hs (h j r hj)

/-- A change that touches neither jobs nor queue nor signals nor the clock. -/
theorem Scheduled.congr {turn : Option Turn} {s s' : Service} (h : Scheduled turn s)
    (jobs : s'.jobs = s.jobs) (queue : s'.queue = s.queue) (now : s'.now = s.now)
    (fired : ∀ k, s'.isFired k = s.isFired k) : Scheduled turn s' where
  queued := by rw [jobs, queue]; exact h.queued
  asleep := by rw [jobs, now]; exact h.asleep
  awaiting i j k hj hk := by
    rw [fired]
    rw [jobs] at hj
    exact h.awaiting i j k hj hk
  joining i j b hj hb := by
    rw [result?_congr jobs]
    rw [jobs] at hj
    exact h.joining i j b hj hb
  joined i j b hj hb := by
    rw [result?_congr jobs]
    rw [jobs] at hj
    exact h.joined i j b hj hb
  seated := by rw [jobs]; exact h.seated

theorem new_scheduled (setup : Setup) (clock : Time.Stamp) : Scheduled none (.new setup clock) where
  queued _ _ h := by cases h
  asleep _ _ _ h := by cases h
  awaiting _ _ _ h := by cases h
  joining _ _ _ h := by cases h
  joined _ _ _ h := by cases h
  seated _ h := by cases h

/-! ## 2. Jobs that are woken, held up and closed -/

theorem Job.woken_eq_self {p : JobState → Bool} {j : Job} (h : p j.state = false) :
    j.woken p = j := by
  unfold Job.woken
  rw [h]
  rfl

/-- A job that is woken can go on; any other is as it was. -/
theorem Job.of_woken {p : JobState → Bool} {j : Job} {x : JobState}
    (h : (j.woken p).state = x) (ne : x ≠ .ready) : j.state = x ∧ p x = false := by
  rw [Job.woken_state] at h
  split at h
  · exact absurd h.symm ne
  · rename_i hp
    exact ⟨h, by rw [← h]; simpa using hp⟩

theorem woken_of {s : Service} {p : JobState → Bool} {i : JobId} {j : Job}
    (hj : (s.wake p).jobs[i]? = some j) : ∃ j', s.jobs[i]? = some j' ∧ j = j'.woken p := by
  rw [wake_getElem?] at hj
  obtain ⟨j', hj', rfl⟩ := Option.map_eq_some_iff.mp hj
  exact ⟨j', hj', rfl⟩

theorem result?_wake (s : Service) (p : JobState → Bool) (hp : ∀ r, p (.ended r) = false)
    (i : JobId) : (s.wake p).result? i = s.result? i := by
  cases hr : s.result? i with
  | some r =>
    obtain ⟨j, hj, hs⟩ := result?_eq_some.mp hr
    refine result?_eq_some.mpr ⟨j, ?_, hs⟩
    rw [wake_getElem?, hj, Option.map_some, Job.woken_eq_self (by rw [hs, hp])]
  | none =>
    refine result?_eq_none.mpr fun j r hj hs => ?_
    obtain ⟨j', hj', rfl⟩ := woken_of hj
    exact result?_eq_none.mp hr j' r hj' (Job.of_woken hs nofun).1

theorem isFired_fire (s : Service) (task k : Nat) :
    (s.fire task).isFired k = (s.isFired k || (task == k && k < s.tasks.length)) := by
  unfold isFired fire updateTask wake
  simp only [List.getElem?_modify]
  cases h : s.tasks[k]? with
  | none =>
    have : s.tasks.length ≤ k := by simpa using h
    simp; omega
  | some t =>
    obtain ⟨lt, -⟩ := List.getElem?_eq_some_iff.mp h
    by_cases e : task = k <;> simp [e, lt]

theorem isFired_claim (s : Service) (task k : Nat) :
    (s.claim task).2.isFired k = s.isFired k := by
  unfold claim
  split
  · unfold isFired updateTask
    simp only [List.getElem?_modify]
    cases h : s.tasks[k]? with
    | none => rfl
    | some t => by_cases e : task = k <;> simp [e]
  · rfl

theorem joins_over {state : JobState} (h : state.isOver = true) (job : JobId) :
    JobState.joins job state = false := by
  cases state with
  | joining b => cases h
  | _ => rfl

/-- **Waking sleepers and those that wait for a signal** leaves a service scheduled if whoever is
not woken has still to do so. The time and the signals may have changed before. -/
theorem Scheduled.woken {turn : Option Turn} {s s' : Service} (h : Scheduled turn s)
    {p : JobState → Bool} (held : ∀ x, p x = true → (∃ m, x = .sleeping m) ∨ ∃ k, x = .awaiting k)
    (jobs : s'.jobs = s.jobs) (queue : s'.queue = s.queue)
    (asleep : ∀ (i : JobId) (j : Job) m, s.jobs[i]? = some j → j.state = .sleeping m →
      p (.sleeping m) = false → s'.now < m)
    (awaiting : ∀ (i : JobId) (j : Job) k, s.jobs[i]? = some j → j.state = .awaiting k →
      p (.awaiting k) = false → s'.isFired k = false) :
    Scheduled turn (s'.wake p) := by
  have calm : ∀ r, p (.ended r) = false := fun r =>
    Bool.eq_false_iff.mpr fun k => by rcases held _ k with ⟨_, e⟩ | ⟨_, e⟩ <;> cases e
  have result : ∀ i, (s'.wake p).result? i = s.result? i := fun i =>
    (result?_wake s' p calm i).trans (result?_congr jobs i)
  refine ⟨?_, ?_, ?_, ?_, ?_, ?_⟩
  · intro i j hj hs
    obtain ⟨j', hj', rfl⟩ := woken_of hj
    rw [Job.woken_state] at hs
    split at hs
    · rename_i hp
      exact .inl (List.mem_append_right _ (mem_jobsIn.mpr ⟨j', hj', hp⟩))
    · rw [jobs] at hj'
      refine (h.queued i j' hj' hs).imp (fun mem => List.mem_append_left _ ?_) id
      rw [queue]
      exact mem
  · intro i j m hj hs
    obtain ⟨j', hj', rfl⟩ := woken_of hj
    obtain ⟨hs, hp⟩ := Job.of_woken hs nofun
    exact asleep i j' m (jobs ▸ hj') hs hp
  · intro i j k hj hs
    obtain ⟨j', hj', rfl⟩ := woken_of hj
    obtain ⟨hs, hp⟩ := Job.of_woken hs nofun
    exact awaiting i j' k (jobs ▸ hj') hs hp
  · intro i j b hj hs
    obtain ⟨j', hj', rfl⟩ := woken_of hj
    obtain ⟨hs, -⟩ := Job.of_woken hs nofun
    rw [result, Job.woken_close]
    exact h.joining i j' b (jobs ▸ hj') hs
  · intro i j b hj hb
    obtain ⟨j', hj', rfl⟩ := woken_of hj
    rw [Job.woken_close] at hb
    rw [result]
    have old := h.joined i j' b (jobs ▸ hj') hb
    by_cases hp : p j'.state = true
    · refine .inr (.inl ?_)
      rcases held _ hp with ⟨_, e⟩ | ⟨_, e⟩ <;>
      · rw [e] at old
        rcases old with k | k | k
        · cases k
        · exact k
        · cases k
    · rw [Job.woken_eq_self (by simpa using hp)]
      exact old
  · intro t ht
    obtain ⟨j, hj, hs, hc, htodo⟩ := h.seated t ht
    have same : j.woken p = j := by
      refine Job.woken_eq_self (Bool.eq_false_iff.mpr fun k => ?_)
      rw [hs] at k
      rcases held _ k with ⟨_, e⟩ | ⟨_, e⟩ <;> cases e
    refine ⟨j, ?_, hs, hc, htodo⟩
    rw [wake_getElem?, jobs, hj, Option.map_some, same]

/-- Firing a signal wakes exactly those who wait for it. -/
theorem fire_scheduled {turn : Option Turn} {s : Service} (h : Scheduled turn s) (task : Nat) :
    Scheduled turn (s.fire task) := by
  refine Scheduled.woken h (fun x hx => ?_) rfl rfl (fun i j m hj hs _ => h.asleep i j m hj hs)
    fun i j k hj hs hp => ?_
  · cases x with
    | awaiting k => exact .inr ⟨k, rfl⟩
    | _ => cases hx
  · have other : (task == k) = false := by
      have ne : ¬ k = task := by simpa [JobState.awaits] using hp
      simpa using fun e => ne e.symm
    have fired := isFired_fire s task k
    rw [other, h.awaiting i j k hj hs] at fired
    exact fired

theorem claim_frame (s : Service) (task : Nat) :
    (s.claim task).2.jobs = s.jobs ∧ (s.claim task).2.queue = s.queue ∧
      (s.claim task).2.now = s.now := by
  unfold claim
  split <;> exact ⟨rfl, rfl, rfl⟩

theorem Readied.scheduled {turn : Option Turn} {s s' : Service} {close : Close}
    (r : Readied s close s') (h : Scheduled turn s) : Scheduled turn s' := by
  cases r with
  | same => exact h
  | noted => exact h.congr rfl rfl rfl fun _ => rfl
  | told task =>
    obtain ⟨jobs, queue, now⟩ := claim_frame (s.fire task) task
    exact (fire_scheduled h task).congr jobs queue now (isFired_claim _ task)

/-- A job after another has come to its close. -/
theorem conclude_getElem? (s : Service) (job : JobId) (r : Result) (i : JobId) :
    (s.conclude job r).jobs[i]? = (s.jobs[i]?).map fun j =>
      if job = i then { j with todo := [], state := .ended r }
      else j.woken (JobState.joins job) := by
  unfold conclude
  rw [wake_getElem?, updateJob_getElem?, Option.map_map]
  congr 1
  funext j
  by_cases e : job = i
  · simp only [Function.comp, e, if_true]
    exact Job.woken_eq_self rfl
  · simp only [Function.comp, e, if_false]

theorem hold_getElem? (s : Service) (job : JobId) (todo : List Step) (close : Close)
    (state : JobState) (i : JobId) :
    (s.hold job todo close state).jobs[i]? =
      (s.jobs[i]?).map fun j => if job = i then { j with todo, close, state } else j :=
  updateJob_getElem? s job _ i

theorem result?_conclude (s : Service) (job : JobId) (r : Result) (i : JobId) :
    (s.conclude job r).result? i =
      if job = i ∧ job < s.jobs.length then some r else s.result? i := by
  by_cases e : job = i
  · subst e
    by_cases lt : job < s.jobs.length
    · rw [if_pos ⟨rfl, lt⟩]
      refine result?_eq_some.mpr ⟨{ s.jobs[job] with todo := [], state := .ended r }, ?_, rfl⟩
      rw [conclude_getElem?, List.getElem?_eq_getElem lt, Option.map_some, if_pos rfl]
    · rw [if_neg fun k => lt k.2]
      have absent : s.jobs[job]? = none := List.getElem?_eq_none (Nat.le_of_not_lt lt)
      unfold result?
      rw [conclude_getElem?, absent]
      rfl
  · rw [if_neg fun k => e k.1]
    unfold conclude
    rw [result?_wake _ _ fun _ => rfl]
    unfold result?
    rw [updateJob_getElem?]
    cases s.jobs[i]? with
    | none => rfl
    | some j => simp [e]

/-- A job that is held up had no result before and has none after. -/
theorem result?_hold (s : Service) {job : JobId} (todo : List Step) (close : Close)
    {state : JobState} (before : s.result? job = none) (after : ∀ r, state ≠ .ended r)
    (i : JobId) : (s.hold job todo close state).result? i = s.result? i := by
  by_cases e : job = i
  · subst e
    rw [before]
    refine result?_eq_none.mpr fun j r hj => ?_
    rw [hold_getElem?] at hj
    obtain ⟨j', -, rfl⟩ := Option.map_eq_some_iff.mp hj
    rw [if_pos rfl]
    exact after r
  · unfold result?
    rw [hold_getElem?]
    cases s.jobs[i]? with
    | none => rfl
    | some j => simp [e]

theorem Scheduled.unfinished {t : Turn} {s : Service} (h : Scheduled (some t) s) :
    s.result? t.job = none := by
  obtain ⟨j, hj, ready, -, -⟩ := h.seated t rfl
  refine result?_eq_none.mpr fun j' r hj' e => ?_
  rw [hj] at hj'
  cases hj'
  rw [ready] at e
  cases e

theorem Scheduled.seat {t : Turn} {s : Service} (h : Scheduled (some t) s) :
    t.job < s.jobs.length := by
  obtain ⟨j, hj, -, -, -⟩ := h.seated t rfl
  exact (List.getElem?_eq_some_iff.mp hj).1

/-- A state in which a job can be held up: what it waits for has not come yet. -/
inductive Blocked (s : Service) (close : Close) : JobState → Prop where
  | sleeping {m : Nat} (h : s.now < m) : Blocked s close (.sleeping m)
  | awaiting {k : Nat} (h : s.isFired k = false) : Blocked s close (.awaiting k)
  | joining {b : JobId} (h : s.result? b = none) (e : close = .join b) :
      Blocked s close (.joining b)
  | hung : Blocked s close .hung

theorem hold_scheduled {t : Turn} {s : Service} (h : Scheduled (some t) s) (todo : List Step)
    {close : Close} {state : JobState} (blocked : Blocked s close state)
    (joined : ∀ b, close = .join b → state = .joining b ∨ (s.result? b).isSome) :
    Scheduled none (s.hold t.job todo close state) := by
  have after : ∀ r, state ≠ .ended r := by
    rintro r rfl
    cases blocked
  have result : ∀ i, (s.hold t.job todo close state).result? i = s.result? i :=
    result?_hold s todo close h.unfinished after
  refine ⟨?_, ?_, ?_, ?_, ?_, ?_⟩
  · intro i j hj hs
    rw [hold_getElem?] at hj
    obtain ⟨j', hj', rfl⟩ := Option.map_eq_some_iff.mp hj
    split at hs
    · subst hs
      cases blocked
    · rename_i ne
      rcases h.queued i j' hj' hs with k | ⟨t', ht', e⟩
      · exact .inl k
      · cases ht'
        exact absurd e ne
  · intro i j m hj hs
    rw [hold_getElem?] at hj
    obtain ⟨j', hj', rfl⟩ := Option.map_eq_some_iff.mp hj
    split at hs
    · subst hs
      cases blocked with
      | sleeping lt => exact lt
    · exact h.asleep i j' m hj' hs
  · intro i j k hj hs
    rw [hold_getElem?] at hj
    obtain ⟨j', hj', rfl⟩ := Option.map_eq_some_iff.mp hj
    split at hs
    · subst hs
      cases blocked with
      | awaiting silent => exact silent
    · exact h.awaiting i j' k hj' hs
  · intro i j b hj hs
    rw [hold_getElem?] at hj
    obtain ⟨j', hj', rfl⟩ := Option.map_eq_some_iff.mp hj
    rw [result]
    split at hs
    · rename_i e
      subst hs
      cases blocked with
      | joining missing hc => exact ⟨by rw [if_pos e]; exact hc, missing⟩
    · rename_i ne
      rw [if_neg ne]
      exact h.joining i j' b hj' hs
  · intro i j b hj hb
    rw [hold_getElem?] at hj
    obtain ⟨j', hj', rfl⟩ := Option.map_eq_some_iff.mp hj
    rw [result]
    by_cases e : t.job = i
    · rw [if_pos e] at hb ⊢
      exact (joined b hb).imp id .inl
    · rw [if_neg e] at hb ⊢
      exact h.joined i j' b hj' hb
  · intro t' ht'
    cases ht'

theorem conclude_of {s : Service} {job i : JobId} {r : Result} {j : Job}
    (hj : (s.conclude job r).jobs[i]? = some j) : ∃ j', s.jobs[i]? = some j' ∧
      ((job = i ∧ j = { j' with todo := [], state := .ended r }) ∨
        (job ≠ i ∧ j = j'.woken (JobState.joins job))) := by
  rw [conclude_getElem?] at hj
  obtain ⟨j', hj', rfl⟩ := Option.map_eq_some_iff.mp hj
  refine ⟨j', hj', ?_⟩
  by_cases e : job = i
  · exact .inl ⟨e, if_pos e⟩
  · exact .inr ⟨e, if_neg e⟩

theorem conclude_scheduled {t : Turn} {s : Service} (h : Scheduled (some t) s) (r : Result) :
    Scheduled none (s.conclude t.job r) := by
  have lt : t.job < s.jobs.length := h.seat
  have result : ∀ i, (s.conclude t.job r).result? i =
      if t.job = i then some r else s.result? i := by
    intro i
    rw [result?_conclude]
    simp only [lt, and_true]
  refine ⟨?_, ?_, ?_, ?_, ?_, ?_⟩
  · intro i j hj hs
    obtain ⟨j', hj', ⟨-, rfl⟩ | ⟨ne, rfl⟩⟩ := conclude_of hj
    · cases hs
    · rw [Job.woken_state] at hs
      split at hs
      · rename_i hp
        refine .inl (List.mem_append_right _ (mem_jobsIn.mpr ⟨j', ?_, hp⟩))
        rw [updateJob_getElem?, hj', Option.map_some, if_neg ne]
      · rcases h.queued i j' hj' hs with k | ⟨t', ht', e⟩
        · exact .inl (List.mem_append_left _ k)
        · cases ht'
          exact absurd e ne
  · intro i j m hj hs
    obtain ⟨j', hj', ⟨-, rfl⟩ | ⟨-, rfl⟩⟩ := conclude_of hj
    · cases hs
    · exact h.asleep i j' m hj' (Job.of_woken hs nofun).1
  · intro i j k hj hs
    obtain ⟨j', hj', ⟨-, rfl⟩ | ⟨-, rfl⟩⟩ := conclude_of hj
    · cases hs
    · exact h.awaiting i j' k hj' (Job.of_woken hs nofun).1
  · intro i j b hj hs
    obtain ⟨j', hj', ⟨-, rfl⟩ | ⟨-, rfl⟩⟩ := conclude_of hj
    · cases hs
    · obtain ⟨hs, hp⟩ := Job.of_woken hs nofun
      -- a job that goes on waiting does not wait for the one that has ended
      have other : t.job ≠ b := by
        rintro rfl
        simp [JobState.joins] at hp
      rw [Job.woken_close, result, if_neg other]
      exact h.joining i j' b hj' hs
  · intro i j b hj hb
    obtain ⟨j', hj', ⟨-, rfl⟩ | ⟨-, rfl⟩⟩ := conclude_of hj
    · exact .inr (.inr rfl)
    · rw [Job.woken_close] at hb
      rw [result]
      by_cases e : t.job = b
      · rw [if_pos e]
        exact .inr (.inl rfl)
      · rw [if_neg e, Job.woken_state]
        rcases h.joined i j' b hj' hb with k | k | k
        · refine .inl ?_
          rw [k, if_neg (by simpa [JobState.joins] using fun q => e q.symm)]
        · exact .inr (.inl k)
        · refine .inr (.inr ?_)
          rw [if_neg (by rw [joins_over k]; nofun)]
          exact k
  · intro t' ht'
    cases ht'

/-! ## 3. Turns -/

theorem begin_jobs (s : Service) : (Turn.begin s).2.jobs = s.jobs := by
  unfold Turn.begin
  split <;> rfl

theorem begin_tasks (s : Service) : (Turn.begin s).2.tasks = s.tasks := by
  unfold Turn.begin
  split <;> rfl

/-- Whoever has its turn and waits for another job finds that it has ended. -/
theorem Scheduled.ripe {t : Turn} {s : Service} (h : Scheduled (some t) s) {b : JobId}
    (hb : t.close = .join b) : (s.result? b).isSome := by
  obtain ⟨j, hj, ready, close, -⟩ := h.seated t rfl
  rcases h.joined t.job j b hj (close.trans hb) with k | k | k
  · rw [ready] at k
    cases k
  · exact k
  · rw [ready] at k
    cases k

theorem begin_scheduled {s : Service} (h : Scheduled none s) :
    Scheduled (Turn.begin s).1 (Turn.begin s).2 := by
  have jobs := begin_jobs s
  have frame := JobsOnly.begin s
  have kept : Scheduled none { (Turn.begin s).2 with queue := s.queue } :=
    h.congr jobs rfl frame.now (isFired_congr (begin_tasks s))
  refine ⟨?_, kept.asleep, kept.awaiting, kept.joining, kept.joined, ?_⟩
  · intro i j hj hs
    rw [jobs] at hj
    have queued : i ∈ s.queue := (h.queued i j hj hs).elim id fun ⟨_, k, _⟩ => nomatch k
    unfold Turn.begin
    cases hq : s.queue with
    | nil =>
      rw [hq] at queued
      cases queued
    | cons job rest =>
      rw [hq, List.mem_cons] at queued
      refine queued.elim (fun e => .inr ?_) .inl
      subst e
      exact ⟨⟨i, j.who, j.close, j.todo⟩, by simp only [hj, hs, if_true], rfl⟩
  · intro t ht
    obtain ⟨j, hj, ready, close, todo⟩ := Turn.begin_eq_some ht
    exact ⟨j, by rw [jobs]; exact hj, ready, close, todo ▸ List.suffix_refl _⟩

theorem act_frame (s : Service) (job : JobId) (who : String) (x : Step) :
    (s.act job who x).jobs = s.jobs ∧ (s.act job who x).queue = s.queue ∧
      (s.act job who x).now = s.now ∧ (s.act job who x).tasks = s.tasks := by
  cases x with
  | begin checker =>
    simp only [act, beginRun]
    split
    · split <;> exact ⟨rfl, rfl, rfl, rfl⟩
    · exact ⟨rfl, rfl, rfl, rfl⟩
  | perform a => cases a <;> exact ⟨rfl, rfl, rfl, rfl⟩
  | _ => exact ⟨rfl, rfl, rfl, rfl⟩

theorem closed_scheduled {t : Turn} {s s' : Service} (h : Scheduled (some t) s)
    (c : Closed s t.job t.close s') : Scheduled none s' := by
  cases c with
  | concluded r => exact conclude_scheduled (r.scheduled h) _
  | hung close' hc =>
    refine hold_scheduled h [] .hung fun b hb => .inr (h.ripe ?_)
    rw [hc, hb]
  | joining r awaited k =>
    exact hold_scheduled (r.scheduled h) [] (.joining k rfl) fun b hb => .inl (by cases hb; rfl)

/-- **A step of a turn keeps a service scheduled.** -/
theorem step_scheduled {t : Turn} {s : Service} (h : Scheduled (some t) s) :
    Scheduled (t.step s).1 (t.step s).2 := by
  rcases t.step_cases s with ⟨x, rest, ht, -, e⟩ | ⟨x, rest, state, -, hx, e⟩ | ⟨-, e⟩
  · rw [e]
    obtain ⟨jobs, queue, now, tasks⟩ := act_frame s t.job t.who x
    have acted : Scheduled (some t) (s.act t.job t.who x) :=
      h.congr jobs queue now (isFired_congr tasks)
    refine ⟨?_, acted.asleep, acted.awaiting, acted.joining, acted.joined, ?_⟩
    · intro i j hj hs
      refine (acted.queued i j hj hs).imp id ?_
      rintro ⟨t', ht', e⟩
      cases ht'
      exact ⟨_, rfl, e⟩
    · intro t' ht'
      cases ht'
      obtain ⟨j, hj, ready, close, todo⟩ := acted.seated t rfl
      refine ⟨j, hj, ready, close, ?_⟩
      rw [ht] at todo
      exact (List.suffix_cons x rest).trans todo
  · rw [e]
    refine hold_scheduled h rest ?_ fun b hb => .inr (h.ripe hb)
    rcases holdUp?_cases hx with ⟨d, -, hd, rfl⟩ | ⟨k, -, hk, rfl⟩
    · exact .sleeping (now_lt_wakeTime hd)
    · exact .awaiting hk
  · rw [e]
    exact closed_scheduled h (closed_closeJob s t.job t.close)

theorem settleLoop_scheduled (fuel : Nat) {s : Service} (h : Scheduled none s) :
    Scheduled none (settleLoop fuel s) :=
  settleLoop_induction (fun _ => begin_scheduled) (fun _ _ => step_scheduled) fuel s h

/-! ## 4. What happens from outside -/

theorem spawn_getElem? {s : Service} {new : Job} {i : Nat} {j : Job}
    (hj : (s.spawn new).jobs[i]? = some j) :
    s.jobs[i]? = some j ∨ (i = s.jobs.length ∧ j = new) := by
  unfold spawn at hj
  rw [List.getElem?_append] at hj
  split at hj
  · exact .inl hj
  · rename_i le
    obtain ⟨lt, h⟩ := List.getElem?_eq_some_iff.mp hj
    have eq : i = s.jobs.length := by
      simp only [List.length_singleton] at lt
      omega
    subst eq
    exact .inr ⟨rfl, by simpa using h.symm⟩

theorem spawn_getElem?_old {s : Service} {new : Job} {i : JobId} {j : Job}
    (hj : s.jobs[i]? = some j) : (s.spawn new).jobs[i]? = some j := by
  unfold spawn
  dsimp only
  rw [List.getElem?_append_left (List.getElem?_eq_some_iff.mp hj).1]
  exact hj

theorem result?_spawn (s : Service) {new : Job} (ready : new.state = .ready) (i : JobId) :
    (s.spawn new).result? i = s.result? i := by
  cases hr : s.result? i with
  | some r =>
    obtain ⟨j, hj, hs⟩ := result?_eq_some.mp hr
    exact result?_eq_some.mpr ⟨j, spawn_getElem?_old hj, hs⟩
  | none =>
    refine result?_eq_none.mpr fun j r hj hs => ?_
    rcases spawn_getElem? hj with old | ⟨-, rfl⟩
    · exact result?_eq_none.mp hr j r old hs
    · rw [ready] at hs
      cases hs

/-- A new job can go on and does not wait for another yet. -/
structure Fresh (j : Job) : Prop where
  ready : j.state = .ready
  free : ∀ b, j.close ≠ .join b

theorem ofRun_fresh (checker : Nat) (c : Health.Checker) (deadline : Nat) :
    Fresh (.ofRun checker c deadline) := ⟨rfl, nofun⟩

theorem ofBody_fresh (task : Nat) (t : Shutdown.Task) : Fresh (.ofBody task t) := ⟨rfl, nofun⟩

theorem teardown_fresh (s : Service) (deadline : Nat) (m : Member) :
    Fresh (s.teardown deadline m) := by
  cases m <;> exact ⟨rfl, nofun⟩

theorem spawn_scheduled {s : Service} (h : Scheduled none s) {new : Job} (fresh : Fresh new) :
    Scheduled none (s.spawn new) := by
  have result : ∀ i, (s.spawn new).result? i = s.result? i := result?_spawn s fresh.ready
  refine ⟨?_, ?_, ?_, ?_, ?_, nofun⟩
  · intro i j hj hs
    rcases spawn_getElem? hj with old | ⟨rfl, rfl⟩
    · exact (h.queued i j old hs).imp (List.mem_append_left _) id
    · exact .inl (List.mem_append_right _ (List.mem_singleton.mpr rfl))
  · intro i j m hj hs
    rcases spawn_getElem? hj with old | ⟨rfl, rfl⟩
    · exact h.asleep i j m old hs
    · rw [fresh.ready] at hs
      cases hs
  · intro i j k hj hs
    rcases spawn_getElem? hj with old | ⟨rfl, rfl⟩
    · exact h.awaiting i j k old hs
    · rw [fresh.ready] at hs
      cases hs
  · intro i j b hj hs
    rw [result]
    rcases spawn_getElem? hj with old | ⟨rfl, rfl⟩
    · exact h.joining i j b old hs
    · rw [fresh.ready] at hs
      cases hs
  · intro i j b hj hb
    rw [result]
    rcases spawn_getElem? hj with old | ⟨rfl, rfl⟩
    · exact h.joined i j b old hb
    · exact absurd hb (fresh.free b)

theorem abort_getElem?_ended {s : Service} {i : JobId} {j : Job} {r : Result}
    (hj : s.jobs[i]? = some j) (hs : j.state = .ended r) (job : JobId) :
    (s.abort job).jobs[i]? = some j := by
  unfold abort
  rw [updateJob_getElem?, hj, Option.map_some]
  simp only [hs, ite_self]

/-- A job after one was given up is as it was, or it is the one that was given up. -/
theorem abort_getElem? {s : Service} {job i : JobId} {j : Job}
    (hj : (s.abort job).jobs[i]? = some j) :
    s.jobs[i]? = some j ∨
      ∃ j', s.jobs[i]? = some j' ∧ (∀ r, j'.state ≠ .ended r) ∧
        j = { j' with state := .aborted } := by
  unfold abort at hj
  rw [updateJob_getElem?] at hj
  obtain ⟨j', hj', rfl⟩ := Option.map_eq_some_iff.mp hj
  split
  · split
    · exact .inl hj'
    · rename_i k
      exact .inr ⟨j', hj', k, rfl⟩
  · exact .inl hj'

theorem result?_abort (s : Service) (job i : JobId) :
    (s.abort job).result? i = s.result? i := by
  cases hr : s.result? i with
  | some r =>
    obtain ⟨j, hj, hs⟩ := result?_eq_some.mp hr
    exact result?_eq_some.mpr ⟨j, abort_getElem?_ended hj hs job, hs⟩
  | none =>
    refine result?_eq_none.mpr fun j r hj hs => ?_
    rcases abort_getElem? hj with old | ⟨j', -, -, rfl⟩
    · exact result?_eq_none.mp hr j r old hs
    · cases hs

theorem abort_scheduled {s : Service} (h : Scheduled none s) (job : JobId) :
    Scheduled none (s.abort job) := by
  refine ⟨?_, ?_, ?_, ?_, ?_, nofun⟩
  · intro i j hj hs
    rcases abort_getElem? hj with old | ⟨j', -, -, rfl⟩
    · exact h.queued i j old hs
    · cases hs
  · intro i j m hj hs
    rcases abort_getElem? hj with old | ⟨j', -, -, rfl⟩
    · exact h.asleep i j m old hs
    · cases hs
  · intro i j k hj hs
    rcases abort_getElem? hj with old | ⟨j', -, -, rfl⟩
    · exact h.awaiting i j k old hs
    · cases hs
  · intro i j b hj hs
    rw [result?_abort]
    rcases abort_getElem? hj with old | ⟨j', -, -, rfl⟩
    · exact h.joining i j b old hs
    · cases hs
  · intro i j b hj hb
    rw [result?_abort]
    rcases abort_getElem? hj with old | ⟨j', -, -, rfl⟩
    · exact h.joined i j b old hb
    · exact .inr (.inr rfl)

theorem advance_getElem? (s : Service) (m : Nat) (i : JobId) : (s.advance m).jobs[i]? =
    (s.jobs[i]?).map (Job.woken (JobState.sleepsUntil m)) := wake_getElem? _ _ i

theorem advance_scheduled {s : Service} (h : Scheduled none s) (moment : Nat) :
    Scheduled none (s.advance moment) := by
  refine Scheduled.woken h (fun x hx => ?_) rfl rfl (fun i j m hj hs hp => ?_)
    fun i j k hj hs _ => h.awaiting i j k hj hs
  · cases x with
    | sleeping m => exact .inl ⟨m, rfl⟩
    | _ => cases hx
  · show moment < m
    simpa [JobState.sleepsUntil] using hp

theorem isFired_startTask (s : Service) (t : Shutdown.Task) (k : Nat) :
    (s.startTask t).2.isFired k = s.isFired k := by
  have added : (s.startTask t).2.tasks = s.tasks ++ [⟨t.name, false, s.jobs.length, false⟩] := rfl
  unfold isFired
  rw [added]
  by_cases lt : k < s.tasks.length
  · rw [List.getElem?_append_left lt]
  · have le : s.tasks.length ≤ k := Nat.le_of_not_lt lt
    rw [List.getElem?_append_right le, List.getElem?_eq_none le]
    cases k - s.tasks.length <;> rfl

theorem startTask_scheduled {s : Service} (h : Scheduled none s) (t : Shutdown.Task) :
    Scheduled none (s.startTask t).2 :=
  (spawn_scheduled h (ofBody_fresh s.tasks.length t)).congr rfl rfl rfl (isFired_startTask s t)

theorem pollEntries_scheduled (deadline : Nat) (es : List Entry) {s : Service}
    (h : Scheduled none s) :
    Scheduled none (pollEntries deadline es s).2 :=
  World.pollEntries_rule deadline es (fun _ e _ h => abort_scheduled h e.job) h

theorem startTeardowns_scheduled (deadline : Nat) (ms : List Member) {s : Service}
    (h : Scheduled none s) : Scheduled none (startTeardowns deadline ms s).2 := by
  induction ms generalizing s with
  | nil => exact h
  | cons m ms ih =>
    simp only [startTeardowns, startTeardown_eq]
    exact ih (spawn_scheduled h (teardown_fresh s deadline m))

theorem teardownsStarted_scheduled {s : Service} (h : Scheduled none s) (deadline : Nat) :
    Scheduled none (s.teardownsStarted deadline) := by
  have started := startTeardowns_scheduled deadline s.members h
  rw [startTeardowns_eq] at started
  exact started.congr rfl rfl rfl fun _ => rfl

theorem poll_scheduled {s : Service} (h : Scheduled none s) (c : Call) :
    Scheduled none (c.poll s).2 := by
  obtain ⟨_, _, _, e⟩ := poll_frame c s
  rw [e]
  exact h.congr rfl rfl rfl fun _ => rfl

end Service

open Service

/-! ## 5. Worlds -/

namespace World

/-- What happens outside a turn keeps a service scheduled. -/
theorem outside_scheduled {w : World} (h : Scheduled none w.service) (free : w.turn = none)
    (m : Move) :
    Scheduled (w.outside m).turn (w.outside m).service := by
  by_cases hb : m = .begin
  · subst hb
    exact begin_scheduled h
  rw [outside_turn w m hb free]
  exact outside_rule hb h
    (fun _ _ q h => h.congr q.jobs q.queue q.now fun k => isFired_congr q.tasks k)
    (fun _ _ => h.congr rfl rfl rfl fun _ => rfl)
    (fun t _ => (startTask_scheduled h t).congr rfl rfl rfl fun _ => rfl)
    (fun _ _ _ _ _ h => spawn_scheduled h (ofRun_fresh _ _ _))
    (fun _ job _ h => abort_scheduled h job)
    (fun _ _ _ => Readied.scheduled (.told _) h)
    (fun _ _ d => teardownsStarted_scheduled h d)
    (fun moment _ => advance_scheduled h moment)

/-- **Every move keeps a service scheduled.** -/
theorem apply_scheduled (w : World) (m : Move) (h : Scheduled w.turn w.service) :
    Scheduled (w.apply m).turn (w.apply m).service := by
  unfold apply
  cases ht : w.turn with
  | none =>
    rw [ht] at h
    exact outside_scheduled h ht m
  | some t =>
    rw [ht] at h
    dsimp only
    split
    · exact step_scheduled h
    · rw [ht]
      exact h

/-- **The service of every world is scheduled.** -/
theorem after_scheduled (w : World) (ms : List Move) (h : Scheduled w.turn w.service) :
    Scheduled (w.after ms).turn (w.after ms).service :=
  after_induction (P := fun w => Scheduled w.turn w.service) apply_scheduled w ms h

end World

end ServiceHealth
