import Mathlib.Data.List.Nodup
import ServiceHealth.Proofs.Deeds

/-!
# Who waits for a task

The first to stop a task takes it on and waits for its body; everybody else who stops it has nothing
to wait for. So a task that was taken on has ended, or whoever has taken it on is still there, a
call or a teardown, and has no result.

* `Tended`: the invariant. `Tended.carry`: whatever goes on without a task being taken on keeps it.
* `Tended.told`: a task is taken on by somebody who waits.
* `step_tended`: **every step of a turn keeps all tasks tended**.
* `Holds`: what was taken on stays so, and what was given stays given.
-/


namespace ServiceHealth

namespace Service

/-! ## 1. Who waits for a body -/

/-- A teardown waits for a body and has no result. -/
def TeardownWaits (s : Service) (b : JobId) : Prop :=
  ∃ (i : JobId) (j : Job), s.jobs[i]? = some j ∧ j.close = .join b ∧ ∀ r, j.state ≠ .ended r

/-- **A task that was taken on is tended**: it has ended or is waited for, by one of the calls or by
a teardown. Whoever has stopped a task has taken it on before, or somebody else has. `calls` are the
bodies that calls wait for. -/
structure Tended (calls : JobId → Prop) (s : Service) : Prop where
  claimed : ∀ (k : Nat) (x : RunningTask), s.tasks[k]? = some x → x.claimed = true →
    (s.result? x.body).isSome ∨ calls x.body ∨ s.TeardownWaits x.body
  joins : ∀ (i : JobId) (j : Job) (b : JobId), s.jobs[i]? = some j → j.close = .join b →
    (∃ x ∈ s.tasks, x.body = b ∧ x.claimed = true) ∧
      ∀ r, j.state = .ended r → (s.result? b).isSome
  stops : ∀ (i : JobId) (j : Job) (k : Nat), s.jobs[i]? = some j → j.close = .stopTask k →
    ∃ x, s.tasks[k]? = some x ∧ ∀ r, j.state = .ended r → x.claimed = true
  distinct : (s.tasks.map (·.body)).Nodup
  known : ∀ x ∈ s.tasks, x.body < s.jobs.length

theorem new_tended (calls : JobId → Prop) (setup : Setup) (clock : Time.Stamp) :
    Tended calls (.new setup clock) where
  claimed _ _ h := by cases h
  joins _ _ _ h := by cases h
  stops _ _ _ h := by cases h
  distinct := List.nodup_nil
  known _ h := by cases h

section Tended

variable {calls : JobId → Prop} {s s' : Service}

/-- Two tasks have two bodies. -/
theorem Tended.alone (h : Tended calls s) {x y : RunningTask} (hx : x ∈ s.tasks) (hy : y ∈ s.tasks)
    (same : x.body = y.body) : x = y :=
  List.inj_on_of_nodup_map h.distinct hx hy same

/-- A job that is waited for, or that waits, goes on so: it has the same close as before and has
ended if it had. -/
structure Job.Lasts (j j' : Job) : Prop where
  close : j'.close = j.close
  ended : ∀ r, j'.state = .ended r ↔ j.state = .ended r

theorem Job.Lasts.refl (j : Job) : j.Lasts j := ⟨rfl, fun _ => Iff.rfl⟩

theorem Job.lasts_woken {p : JobState → Bool} (hp : ∀ r, p (.ended r) = false) (j : Job) :
    j.Lasts (j.woken p) where
  close := j.woken_close p
  ended r := by
    constructor
    · exact fun h => (Job.of_woken h nofun).1
    · intro h
      rw [Job.woken_eq_self (by rw [h, hp])]
      exact h

/-- A job that was just started waits for nobody and has not ended, and if it has to stop a task,
there is one. -/
structure Job.Begins (s : Service) (j : Job) : Prop where
  fresh : Fresh j
  stops : ∀ k, j.close = .stopTask k → k < s.tasks.length

/-- The jobs of a service go on, and there may be new ones. -/
structure Lasting (s s' : Service) : Prop where
  old : ∀ (i : JobId) (j : Job), s.jobs[i]? = some j → ∃ j', s'.jobs[i]? = some j' ∧ j.Lasts j'
  new : ∀ (i : JobId) (j' : Job), s'.jobs[i]? = some j' →
    (∃ j, s.jobs[i]? = some j ∧ j.Lasts j') ∨ j'.Begins s

theorem Lasting.of_jobs (jobs : s'.jobs = s.jobs) : Lasting s s' where
  old i j hj := ⟨j, by rw [jobs]; exact hj, .refl j⟩
  new i j' hj' := .inl ⟨j', by rw [← jobs]; exact hj', .refl j'⟩

theorem Lasting.wake {p : JobState → Bool} (hp : ∀ r, p (.ended r) = false)
    (jobs : s'.jobs = s.jobs) : Lasting s (s'.wake p) where
  old i j hj := ⟨j.woken p, by rw [wake_getElem?, jobs, hj]; rfl, j.lasts_woken hp⟩
  new i j' hj' := by
    obtain ⟨j, hj, rfl⟩ := woken_of hj'
    exact .inl ⟨j, by rw [← jobs]; exact hj, j.lasts_woken hp⟩

theorem Lasting.spawn {new : Job} (begins : new.Begins s) : Lasting s (s.spawn new) where
  old i j hj := ⟨j, spawn_getElem?_old hj, .refl j⟩
  new i j' hj' := by
    rcases spawn_getElem? hj' with old | ⟨-, rfl⟩
    · exact .inl ⟨j', old, .refl j'⟩
    · exact .inr begins

theorem Lasting.teardownsStarted (haveBodies : TasksHaveBodies s) (deadline : Nat) :
    Lasting s (s.teardownsStarted deadline) where
  old i j hj := by
    refine ⟨j, ?_, .refl j⟩
    rw [teardownsStarted_jobs, List.getElem?_append_left (List.getElem?_eq_some_iff.mp hj).1]
    exact hj
  new i j' hj' := by
    rw [teardownsStarted_jobs, List.getElem?_append] at hj'
    split at hj'
    · exact .inl ⟨j', hj', .refl j'⟩
    · obtain ⟨m, mem, rfl⟩ := List.mem_map.mp (List.mem_of_getElem? hj')
      refine .inr ⟨teardown_fresh s deadline m, fun k stop => haveBodies.known k ?_⟩
      cases m with
      | component c => cases stop
      | task task =>
        cases stop
        exact List.mem_filterMap.mpr ⟨.task k, mem, rfl⟩

theorem Lasting.abort (s : Service) (job : JobId) : Lasting s (s.abort job) := by
  have each : ∀ (i : JobId) (j' : Job), (s.abort job).jobs[i]? = some j' →
      ∃ j, s.jobs[i]? = some j ∧ j.Lasts j' := by
    intro i j' hj'
    rcases abort_getElem? hj' with old | ⟨j, hj, going, rfl⟩
    · exact ⟨j', old, .refl j'⟩
    · exact ⟨j, hj, rfl, fun r => ⟨nofun, fun e => absurd e (going r)⟩⟩
  refine ⟨fun i j hj => ?_, fun i j' hj' => .inl (each i j' hj')⟩
  have lt : i < (s.abort job).jobs.length := by
    simpa [Service.abort] using (List.getElem?_eq_some_iff.mp hj).1
  obtain ⟨j₀, hj₀, lasts⟩ := each i _ (List.getElem?_eq_getElem lt)
  rw [hj] at hj₀
  cases hj₀
  exact ⟨_, List.getElem?_eq_getElem lt, lasts⟩

/-- What was given stays given. -/
theorem Lasting.gives (h : Lasting s s') {b : JobId} {r : Result} (given : s.result? b = some r) :
    s'.result? b = some r := by
  obtain ⟨j, hj, state⟩ := result?_eq_some.mp given
  obtain ⟨j', hj', lasts⟩ := h.old b j hj
  exact result?_eq_some.mpr ⟨j', hj', (lasts.ended r).mpr state⟩

theorem Lasting.result? (h : Lasting s s') {b : JobId} (ended : (s.result? b).isSome) :
    (s'.result? b).isSome := by
  obtain ⟨r, given⟩ := Option.isSome_iff_exists.mp ended
  rw [h.gives given]
  rfl

theorem Lasting.waits (h : Lasting s s') {b : JobId} (waits : s.TeardownWaits b) :
    s'.TeardownWaits b := by
  obtain ⟨i, j, hj, close, going⟩ := waits
  obtain ⟨j', hj', lasts⟩ := h.old i j hj
  exact ⟨i, j', hj', lasts.close.trans close, fun r e => going r ((lasts.ended r).mp e)⟩

theorem Lasting.length (h : Lasting s s') : s.jobs.length ≤ s'.jobs.length := by
  by_contra lt
  obtain ⟨j', hj', -⟩ := h.old s'.jobs.length _ (List.getElem?_eq_getElem (Nat.lt_of_not_le lt))
  exact absurd (List.getElem?_eq_some_iff.mp hj').1 (Nat.lt_irrefl _)

/-- **What goes on without a task being taken on keeps all tasks tended.** -/
theorem Tended.carry (h : Tended calls s) (lasting : Lasting s s') (tasks : s'.tasks = s.tasks) :
    Tended calls s' where
  claimed k x hx taken := by
    rw [tasks] at hx
    exact (h.claimed k x hx taken).imp lasting.result? (.imp id lasting.waits)
  joins i j' b hj' close := by
    rcases lasting.new i j' hj' with ⟨j, hj, lasts⟩ | begins
    · obtain ⟨task, ended⟩ := h.joins i j b hj (lasts.close.symm.trans close)
      rw [tasks]
      exact ⟨task, fun r e => lasting.result? (ended r ((lasts.ended r).mp e))⟩
    · exact absurd close (begins.fresh.free b)
  stops i j' k hj' close := by
    rw [tasks]
    rcases lasting.new i j' hj' with ⟨j, hj, lasts⟩ | begins
    · obtain ⟨x, hx, taken⟩ := h.stops i j k hj (lasts.close.symm.trans close)
      exact ⟨x, hx, fun r e => taken r ((lasts.ended r).mp e)⟩
    · refine ⟨_, List.getElem?_eq_getElem (begins.stops k close), fun r e => ?_⟩
      rw [begins.fresh.ready] at e
      cases e
  distinct := by rw [tasks]; exact h.distinct
  known x mem := by
    rw [tasks] at mem
    exact Nat.lt_of_lt_of_le (h.known x mem) lasting.length

/-- More calls may wait. -/
theorem Tended.more {calls' : JobId → Prop} (h : Tended calls s)
    (more : ∀ b, calls b → (s.result? b).isSome ∨ calls' b) : Tended calls' s where
  claimed k x hx taken := by
    rcases h.claimed k x hx taken with ended | waits | waits
    · exact .inl ended
    · exact (more _ waits).imp id .inl
    · exact .inr (.inr waits)
  joins := h.joins
  stops := h.stops
  distinct := h.distinct
  known := h.known

theorem Tended.startTask (h : Tended calls s) (t : Shutdown.Task) (members : List Member) :
    Tended calls { (s.startTask t).2 with members } := by
  have spawned : Tended calls (s.spawn (.ofBody s.tasks.length t)) :=
    h.carry (.spawn ⟨ofBody_fresh s.tasks.length t, nofun⟩) rfl
  have added : (s.startTask t).2.tasks = s.tasks ++ [⟨t.name, false, s.jobs.length, false⟩] := rfl
  have new : s.jobs.length ∉ s.tasks.map (·.body) := fun mem => by
    obtain ⟨x, hx, body⟩ := List.mem_map.mp mem
    exact absurd (body ▸ h.known x hx) (Nat.lt_irrefl _)
  constructor
  · intro k x hx taken
    refine spawned.claimed k x ?_ taken
    change (s.startTask t).2.tasks[k]? = some x at hx
    rw [added, List.getElem?_append] at hx
    split at hx
    · exact hx
    · rw [List.mem_singleton.mp (List.mem_of_getElem? hx)] at taken
      cases taken
  · intro i j b hj close
    obtain ⟨⟨x, mem, body, taken⟩, ended⟩ := spawned.joins i j b hj close
    exact ⟨⟨x, List.mem_append_left _ mem, body, taken⟩, ended⟩
  · intro i j k hj close
    obtain ⟨x, hx, taken⟩ := spawned.stops i j k hj close
    have old : k < s.tasks.length := (List.getElem?_eq_some_iff.mp hx).1
    exact ⟨x, (List.getElem?_append_left old).trans hx, taken⟩
  · show ((s.tasks ++ [_]).map _).Nodup
    rw [List.map_append, List.nodup_append]
    refine ⟨h.distinct, List.nodup_singleton _, fun b mem b' last => ?_⟩
    rintro rfl
    rw [List.mem_singleton.mp last] at mem
    exact new mem
  · intro x mem
    show x.body < (s.jobs ++ [_]).length
    rw [List.length_append, List.length_singleton]
    rcases List.mem_append.mp mem with old | last
    · exact Nat.lt_succ_of_lt (h.known x old)
    · rw [List.mem_singleton.mp last]
      exact Nat.lt_succ_self _

/-! ## 2. One job goes on -/

/-- **One job does its part**: it keeps its close, or waits from now on for the body of the task
that it had to stop, and it ends only if whoever it waits for has ended. -/
theorem Tended.update (h : Tended calls s) {i : JobId} {j : Job} (f : Job → Job)
    (hj : s.jobs[i]? = some j) (going : ∀ r, j.state ≠ .ended r)
    (close : (f j).close = j.close ∨ ∃ k b, j.close = .stopTask k ∧ (f j).close = .join b ∧
      (∃ x ∈ s.tasks, x.body = b ∧ x.claimed = true) ∧ ∀ r, (f j).state ≠ .ended r)
    (joined : ∀ r b, (f j).state = .ended r → j.close = .join b → (s.result? b).isSome)
    (stopped : ∀ r k x, (f j).state = .ended r → j.close = .stopTask k → s.tasks[k]? = some x →
      x.claimed = true) : Tended calls (s.updateJob i f) := by
  have own : (s.updateJob i f).jobs[i]? = some (f j) := by
    rw [updateJob_getElem?, hj, Option.map_some, if_pos rfl]
  have others : ∀ i', i ≠ i' → (s.updateJob i f).jobs[i']? = s.jobs[i']? := by
    intro i' ne
    rw [updateJob_getElem?]
    cases s.jobs[i']? <;> simp [ne]
  have unended : s.result? i = none := by
    refine result?_eq_none.mpr fun j' r hj' e => ?_
    rw [hj] at hj'
    cases hj'
    exact going r e
  have results : ∀ b, (s.result? b).isSome → ((s.updateJob i f).result? b).isSome := by
    intro b ended
    have ne : i ≠ b := by
      rintro rfl
      rw [unended] at ended
      cases ended
    have same : (s.updateJob i f).result? b = s.result? b := by
      unfold result?
      rw [others b ne]
    rwa [same]
  refine ⟨fun k x hx taken => ?_, fun i' j' b hj' join => ?_, fun i' j' k hj' stop => ?_,
    h.distinct, fun x mem => ?_⟩
  · rcases h.claimed k x hx taken with ended | waits | ⟨i', j', hj', join, waits⟩
    · exact .inl (results _ ended)
    · exact .inr (.inl waits)
    · by_cases e : i = i'
      · subst e
        rw [hj] at hj'
        cases hj'
        have kept : (f j).close = .join x.body := by
          rcases close with c | ⟨_, _, c, -⟩
          · exact c.trans join
          · rw [join] at c
            cases c
        by_cases gone : ∃ r, (f j).state = .ended r
        · obtain ⟨r, gone⟩ := gone
          exact .inl (results _ (joined r _ gone join))
        · exact .inr (.inr ⟨i, f j, own, kept, fun r e => gone ⟨r, e⟩⟩)
      · exact .inr (.inr ⟨i', j', (others i' e).trans hj', join, waits⟩)
  · by_cases e : i = i'
    · subst e
      rw [own] at hj'
      cases hj'
      rcases close with c | ⟨_, b', _, c, task, unended⟩
      · have before := c.symm.trans join
        exact ⟨(h.joins i j b hj before).1, fun r gone => results b (joined r b gone before)⟩
      · rw [join] at c
        cases c
        exact ⟨task, fun r gone => absurd gone (unended r)⟩
    · rw [others i' e] at hj'
      obtain ⟨task, ended⟩ := h.joins i' j' b hj' join
      exact ⟨task, fun r gone => results b (ended r gone)⟩
  · by_cases e : i = i'
    · subst e
      rw [own] at hj'
      cases hj'
      rcases close with c | ⟨_, _, _, c, -⟩
      · have before := c.symm.trans stop
        obtain ⟨x, hx, -⟩ := h.stops i j k hj before
        exact ⟨x, hx, fun r gone => stopped r k x gone before hx⟩
      · rw [stop] at c
        cases c
    · rw [others i' e] at hj'
      exact h.stops i' j' k hj' stop
  · rw [jobs_updateJob_length]
    exact h.known x mem

theorem Tended.conclude (h : Tended calls s) {i : JobId} {j : Job} (r : Result)
    (hj : s.jobs[i]? = some j) (going : ∀ r, j.state ≠ .ended r)
    (joined : ∀ b, j.close = .join b → (s.result? b).isSome)
    (stopped : ∀ k x, j.close = .stopTask k → s.tasks[k]? = some x → x.claimed = true) :
    Tended calls (s.conclude i r) :=
  Tended.carry (h.update (fun j => { j with todo := [], state := .ended r }) hj going (.inl rfl)
    (fun _ b _ => joined b) fun _ k x _ => stopped k x) (.wake (fun _ => rfl) rfl) rfl

theorem Tended.hold (h : Tended calls s) {i : JobId} {j : Job} (todo : List Step) {close : Close}
    (state : JobState) (hj : s.jobs[i]? = some j) (going : ∀ r, j.state ≠ .ended r)
    (held : ∀ r, state ≠ .ended r)
    (closes : close = j.close ∨ ∃ k b, j.close = .stopTask k ∧ close = .join b ∧
      ∃ x ∈ s.tasks, x.body = b ∧ x.claimed = true) :
    Tended calls (s.hold i todo close state) :=
  h.update _ hj going (closes.imp id fun ⟨k, b, stop, join, task⟩ => ⟨k, b, stop, join, task, held⟩)
    (fun r _ e => absurd e (held r)) fun r _ _ e => absurd e (held r)

/-- A task after one was told to stop and taken on. -/
theorem told_task (s : Service) (k : Nat) {n : Nat} {x : RunningTask} (hx : s.tasks[n]? = some x) :
    ((s.fire k).claim k).2.tasks[n]? =
      some (if k = n then { x with fired := true, claimed := true } else x) := by
  rw [told_tasks, List.getElem?_modify, hx]
  by_cases e : k = n <;> simp [e]

theorem result?_told (s : Service) (k : Nat) (b : JobId) :
    ((s.fire k).claim k).2.result? b = s.result? b := by
  rw [result?_congr (claim_frame _ k).1, fire, result?_wake _ _ fun _ => rfl]
  rfl

/-- **A task is told to stop and taken on**: whoever has taken it on waits for its body, unless that
has ended. -/
theorem Tended.told {calls' : JobId → Prop} (h : Tended calls s) (k : Nat)
    (more : ∀ b, calls b → calls' b)
    (waits : ∀ x, s.tasks[k]? = some x → x.claimed = false →
      (s.result? x.body).isSome ∨ calls' x.body) :
    Tended calls' ((s.fire k).claim k).2 := by
  have woken : Lasting s ((s.fire k).claim k).2 := by
    have fired : Lasting s (s.fire k) := .wake (fun _ => rfl) rfl
    exact ⟨by rw [(claim_frame _ k).1]; exact fired.old,
      by rw [(claim_frame _ k).1]; exact fired.new⟩
  have tasks := told_tasks s k
  have bodies : ((s.fire k).claim k).2.tasks.map (·.body) = s.tasks.map (·.body) := by
    rw [tasks]
    refine List.ext_getElem? fun n => ?_
    rw [List.getElem?_map, List.getElem?_map, List.getElem?_modify]
    cases s.tasks[n]? with
    | none => rfl
    | some x => by_cases e : k = n <;> simp [e]
  have still : ∀ x ∈ s.tasks, x.claimed = true →
      ∃ x' ∈ ((s.fire k).claim k).2.tasks, x'.body = x.body ∧ x'.claimed = true := by
    intro x mem taken
    obtain ⟨n, hn⟩ := List.getElem?_of_mem mem
    refine ⟨_, List.mem_of_getElem? (told_task s k hn), ?_⟩
    split
    · exact ⟨rfl, rfl⟩
    · exact ⟨rfl, taken⟩
  refine ⟨fun n x' hx' taken => ?_, fun i j' b hj' join => ?_, fun i j' n hj' stop => ?_,
    by rw [bodies]; exact h.distinct, fun x mem => ?_⟩
  · have lt : n < s.tasks.length := by
      have lt := (List.getElem?_eq_some_iff.mp hx').1
      rwa [tasks, List.length_modify] at lt
    have before := List.getElem?_eq_getElem lt
    rw [told_task s k before, Option.some.injEq] at hx'
    generalize s.tasks[n] = x at before hx'
    have body : x'.body = x.body := by
      rw [← hx']
      split <;> rfl
    rw [body]
    by_cases old : x.claimed = true
    · exact (h.claimed n x before old).imp woken.result? (.imp (more _) woken.waits)
    · have here : k = n := by
        by_contra ne
        rw [if_neg ne] at hx'
        exact old (hx' ▸ taken)
      subst here
      exact (waits x before (by simpa using old)).imp woken.result? .inl
  · rcases woken.new i j' hj' with ⟨j, hj, lasts⟩ | begins
    · obtain ⟨⟨x, mem, body, taken⟩, ended⟩ := h.joins i j b hj (lasts.close.symm.trans join)
      obtain ⟨x', mem', body', taken'⟩ := still x mem taken
      exact ⟨⟨x', mem', body'.trans body, taken'⟩,
        fun r e => woken.result? (ended r ((lasts.ended r).mp e))⟩
    · exact absurd join (begins.fresh.free b)
  · rcases woken.new i j' hj' with ⟨j, hj, lasts⟩ | begins
    · obtain ⟨x, hx, taken⟩ := h.stops i j n hj (lasts.close.symm.trans stop)
      refine ⟨_, told_task s k hx, fun r e => ?_⟩
      have before := taken r ((lasts.ended r).mp e)
      split
      · rfl
      · exact before
    · refine ⟨_, told_task s k (List.getElem?_eq_getElem (begins.stops n stop)), fun r e => ?_⟩
      rw [begins.fresh.ready] at e
      cases e
  · have mem' : x.body ∈ s.tasks.map (·.body) := bodies ▸ List.mem_map_of_mem mem
    obtain ⟨y, hy, body⟩ := List.mem_map.mp mem'
    have lt := h.known y hy
    rw [body] at lt
    exact Nat.lt_of_lt_of_le lt woken.length

/-! ## 3. Turns -/

/-- **The teardown of a task** finds that somebody has taken it on, or takes it on and waits for its
body, unless that has ended. -/
theorem Tended.closeStop (h : Tended calls s) {i : JobId} {j : Job} {k : Nat}
    (hj : s.jobs[i]? = some j) (going : ∀ r, j.state ≠ .ended r) (stop : j.close = .stopTask k) :
    Tended calls (s.closeJob i (.stopTask k)) := by
  obtain ⟨x, hx, -⟩ := h.stops i j k hj stop
  obtain ⟨j', hj', stirred⟩ := told_stirred s k hj
  have stop' : j'.close = .stopTask k := stirred.close.trans stop
  have going' : ∀ r, j'.state ≠ .ended r := fun r e => going r (stirred.ended.mp e)
  have now : ((s.fire k).claim k).2.tasks[k]? =
      some { x with fired := true, claimed := true } := by simpa using told_task s k hx
  -- whoever is done with it leaves a task that was taken on
  have done : ∀ r, Tended calls ((s.fire k).claim k).2 →
      Tended calls (((s.fire k).claim k).2.conclude i r) := by
    refine fun r told => told.conclude r hj' going' (fun b join => ?_) fun k' y stop'' hy => ?_
    · rw [stop'] at join
      cases join
    · rw [stop'] at stop''
      cases stop''
      rw [now] at hy
      cases hy
      rfl
  rcases closeStop_cases s i k with ⟨taken, e⟩ | ⟨y, hy, untaken, e⟩
  · rw [e]
    refine done _ (h.told k (fun _ => id) fun y hy no => ?_)
    rw [taken y hy] at no
    cases no
  · rw [hx] at hy
    cases hy
    rw [e]
    rcases closeJoin_cases ((s.fire k).claim k).2 i x.body with ⟨r, hr, e'⟩ | ⟨-, e'⟩
    · rw [e']
      refine done _ (h.told k (fun _ => id) fun y hy _ => .inl ?_)
      rw [hx] at hy
      cases hy
      rw [← result?_told s k, hr]
      rfl
    · -- from now on the teardown waits for the body, and nobody else has to
      rw [e']
      have asked : Tended (fun b => calls b ∨ b = x.body) ((s.fire k).claim k).2 :=
        h.told k (fun _ => .inl) fun y hy _ => by
          rw [hx] at hy
          cases hy
          exact .inr (.inr rfl)
      have held := asked.hold [] (.joining x.body) hj' going' nofun
        (.inr ⟨k, x.body, stop', rfl, _, List.mem_of_getElem? now, rfl, rfl⟩)
      have waits : (((s.fire k).claim k).2.hold i [] (.join x.body)
          (.joining x.body)).TeardownWaits x.body := by
        have own :
            ((((s.fire k).claim k).2.hold i [] (.join x.body) (.joining x.body)).jobs[i]?).map
              (fun j => (j.close, j.state)) = some (.join x.body, .joining x.body) := by
          rw [hold_getElem?, hj', Option.map_some, if_pos rfl]
          rfl
        obtain ⟨j₂, hj₂, parts⟩ := Option.map_eq_some_iff.mp own
        rw [Prod.mk.injEq] at parts
        exact ⟨i, j₂, hj₂, parts.1, fun r gone => by rw [parts.2] at gone; cases gone⟩
      refine ⟨fun n y hy taken => ?_, held.joins, held.stops, held.distinct, held.known⟩
      rcases held.claimed n y hy taken with ended | (called | same) | waits'
      · exact .inl ended
      · exact .inr (.inl called)
      · exact .inr (.inr (same ▸ waits))
      · exact .inr (.inr waits')

/-- Any other job comes to its close. -/
theorem Closed.tended {i : JobId} {close : Close} {j : Job} (closed : Closed s i close s')
    (h : Tended calls s) (hj : s.jobs[i]? = some j) (going : ∀ r, j.state ≠ .ended r)
    (same : j.close = close) (other : ∀ k, close ≠ .stopTask k)
    (joined : ∀ b, close = .join b → (s.result? b).isSome) : Tended calls s' := by
  subst same
  have untold : ∀ {s₁}, Readied s j.close s₁ → Tended calls s₁ ∧ s₁.jobs = s.jobs ∧
      ∀ b, s₁.result? b = s.result? b := by
    intro s₁ readied
    generalize j.close = close at readied other
    cases readied with
    | same => exact ⟨h, rfl, fun _ => rfl⟩
    | noted => exact ⟨h.carry (.of_jobs rfl) rfl, rfl, result?_congr rfl⟩
    | told task => exact absurd rfl (other task)
  have unstopped : ∀ (s₁ : Service) (k : Nat) (x : RunningTask), j.close = .stopTask k →
      s₁.tasks[k]? = some x → x.claimed = true := fun _ k _ c => absurd c (other k)
  cases closed with
  | concluded readied r =>
    obtain ⟨tended, jobs, results⟩ := untold readied
    exact tended.conclude r (by rw [jobs]; exact hj) going
      (fun b c => by rw [results]; exact joined b c) (unstopped _)
  | hung close' c => exact h.hold [] .hung hj going nofun (.inl c.symm)
  | joining readied awaited missing which =>
    obtain ⟨tended, jobs, -⟩ := untold readied
    rcases which with c | ⟨task, -, c, -⟩
    · exact tended.hold [] _ (by rw [jobs]; exact hj) going nofun (.inl c.symm)
    · exact absurd c (other task)

/-- **A step of a turn keeps all tasks tended.** -/
theorem step_tended {t : Turn} (scheduled : Scheduled (some t) s) (h : Tended calls s) :
    Tended calls (t.step s).2 := by
  obtain ⟨j, hj, ready, close, -⟩ := scheduled.seated t rfl
  have going : ∀ r, j.state ≠ .ended r := fun r e => by
    rw [ready] at e
    cases e
  rcases t.step_cases s with ⟨x, rest, -, -, e⟩ | ⟨x, rest, state, -, hx, e⟩ | ⟨-, e⟩
  · rw [e]
    obtain ⟨jobs, -, -, tasks⟩ := act_frame s t.job t.who x
    exact h.carry (.of_jobs jobs) tasks
  · rw [e]
    refine h.hold rest state hj going (fun r k => ?_) (.inl close.symm)
    rcases holdUp?_cases hx with ⟨_, -, -, rfl⟩ | ⟨_, -, -, rfl⟩ <;> cases k
  · rw [e]
    by_cases stops : ∃ k, t.close = .stopTask k
    · obtain ⟨k, stop⟩ := stops
      rw [stop]
      exact h.closeStop hj going (close.trans stop)
    · exact (closed_closeJob s t.job t.close).tended h hj going close
        (fun k c => stops ⟨k, c⟩) fun _ => scheduled.ripe

end Tended

/-- Whatever was taken on stays so, and what was given stays given. -/
structure Holds (s s' : Service) : Prop where
  taken : ∀ x ∈ s.tasks, x.claimed = true → ∃ x' ∈ s'.tasks, x'.body = x.body ∧ x'.claimed = true
  given : ∀ (b : JobId) (r : Result), s.result? b = some r → s'.result? b = some r

theorem Holds.refl (s : Service) : Holds s s :=
  ⟨fun x mem taken => ⟨x, mem, rfl, taken⟩, fun _ _ => id⟩

theorem Holds.trans {s s' s'' : Service} (h : Holds s s') (k : Holds s' s'') : Holds s s'' where
  taken x mem taken := by
    obtain ⟨x', mem', body, taken'⟩ := h.taken x mem taken
    obtain ⟨x'', mem'', body', taken''⟩ := k.taken x' mem' taken'
    exact ⟨x'', mem'', body'.trans body, taken''⟩
  given b r given := k.given b r (h.given b r given)

theorem Lasting.holds {s s' : Service} (h : Lasting s s') (tasks : s'.tasks = s.tasks) :
    Holds s s' where
  taken x mem taken := ⟨x, tasks ▸ mem, rfl, taken⟩
  given _ _ := h.gives

theorem told_holds (s : Service) (k : Nat) : Holds s ((s.fire k).claim k).2 where
  taken x mem taken := by
    obtain ⟨n, hn⟩ := List.getElem?_of_mem mem
    refine ⟨_, List.mem_of_getElem? (told_task s k hn), ?_⟩
    split
    · exact ⟨rfl, rfl⟩
    · exact ⟨rfl, taken⟩
  given b r given := by rw [result?_told, given]

theorem Readied.holds {s s' : Service} {close : Close} (h : Readied s close s') : Holds s s' := by
  cases h with
  | same => exact .refl s
  | noted => exact ⟨fun x mem taken => ⟨x, mem, rfl, taken⟩, fun _ _ => id⟩
  | told task => exact told_holds s task

theorem step_holds {t : Turn} {s : Service} (scheduled : Scheduled (some t) s) :
    Holds s (t.step s).2 where
  taken x mem taken := by
    rcases t.step_cases s with ⟨y, rest, -, -, e⟩ | ⟨y, rest, state, -, -, e⟩ | ⟨-, e⟩
    · rw [e]
      exact ⟨x, by rw [(act_frame s t.job t.who y).2.2.2]; exact mem, rfl, taken⟩
    · rw [e]
      exact ⟨x, mem, rfl, taken⟩
    · rw [e]
      have closed := closed_closeJob s t.job t.close
      generalize s.closeJob t.job t.close = s' at closed
      cases closed with
      | concluded readied r => exact readied.holds.taken x mem taken
      | hung => exact ⟨x, mem, rfl, taken⟩
      | joining readied => exact readied.holds.taken x mem taken
  given b r given := by
    obtain ⟨j, hj, ended⟩ := result?_eq_some.mp given
    exact result?_eq_some.mpr ⟨j, (step_over scheduled hj (by rw [ended]; rfl)).2, ended⟩

end Service

end ServiceHealth
