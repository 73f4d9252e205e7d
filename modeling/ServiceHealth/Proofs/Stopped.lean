import ServiceHealth.Proofs.Bodies
import ServiceHealth.Proofs.Finished

/-!
# A task from its first call to stop it

A call to stop a task fires its signal and takes the task on; only the first call does so, and every
later one is told at once that there is nothing to wait for. Between them the body of the task goes
its own way: it is told at the moment of the first call, and nothing that becomes of the calls
changes what it does.

* `LeftAlone`: nobody has stopped a task and no job is about to. `after_leftAlone`: so it stays, if
  nobody calls to stop the task or to shut the service down.
* `Stands`, `after_stands`: **where a job stands that goes its own way**: it has ended when it was
  done, or goes on and will be done in time.
* `apply_stop`, `after_stop`: what becomes of a call to stop a task. `stop_taken`: one that comes
  when the task was taken on has its answer at once, and for good.
* `FirstStop`: a task from its start to the first call, and on from there.
* `Delivers`, `FirstStop.delivers`: **what becomes of the task and of the calls**.
-/

namespace ServiceHealth

open Service

namespace Service

/-! ## 1. What a body hears -/

/-- What is on an agenda is a step of the script. -/
theorem mem_of_agenda {signal m n : Nat} {todo : List Step} {x : Step}
    (mem : (n, some x) ∈ agenda signal todo m) : x ∈ todo := by
  induction todo generalizing m with
  | nil => cases List.mem_singleton.mp mem
  | cons y rest ih =>
    rcases List.mem_cons.mp mem with here | later
    · cases here
      exact List.mem_cons_self
    · exact List.mem_cons_of_mem y (ih later)

end Service

namespace Shutdown.Task

/-- A body that does not wait for its signal never hears it. -/
theorem silent_ofBody {t : Task} (waits : t.waits = false) (k : Nat) :
    Step.note "task signalled" ∉ (Job.ofBody k t).todo := by
  obtain ⟨name, waits, delay, ending⟩ := t
  cases waits
  cases delay <;> cases ending <;> simp [Job.ofBody, work]

/-- The body of a task hears its signal only when it is told to stop. -/
theorem heard_conduct (t : Task) {k spawned told m : Nat}
    (mem : (m, some (.note "task signalled")) ∈ t.conduct k spawned told) : told ≤ m := by
  cases waits : t.waits with
  | true =>
    unfold conduct Job.ofBody at mem
    rw [waits] at mem
    rcases List.mem_cons.mp mem with start | mem
    · cases start
    rcases List.mem_cons.mp mem with wait | mem
    · cases wait
    exact Nat.le_trans (Nat.le_max_right _ _) (le_of_mem_agenda mem)
  | false => exact absurd (mem_of_agenda mem) (silent_ofBody waits k)

/-- A body that waits for its signal hears it when it is told to stop, or when it begins. -/
theorem conduct_hears (t : Task) (k spawned told : Nat) (waits : t.waits = true) :
    (max spawned told, some (.note "task signalled")) ∈ t.conduct k spawned told := by
  unfold conduct Job.ofBody
  rw [waits]
  exact List.mem_cons_of_mem _ (List.mem_cons_of_mem _ List.mem_cons_self)

end Shutdown.Task

namespace Service

/-! ## 2. Tasks that nobody stops -/

/-- **Nobody has stopped a task since**: it is as it was, and no job has to stop it. -/
structure LeftAlone (k : Nat) (x : RunningTask) (s : Service) : Prop where
  task : s.tasks[k]? = some x
  jobs : ∀ j ∈ s.jobs, j.close ≠ .stopTask k

section LeftAlone

variable {k : Nat} {x : RunningTask} {s s' : Service} (h : LeftAlone k x s)

include h

theorem LeftAlone.carry (task : s'.tasks[k]? = s.tasks[k]?)
    (jobs : ∀ j' ∈ s'.jobs, j'.close = .stopTask k → ∃ j ∈ s.jobs, j.close = .stopTask k) :
    LeftAlone k x s' where
  task := task.trans h.task
  jobs j' mem stops := by
    obtain ⟨j, mem', stops'⟩ := jobs j' mem stops
    exact h.jobs j mem' stops'

theorem LeftAlone.same (jobs : s'.jobs = s.jobs) (tasks : s'.tasks = s.tasks) :
    LeftAlone k x s' :=
  h.carry (by rw [tasks]) fun j' mem stops => ⟨j', jobs ▸ mem, stops⟩

theorem LeftAlone.spawn {new : Job} (other : new.close ≠ .stopTask k) :
    LeftAlone k x (s.spawn new) := by
  refine h.carry rfl fun j' mem stops => ?_
  rcases List.mem_append.mp mem with old | added
  · exact ⟨j', old, stops⟩
  · rw [List.mem_singleton.mp added] at stops
    exact absurd stops other

theorem LeftAlone.abort (job : JobId) : LeftAlone k x (s.abort job) := by
  refine h.carry rfl fun j' mem stops => ?_
  obtain ⟨i, hi⟩ := List.getElem?_of_mem mem
  obtain ⟨j, hj, ev⟩ := (abort_evolves s job).jobs i j' hi
  rcases ev.close with same | ⟨_, _, _, _, _, joins⟩
  · exact ⟨j, List.mem_of_getElem? hj, same.symm.trans stops⟩
  · rw [joins] at stops
    cases stops

theorem LeftAlone.woken (p : JobState → Bool) : LeftAlone k x (s.wake p) := by
  refine h.carry rfl fun j' mem stops => ?_
  obtain ⟨i, hi⟩ := List.getElem?_of_mem mem
  obtain ⟨j, hj, rfl⟩ := woken_of hi
  exact ⟨j, List.mem_of_getElem? hj, (j.woken_close p).symm.trans stops⟩

theorem LeftAlone.advance (moment : Nat) : LeftAlone k x (s.advance moment) :=
  (h.woken (JobState.sleepsUntil moment)).same rfl rfl

theorem LeftAlone.told {k' : Nat} (other : k' ≠ k) :
    LeftAlone k x ((s.fire k').claim k').2 := by
  refine (h.woken (JobState.awaits k')).carry ?_ fun j' mem stops => ?_
  · rw [told_task s k' h.task, if_neg other]
    exact h.task.symm
  · rw [(claim_frame _ k').1] at mem
    exact ⟨j', mem, stops⟩

theorem LeftAlone.startTask (t : Shutdown.Task) (members : List Member) :
    LeftAlone k x { (s.startTask t).2 with members } := by
  have spawned : LeftAlone k x (s.spawn (.ofBody s.tasks.length t)) := h.spawn nofun
  refine spawned.carry ?_ fun j' mem stops => ⟨j', mem, stops⟩
  show (s.tasks ++ [_])[k]? = s.tasks[k]?
  exact List.getElem?_append_left (List.getElem?_eq_some_iff.mp h.task).1

/-- A step of a turn leaves alone whatever no job has to stop. -/
theorem LeftAlone.step {t : Turn} (scheduled : Scheduled (some t) s) :
    LeftAlone k x (t.step s).2 := by
  obtain ⟨j, hj, -, close, -⟩ := scheduled.seated t rfl
  have other : t.close ≠ .stopTask k := close ▸ h.jobs j (List.mem_of_getElem? hj)
  refine h.carry (step_tasks t s other) fun j' mem stops => ?_
  obtain ⟨i, hi⟩ := List.getElem?_of_mem mem
  obtain ⟨j₀, hj₀, ev⟩ := (step_evolves scheduled).jobs i j' hi
  rcases ev.close with same | ⟨_, _, _, _, _, joins⟩
  · exact ⟨j₀, List.mem_of_getElem? hj₀, same.symm.trans stops⟩
  · rw [joins] at stops
    cases stops

end LeftAlone

end Service

namespace World

/-- **Nothing stops a task but a call to do so, or one to shut the service down.** -/
theorem apply_leftAlone {w : World} {k : Nat} {x : RunningTask} (h : LeftAlone k x w.service)
    (scheduled : Scheduled w.turn w.service) {m : Move} (other : ∀ giveUp, m ≠ .stop k giveUp)
    (running : m ≠ .call) : LeftAlone k x (w.apply m).service := by
  rcases w.apply_cases m with ⟨-, e⟩ | ⟨t, ht, -, e⟩ | ⟨t, -, -, e⟩
  · rw [e]
    by_cases hb : m = .begin
    · subst hb
      exact h.same (begin_jobs w.service) (begin_tasks w.service)
    exact outside_rule (P := LeftAlone k x) hb h (fun _ _ q h => h.same q.jobs q.tasks)
      (fun _ _ => h.same rfl rfl) (fun t _ => h.startTask t _) (fun _ _ _ _ _ h => h.spawn nofun)
      (fun _ job _ h => h.abort job)
      (fun k' giveUp e => h.told fun same => other giveUp (by rw [e, same]))
      (fun call _ => absurd call running) fun moment _ => h.advance moment
  · rw [ht] at scheduled
    rw [e]
    exact h.step scheduled
  · rw [e]
    exact h

theorem after_leftAlone {w : World} {k : Nat} {x : RunningTask} (h : LeftAlone k x w.service)
    (scheduled : Scheduled w.turn w.service) {ms : List Move}
    (other : ∀ giveUp, .stop k giveUp ∉ ms) (running : .call ∉ ms) :
    LeftAlone k x (w.after ms).service := by
  induction ms generalizing w with
  | nil => exact h
  | cons m ms ih =>
    refine ih (apply_leftAlone h scheduled (fun g e => other g (e ▸ List.mem_cons_self))
      fun e => running (e ▸ List.mem_cons_self)) (apply_scheduled w m scheduled)
      (fun g mem => other g (List.mem_cons_of_mem m mem))
      fun mem => running (List.mem_cons_of_mem m mem)

/-- Nobody has to stop a task that was just started. -/
theorem started_leftAlone {w : World} (stopsTended : StopsTended w) (free : w.turn = none)
    (t : Shutdown.Task) : LeftAlone w.service.tasks.length
      ⟨t.name, false, w.service.jobs.length, false⟩ (w.apply (.addTask t)).service where
  task := (addTask_started free t).1
  jobs j mem stops := by
    rw [apply_free free] at mem
    rcases List.mem_append.mp mem with old | new
    · obtain ⟨i, hi⟩ := List.getElem?_of_mem old
      obtain ⟨x, hx, -⟩ := stopsTended.tended.stops i j _ hi stops
      exact absurd (List.getElem?_eq_some_iff.mp hx).1 (Nat.lt_irrefl _)
    · rw [List.mem_singleton.mp new] at stops
      cases stops

/-! ## 3. Where a body stands -/

/-- **Where a job stands that goes its own way**, if its signal has been fired: it has ended in its
way, after it was done, or it goes on, and will at the latest when it is done. -/
inductive Stands (ending : Shutdown.Ending) (done : Nat) (s : Service) (i : JobId) : Prop where
  | ended {j : Job} (here : s.jobs[i]? = some j) (left : j.state = ending.leaves)
      (past : done ≤ s.now)
  | ready {j : Job} (here : s.jobs[i]? = some j) (state : j.state = .ready) (early : s.now ≤ done)
  | asleep {j : Job} {m : Nat} (here : s.jobs[i]? = some j) (state : j.state = .sleeping m)
      (later : s.now < m) (early : m ≤ done)

section Stands

variable {signals : Nat → Prop} {ending : Shutdown.Ending} {signal done : Nat} {w : World}
  {i : JobId}

/-- **In every world that is reached on time a job of its own stands where its script has it.** -/
theorem after_stands {ms : List Move} (h : ByItself signals ending w i) (timely : w.OnTime ms)
    (rung : ∀ p, p <+: ms → Rung signals signal (w.after p).service)
    (still : (w.after ms).turn = none)
    (heard : ∀ k, signals k → (w.after ms).service.isFired k = true)
    (last : (w.due signal i).getLast? = some (done, none)) :
    Stands ending done (w.after ms).service i := by
  have sum := did_due h timely rung
  obtain ⟨scheduled, -, -, j, hj, heeds⟩ := after_byItself h ms
  rw [still] at scheduled
  rw [due_free still, dueOf_of hj] at sum
  rw [← sum] at last
  -- what is due of a job that goes on has the same end as all that it had to do
  have resumed : ∀ m, j.state.resumes? signal (w.after ms).service.now = some m → m ≤ done := by
    intro m resumes
    rw [Job.due_of resumes, List.getLast?_append, agenda_getLast?, Option.some_or] at last
    rw [← (Prod.mk.inj (Option.some.inj last)).1]
    exact le_of_mem_agenda (ends_mem signal j.todo m)
  rcases heeds.stands with goes | leaves
  · cases hs : j.state with
    | ready => exact .ready hj hs (resumed _ (by rw [hs]; rfl))
    | sleeping m => exact .asleep hj hs (scheduled.asleep i j m hj hs) (resumed m (by rw [hs]; rfl))
    | awaiting k =>
      have fired := heard k (heeds.awaiting k hs)
      rw [scheduled.awaiting i j k hj hs] at fired
      cases fired
    | _ =>
      rw [hs] at goes
      cases goes
  · rw [Job.due_left leaves, List.append_nil] at last
    exact .ended hj leaves (moment_of_did (List.mem_of_getLast? last))

variable {s : Service}

theorem hangs_of_left {j : Job} (here : s.jobs[i]? = some j) (left : j.state = ending.leaves)
    (ungiven : s.result? i = none) : ending = .hangs := by
  cases ending with
  | hangs => rfl
  | _ =>
    rw [result?_eq_some.mpr ⟨j, here, left⟩] at ungiven
    cases ungiven

variable (h : Stands ending done s i)

include h

theorem Stands.here : ∃ j, s.jobs[i]? = some j := by
  cases h <;> exact ⟨_, ‹_›⟩

/-- What a job has given is how it ends, and it was done then. -/
theorem Stands.given {r : Result} (given : s.result? i = some r) :
    ending.gives? = some r.asStop ∧ done ≤ s.now := by
  obtain ⟨j, hj, ended⟩ := result?_eq_some.mp given
  cases h with
  | ended here left past =>
    rw [hj] at here
    cases here
    rw [left] at ended
    refine ⟨?_, past⟩
    cases ending <;> cases ended <;> rfl
  | ready here state =>
    rw [hj] at here
    cases here
    rw [ended] at state
    cases state
  | asleep here state =>
    rw [hj] at here
    cases here
    rw [ended] at state
    cases state

/-- A job that has given nothing never will, or is not done before now. -/
theorem Stands.unended (ungiven : s.result? i = none) : ending = .hangs ∨ s.now ≤ done := by
  cases h with
  | ended here left => exact .inl (hangs_of_left here left ungiven)
  | ready here state early => exact .inr early
  | asleep here state later early => exact .inr (Nat.le_trans (Nat.le_of_lt later) early)

/-- When nobody can go on, such a job is not done before the next sleep ends. -/
theorem Stands.next (scheduled : Scheduled none s) (empty : s.queue = [])
    (ungiven : s.result? i = none) {m : Nat} (first : ∀ t ∈ s.sleepEnds, s.now < t → m ≤ t) :
    ending = .hangs ∨ m ≤ done := by
  cases h with
  | ended here left => exact .inl (hangs_of_left here left ungiven)
  | ready here state => exact absurd state (scheduled.idle empty here)
  | asleep here state later early =>
    have ends := mem_sleepEnds.mpr ⟨_, List.mem_of_getElem? here, state⟩
    exact .inr (Nat.le_trans (first _ ends later) early)

/-- A job that is done has ended, if it had the time to. -/
theorem Stands.late (scheduled : Scheduled none s) (past : done ≤ s.now)
    (time : done < s.now ∨ s.queue = []) : ∃ j, s.jobs[i]? = some j ∧ j.state = ending.leaves := by
  cases h with
  | ended here left => exact ⟨_, here, left⟩
  | ready here state early =>
    rcases time with late | idle
    · exact absurd early (Nat.not_le.mpr late)
    · exact absurd state (scheduled.idle idle here)
  | asleep here state later early =>
    exact absurd (Nat.le_trans early past) (Nat.not_le.mpr later)

/-- Then it has given what it was to give. -/
theorem Stands.gives (scheduled : Scheduled none s) (past : done ≤ s.now)
    (time : done < s.now ∨ s.queue = []) {r : Shutdown.Result} (gives : ending.gives? = some r) :
    ∃ r', s.result? i = some r' ∧ r'.asStop = r := by
  obtain ⟨j, hj, left⟩ := h.late scheduled past time
  cases ending with
  | hangs => cases gives
  | returns r' => exact ⟨_, result?_eq_some.mpr ⟨j, hj, left⟩, Option.some.inj gives⟩
  | panics p => exact ⟨_, result?_eq_some.mpr ⟨j, hj, left⟩, Option.some.inj gives⟩

/-- A job that is not done goes on. -/
theorem Stands.goes (early : s.now < done) :
    ∃ j, s.jobs[i]? = some j ∧ j.state.goesOn = true := by
  cases h with
  | ended here left past => exact absurd past (Nat.not_le.mpr early)
  | ready here state => exact ⟨_, here, by rw [state]; rfl⟩
  | asleep here state => exact ⟨_, here, by rw [state]; rfl⟩

end Stands

/-! ## 4. What becomes of a call -/

/-- **What can become of a call to stop a task** until a moment: it gets an answer, which it keeps,
and it is given up only when its time is over. -/
structure Becomes (now : Nat) (c c' : StopCall) : Prop where
  awaited : c'.awaited = c.awaited
  deadline : c'.deadline = c.deadline
  kept : ∀ a, c.answer = some a → c'.answer = some a
  lapsed : c'.answer = some .gaveUp →
    c.answer = some .gaveUp ∨ ∃ m, c.deadline = some m ∧ m ≤ now

theorem Becomes.refl (now : Nat) (c : StopCall) : Becomes now c c :=
  ⟨rfl, rfl, fun _ => id, .inl⟩

theorem Becomes.trans {now now' : Nat} {c c' c'' : StopCall} (h : Becomes now c c')
    (le : now ≤ now') (k : Becomes now' c' c'') : Becomes now' c c'' where
  awaited := k.awaited.trans h.awaited
  deadline := k.deadline.trans h.deadline
  kept a answer := k.kept a (h.kept a answer)
  lapsed left := by
    rcases k.lapsed left with before | ⟨m, limit, past⟩
    · exact (h.lapsed before).imp_right fun ⟨m, limit, past⟩ => ⟨m, limit, Nat.le_trans past le⟩
    · exact .inr ⟨m, h.deadline ▸ limit, past⟩

/-- A call that has an answer stays as it is when it is looked at. -/
theorem poll_answered {c : StopCall} {a : StopAnswer} (answer : c.answer = some a) (s : Service) :
    c.poll s = c := by
  unfold StopCall.poll
  rw [answer]

/-- A look at a call without an answer gives it the result of the body that it waits for. -/
theorem poll_given {c : StopCall} {s : Service} {b : JobId} {r : Result}
    (unanswered : c.answer = none) (awaited : c.awaited = some b) (given : s.result? b = some r) :
    (c.poll s).answer = some (.result r.asStop) := by
  unfold StopCall.poll
  rw [unanswered, awaited]
  dsimp only
  rw [given]

theorem becomes_poll (c : StopCall) (s : Service) : Becomes s.now c (c.poll s) where
  awaited := poll_awaited c s
  deadline := poll_deadline c s
  kept a answer := by rw [poll_answered answer, answer]
  lapsed left := by
    unfold StopCall.poll at left
    split at left
    · exact .inl left
    · cases left
    · split at left
      · cases left
      · split at left
        · rename_i late
          obtain ⟨m, limit, past⟩ := (Option.any_eq_true _ _).mp late
          exact .inr ⟨m, limit, of_decide_eq_true past⟩
        · exact .inl left

/-- A call to stop a task is left as it is by every move but a look at it. -/
theorem apply_stop {w : World} {i : Nat} {c : StopCall} (hc : w.stops[i]? = some c) (m : Move) :
    ∃ c', (w.apply m).stops[i]? = some c' ∧ Becomes w.service.now c c' := by
  rcases w.apply_cases m with ⟨-, e⟩ | ⟨t, -, -, e⟩ | ⟨t, -, -, e⟩
  · rw [e]
    by_cases stops : ∃ k giveUp, m = .stop k giveUp
    · obtain ⟨k, giveUp, rfl⟩ := stops
      refine ⟨c, ?_, .refl _ c⟩
      show (w.stop k giveUp).stops[i]? = some c
      have lt := (List.getElem?_eq_some_iff.mp hc).1
      rcases stop_cases w k giveUp with ⟨-, e⟩ | ⟨x, -, -, e⟩ <;> rw [e] <;>
        exact (List.getElem?_append_left lt).trans hc
    by_cases looks : ∃ i', m = .lookStop i'
    · obtain ⟨i', rfl⟩ := looks
      show ∃ c', (w.stops.modify i' (·.poll w.service))[i]? = some c' ∧ _
      rw [List.getElem?_modify, hc]
      by_cases here : i' = i
      · exact ⟨_, by simp [here], becomes_poll c w.service⟩
      · exact ⟨c, by simp [here], .refl _ c⟩
    rw [outside_stops w (fun k g e => stops ⟨k, g, e⟩) fun i' e => looks ⟨i', e⟩]
    exact ⟨c, hc, .refl _ c⟩
  · rw [e]
    exact ⟨c, hc, .refl _ c⟩
  · rw [e]
    exact ⟨c, hc, .refl _ c⟩

/-- **Whatever happens, a call keeps its answer.** -/
theorem after_stop {w : World} {i : Nat} {c : StopCall} (hc : w.stops[i]? = some c)
    (ms : List Move) :
    ∃ c', (w.after ms).stops[i]? = some c' ∧ Becomes (w.after ms).service.now c c' := by
  induction ms generalizing w c with
  | nil => exact ⟨c, hc, .refl _ c⟩
  | cons m ms ih =>
    obtain ⟨c', hc', first⟩ := apply_stop hc m
    obtain ⟨c'', hc'', rest⟩ := ih hc'
    exact ⟨c'', hc'', first.trans (after_now w (m :: ms)) rest⟩

/-- A task that was taken on stays so. -/
theorem apply_taken {w : World} (m : Move) {k : Nat} {x : RunningTask}
    (hx : w.service.tasks[k]? = some x) (taken : x.claimed = true) :
    ∃ x', (w.apply m).service.tasks[k]? = some x' ∧ x'.claimed = true := by
  have told : ∃ x', ((w.service.fire k).claim k).2.tasks[k]? = some x' ∧ x'.claimed = true :=
    ⟨_, told_task w.service k hx, by simp⟩
  rcases w.apply_cases m with ⟨-, e⟩ | ⟨t, ht, -, e⟩ | ⟨t, -, -, e⟩
  · rw [e]
    rcases outside_task (m := m) hx with kept | ⟨giveUp, rfl⟩
    · exact ⟨x, kept, taken⟩
    · exact told
  · rw [e]
    show ∃ x', (t.step w.service).2.tasks[k]? = some x' ∧ _
    by_cases own : t.close = .stopTask k
    · rcases t.step_cases w.service with ⟨y, rest, -, -, e⟩ | ⟨y, rest, state, -, -, e⟩ | ⟨-, e⟩
      · rw [e, (act_frame w.service t.job t.who y).2.2.2]
        exact ⟨x, hx, taken⟩
      · rw [e]
        exact ⟨x, hx, taken⟩
      · rw [e, own]
        rcases closeStop_cases w.service t.job k with ⟨-, e⟩ | ⟨y, hy, untaken, -⟩
        · rw [e]
          exact told
        · rw [hx] at hy
          cases hy
          rw [taken] at untaken
          cases untaken
    · exact ⟨x, (step_tasks t w.service own).trans hx, taken⟩
  · rw [e]
    exact ⟨x, hx, taken⟩

theorem after_taken {w : World} (ms : List Move) {k : Nat} {x : RunningTask}
    (hx : w.service.tasks[k]? = some x) (taken : x.claimed = true) :
    ∃ x', (w.after ms).service.tasks[k]? = some x' ∧ x'.claimed = true :=
  after_induction (P := fun v => ∃ x', v.service.tasks[k]? = some x' ∧ x'.claimed = true)
    (fun _ m ⟨_, hx, taken⟩ => apply_taken m hx taken) w ms ⟨x, hx, taken⟩

/-- **A call to stop a task that was taken on has its answer at once**, and for good. -/
theorem stop_taken {w : World} (free : w.turn = none) {k : Nat} {x : RunningTask}
    (hx : w.service.tasks[k]? = some x) (taken : x.claimed = true) (giveUp : Option Nat)
    (ms : List Move) :
    ∃ c, ((w.apply (.stop k giveUp)).after ms).stops[w.stops.length]? = some c ∧
      c.answer = some (.result .ok) := by
  have made : (w.apply (.stop k giveUp)).stops[w.stops.length]? =
      some ⟨none, giveUp.map (wakeTime w.service.now), some (.result .ok)⟩ := by
    rw [apply_free free]
    show (w.stop k giveUp).stops[w.stops.length]? = _
    rcases stop_cases w k giveUp with ⟨-, e⟩ | ⟨y, hy, untaken, -⟩
    · rw [e]
      exact List.getElem?_concat_length
    · rw [hx] at hy
      cases hy
      rw [taken] at untaken
      cases untaken
  obtain ⟨c, hc, becomes⟩ := after_stop made ms
  exact ⟨c, hc, becomes.kept _ rfl⟩

/-! ## 5. The first call -/

/-- **What the first call to stop a task can have been answered** until a moment: nothing, how the
body ends that is done then, or that it was given up when its time was over. -/
inductive Answered (ending : Shutdown.Ending) (done : Nat) (deadline : Option Nat) (now : Nat) :
    Option StopAnswer → Prop where
  | waiting : Answered ending done deadline now none
  | result {r : Shutdown.Result} (gives : ending.gives? = some r) (past : done ≤ now) :
      Answered ending done deadline now (some (.result r))
  | gaveUp {m : Nat} (limit : deadline = some m) (past : m ≤ now) :
      Answered ending done deadline now (some .gaveUp)

/-- **A task from its start to the first call to stop it, and on from there**, in moves on time. -/
structure FirstStop (w : World) (t : Shutdown.Task) (ms : List Move) (giveUp : Option Nat)
    (ms' : List Move) (v u : World) : Prop where
  untouched : Untouched w t ms
  before : (w.apply (.addTask t)).after ms = v
  timely : (v.apply (.stop w.service.tasks.length giveUp)).OnTime ms'
  after : (v.apply (.stop w.service.tasks.length giveUp)).after ms' = u

/-- **A body has not heard its signal** as long as nobody has stopped the task. -/
theorem Untouched.unheard {w : World} (promptly : InvokedPromptly w)
    (scheduled : Scheduled w.turn w.service) (free : w.turn = none) {t : Shutdown.Task}
    {ms : List Move} (h : Untouched w t ms) {q : List Move} (early : q <+: ms) (m : Nat) :
    (m, some (.note "task signalled")) ∉ did w.service.jobs.length ((w.apply (.addTask t)).deeds q)
    := by
  intro mem
  have here := moment_of_did mem
  have timely : (w.apply (.addTask t)).OnTime q := by
    obtain ⟨rest, rfl⟩ := early
    exact ((onTime_append _ q rest).mp h.timely).1
  -- it may still be stopped a moment later than the one that it would have heard the signal at
  have sum := did_due (addTask_byItself promptly scheduled free t) timely fun p first =>
    h.rung scheduled first early (Nat.le_succ _)
  rw [due_started free] at sum
  have later := t.heard_conduct (sum ▸ List.mem_append_left _ mem)
  dsimp only at here
  omega

theorem stop_service {w : World} (free : w.turn = none) (k : Nat) (giveUp : Option Nat) :
    (w.apply (.stop k giveUp)).service = ((w.service.fire k).claim k).2 := by
  rw [apply_free free]
  rfl

/-- A call to stop a task takes no time. -/
theorem stop_now {w : World} (free : w.turn = none) (k : Nat) (giveUp : Option Nat) :
    (w.apply (.stop k giveUp)).service.now = w.service.now := by
  rw [stop_service free]
  exact ((JobsOnly.fire w.service k).trans (.claim _ k)).now

section FirstStop

variable {w : World} (promptly : InvokedPromptly w) (scheduled : Scheduled w.turn w.service)
  (free : w.turn = none) {t : Shutdown.Task} {ms ms' : List Move} {giveUp : Option Nat}
  {v u : World} (h : FirstStop w t ms giveUp ms' v u)

include h

theorem FirstStop.turnless : v.turn = none := h.before ▸ h.untouched.free

theorem FirstStop.task : v.service.tasks[w.service.tasks.length]? =
    some ⟨t.name, false, w.service.jobs.length, false⟩ := h.before ▸ h.untouched.task

theorem FirstStop.onTime :
    (w.apply (.addTask t)).OnTime (ms ++ .stop w.service.tasks.length giveUp :: ms') := by
  refine (onTime_append _ ms _).mpr ⟨h.untouched.timely, ?_, ?_⟩
  · rw [h.before]
    exact fun later => absurd later (Nat.not_lt.mpr (Nat.le_of_eq (stop_now h.turnless _ _)))
  · rw [h.before]
    exact h.timely

theorem FirstStop.all :
    (w.apply (.addTask t)).after (ms ++ .stop w.service.tasks.length giveUp :: ms') = u := by
  rw [after_append, h.before, after_cons, h.after]

/-- What holds from the first call on holds at every moment from then on. -/
theorem FirstStop.until {q : List Move} (early : q <+: ms') : FirstStop w t ms giveUp q v
    ((v.apply (.stop w.service.tasks.length giveUp)).after q) := by
  obtain ⟨rest, rfl⟩ := early
  exact ⟨h.untouched, h.before, ((onTime_append _ q rest).mp h.timely).1, rfl⟩

theorem FirstStop.now : v.service.now ≤ u.service.now := by
  rw [← stop_now h.turnless w.service.tasks.length giveUp, ← h.after]
  exact after_now _ ms'

/-- The first call waits for the body of the task, and can become what a call becomes. -/
theorem FirstStop.called : ∃ c, u.stops[v.stops.length]? = some c ∧ Becomes u.service.now
    ⟨some w.service.jobs.length, giveUp.map (wakeTime v.service.now), none⟩ c := by
  have made : ∃ c, (v.apply (.stop w.service.tasks.length giveUp)).stops[v.stops.length]? =
      some c ∧ Becomes v.service.now
        ⟨some w.service.jobs.length, giveUp.map (wakeTime v.service.now), none⟩ c := by
    have now := stop_now h.turnless w.service.tasks.length giveUp
    rw [apply_free h.turnless] at now ⊢
    change (v.stop _ giveUp).service.now = _ at now
    show ∃ c, (v.stop _ giveUp).stops[v.stops.length]? = some c ∧ _
    rcases stop_cases v w.service.tasks.length giveUp with ⟨taken, -⟩ | ⟨x, hx, -, e⟩
    · cases taken _ h.task
    · rw [h.task] at hx
      cases hx
      rw [e] at now ⊢
      rw [← now]
      exact ⟨_, List.getElem?_concat_length, becomes_poll _ _⟩
  obtain ⟨c, hc, first⟩ := made
  obtain ⟨c', hc', rest⟩ := after_stop hc ms'
  rw [h.after] at hc' rest
  exact ⟨c', hc', first.trans h.now rest⟩

/-- From the first call on the task is taken on. -/
theorem FirstStop.taken :
    ∃ x, u.service.tasks[w.service.tasks.length]? = some x ∧ x.claimed = true := by
  rw [← h.after]
  refine after_taken ms' (x := ⟨t.name, true, w.service.jobs.length, true⟩) ?_ rfl
  rw [stop_service h.turnless, told_task v.service _ h.task, if_pos rfl]

include scheduled

theorem FirstStop.scheduled_after : Scheduled u.turn u.service := by
  rw [← h.all]
  exact after_scheduled _ _ (apply_scheduled w _ scheduled)

/-- **From the first call on its signal is fired.** -/
theorem FirstStop.fired : u.service.isFired w.service.tasks.length = true := by
  have scheduled' : Scheduled v.turn v.service := by
    rw [← h.before]
    exact after_scheduled _ ms (apply_scheduled w _ scheduled)
  rw [← h.after]
  refine after_fired (apply_scheduled v _ scheduled') ms' ?_
  rw [stop_service h.turnless]
  unfold isFired
  rw [told_task v.service _ h.task, if_pos rfl]

theorem FirstStop.rung {p : List Move}
    (early : p <+: ms ++ .stop w.service.tasks.length giveUp :: ms') :
    Rung (· = w.service.tasks.length) v.service.now ((w.apply (.addTask t)).after p).service := by
  have before : ∀ q, q <+: ms →
      Rung (· = w.service.tasks.length) v.service.now ((w.apply (.addTask t)).after q).service := by
    rw [← h.before]
    exact fun q first => h.untouched.rung scheduled first (List.prefix_refl ms) (Nat.le_refl _)
  rcases List.prefix_or_prefix_of_prefix early (List.prefix_append ms _) with first | ⟨q, rfl⟩
  · exact before p first
  · cases q with
    | nil =>
      rw [List.append_nil]
      exact before ms (List.prefix_refl _)
    | cons m q =>
      obtain ⟨rfl, first⟩ := List.cons_prefix_cons.mp ((List.prefix_append_right_inj ms).mp early)
      have later := h.until first
      rw [later.all]
      rintro _ rfl
      refine ⟨fun unfired => ?_, fun _ => later.now⟩
      rw [later.fired scheduled] at unfired
      cases unfired

include promptly free

/-- **What its body does**, before the first call and after it. -/
theorem FirstStop.body : Undisturbed
    (t.conduct w.service.tasks.length w.service.now v.service.now) t.ending
    (did w.service.jobs.length ((w.apply (.addTask t)).deeds
      (ms ++ .stop w.service.tasks.length giveUp :: ms'))) u w.service.jobs.length := by
  have byItself := addTask_byItself promptly scheduled free t
  have fired := h.fired scheduled
  rw [← due_started free, ← h.all]
  refine undisturbed byItself h.onTime (fun q early => h.rung scheduled early) fun _ _ k => ?_
  rw [k, h.all]
  exact fired

/-- **Where its body stands after the first call.** -/
theorem FirstStop.stands (still : u.turn = none) :
    Stands t.ending (t.done w.service.now v.service.now) u.service w.service.jobs.length := by
  have byItself := addTask_byItself promptly scheduled free t
  have fired := h.fired scheduled
  rw [← h.all] at still fired ⊢
  refine after_stands byItself h.onTime (fun q early => h.rung scheduled early) still ?_ ?_
  · rintro _ rfl
    exact fired
  · rw [due_started free]
    exact (agenda_getLast? _ _ _).trans (by rw [t.ends_ofBody])

omit promptly free scheduled in
theorem FirstStop.begun : w.service.now ≤ v.service.now := by
  rw [← h.before]
  exact after_now w (.addTask t :: ms)

/-- A body that waits for its signal has heard it at the moment of the first call. -/
theorem FirstStop.heard (waits : t.waits = true) (rest : u.AtRest) :
    (v.service.now, some (.note "task signalled")) ∈ did w.service.jobs.length
      ((w.apply (.addTask t)).deeds (ms ++ .stop w.service.tasks.length giveUp :: ms')) := by
  have heard := t.conduct_hears w.service.tasks.length w.service.now v.service.now waits
  rw [Nat.max_eq_right h.begun] at heard
  rw [(h.body promptly scheduled free).moments rest]
  exact List.mem_filter.mpr ⟨heard, decide_eq_true h.now⟩

/-- **What the first call has been answered**: how the body ends, or that it was given up; and as
soon as the body had the time to end, a look at the call gives its end. -/
theorem FirstStop.answered (stopsTended : StopsTended u) (still : u.turn = none) :
    ∃ c, u.stops[v.stops.length]? = some c ∧
      Answered t.ending (t.done w.service.now v.service.now)
        (giveUp.map (wakeTime v.service.now)) u.service.now c.answer ∧
      ∀ r, t.ending.gives? = some r → c.answer = none →
        t.done w.service.now v.service.now ≤ u.service.now →
        t.done w.service.now v.service.now < u.service.now ∨ u.service.queue = [] →
        (c.poll u.service).answer = some (.result r) := by
  have stands := h.stands promptly scheduled free still
  have scheduled' := h.scheduled_after scheduled
  rw [still] at scheduled'
  obtain ⟨c, hc, awaited, deadline, -, lapsed⟩ := h.called
  refine ⟨c, hc, ?_, fun r gives unanswered past time => ?_⟩
  · cases answer : c.answer with
    | none => exact .waiting
    | some a =>
      cases a with
      | gaveUp =>
        obtain ⟨m, limit, past⟩ := (lapsed answer).resolve_left nofun
        exact .gaveUp limit past
      | result r =>
        obtain ⟨-, result⟩ := stopsTended.answered c (List.mem_of_getElem? hc) _ awaited
        obtain ⟨r', given, rfl⟩ := result r answer
        obtain ⟨gives, past⟩ := stands.given given
        exact .result gives past
  · obtain ⟨r', given, rfl⟩ := stands.gives scheduled' past time gives
    exact poll_given unanswered awaited given

/-- Its body has ended when it is done, and goes on until then. -/
theorem FirstStop.ended (rest : u.AtRest) : ∃ j, u.service.jobs[w.service.jobs.length]? = some j ∧
    if t.done w.service.now v.service.now ≤ u.service.now then j.state = t.ending.leaves
    else j.state.goesOn = true := by
  obtain ⟨close, bound⟩ :=
    t.conduct_bounds w.service.tasks.length w.service.now v.service.now
  exact (h.body promptly scheduled free).ended close (fun x mem => (bound x mem).2) rest

end FirstStop

/-! ## 6. The task and the calls -/

/-- **What becomes of a task and of the calls to stop it.** The body hears its signal from the first
call on and not before, and does what it would do by itself, whatever becomes of the calls. The
first call gets the end of the body unless it is given up; every other call is told at once that
there is nothing to wait for. -/
structure Delivers (w : World) (t : Shutdown.Task) (ms : List Move) (giveUp : Option Nat)
    (ms' : List Move) (v u : World) : Prop where
  unfired : ∀ q, q <+: ms →
    ((w.apply (.addTask t)).after q).service.isFired w.service.tasks.length = false
  unheard : ∀ q, q <+: ms → ∀ m, (m, some (.note "task signalled")) ∉
    did w.service.jobs.length ((w.apply (.addTask t)).deeds q)
  fired : u.service.isFired w.service.tasks.length = true
  heard : t.waits = true → u.AtRest →
    (v.service.now, some (.note "task signalled")) ∈ did w.service.jobs.length
      ((w.apply (.addTask t)).deeds (ms ++ .stop w.service.tasks.length giveUp :: ms'))
  body : Undisturbed (t.conduct w.service.tasks.length w.service.now v.service.now) t.ending
    (did w.service.jobs.length ((w.apply (.addTask t)).deeds
      (ms ++ .stop w.service.tasks.length giveUp :: ms'))) u w.service.jobs.length
  ended : u.AtRest → ∃ j, u.service.jobs[w.service.jobs.length]? = some j ∧
    if t.done w.service.now v.service.now ≤ u.service.now then j.state = t.ending.leaves
    else j.state.goesOn = true
  first : u.turn = none → ∃ c, u.stops[v.stops.length]? = some c ∧
    Answered t.ending (t.done w.service.now v.service.now)
      (giveUp.map (wakeTime v.service.now)) u.service.now c.answer ∧
    ∀ r, t.ending.gives? = some r → c.answer = none →
      t.done w.service.now v.service.now ≤ u.service.now →
      t.done w.service.now v.service.now < u.service.now ∨ u.service.queue = [] →
      (c.poll u.service).answer = some (.result r)
  others : u.turn = none → ∀ giveUp' ms'', ∃ c,
    ((u.apply (.stop w.service.tasks.length giveUp')).after ms'').stops[u.stops.length]? = some c ∧
      c.answer = some (.result .ok)

theorem FirstStop.delivers {w : World} (promptly : InvokedPromptly w)
    (scheduled : Scheduled w.turn w.service) (free : w.turn = none) {t : Shutdown.Task}
    {ms ms' : List Move} {giveUp : Option Nat} {v u : World} (h : FirstStop w t ms giveUp ms' v u)
    (stopsTended : StopsTended u) :
    Delivers w t ms giveUp ms' v u where
  unfired _ early := h.untouched.unfired scheduled early
  unheard _ early m := h.untouched.unheard promptly scheduled free early m
  fired := h.fired scheduled
  heard waits rest := h.heard promptly scheduled free waits rest
  body := h.body promptly scheduled free
  ended rest := h.ended promptly scheduled free rest
  first still := h.answered promptly scheduled free stopsTended still
  others still giveUp' ms'' := by
    obtain ⟨x, hx, taken⟩ := h.taken
    exact stop_taken still hx taken giveUp' ms''

/-- A task that nobody stops is untouched, if nobody shuts the service down. -/
theorem untouched_of_leftAlone {w : World} (stopsTended : StopsTended w)
    (scheduled : Scheduled w.turn w.service) (free : w.turn = none) (t : Shutdown.Task)
    {ms : List Move} (alone : ∀ giveUp, .stop w.service.tasks.length giveUp ∉ ms)
    (running : .call ∉ ms) (timely : (w.apply (.addTask t)).OnTime ms)
    (still : ((w.apply (.addTask t)).after ms).turn = none) : Untouched w t ms where
  timely := timely
  free := still
  task := (after_leftAlone (started_leftAlone stopsTended free t) (apply_scheduled w _ scheduled)
    alone running).task

end World

end ServiceHealth
