import ServiceHealth.Proofs.Detached

/-!
# A task is reported by the end of its body

Three jobs stand between a task and its outcome: its body, which may end before the shutdown, during
it or never; its teardown, which fires the signal and takes over what the body gives; and the call,
which waits for the teardown until its deadline. Still the outcome is the end of the body and
nothing else.

* `Task.conduct`, `Task.done`: what a body does by itself, when, and when it is done.
* `Ending.fate`: what an end in time is reported as.
* `Untouched`: a task from its start to the shutdown. `Untouched.course`: what is then left of its
  body is when it is done, and how it ends.
* `task_reported`: **the outcome of a task is the end of its body**.
-/

namespace ServiceHealth

open Service

namespace Shutdown

/-! ## 1. What a body does by itself -/

/-- What an end is reported as that comes in time. -/
def Ending.fate : Ending → Fate
  | .returns r => .ofResult r
  | .panics p => .failed (.panicked p.report)
  | .hangs => .timedOut

/-- **What the body of a task does by itself**, and when, if it begins at one moment and is told to
stop at another. -/
def Task.conduct (t : Task) (k spawned told : Nat) : List (Nat × Option Step) :=
  agenda told (Job.ofBody k t).todo spawned

/-- When the body of a task is done, if it begins at one moment and is told to stop at another. -/
def Task.done (t : Task) (spawned told : Nat) : Nat :=
  afterDelay (if t.waits then max spawned told else spawned) t.delay

theorem Task.ends_ofBody (t : Task) (k spawned told : Nat) :
    ends told (Job.ofBody k t).todo spawned = t.done spawned told := by
  show ends told (((if t.waits then [.awaitSignal k, .note "task signalled"] else []) ++
    work t.delay []) ++ _) spawned =
      afterDelay (if t.waits then max spawned told else spawned) t.delay
  rw [ends_append, ends_append, ends_work]
  cases t.waits <;> cases t.ending <;> rfl

/-- The body of a task comes to its end when it is done, and does nothing after that. -/
theorem Task.conduct_bounds (t : Task) (k spawned told : Nat) :
    (t.done spawned told, none) ∈ t.conduct k spawned told ∧
      ∀ x ∈ t.conduct k spawned told, spawned ≤ x.1 ∧ x.1 ≤ t.done spawned told := by
  rw [← t.ends_ofBody k]
  exact ⟨ends_mem _ _ _, fun x mem => ⟨le_of_mem_agenda mem, le_ends mem⟩⟩

/-- What becomes of a task whose body ends at a moment, under a deadline. -/
def Ending.fateAt (ending : Ending) (deadline m : Nat) : Fate :=
  if m < deadline then ending.fate else .timedOut

/-- What becomes of an end under a deadline. -/
theorem Ending.fateBy_gives (ending : Ending) (deadline m : Nat) :
    fateBy deadline (ending.gives?.map fun r => (m, r)) =
      ending.fateAt deadline m := by
  cases ending with
  | hangs => exact (ite_self _).symm
  | _ => rfl

/-- **Which fate stands for which end**: a task has stopped if and only if its body has ended well
in time; it has failed with an error if and only if its body has, or has panicked, in time; and it
is late otherwise. -/
structure Ending.Tells (ending : Ending) (deadline m : Nat) (fate : Fate) : Prop where
  stopped : fate = .stopped ↔ m < deadline ∧ ending = .returns .ok
  failed : ∀ e, fate = .failed e ↔ m < deadline ∧ (ending = .returns (.error e) ∨
    ∃ p, ending = .panics p ∧ e = .panicked p.report)
  late : fate = .timedOut ↔ deadline ≤ m ∨ ending = .hangs

theorem Ending.tells (ending : Ending) (deadline m : Nat) :
    ending.Tells deadline m (ending.fateAt deadline m) := by
  by_cases early : m < deadline
  · have fate : ending.fateAt deadline m = ending.fate := if_pos early
    have not_late : ¬ deadline ≤ m := Nat.not_le.mpr early
    rw [fate]
    rcases ending with (_ | e) | p | _ <;>
      refine ⟨?_, fun e' => ?_, ?_⟩ <;> simp [Ending.fate, Fate.ofResult, early, not_late, eq_comm]
  · have fate : ending.fateAt deadline m = .timedOut := if_neg early
    rw [fate]
    exact ⟨by simp [early], fun e => by simp [early], by simp [Nat.le_of_not_lt early]⟩

end Shutdown

namespace Service

theorem agenda_getLast? (signal : Nat) (todo : List Step) (m : Nat) :
    (agenda signal todo m).getLast? = some (ends signal todo m, none) := by
  induction todo generalizing m with
  | nil => rfl
  | cons x rest ih =>
    show ((m, some x) :: agenda signal rest (x.doneAt signal m)).getLast? = _
    rw [List.getLast?_cons_of_ne_nil (agenda_ne_nil _ _ _), ih]
    rfl

/-- **What is left of a body that is told to stop now is when it is done, and how it ends**, if only
the end is judged by a deadline that has not come. -/
theorem fateBy_course {now deadline : Nat} {signals : Nat → Prop} {ending : Shutdown.Ending}
    {j : Job} (heeds : Heeds signals ending j) (awake : ∀ m, j.state = .sleeping m → now ≤ m)
    {done : List (Nat × Option Step)} {todo : List Step} {spawned : Nat}
    (sum : done ++ j.due now now = agenda now todo spawned) (past : ∀ x ∈ done, x.1 ≤ now)
    (early : now < deadline) :
    fateBy deadline (Job.course now j) = ending.fateAt deadline (ends now todo spawned) := by
  have last := agenda_getLast? now todo spawned
  rw [← sum] at last
  have gives : j.close.gives? = ending.gives? := by rw [heeds.close]; rfl
  -- a job that goes on ends when its agenda does; one that has ended had its end in what is done
  have going : ∀ m, j.state.resumes? now now = some m → j.state.goesOn? now = some m →
      fateBy deadline (Job.course now j) = ending.fateAt deadline (ends now todo spawned) := by
    intro m resumes goes
    have le := JobState.le_goesOn goes awake
    rw [Job.due_of resumes, List.getLast?_append, agenda_getLast?, Option.some_or] at last
    have same := (Prod.mk.inj (Option.some.inj last)).1
    have course : Job.course now j = ending.gives?.map fun r => (ends now todo spawned, r) := by
      rw [Job.course_of_going goes, gives, ← ends_eq_finish le, same]
    rw [course, Shutdown.Ending.fateBy_gives]
  rcases heeds.stands with goes | leaves
  · cases hs : j.state with
    | ready => exact going now (by rw [hs]; rfl) (by rw [hs]; rfl)
    | sleeping m => exact going m (by rw [hs]; rfl) (by rw [hs]; rfl)
    | awaiting k => exact going now (by rw [hs]; rfl) (by rw [hs]; rfl)
    | _ =>
      rw [hs] at goes
      cases goes
  · rw [Job.due_left leaves, List.append_nil] at last
    have le := past _ (List.mem_of_getLast? last)
    rw [Shutdown.Ending.fateAt, if_pos (Nat.lt_of_le_of_lt le early)]
    unfold Job.course
    rw [leaves]
    cases ending with
    | returns r => exact if_pos early
    | panics p => exact if_pos early
    | hangs => rfl

end Service

namespace World

/-! ## 2. Until the shutdown -/

theorem apply_member {w : World} {p : Nat} {m : Member} (here : w.service.members[p]? = some m)
    (move : Move) : (w.apply move).service.members[p]? = some m := by
  have grown : ∀ new : Member, (w.service.members ++ [new])[p]? = some m := fun new => by
    rw [List.getElem?_append_left (List.getElem?_eq_some_iff.mp here).1, here]
  rcases w.apply_cases move with ⟨-, e⟩ | ⟨t, -, -, e⟩ | ⟨t, -, -, e⟩
  · rw [e]
    by_cases hb : move = .begin
    · subst hb
      show (Turn.begin w.service).2.members[p]? = some m
      rw [(JobsOnly.begin w.service).members]
      exact here
    refine outside_rule (P := fun s => s.members[p]? = some m) hb here
      (fun _ _ q h => by rw [q.members]; exact h) (fun _ _ => grown _) (fun t _ => grown _)
      (fun _ _ _ _ _ h => h) (fun _ _ _ h => h) (fun k _ _ => ?_) (fun _ _ _ => here)
      (fun _ _ => here)
    rw [((JobsOnly.fire w.service k).trans (.claim _ k)).members]
    exact here
  · rw [e]
    show (t.step w.service).2.members[p]? = some m
    rw [step_members]
    exact here
  · rw [e]
    exact here

/-- What is registered stays so. -/
theorem after_member {w : World} {p : Nat} {m : Member} (here : w.service.members[p]? = some m)
    (ms : List Move) : (w.after ms).service.members[p]? = some m :=
  after_induction (P := fun v => v.service.members[p]? = some m)
    (fun _ move here => apply_member here move) w ms here

/-- **A task that nobody has stopped since it was started**, in moves on time. -/
structure Untouched (w : World) (t : Shutdown.Task) (ms : List Move) : Prop where
  timely : (w.apply (.addTask t)).OnTime ms
  free : ((w.apply (.addTask t)).after ms).turn = none
  task : ((w.apply (.addTask t)).after ms).service.tasks[w.service.tasks.length]? =
    some ⟨t.name, false, w.service.jobs.length, false⟩

section Untouched

variable {w : World} (promptly : InvokedPromptly w) (scheduled : Scheduled w.turn w.service)
  (free : w.turn = none) {t : Shutdown.Task} {ms : List Move} (h : Untouched w t ms)

include scheduled h

/-- **Its signal has not been fired in any world before.** -/
theorem Untouched.unfired {q : List Move} (before : q <+: ms) :
    ((w.apply (.addTask t)).after q).service.isFired w.service.tasks.length = false := by
  obtain ⟨rest, rfl⟩ := before
  refine Bool.eq_false_iff.mpr fun fired => ?_
  have later := after_fired (after_scheduled _ q (apply_scheduled w _ scheduled)) rest fired
  rw [← after_append] at later
  unfold isFired at later
  rw [h.task] at later
  cases later

/-- For all that its body can tell, its signal is fired later on. -/
theorem Untouched.rung {p q : List Move} (first : p <+: q) (before : q <+: ms) {signal : Nat}
    (late : ((w.apply (.addTask t)).after q).service.now ≤ signal) :
    Rung (· = w.service.tasks.length) signal ((w.apply (.addTask t)).after p).service := by
  rintro _ rfl
  have unfired := h.unfired scheduled (first.trans before)
  obtain ⟨rest, rfl⟩ := first
  rw [after_append] at late
  refine ⟨fun _ => Nat.le_trans (after_now _ rest) late, fun fired => ?_⟩
  rw [unfired] at fired
  cases fired

include free

omit scheduled h in
/-- What its body has to do when it is started. -/
theorem due_started (told : Nat) : (w.apply (.addTask t)).due told w.service.jobs.length =
    t.conduct w.service.tasks.length w.service.now told := by
  rw [due_free (apply_turn (m := .addTask t) free nofun), dueOf_of (addTask_started free t).2.1]
  have now : (w.apply (.addTask t)).service.now = w.service.now := by
    rw [apply_free free]
    exact (JobsOnly.startTask w.service t).now
  rw [now]
  exact Job.due_of rfl

include promptly

/-- **What is left of its body when the service is shut down**: when the body is done, and how it
ends, is all that a deadline judges. -/
theorem Untouched.course {deadline : Nat}
    (early : ((w.apply (.addTask t)).after ms).service.now < deadline) :
    fateBy deadline (((w.apply (.addTask t)).after ms).service.course
        (.task w.service.tasks.length)) = t.ending.fateAt deadline
      (t.done w.service.now ((w.apply (.addTask t)).after ms).service.now) := by
  have byItself := addTask_byItself promptly scheduled free t
  have sum := did_due byItself h.timely fun q before =>
    h.rung scheduled before (List.prefix_refl ms) (Nat.le_refl _)
  obtain ⟨scheduled', -, -, j, hj, heeds⟩ := after_byItself byItself ms
  rw [h.free] at scheduled'
  rw [due_started free, due_free h.free, dueOf_of hj] at sum
  have awake : ∀ m, j.state = .sleeping m →
      ((w.apply (.addTask t)).after ms).service.now ≤ m := fun m asleep =>
    Nat.le_of_lt (scheduled'.asleep _ j m hj asleep)
  have course : ((w.apply (.addTask t)).after ms).service.course (.task w.service.tasks.length) =
      Job.course ((w.apply (.addTask t)).after ms).service.now j := by
    rw [course_task, h.task]
    show (((w.apply (.addTask t)).after ms).service.jobs[w.service.jobs.length]?).bind _ = _
    rw [hj]
    rfl
  rw [course, fateBy_course heeds awake sum (fun _ => moment_of_did) early,
    Shutdown.Task.ends_ofBody]

/-- **From the shutdown on its signal is fired at that moment.** -/
theorem Untouched.told (can : CanWithdraw ((w.apply (.addTask t)).after ms).service)
    {ms' : List Move} (timely : (((w.apply (.addTask t)).after ms).apply .call).OnTime ms') :
    (∀ q, q <+: .call :: ms' → Rung (· = w.service.tasks.length)
      ((w.apply (.addTask t)).after ms).service.now
      (((w.apply (.addTask t)).after ms).after q).service) ∧
    ((((w.apply (.addTask t)).after ms).after (.call :: ms')).AtRest →
      ∀ k, k = w.service.tasks.length →
        (((w.apply (.addTask t)).after ms).after (.call :: ms')).service.isFired k = true) := by
  have promptly' := after_invokedPromptly (apply_invokedPromptly promptly scheduled (.addTask t))
    (apply_scheduled w _ scheduled) ms
  exact call_rung promptly' (after_scheduled _ ms (apply_scheduled w _ scheduled)) h.free can
    (List.getElem?_eq_some_iff.mp h.task).1 (after_member (addTask_started free t).2.2 ms) timely

/-- **What its body does**, before the shutdown and after it. -/
theorem Untouched.body (can : CanWithdraw ((w.apply (.addTask t)).after ms).service)
    {ms' : List Move} (timely : (((w.apply (.addTask t)).after ms).apply .call).OnTime ms') :
    Undisturbed (t.conduct w.service.tasks.length w.service.now
        ((w.apply (.addTask t)).after ms).service.now) t.ending
      (did w.service.jobs.length ((w.apply (.addTask t)).deeds (ms ++ .call :: ms')))
      ((w.apply (.addTask t)).after (ms ++ .call :: ms')) w.service.jobs.length := by
  have byItself := addTask_byItself promptly scheduled free t
  obtain ⟨rung, heard⟩ := h.told promptly scheduled free can timely
  have timely' : (w.apply (.addTask t)).OnTime (ms ++ .call :: ms') :=
    (onTime_append _ ms _).mpr ⟨h.timely, call_timely h.free, timely⟩
  rw [← due_started free]
  refine undisturbed byItself timely' (fun q before => ?_) fun rest => ?_
  · rcases List.prefix_or_prefix_of_prefix before (List.prefix_append ms _) with first | ⟨q', rfl⟩
    · exact h.rung scheduled first (List.prefix_refl ms) (Nat.le_refl _)
    · rw [after_append]
      exact rung q' ((List.prefix_append_right_inj ms).mp before)
  · rw [after_append] at rest ⊢
    exact heard rest

/-- **When its body has ended**: when it is done, and in its own way. -/
theorem Untouched.ended (can : CanWithdraw ((w.apply (.addTask t)).after ms).service)
    {ms' : List Move} (timely : (((w.apply (.addTask t)).after ms).apply .call).OnTime ms')
    (rest : ((w.apply (.addTask t)).after (ms ++ .call :: ms')).AtRest) :
    ∃ j, ((w.apply (.addTask t)).after (ms ++ .call :: ms')).service.jobs[w.service.jobs.length]? =
        some j ∧
      if t.done w.service.now ((w.apply (.addTask t)).after ms).service.now ≤
          ((w.apply (.addTask t)).after (ms ++ .call :: ms')).service.now
        then j.state = t.ending.leaves else j.state.goesOn = true := by
  obtain ⟨close, bound⟩ := t.conduct_bounds w.service.tasks.length w.service.now
    ((w.apply (.addTask t)).after ms).service.now
  exact (h.body promptly scheduled free can timely).ended close (fun x mem => (bound x mem).2) rest

end Untouched

/-! ## 3. The outcome of a task -/

/-- A shutdown of the service would win, and wait until a deadline that is still to come. -/
structure Drainable (s : Service) (deadline : Nat) : Prop where
  running : s.phase = .running
  computable : deadline? s.now s.setup.drainTimeout = some deadline
  positive : 0 < s.setup.drainTimeout

theorem Drainable.early {s : Service} {deadline : Nat} (h : Drainable s deadline) :
    s.now < deadline := by
  have moment := deadline?_eq_some h.computable
  have positive := h.positive
  omega

/-- **What a shutdown of the service reports of a task**: its name, and a fate that tells the end of
its body, which comes at a certain moment. -/
def Reports (s : Service) (t : Shutdown.Task) (place deadline done : Nat) : Prop :=
  ∀ count probes, ∃ d r fate, (s.drain (count + 1) probes).1 = .ok d ∧
    d.reports.head? = some (some r) ∧ r.outcomes[place]? = some ⟨t.name, fate⟩ ∧
    t.ending.Tells deadline done fate

section Outcome

variable {w : World} (promptly : InvokedPromptly w) (scheduled : Scheduled w.turn w.service)
  (free : w.turn = none) {t : Shutdown.Task} {ms : List Move} (h : Untouched w t ms)

include promptly scheduled free h

/-- **Of calls made at once the first reports the task by the end of its body.** -/
theorem Untouched.reported (poised : Poised ((w.apply (.addTask t)).after ms).service)
    {deadline : Nat} (can : Drainable ((w.apply (.addTask t)).after ms).service deadline) :
    Reports ((w.apply (.addTask t)).after ms).service t w.service.members.length deadline
      (t.done w.service.now ((w.apply (.addTask t)).after ms).service.now) := by
  intro count probes
  obtain ⟨d, drained, reports⟩ := drain_reports poised can.running can.computable count probes
  have name : ((w.apply (.addTask t)).after ms).service.memberName (.task w.service.tasks.length) =
      t.name := by
    unfold Service.memberName
    dsimp only
    rw [h.task]
  refine ⟨d, _, _, drained, by rw [reports]; rfl, ?_, t.ending.tells deadline _⟩
  rw [List.getElem?_map, after_member (addTask_started free t).2.2 ms, Option.map_some, name,
    h.course promptly scheduled free can.early]

end Outcome

/-- **A driver that starts a task**, and does not stop it in whatever it does then, leaves it
untouched on time. -/
theorem run_untouched {w : World} (scheduled : Scheduled w.turn w.service) (free : w.turn = none)
    (t : Shutdown.Task) (cs : List Command)
    (untouched : (run (.registerTask t :: cs) w.service).2.tasks[w.service.tasks.length]? =
      some ⟨t.name, false, w.service.jobs.length, false⟩) :
    ∃ ms, Untouched w t ms ∧
      ((w.apply (.addTask t)).after ms).service = (run (.registerTask t :: cs) w.service).2 := by
  have still : (w.apply (.addTask t)).turn = none := apply_turn free nofun
  have started : (w.apply (.addTask t)).service = (w.service.perform (.registerTask t)).2 := by
    rw [apply_free free]
    rfl
  have scheduled' := apply_scheduled w (.addTask t) scheduled
  rw [still] at scheduled'
  obtain ⟨v, ⟨ms, timely, rfl⟩, free', service⟩ := run_reaches still scheduled' cs
  have ran : ((w.apply (.addTask t)).after ms).service =
      (run (.registerTask t :: cs) w.service).2 := by
    rw [service, started, run_cons]
  exact ⟨ms, ⟨timely, free', by rw [ran]; exact untouched⟩, ran⟩

end World

end ServiceHealth
