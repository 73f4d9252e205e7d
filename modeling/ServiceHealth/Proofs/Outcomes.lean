import ServiceHealth.Proofs.Invocation
import ServiceHealth.Proofs.Outlook
import ServiceHealth.Proofs.Phases

/-!
# Every outcome is that of its own component

A shutdown awaits its teardowns one after the other, yet the outcome of each is the one it would
have if all were judged at once: its own result if it ends before the common deadline, and late
otherwise. `course` says when and with what the teardown of a member ends by itself.

* `foresee_teardown`: what is foreseen of a teardown when it is started is its course.
* `collect_foreseen`: what is collected is what was foreseen.
* `drain_reports`: **of calls made at once the first reports every member by its own course**.
* `after_poised`: that is so of every service that nobody has begun to shut down.
-/

namespace ServiceHealth

open Service

/-! ## 1. Courses -/

/-- When a delay is over that begins at a moment. -/
def Service.afterDelay (now : Nat) : Option Nat → Nat
  | none => now
  | some d => if d = 0 then now else wakeTime now d

/-- When and with what the teardown of a component ends that is started at a moment. -/
def Shutdown.Component.course (c : Shutdown.Component) (now : Nat) :
    Option (Nat × Shutdown.Result) :=
  c.ending.gives?.map fun r => (afterDelay now c.delay, r)

namespace Service

/-- When and with what a job ends that goes on by itself. -/
def Job.course (now : Nat) (j : Job) : Option (Nat × Shutdown.Result) :=
  match j.state with
  | .ended r => some (now, r.asStop)
  | state => (state.goesOn? now).bind fun m => j.close.gives?.map fun r => (finish j.todo m, r)

/-- **When and with what the teardown of a member ends**, if it does: it depends on the component
alone, and for a task on whether it was taken on and on its body. -/
def course (s : Service) : Member → Option (Nat × Shutdown.Result)
  | .component c => c.course s.now
  | .task k =>
    match s.tasks[k]? with
    | some t => if t.claimed then some (s.now, .ok) else (s.jobs[t.body]?).bind (Job.course s.now)
    | none => some (s.now, .ok)

theorem course_task (s : Service) (k : Nat) : s.course (.task k) =
    match s.tasks[k]? with
    | some t => if t.claimed then some (s.now, .ok) else (s.jobs[t.body]?).bind (Job.course s.now)
    | none => some (s.now, .ok) := rfl

/-- What becomes of a teardown that has given a result before the deadline, or has not. -/
def fateOf : Option Shutdown.Result → Shutdown.Fate
  | some r => .ofResult r
  | none => .timedOut

/-- What becomes of a teardown with a course under a deadline. -/
def fateBy (deadline : Nat) : Option (Nat × Shutdown.Result) → Shutdown.Fate
  | some (m, r) => if m < deadline then .ofResult r else .timedOut
  | none => .timedOut

/-- What that gives before a moment which has a course. -/
def givenBy (moment : Nat) (course : Option (Nat × Shutdown.Result)) : Option Shutdown.Result :=
  course.bind fun x => if x.1 < moment then some x.2 else none

theorem finish_append (xs ys : List Step) (m : Nat) :
    finish (xs ++ ys) m = finish ys (finish xs m) := by
  induction xs generalizing m with
  | nil => rfl
  | cons x xs ih =>
    cases x with
    | sleep d => exact ih _
    | _ => exact ih m

theorem finish_performs (actions : List (Health.Action Health.Checker)) (m : Nat) :
    finish (actions.map Step.perform) m = m := by
  induction actions with
  | nil => rfl
  | cons a actions ih => exact ih

theorem finish_work (delay : Option Nat) (actions : List (Health.Action Health.Checker)) (m : Nat) :
    finish (work delay actions) m = afterDelay m delay := by
  unfold work
  rw [finish_append, finish_performs]
  cases delay <;> rfl

/-- The teardown of a component takes as long as its delay. -/
theorem finish_ofTeardown (c : Shutdown.Component) (deadline m : Nat) :
    finish (Job.ofTeardown c deadline).todo m = afterDelay m c.delay := by
  obtain ⟨name, delay, actions, ending⟩ := c
  show finish (work delay actions ++ _) m = _
  rw [finish_append, finish_work]
  cases ending <;> rfl

theorem fateOf_givenBy (deadline : Nat) (course : Option (Nat × Shutdown.Result)) :
    fateOf (givenBy deadline course) = fateBy deadline course := by
  cases course with
  | none => rfl
  | some x =>
    show fateOf (if _ then _ else _) = if _ then _ else _
    split <;> rfl

theorem givenBy_map {moment m : Nat} (x : Option Shutdown.Result) :
    givenBy moment (x.map fun r => (m, r)) = if m < moment then x else none := by
  cases x with
  | none => exact (ite_self _).symm
  | some r => rfl

theorem Job.course_ended {now : Nat} {j : Job} {r : Result} (h : j.state = .ended r) :
    j.course now = some (now, r.asStop) := by
  unfold Job.course
  rw [h]

theorem Job.course_of_going {now m : Nat} {j : Job} (h : j.state.goesOn? now = some m) :
    j.course now = j.close.gives?.map fun r => (finish j.todo m, r) := by
  unfold Job.course
  cases hs : j.state <;> rw [hs] at h <;> cases h <;> rfl

theorem Job.course_stuck {now : Nat} {j : Job} (h : j.state.goesOn? now = none)
    (unfinished : ∀ r, j.state ≠ .ended r) : j.course now = none := by
  unfold Job.course
  cases hs : j.state with
  | ended r => exact absurd hs (unfinished r)
  | hung => rfl
  | aborted => rfl
  | _ =>
    rw [hs] at h
    cases h

/-- What a job will have given before a moment that is still to come is what its course says. -/
theorem outlook_givenBy {moment now : Nat} (early : now < moment) (j : Job) :
    j.outlook moment now = givenBy moment (j.course now) := by
  cases h : j.state.goesOn? now with
  | some m => rw [Job.outlook_of_going h, Job.course_of_going h, givenBy_map]
  | none =>
    by_cases ended : ∃ r, j.state = .ended r
    · obtain ⟨r, hr⟩ := ended
      rw [Job.outlook_ended hr, Job.course_ended hr]
      exact (if_pos early).symm
    · have unfinished : ∀ r, j.state ≠ .ended r := fun r hr => ended ⟨r, hr⟩
      rw [Job.outlook_stuck h unfinished, Job.course_stuck h unfinished]
      rfl

/-- Nothing is given before a moment that has passed. -/
theorem givenBy_late {moment now : Nat} (late : moment ≤ now) {j : Job}
    (awake : ∀ m, j.state = .sleeping m → now ≤ m) : givenBy moment (j.course now) = none := by
  cases h : j.state.goesOn? now with
  | some m =>
    have := le_finish j.todo m
    have := JobState.le_goesOn h awake
    rw [Job.course_of_going h, givenBy_map]
    exact if_neg (by omega)
  | none =>
    by_cases ended : ∃ r, j.state = .ended r
    · obtain ⟨r, hr⟩ := ended
      rw [Job.course_ended hr]
      exact if_neg (Nat.not_lt.mpr late)
    · rw [Job.course_stuck h fun r hr => ended ⟨r, hr⟩]
      rfl

/-! ## 2. When the teardowns have been started -/

/-- A service that can be shut down: nobody has begun to stop a task in its name. -/
structure Poised (s : Service) : Prop where
  scheduled : Scheduled none s
  haveBodies : TasksHaveBodies s
  owed : ∀ i, s.debt i = 0

theorem Poised.stops {s : Service} (h : Poised s) {i : JobId} {j : Job} {k : Nat}
    (hj : s.jobs[i]? = some j) (close : j.close = .stopTask k)
    (unfinished : ∀ r, j.state ≠ .ended r) : False := by
  have owed := h.owed i
  unfold debt at owed
  rw [hj] at owed
  change j.owed = 0 at owed
  rw [Job.owed_of_ne unfinished, close] at owed
  unfold scriptOwed at owed
  simp [Close.starts] at owed

section Started

variable {s : Service} {deadline : Nat}

/-- A job after the teardowns have been started is one of them or was there before. -/
theorem teardownsStarted_getElem? {i : Nat} {j : Job}
    (hj : (s.teardownsStarted deadline).jobs[i]? = some j) :
    s.jobs[i]? = some j ∨
      ∃ m, s.jobs.length ≤ i ∧ s.members[i - s.jobs.length]? = some m ∧
        j = s.teardown deadline m := by
  rw [teardownsStarted_jobs, List.getElem?_append] at hj
  split at hj
  · exact .inl hj
  · rename_i le
    rw [List.getElem?_map] at hj
    obtain ⟨m, hm, rfl⟩ := Option.map_eq_some_iff.mp hj
    exact .inr ⟨m, Nat.le_of_not_lt le, hm, rfl⟩

theorem teardown_plan (s : Service) (deadline : Nat) (m : Member) :
    Plan (s.teardown deadline m) := by
  cases m with
  | component c =>
    refine .own ⟨_, rfl⟩ (fun k => ?_) fun k e => by cases e
    simp only [teardown, Job.ofTeardown, work, List.mem_cons, List.mem_append, not_or]
    refine ⟨(fun e => by cases e), ⟨?_, ?_⟩, ?_⟩
    · cases c.delay <;> simp
    · simp
    · cases c.ending <;> simp
  | task k => exact .stop k rfl rfl (.inl rfl)

theorem teardown_stops {m : Member} {k : Nat} (h : (s.teardown deadline m).close = .stopTask k) :
    m = .task k := by
  cases m with
  | component c => cases h
  | task k' =>
    cases h
    rfl

/-- A task that is registered once stands at one place. -/
theorem task_place {ms : List Member} (single : (ms.filterMap Member.task?).Nodup) {a b k : Nat}
    (ha : ms[a]? = some (.task k)) (hb : ms[b]? = some (.task k)) : a = b := by
  induction ms generalizing a b with
  | nil => cases ha
  | cons m ms ih =>
    have later : ∀ {c : Nat}, ms[c]? = some (.task k) → k ∈ ms.filterMap Member.task? := fun hc =>
      List.mem_filterMap.mpr ⟨_, List.mem_of_getElem? hc, rfl⟩
    have rest : (ms.filterMap Member.task?).Nodup := by
      cases m with
      | component c => exact single
      | task k' => exact (List.nodup_cons.mp single).2
    cases a with
    | zero =>
      cases b with
      | zero => rfl
      | succ b =>
        cases ha
        exact absurd (later hb) (List.nodup_cons.mp single).1
    | succ a =>
      cases b with
      | zero =>
        cases hb
        exact absurd (later ha) (List.nodup_cons.mp single).1
      | succ b => rw [ih rest ha hb]

/-- **When the teardowns have been started, what they will have given is foreseen**, by the
deadline or by any other moment. -/
theorem teardownsStarted_foreseen (h : Poised s) (deadline moment : Nat) :
    Foreseen moment ((s.teardownsStarted deadline).foresee moment) s.jobs.length
      (s.jobs.length + s.members.length) none (s.teardownsStarted deadline) where
  scheduled := teardownsStarted_scheduled h.scheduled deadline
  haveBodies := h.haveBodies.teardownsStarted deadline
  timing _ ht := by cases ht
  plans := by
    intro i j le lt hj
    rcases teardownsStarted_getElem? hj with old | ⟨m, -, -, rfl⟩
    · have := (List.getElem?_eq_some_iff.mp old).1
      omega
    · exact teardown_plan s deadline m
  stops := by
    intro i j k hj close unfinished
    rcases teardownsStarted_getElem? hj with old | ⟨m, le, hm, rfl⟩
    · exact (h.stops old close unfinished).elim
    · have := (List.getElem?_eq_some_iff.mp hm).1
      omega
  alone := by
    intro i i' j j' k hj hj' close close' unfinished unfinished'
    rcases teardownsStarted_getElem? hj with old | ⟨m, le, hm, rfl⟩
    · exact (h.stops old close unfinished).elim
    rcases teardownsStarted_getElem? hj' with old | ⟨m', le', hm', rfl⟩
    · exact (h.stops old close' unfinished').elim
    have place := task_place h.haveBodies.single (teardown_stops close ▸ hm)
      (teardown_stops close' ▸ hm')
    omega
  outlook _ _ _ := rfl

/-- **What is foreseen for a member is what its own course says.** -/
theorem foresee_teardown (h : Poised s) (deadline moment : Nat) (m : Member) :
    (s.teardown deadline m).foresee moment (s.teardownsStarted deadline) =
      givenBy moment (s.course m) := by
  cases m with
  | component c =>
    have own : ∃ e, (s.teardown deadline (.component c)).close = .ending e := ⟨_, rfl⟩
    rw [Job.foresee_own own, Job.outlook_of_going (m := s.now) rfl]
    show (if finish (Job.ofTeardown c deadline).todo s.now < moment then c.ending.gives?
      else none) = givenBy moment (c.course s.now)
    rw [finish_ofTeardown]
    exact (givenBy_map _).symm
  | task k =>
    have stop : (s.teardown deadline (.task k)).close = .stopTask k := rfl
    rw [Job.foresee_stop stop (by intro r e; cases e), teardownsStarted_now]
    unfold stopOutlook
    rw [teardownsStarted_tasks, course_task]
    cases hk : s.tasks[k]? with
    | none => exact (givenBy_map (some .ok)).symm
    | some t =>
      dsimp only
      by_cases taken : t.claimed = true
      · rw [if_pos taken, if_pos taken]
        exact (givenBy_map (some .ok)).symm
      · rw [if_neg taken, if_neg taken]
        obtain ⟨j, hj, -⟩ := h.haveBodies.bodies k t hk
        have old : (s.teardownsStarted deadline).jobs[t.body]? = some j := by
          rw [teardownsStarted_jobs, List.getElem?_append_left (List.getElem?_eq_some_iff.mp hj).1]
          exact hj
        unfold outlookOf
        rw [old, hj, teardownsStarted_now]
        by_cases early : s.now < moment
        · rw [if_pos early]
          exact outlook_givenBy early j
        · rw [if_neg early]
          refine (givenBy_late (Nat.le_of_not_lt early) fun m hs => ?_).symm
          exact Nat.le_of_lt (h.scheduled.asleep _ j m hj hs)

end Started

/-! ## 3. Collecting what was foreseen -/

section Collecting

variable {deadline lo hi : Nat} {X : JobId → Option Shutdown.Result} {s : Service}

/-- The outcome that is foreseen for a teardown. -/
def foreseenOutcome (X : JobId → Option Shutdown.Result) (p : String × JobId) : Shutdown.Outcome :=
  ⟨p.1, fateOf (X p.2)⟩

/-- A result is what was foreseen. -/
theorem Foreseen.known (h : Foreseen deadline X lo hi none s) {i : Nat} (le : lo ≤ i) (lt : i < hi)
    {r : Result} (hr : s.result? i = some r) : X i = some r.asStop := by
  obtain ⟨j, hj, hs⟩ := result?_eq_some.mp hr
  rw [← h.outlook i le lt, foresee_of hj, Job.foresee_ended hs]

/-- At the deadline no teardown is about to take over the result of a body. -/
def Punctual (deadline lo hi : Nat) (s : Service) : Prop :=
  deadline ≤ s.now → ∀ (i : Nat) (j : Job) (b : JobId), lo ≤ i → i < hi → s.jobs[i]? = some j →
    j.close = .join b → j.state ≠ .ready

/-- What has no result at the deadline was foreseen to be late. -/
theorem Foreseen.late (h : Foreseen deadline X lo hi none s) (punctual : Punctual deadline lo hi s)
    (past : deadline ≤ s.now) {i : Nat} (le : lo ≤ i) (lt : i < hi) (hr : s.result? i = none) :
    X i = none := by
  rw [← h.outlook i le lt]
  cases hj : s.jobs[i]? with
  | none =>
    unfold foresee
    rw [hj]
    rfl
  | some j =>
    have unfinished : ∀ r, j.state ≠ .ended r := fun r => result?_eq_none.mp hr j r hj
    have awake : ∀ (i : JobId) (j : Job), s.jobs[i]? = some j → ∀ m, j.state = .sleeping m →
        s.now ≤ m := fun i j hj m hs => Nat.le_of_lt (h.scheduled.asleep i j m hj hs)
    rw [foresee_of hj]
    cases h.plans i j le lt hj with
    | own close =>
      rw [Job.foresee_own close]
      exact Job.outlook_late past (awake i j hj) unfinished
    | stop k close =>
      rw [Job.foresee_stop close unfinished]
      exact if_neg (Nat.not_lt.mpr past)
    | join b close _ state =>
      rw [Job.foresee_join close unfinished]
      have joining : j.state = .joining b := by
        rcases state with e | e | ⟨r, e⟩
        · exact absurd e (punctual past i j b le lt hj close)
        · exact e
        · exact absurd e (unfinished r)
      have waiting := (h.scheduled.joining i j b hj joining).2
      unfold outlookOf
      cases hb : s.jobs[b]? with
      | none => rfl
      | some jb =>
        exact Job.outlook_late past (awake b jb hb) fun r => result?_eq_none.mp waiting jb r hb

theorem fate?_eq_some {job : JobId} {fate : Shutdown.Fate} (h : s.fate? deadline job = some fate) :
    (∃ r, s.result? job = some r ∧ fate = .ofResult r.asStop) ∨
      (s.result? job = none ∧ deadline ≤ s.now ∧ fate = .timedOut) := by
  unfold fate? at h
  cases hr : s.result? job with
  | some r =>
    rw [hr] at h
    cases h
    exact .inl ⟨r, rfl, rfl⟩
  | none =>
    rw [hr] at h
    dsimp only at h
    split at h
    · rename_i past
      cases h
      exact .inr ⟨rfl, past, rfl⟩
    · cases h

theorem fate?_eq_none {job : JobId} (h : s.fate? deadline job = none) :
    s.result? job = none ∧ s.now < deadline := by
  unfold fate? at h
  split at h
  · cases h
  · rename_i unknown
    split at h
    · cases h
    · rename_i early
      exact ⟨unknown, Nat.lt_of_not_le early⟩

/-- **Outcomes are collected up to the first that is not known.** -/
theorem collect_cut (deadline : Nat) (pending : List (String × JobId))
    (outcomes : List Shutdown.Outcome) (s : Service) :
    ∃ done rest, pending = done ++ rest ∧
      (collect deadline pending outcomes s).1 = ⟨deadline, rest,
        outcomes ++ done.map fun p => ⟨p.1, (s.fate? deadline p.2).getD .timedOut⟩⟩ ∧
      (∀ p ∈ done, ∃ fate, s.fate? deadline p.2 = some fate) ∧
      ∀ p, rest.head? = some p → s.fate? deadline p.2 = none := by
  induction pending generalizing outcomes s with
  | nil => exact ⟨[], [], rfl, by simp [collect], nofun, nofun⟩
  | cons p rest ih =>
    obtain ⟨name, job⟩ := p
    cases hf : s.fate? deadline job with
    | none =>
      refine ⟨[], (name, job) :: rest, rfl, ?_, nofun, fun p hp => ?_⟩
      · rw [collect, hf, List.map_nil, List.append_nil]
      · cases hp
        exact hf
    | some fate =>
      have same : ∀ i, (s.recordOutcome ⟨name, fate⟩).fate? deadline i = s.fate? deadline i := by
        obtain ⟨_, _, e⟩ := recorded_recordOutcome s ⟨name, fate⟩
        intro i
        rw [e]
        rfl
      obtain ⟨done, rest', split, collected, known, unknown⟩ :=
        ih (outcomes ++ [⟨name, fate⟩]) (s.recordOutcome ⟨name, fate⟩)
      simp only [same] at collected known unknown
      refine ⟨(name, job) :: done, rest', by rw [split]; rfl, ?_, ?_, unknown⟩
      · rw [collect, hf]
        dsimp only
        rw [collected, List.map_cons, hf, List.append_assoc]
        rfl
      · exact List.forall_mem_cons.mpr ⟨⟨fate, hf⟩, known⟩

/-- **What is collected is what was foreseen.** -/
theorem collect_foreseen (pending : List (String × JobId)) (outcomes : List Shutdown.Outcome)
    (s : Service)
    (known : ∀ p ∈ pending, ∀ r, s.result? p.2 = some r → X p.2 = some r.asStop)
    (late : deadline ≤ s.now → ∀ p ∈ pending, s.result? p.2 = none → X p.2 = none) :
    ∃ done rest, pending = done ++ rest ∧ (collect deadline pending outcomes s).1 =
      ⟨deadline, rest, outcomes ++ done.map (foreseenOutcome X)⟩ := by
  obtain ⟨done, rest, split, collected, settled, -⟩ := collect_cut deadline pending outcomes s
  refine ⟨done, rest, split, collected.trans ?_⟩
  have foreseen : done.map (fun p => (⟨p.1, (s.fate? deadline p.2).getD .timedOut⟩ :
      Shutdown.Outcome)) = done.map (foreseenOutcome X) := by
    refine List.map_congr_left fun p hp => ?_
    have inside : p ∈ pending := by
      rw [split]
      exact List.mem_append_left _ hp
    obtain ⟨fate, hf⟩ := settled p hp
    unfold foreseenOutcome
    rw [hf]
    rcases fate?_eq_some hf with ⟨r, hr, rfl⟩ | ⟨hr, past, rfl⟩
    · rw [known p inside r hr]
      rfl
    · rw [late past p inside hr]
      rfl
  rw [foreseen]

/-- How far the winning call has come: it has its report, or it is still collecting. -/
inductive Underway (X : JobId → Option Shutdown.Result) (deadline lo hi : Nat)
    (all : List (String × JobId)) (timely : Service → Prop) (s : Service) : Call → Prop where
  | reported : Underway X deadline lo hi all timely s (.finished ⟨all.map (foreseenOutcome X)⟩)
  | going (done rest : List (String × JobId)) (split : all = done ++ rest)
      (h : Foreseen deadline X lo hi none s) (t : timely s) :
      Underway X deadline lo hi all timely s
        (.collecting ⟨deadline, rest, done.map (foreseenOutcome X)⟩)

/-- When the winning call is looked at: not after the deadline. -/
def Before (deadline lo hi : Nat) (s : Service) : Prop :=
  s.now ≤ deadline ∧ Punctual deadline lo hi s

/-- When the winning call has been looked at and goes on: before the deadline. -/
def After (deadline : Nat) (s : Service) : Prop := s.now < deadline

/-- **A look at the winning call collects what was foreseen.** -/
theorem poll_underway {all : List (String × JobId)} (places : ∀ p ∈ all, lo ≤ p.2 ∧ p.2 < hi)
    {c : Call} (h : Underway X deadline lo hi all (Before deadline lo hi) s c) :
    Underway X deadline lo hi all (After deadline) (c.poll s).2 (c.poll s).1 := by
  cases h with
  | reported => exact .reported
  | going done rest split h t =>
    have inside : ∀ p ∈ rest, lo ≤ p.2 ∧ p.2 < hi := fun p hp =>
      places p (by rw [split]; exact List.mem_append_right _ hp)
    obtain ⟨more, rest', split', collected⟩ := collect_foreseen rest
      (done.map (foreseenOutcome X)) s
      (fun p hp r hr => h.known (inside p hp).1 (inside p hp).2 hr)
      (fun past p hp hr => h.late t.2 past (inside p hp).1 (inside p hp).2 hr)
    have now := (collect_now deadline rest (done.map (foreseenOutcome X)) s).2
    rw [collected] at now
    obtain ⟨log, counts, e⟩ := recorded_collect deadline rest (done.map (foreseenOutcome X)) s
    unfold Call.poll
    dsimp only
    rw [collected]
    by_cases last : rest' = []
    · subst last
      rw [if_pos rfl, ← List.map_append]
      rw [List.append_nil] at split'
      rw [← split', ← split]
      exact .reported
    · rw [if_neg last, ← List.map_append]
      refine .going (done ++ more) rest' (by rw [split, split', List.append_assoc]) ?_ ?_
      · rw [e]
        exact h.congr rfl rfl rfl rfl rfl
      · rw [e]
        exact now last

end Collecting

/-! ## 4. Awaiting the report -/

section Watching

variable {deadline lo hi count : Nat} {X : JobId → Option Shutdown.Result}
  {all : List (String × JobId)}

/-- The winning call and the ignored ones, as they are watched. -/
def Watched (X : JobId → Option Shutdown.Result) (deadline lo hi count : Nat)
    (all : List (String × JobId)) (timely : Service → Prop) (w : Watch) (s : Service) : Prop :=
  ∃ c, w.calls = c :: List.replicate count .ignored ∧ Underway X deadline lo hi all timely s c

/-- Only the call that has won changes when all are looked at. -/
theorem pollCalls_winner (c : Call) (count : Nat) (s : Service) :
    pollCalls (c :: List.replicate count .ignored) s =
      ((c.poll s).1 :: List.replicate count .ignored, (c.poll s).2) := by
  have ignored : pollCalls (List.replicate count .ignored) (c.poll s).2 =
      (List.replicate count .ignored, (c.poll s).2) :=
    pollCalls_returned (fun c' hc => by rw [List.eq_of_mem_replicate hc]; rfl) _
  rw [pollCalls]
  dsimp only
  rw [ignored]

theorem Underway.looked {timely timely' : Service → Prop} {s s' : Service} {c : Call}
    (h : Underway X deadline lo hi all timely s c) (l : Looked s s') (t : timely s → timely' s') :
    Underway X deadline lo hi all timely' s' c := by
  cases h with
  | reported => exact .reported
  | going done rest split h k =>
    obtain ⟨_, _, _, e⟩ := l
    subst e
    exact .going done rest split (h.congr rfl rfl rfl rfl rfl) (t k)

theorem watched_poll (places : ∀ p ∈ all, lo ≤ p.2 ∧ p.2 < hi) {w : Watch} {s : Service}
    (h : Watched X deadline lo hi count all (Before deadline lo hi) w s) :
    Watched X deadline lo hi count all (After deadline) (draining.poll w s).1
      (draining.poll w s).2 := by
  obtain ⟨c, calls, underway⟩ := h
  have polled : pollCalls w.calls s =
      ((c.poll s).1 :: List.replicate count .ignored, (c.poll s).2) := by
    rw [calls]
    exact pollCalls_winner c count s
  refine ⟨(c.poll s).1, congrArg Prod.fst polled, (poll_underway places underway).looked ?_ ?_⟩
  · have rest := looked_pollLookouts w.lookouts (pollCalls w.calls s).2
    rw [polled] at rest
    show Looked _ (pollLookouts w.lookouts (pollCalls w.calls s).2).2
    rw [polled]
    exact rest
  · intro early
    have now := draining_calm.now w s
    have same : (c.poll s).2.now = s.now := by
      obtain ⟨_, _, _, e⟩ := looked_poll c s
      rw [e]
    unfold After at early ⊢
    rw [now, ← same]
    exact early

theorem watched_settle {w : Watch} {s : Service}
    (h : Watched X deadline lo hi count all (After deadline) w s) :
    Watched X deadline lo hi count all (Before deadline lo hi) w s.settle := by
  obtain ⟨c, calls, underway⟩ := h
  refine ⟨c, calls, ?_⟩
  cases underway with
  | reported => exact .reported
  | going done rest split h early =>
    have early' : s.now < deadline := early
    refine .going done rest split (settle_foreseen h early) ⟨?_, fun past => ?_⟩
    · rw [settle_now]
      exact Nat.le_of_lt early
    · rw [settle_now] at past
      omega

theorem watched_advance {w : Watch} {s : Service}
    (h : Watched X deadline lo hi count all (After deadline) w s) (empty : s.queue = []) {m : Nat}
    (next : nextMoment? draining w s = some m) :
    Watched X deadline lo hi count all (Before deadline lo hi) w (s.advance m) := by
  obtain ⟨c, calls, underway⟩ := h
  refine ⟨c, calls, ?_⟩
  cases underway with
  | reported => exact .reported
  | going done rest split h early =>
    obtain ⟨-, -, sleeps, looks⟩ := nextMoment?_eq_some next
    have le : m ≤ deadline := by
      refine looks deadline (List.mem_append_left _ ?_) early
      rw [calls]
      exact List.mem_cons_self
    refine .going done rest split (advance_foreseen h empty sleeps) ⟨le, ?_⟩
    intro _ i j' b low high hj' close ready
    rw [advance_getElem?] at hj'
    obtain ⟨j, hj, rfl⟩ := Option.map_eq_some_iff.mp hj'
    rw [Job.woken_close] at close
    -- whoever waits for a body sleeps no longer, so it is not woken, and before nobody could go on
    have idle := h.scheduled.idle empty hj
    have awake : JobState.sleepsUntil m j.state = false := by
      cases h.plans i j low high hj with
      | own own =>
        obtain ⟨_, c⟩ := own
        rw [close] at c
        cases c
      | stop k stop =>
        rw [close] at stop
        cases stop
      | join _ _ _ state =>
        rcases state with e | e | ⟨r, e⟩ <;> rw [e] <;> rfl
    rw [Job.woken_eq_self awake] at ready
    exact idle ready

/-- **The winning call gets the report that was foreseen, and the others none.** -/
theorem await_watched (places : ∀ p ∈ all, lo ≤ p.2 ∧ p.2 < hi) {w : Watch} {s : Service}
    (scheduled : Scheduled none s) (honest : w.Honest)
    (h : Watched X deadline lo hi count all (Before deadline lo hi) w s) :
    (await draining w s).1.calls =
      .finished ⟨all.map (foreseenOutcome X)⟩ :: List.replicate count .ignored := by
  obtain ⟨watched, -, -⟩ := await_rule draining_calm
    (P := Watched X deadline lo hi count all (Before deadline lo hi))
    (Q := Watched X deadline lo hi count all (After deadline))
    (fun _ _ _ h => watched_poll places h) (fun _ _ _ h _ => watched_settle h)
    (fun _ _ _ _ h _ empty next => watched_advance h empty next) w s scheduled h
  have ended := (draining_returned honest scheduled).1
  obtain ⟨c, calls, underway⟩ := watched
  rw [calls] at ended ⊢
  have returned := ended c List.mem_cons_self
  cases underway with
  | reported => rfl
  | going => cases returned

end Watching

/-! ## 5. The report -/

section Report

variable {s : Service} {deadline : Nat}

theorem opening_places (s : Service) (deadline : Nat) : ∀ p ∈ (s.opening deadline).pending,
    s.jobs.length ≤ p.2 ∧ p.2 < s.jobs.length + s.members.length := by
  intro p hp
  exact List.mem_range'_1.mp (List.of_mem_zip hp).2

theorem map_zip_range' {α β γ : Type} (name : α → β) (f : β × Nat → γ) (g : α → γ) (xs : List α)
    (start : Nat) (h : ∀ i x, xs[i]? = some x → f (name x, start + i) = g x) :
    ((xs.map name).zip (List.range' start xs.length)).map f = xs.map g := by
  induction xs generalizing start with
  | nil => rfl
  | cons x xs ih =>
    have rest := ih (start + 1) fun i y hy => by
      rw [← h (i + 1) y hy]
      congr 2
      omega
    have first := h 0 x rfl
    rw [List.map_cons, List.length_cons, List.range'_succ, List.zip_cons_cons, List.map_cons, rest,
      List.map_cons, ← first]
    rfl

/-- What is foreseen when the teardowns have been started, member by member. -/
theorem opening_outcomes (h : Poised s) (deadline : Nat) :
    (s.opening deadline).pending.map
        (foreseenOutcome ((s.teardownsStarted deadline).foresee deadline)) =
      s.members.map fun m => ⟨s.memberName m, fateBy deadline (s.course m)⟩ := by
  refine map_zip_range' _ _ _ _ _ fun i m hm => ?_
  have hj : (s.teardownsStarted deadline).jobs[s.jobs.length + i]? =
      some (s.teardown deadline m) := by
    rw [teardownsStarted_jobs, List.getElem?_append_right (Nat.le_add_right _ _),
      Nat.add_sub_cancel_left, List.getElem?_map, hm]
    rfl
  unfold foreseenOutcome
  rw [foresee_of hj, foresee_teardown h, fateOf_givenBy]

/-- **Of the calls made at once the first reports every member by its own course.** -/
theorem drain_reports (h : Poised s) (running : s.phase = .running)
    (hd : deadline? s.now s.setup.drainTimeout = some deadline) (count : Nat) (probes : List Nat) :
    ∃ d, (s.drain (count + 1) probes).1 = .ok d ∧
      d.reports = some ⟨s.members.map fun m => ⟨s.memberName m, fateBy deadline (s.course m)⟩⟩ ::
        List.replicate count none := by
  have foreseen := teardownsStarted_foreseen h deadline deadline
  have places := opening_places s deadline
  have moment := deadline?_eq_some hd
  have punctual : Punctual deadline s.jobs.length (s.jobs.length + s.members.length)
      (s.teardownsStarted deadline) := by
    intro _ i j b le _ hj close
    rcases teardownsStarted_getElem? hj with old | ⟨m, -, -, rfl⟩
    · have := (List.getElem?_eq_some_iff.mp old).1
      omega
    · exact absurd close ((teardown_fresh s deadline m).free b)
  have first : Underway _ deadline _ _ (s.opening deadline).pending (Before deadline _ _)
      (s.teardownsStarted deadline) (.collecting (s.opening deadline)) :=
    .going [] _ rfl foreseen ⟨by rw [teardownsStarted_now]; omega, punctual⟩
  have looked := poll_underway places first
  obtain ⟨log, calls⟩ := startCalls_wins count running hd
  have relog : ∀ s' : Service, Looked s' { s' with log } := fun s' =>
    ⟨log, s'.metrics, s'.phase, rfl⟩
  have scheduled :=
    (relog _).scheduled (poll_scheduled foreseen.scheduled (.collecting (s.opening deadline)))
  unfold drain
  rw [calls]
  dsimp only
  refine ⟨_, rfl, ?_⟩
  dsimp only
  have watched : Watched ((s.teardownsStarted deadline).foresee deadline) deadline s.jobs.length
      (s.jobs.length + s.members.length) count (s.opening deadline).pending
      (Before deadline s.jobs.length (s.jobs.length + s.members.length))
      ⟨_, none, probes.map fun d => ⟨wakeTime s.now d, none⟩⟩ _ :=
    ⟨_, rfl, looked.looked (relog _) fun early =>
      ⟨Nat.le_of_lt early, fun past => absurd early (Nat.not_lt.mpr past)⟩⟩
  rw [await_watched places scheduled (fun k => by cases k) watched, List.map_cons,
    List.map_replicate, opening_outcomes h]
  rfl

end Report

/-- Whether components are registered in one order or another does not matter for that. -/
theorem Poised.permuted {s : Service} (h : Poised s) {members : List Member}
    (perm : members.Perm s.members) : Poised { s with members } where
  scheduled := h.scheduled.congr rfl rfl rfl fun _ => rfl
  haveBodies :=
    { bodies := h.haveBodies.bodies
      joins := h.haveBodies.joins
      known := fun k hk => h.haveBodies.known k ((perm.filterMap Member.task?).mem_iff.mp hk)
      single := (perm.filterMap Member.task?).nodup_iff.mpr h.haveBodies.single }
  owed := h.owed

/-- The fate of a component, by when and how its teardown ends. -/
theorem fateBy_component (s : Service) (deadline : Nat) (c : Shutdown.Component) :
    fateBy deadline (s.course (.component c)) =
      if afterDelay s.now c.delay < deadline then
        match c.ending with
        | .returns .ok => .stopped
        | .returns (.error e) => .failed e
        | .panics p => .failed (.panicked p.report)
        | .hangs => .timedOut
      else .timedOut := by
  have course : s.course (.component c) =
      c.ending.gives?.map fun r => (afterDelay s.now c.delay, r) := rfl
  rw [course]
  cases c.ending with
  | returns r => cases r <;> rfl
  | panics p => rfl
  | hangs => split <;> rfl

end Service

namespace World

/-- **A service that nobody has begun to shut down can be shut down.** -/
theorem after_poised (setup : Setup) (clock : Time.Stamp) (ms : List Move)
    (free : ((new setup clock).after ms).turn = none)
    (running : ((new setup clock).after ms).service.phase = .running) :
    Poised ((new setup clock).after ms).service := by
  have scheduled := after_scheduled (new setup clock) ms (new_scheduled setup clock)
  have quiet : .withdrew ∉ (new setup clock).history ms := fun k =>
    withdrew_phase (new setup clock) ms k running
  rw [free] at scheduled
  refine ⟨scheduled, after_tasksHaveBodies _ ms (new_scheduled setup clock)
    (new_tasksHaveBodies setup clock), fun i => ?_⟩
  have paid := (not_invoked_before setup clock ms quiet i).2
  unfold owes at paid
  rwa [free] at paid

/-- **Every outcome is that of its own component.** Of the calls made at once to a service that has
come about in whatever way, the first reports its components in the order of registration, whatever
that order is, each under its name and by its own course against the common deadline; the course of
a component is its own delay and ending. -/
theorem outcomes_by_course (setup : Setup) (clock : Time.Stamp) (ms : List Move)
    (members : List Member) (count : Nat) (probes : List Nat) {deadline : Nat}
    (free : ((new setup clock).after ms).turn = none)
    (running : ((new setup clock).after ms).service.phase = .running)
    (computable : deadline? ((new setup clock).after ms).service.now
      ((new setup clock).after ms).service.setup.drainTimeout = some deadline)
    (perm : members.Perm ((new setup clock).after ms).service.members) :
    let s := ((new setup clock).after ms).service
    let outcome : Member → Shutdown.Outcome :=
      fun m => ⟨s.memberName m, fateBy deadline (s.course m)⟩
    (∃ d, (({ s with members } : Service).drain (count + 1) probes).1 = .ok d ∧
      d.reports = some ⟨members.map outcome⟩ :: List.replicate count none) ∧
    (members.map outcome).Perm (s.members.map outcome) ∧
    ∀ c : Shutdown.Component, (outcome (.component c)).component = c.name ∧
      ((outcome (.component c)).fate.error?, (outcome (.component c)).timedOut) =
        if afterDelay s.now c.delay < deadline then
          match c.ending with
          | .returns .ok => (none, false)
          | .returns (.error e) => (some e, false)
          | .panics p => (some (.panicked p.report), false)
          | .hangs => (none, true)
        else (none, true) := by
  intro s outcome
  have poised : Poised s := after_poised setup clock ms free running
  refine ⟨drain_reports (poised.permuted perm) running computable count probes, perm.map outcome,
    fun c => ⟨rfl, ?_⟩⟩
  have fate : (outcome (.component c)).fate = fateBy deadline (s.course (.component c)) := rfl
  unfold Shutdown.Outcome.timedOut
  rw [fate, fateBy_component]
  split
  · cases c.ending with
    | returns r => cases r <;> rfl
    | panics p => rfl
    | hangs => rfl
  · rfl

/-- Two calls to shut down a service with a cache that never stops and a listener that takes fifty
milliseconds, listed the other way round than they were registered. -/
theorem outcomes_of_listener_and_cache :
    ∃ d, (({ ((new ⟨1000, 100, true, ⟨"api", "test", ⟨none, none⟩⟩, .ascending⟩ ⟨0, 0⟩).after
        [.addComponent ⟨"cache", none, [], .hangs⟩,
          .addComponent ⟨"listener", some 50, [], .returns .ok⟩]).service with
        members := [.component ⟨"listener", some 50, [], .returns .ok⟩,
          .component ⟨"cache", none, [], .hangs⟩] } : Service).drain 2 []).1 = .ok d ∧
      d.reports = [some ⟨[⟨"listener", .stopped⟩, ⟨"cache", .timedOut⟩]⟩, none] := by
  obtain ⟨⟨d, drained, reports⟩, -, -⟩ :=
    outcomes_by_course ⟨1000, 100, true, ⟨"api", "test", ⟨none, none⟩⟩, .ascending⟩ ⟨0, 0⟩
      [.addComponent ⟨"cache", none, [], .hangs⟩,
        .addComponent ⟨"listener", some 50, [], .returns .ok⟩]
      [.component ⟨"listener", some 50, [], .returns .ok⟩, .component ⟨"cache", none, [], .hangs⟩]
      1 [] rfl rfl rfl (List.Perm.swap _ _ _)
  exact ⟨d, drained, reports⟩

end World

end ServiceHealth
