import ServiceHealth.Proofs.Verdicts

/-!
# How long a check and a shutdown take

Both wait for a family of jobs against one deadline, a check for all at once and a shutdown for one
after the other. Either way the waiting is over as soon as the last job has ended, or at the
deadline: as long as a job is missing that is still on its way, the next moment is at most the one
at which its sleep ends, and no job is given more time because another is waited for.

* `longest`, `within`: the longest of several lengths of time, cut off at a timeout.
* `check_duration`: how long a check takes.
* `Foretold`: what is known of teardowns at any later moment, and `Foretold.next`: what comes next.
* `drain_duration`: how long a shutdown takes.
* `no_longer_than_needed`: **either takes exactly as long as the longest of its jobs, and at most
  until the deadline, which is the same for all of them**.
-/

namespace ServiceHealth

namespace Service

/-! ## 1. Lengths of time -/

/-- The longest of several lengths of time, where one that is missing has no end. -/
def longest : List (Option Nat) → Option Nat
  | [] => some 0
  | d :: ds => d.bind fun a => (longest ds).map (max a)

/-- A length of time, cut off at a timeout. -/
def within (timeout : Nat) (d : Option Nat) : Nat := (d.map (min timeout)).getD timeout

/-- How long after a moment what has a course ends. -/
def lasting {α : Type} (start : Nat) (course : Option (Nat × α)) : Option Nat :=
  course.map fun x => x.1 - start

theorem longest_cons (d : Option Nat) (ds : List (Option Nat)) :
    longest (d :: ds) = d.bind fun a => (longest ds).map (max a) := rfl

theorem longest_le {x : Nat} (ds : List (Option Nat)) :
    (∃ m, longest ds = some m ∧ m ≤ x) ↔ ∀ d ∈ ds, ∃ m, d = some m ∧ m ≤ x := by
  induction ds with
  | nil => exact ⟨fun _ => nofun, fun _ => ⟨0, rfl, Nat.zero_le x⟩⟩
  | cons d ds ih =>
    rw [List.forall_mem_cons, ← ih, longest_cons]
    cases d with
    | none => simp
    | some a =>
      cases longest ds with
      | none => simp
      | some b =>
        show (∃ m, some (max a b) = some m ∧ m ≤ x) ↔ _
        simp only [Option.some.injEq, exists_eq_left', Nat.max_le]

theorem within_le {timeout x : Nat} (d : Option Nat) :
    within timeout d ≤ x ↔ timeout ≤ x ∨ ∃ m, d = some m ∧ m ≤ x := by
  unfold within
  cases d with
  | none => simp
  | some m =>
    show min timeout m ≤ x ↔ _
    simp only [Option.some.injEq, exists_eq_left']
    omega

/-- **Waiting that takes no longer than it must takes as long as the longest course**, and at most
until the deadline. -/
theorem within_longest {α : Type} {start timeout now : Nat} {courses : List (Option (Nat × α))}
    (isOver : ∀ c ∈ courses, IsOver (start + timeout) c now)
    (hasty : Hasty start (fun b => ∀ c ∈ courses, IsOver (start + timeout) c b) now) :
    now = start + within timeout (longest (courses.map (lasting start))) := by
  have started := hasty.started
  refine Nat.le_antisymm (hasty.soon _ (Nat.le_add_right _ _) fun c hc => ?_) ?_
  · rcases (within_le _).mp (Nat.le_refl (within timeout (longest (courses.map (lasting start)))))
      with past | ended
    · exact .inl (Nat.add_le_add_left past start)
    · obtain ⟨d, hd, le⟩ := (longest_le _).mp ended _ (List.mem_map_of_mem hc)
      obtain ⟨⟨m, o⟩, rfl, rfl⟩ := Option.map_eq_some_iff.mp hd
      exact .inr ⟨m, o, rfl, Nat.sub_le_iff_le_add'.mp le⟩
  · have bound : within timeout (longest (courses.map (lasting start))) ≤ now - start := by
      refine (within_le _).mpr ?_
      by_cases past : start + timeout ≤ now
      · exact .inl (by omega)
      · refine .inr ((longest_le _).mpr (List.forall_mem_map.mpr fun c hc => ?_))
        rcases isOver c hc with late | ⟨m, o, rfl, le⟩
        · exact absurd late past
        · exact ⟨m - start, rfl, Nat.sub_le_sub_right le start⟩
    omega

/-! ## 2. Checks -/

/-- How long a run of a checker takes: it does not depend on the deadline. -/
theorem lasting_runCourse {s : Service} {x : String × Nat} {e : Enrolled}
    (he : s.checkers[x.2]? = some e) (deadline : Nat) :
    lasting s.now (s.runCourse deadline x) =
      match e.checker.ending (s.runsBefore x.2) with
      | .hangs => none
      | _ => some (afterDelay s.now e.checker.delay - s.now) := by
  unfold lasting runCourse Health.Checker.course Health.Checker.gives?
  rw [checkerOf_of he]
  cases e.checker.ending (s.runsBefore x.2) <;> rfl

/-- **How long a check takes.** -/
theorem check_duration {s : Service} (h : Askable s) {timeout deadline : Nat}
    (computable : deadline? s.now timeout = some deadline) :
    ∃ r, (s.check timeout).1 = .ok r ∧ (s.check timeout).2.now = s.now + within timeout
      (longest (s.roster.entries.map fun x => lasting s.now (s.runCourse deadline x))) := by
  obtain ⟨checked, isOver, hasty⟩ := h.checkIn_registered s.rollCall_perm computable
  refine ⟨_, checked, ?_⟩
  have moment := deadline?_eq_some computable
  subst moment
  have all : ∀ b, (∀ c ∈ s.roster.entries.map (s.runCourse (s.now + timeout)),
      IsOver (s.now + timeout) c b) ↔
      ∀ x ∈ s.roster.entries, IsOver (s.now + timeout) (s.runCourse (s.now + timeout) x) b :=
    fun b => List.forall_mem_map
  have exactly := within_longest ((all _).mpr isOver)
    ⟨hasty.started, fun b le k => hasty.soon b le ((all b).mp k)⟩
  rw [List.map_map] at exactly
  exact exactly

/-! ## 3. Teardowns at any later moment -/

theorem givenBy_eq_some {moment : Nat} {course : Option (Nat × Shutdown.Result)}
    {r : Shutdown.Result} : givenBy moment course = some r ↔
      ∃ m, course = some (m, r) ∧ m < moment := by
  unfold givenBy
  cases course with
  | none => simp
  | some x =>
    obtain ⟨m, o⟩ := x
    show (if m < moment then some o else none) = some r ↔ _
    split <;> simp_all

/-- What is known of teardowns, which are the jobs from one number to another: what each will have
given at any moment that is still to come. -/
def Foretold (C : JobId → Option (Nat × Shutdown.Result)) (lo hi : Nat) (s : Service) : Prop :=
  ∀ moment, s.now < moment → Foreseen moment (fun i => givenBy moment (C i)) lo hi none s

section Foretold

variable {C : JobId → Option (Nat × Shutdown.Result)} {lo hi : Nat} {s : Service}

theorem Foretold.scheduled (h : Foretold C lo hi s) :
    Scheduled none s := (h _ (Nat.lt_succ_self _)).scheduled

theorem Foretold.looked (h : Foretold C lo hi s) {s' : Service} (l : Looked s s') :
    Foretold C lo hi s' := by
  obtain ⟨_, _, _, rfl⟩ := l
  exact fun moment early => (h moment early).congr rfl rfl rfl rfl rfl

theorem Foretold.settle (h : Foretold C lo hi s) : Foretold C lo hi s.settle := by
  intro moment early
  rw [settle_now] at early
  exact settle_foreseen (h moment early) early

theorem Foretold.advance (h : Foretold C lo hi s) (empty : s.queue = []) {m : Nat}
    (later : s.now ≤ m) (next : ∀ n ∈ s.sleepEnds, s.now < n → m ≤ n) :
    Foretold C lo hi (s.advance m) := fun moment early =>
  advance_foreseen (h moment (Nat.lt_of_le_of_lt later early)) empty next

/-- A teardown that has a result has ended by its course. -/
theorem Foretold.over (h : Foretold C lo hi s) {i : JobId} (le : lo ≤ i) (lt : i < hi) {r : Result}
    (hr : s.result? i = some r) : ∃ m o, C i = some (m, o) ∧ m ≤ s.now := by
  have given := (h (s.now + 1) (Nat.lt_succ_self _)).known le lt hr
  obtain ⟨m, course, before⟩ := givenBy_eq_some.mp given
  exact ⟨m, _, course, Nat.lt_succ_iff.mp before⟩

/-- When nobody can go on, a job of its own that will have given something before a moment sleeps,
and wakes before that. -/
theorem sleeper_of_outlook (scheduled : Scheduled none s) (empty : s.queue = []) {b : JobId}
    {j : Job} (hj : s.jobs[b]? = some j) (own : ∃ e, j.close = .ending e)
    (heard : ∀ k, j.state = .awaiting k → s.isFired k = true) (unfinished : ∀ r, j.state ≠ .ended r)
    {moment : Nat} {r : Shutdown.Result} (given : j.outlook moment s.now = some r) :
    ∃ m ∈ s.sleepEnds, s.now < m ∧ m < moment := by
  have unheld := scheduled.unheld hj own heard
  cases goes : j.state.goesOn? s.now with
  | none =>
    rw [Job.outlook_stuck goes unfinished] at given
    cases given
  | some m =>
    have done := le_finish j.todo m
    rw [Job.outlook_of_going goes] at given
    have before : finish j.todo m < moment := by
      by_contra late
      rw [if_neg late] at given
      cases given
    cases hs : j.state with
    | ready => exact absurd hs (scheduled.idle empty hj)
    | sleeping n =>
      rw [hs] at goes
      cases goes
      exact ⟨m, mem_sleepEnds.mpr ⟨j, List.mem_of_getElem? hj, hs⟩, scheduled.asleep b j m hj hs,
        Nat.lt_of_le_of_lt done before⟩
    | awaiting k =>
      rw [hs] at unheld
      cases unheld
    | joining k =>
      rw [hs] at unheld
      cases unheld
    | _ =>
      rw [hs] at goes
      cases goes

/-- When nobody can go on and a teardown that will have given something before a moment has no
result yet, a sleep ends before that: its own, or that of the body it waits for. -/
theorem Foreseen.sleeper {moment : Nat} {X : JobId → Option Shutdown.Result}
    (h : Foreseen moment X lo hi none s) (empty : s.queue = []) {i : JobId} (le : lo ≤ i)
    (lt : i < hi) (unknown : s.result? i = none) {r : Shutdown.Result} (given : X i = some r) :
    ∃ m ∈ s.sleepEnds, s.now < m ∧ m < moment := by
  rw [← h.outlook i le lt] at given
  cases hj : s.jobs[i]? with
  | none =>
    unfold foresee at given
    rw [hj] at given
    cases given
  | some j =>
    rw [foresee_of hj] at given
    have unfinished : ∀ r, j.state ≠ .ended r := fun r => result?_eq_none.mp unknown j r hj
    have idle := h.scheduled.idle empty hj
    cases h.plans i j le lt hj with
    | own close _ state =>
      rw [Job.foresee_own close] at given
      exact sleeper_of_outlook h.scheduled empty hj close (fun k hk => absurd hk (state k))
        unfinished given
    | stop k close _ state =>
      exact state.elim (absurd · idle) fun ⟨r, hr⟩ => absurd hr (unfinished r)
    | join b close _ state =>
      have joining : j.state = .joining b := by
        rcases state with e | e | ⟨r, e⟩
        · exact absurd e idle
        · exact e
        · exact absurd e (unfinished r)
      have waiting := (h.scheduled.joining i j b hj joining).2
      obtain ⟨jb, hjb, own, heard⟩ := h.haveBodies.awaited hj close
      rw [Job.foresee_join close unfinished] at given
      unfold outlookOf at given
      rw [hjb] at given
      exact sleeper_of_outlook h.scheduled empty hjb own heard
        (fun r => result?_eq_none.mp waiting jb r hjb) given

/-- **When nobody can go on, what comes next is not later than the end of a teardown that is
missing.** -/
theorem Foretold.next (h : Foretold C lo hi s) (empty : s.queue = []) {i : JobId} (le : lo ≤ i)
    (lt : i < hi) (unknown : s.result? i = none) {b : Nat} (future : s.now ≤ b)
    (isOver : ∃ m o, C i = some (m, o) ∧ m ≤ b) : ∃ n ∈ s.sleepEnds, s.now < n ∧ n ≤ b := by
  obtain ⟨m, o, course, before⟩ := isOver
  obtain ⟨n, mem, later, early⟩ := (h (b + 1) (Nat.lt_succ_of_le future)).sleeper empty le lt
    unknown (givenBy_eq_some.mpr ⟨m, course, Nat.lt_succ_of_le before⟩)
  exact ⟨n, mem, later, Nat.lt_succ_iff.mp early⟩

end Foretold

/-- The course of the teardown that is started as a job. -/
def courseAt (s : Service) (i : JobId) : Option (Nat × Shutdown.Result) :=
  (s.members[i - s.jobs.length]?).bind s.course

/-- When the teardowns have been started, it is known what each will have given at any moment. -/
theorem teardownsStarted_foretold {s : Service} (h : Poised s) (deadline : Nat) :
    Foretold s.courseAt s.jobs.length (s.jobs.length + s.members.length)
      (s.teardownsStarted deadline) := fun moment _ =>
  { teardownsStarted_foreseen h deadline moment with
    outlook := by
      intro i le lt
      obtain ⟨k, rfl⟩ := Nat.exists_eq_add_of_le le
      obtain ⟨m, hm⟩ : ∃ m, s.members[k]? = some m :=
        ⟨_, List.getElem?_eq_getElem (Nat.lt_of_add_lt_add_left lt)⟩
      have hj : (s.teardownsStarted deadline).jobs[s.jobs.length + k]? =
          some (s.teardown deadline m) := by
        rw [teardownsStarted_jobs, List.getElem?_append_right le, Nat.add_sub_cancel_left,
          List.getElem?_map, hm]
        rfl
      rw [foresee_of hj, foresee_teardown h]
      unfold courseAt
      rw [Nat.add_sub_cancel_left, hm]
      rfl }

/-! ## 4. Awaiting the last teardown -/

section Watching

variable {start deadline lo hi count : Nat} {C : JobId → Option (Nat × Shutdown.Result)}
  {all : List (String × JobId)}

/-- All teardowns of a list are over at a moment. -/
def Gone (C : JobId → Option (Nat × Shutdown.Result)) (deadline : Nat) (ps : List (String × JobId))
    (now : Nat) : Prop := ∀ p ∈ ps, IsOver deadline (C p.2) now

/-- How far the winning call has come when it is looked at: it has its report and all teardowns are
over, or those are that it has collected. -/
inductive Advancing (C : JobId → Option (Nat × Shutdown.Result)) (deadline lo hi : Nat)
    (all : List (String × JobId)) (s : Service) : Call → Prop where
  | finished (r : Shutdown.Report) (gone : Gone C deadline all s.now) :
      Advancing C deadline lo hi all s (.finished r)
  | going (done rest : List (String × JobId)) (outcomes : List Shutdown.Outcome)
      (split : all = done ++ rest) (gone : Gone C deadline done s.now)
      (foretold : Foretold C lo hi s) :
      Advancing C deadline lo hi all s (.collecting ⟨deadline, rest, outcomes⟩)

/-- What the winning call waits for once it has been looked at: a teardown that has no result, and
the deadline has not come. -/
inductive Missing (C : JobId → Option (Nat × Shutdown.Result)) (deadline lo hi : Nat)
    (all : List (String × JobId)) (s : Service) : Call → Prop where
  | mk (done : List (String × JobId)) (p : String × JobId) (rest : List (String × JobId))
      (outcomes : List Shutdown.Outcome) (split : all = done ++ p :: rest)
      (gone : Gone C deadline done s.now) (foretold : Foretold C lo hi s)
      (unknown : s.result? p.2 = none) (early : s.now < deadline) :
      Missing C deadline lo hi all s (.collecting ⟨deadline, p :: rest, outcomes⟩)

theorem Missing.advancing {s : Service} {c : Call} (h : Missing C deadline lo hi all s c) :
    Advancing C deadline lo hi all s c := by
  cases h with
  | mk done p rest outcomes split gone foretold =>
    exact .going done (p :: rest) outcomes split gone foretold

theorem Missing.waits {s : Service} {c : Call} (h : Missing C deadline lo hi all s c) :
    c.hasReturned = false := by
  cases h
  rfl

theorem Missing.looked {s s' : Service} {c : Call} (h : Missing C deadline lo hi all s c)
    (l : Looked s s') : Missing C deadline lo hi all s' c := by
  cases h with
  | mk done p rest outcomes split gone foretold unknown early =>
    have foretold' := foretold.looked l
    obtain ⟨_, _, _, rfl⟩ := l
    exact .mk done p rest outcomes split gone foretold' unknown early

/-- **A look at the winning call**: it gets its report when all teardowns are over, and otherwise
one is missing. -/
theorem poll_advancing (places : ∀ p ∈ all, lo ≤ p.2 ∧ p.2 < hi) {s : Service} {c : Call}
    (h : Advancing C deadline lo hi all s c) :
    (∃ r, (c.poll s).1 = .finished r ∧ Gone C deadline all s.now) ∨
      Missing C deadline lo hi all s (c.poll s).1 := by
  cases h with
  | finished r gone => exact .inl ⟨r, rfl, gone⟩
  | going done rest outcomes split gone foretold =>
    obtain ⟨more, rest', split', collected, known, unknown⟩ :=
      collect_cut deadline rest outcomes s
    have gone' : Gone C deadline (done ++ more) s.now := by
      intro p hp
      rcases List.mem_append.mp hp with old | new
      · exact gone p old
      · obtain ⟨le, lt⟩ := places p (by rw [split, split']; simp [new])
        obtain ⟨fate, hf⟩ := known p new
        rcases fate?_eq_some hf with ⟨r, hr, -⟩ | ⟨-, past, -⟩
        · exact .inr (foretold.over le lt hr)
        · exact .inl past
    have whole : all = (done ++ more) ++ rest' := by rw [split, split', List.append_assoc]
    unfold Call.poll
    dsimp only
    rw [collected]
    cases rest' with
    | nil =>
      rw [List.append_nil] at whole
      exact .inl ⟨_, congrArg Prod.fst (if_pos rfl), whole ▸ gone'⟩
    | cons p rest' =>
      obtain ⟨open_, early⟩ := fate?_eq_none (unknown p rfl)
      exact .inr (.mk (done ++ more) p rest' _ whole gone' foretold open_ early)

/-- The moment at which all calls had returned is the first at which all teardowns were over. -/
def Exactly (C : JobId → Option (Nat × Shutdown.Result)) (start deadline : Nat)
    (all : List (String × JobId)) (m : Nat) : Prop :=
  Gone C deadline all m ∧ Hasty start (Gone C deadline all) m

/-- **No call returns late**: all have returned, exactly when the teardowns were over or the
deadline had come, or no moment was passed without need and only the winning call is waited for, of
which `P` is known. -/
def Timing (start deadline count : Nat) (C : JobId → Option (Nat × Shutdown.Result))
    (all : List (String × JobId)) (P : Service → Call → Prop) (w : Watch) (s : Service) : Prop :=
  (∃ m, w.returned = some m ∧ Exactly C start deadline all m) ∨
    (w.returned = none ∧ Hasty start (Gone C deadline all) s.now ∧
      ∃ c, w.calls = c :: List.replicate count .ignored ∧ P s c)

theorem timing_poll (places : ∀ p ∈ all, lo ≤ p.2 ∧ p.2 < hi) {w : Watch} {s : Service}
    (h : Timing start deadline count C all (Advancing C deadline lo hi all) w s) :
    Timing start deadline count C all (Missing C deadline lo hi all) (draining.poll w s).1
      (draining.poll w s).2 := by
  have now : (draining.poll w s).2.now = s.now := draining_calm.now w s
  rcases h with ⟨m, returned, exactly⟩ | ⟨returned, hasty, c, calls, advancing⟩
  · refine .inl ⟨m, ?_, exactly⟩
    show w.returned.or _ = some m
    rw [returned]
    rfl
  · have polled : pollCalls w.calls s =
        ((c.poll s).1 :: List.replicate count .ignored, (c.poll s).2) := by
      rw [calls]
      exact pollCalls_winner c count s
    have noted : (draining.poll w s).1.returned =
        if (pollCalls w.calls s).1.all (·.hasReturned) then some (pollCalls w.calls s).2.now
        else none := by
      show w.returned.or _ = _
      rw [returned]
      rfl
    have ignored : (List.replicate count Call.ignored).all (·.hasReturned) = true :=
      List.all_eq_true.mpr fun c hc => by rw [List.eq_of_mem_replicate hc]; rfl
    rw [polled, List.all_cons, ignored, Bool.and_true] at noted
    rcases poll_advancing places advancing with ⟨r, got, gone⟩ | missing
    · refine .inl ⟨s.now, ?_, gone, hasty⟩
      obtain ⟨_, _, _, e⟩ := looked_poll c s
      rw [noted, got]
      show some (c.poll s).2.now = some s.now
      rw [e]
    · have waits : ¬(c.poll s).1.hasReturned = true := by
        rw [missing.waits]
        nofun
      exact .inr ⟨noted.trans (if_neg waits), by rw [now]; exact hasty, (c.poll s).1,
        congrArg Prod.fst polled, missing.looked (looked_draining w s)⟩

theorem timing_settle {w : Watch} {s : Service}
    (h : Timing start deadline count C all (Missing C deadline lo hi all) w s) :
    Timing start deadline count C all (Advancing C deadline lo hi all) w s.settle := by
  rcases h with noted | ⟨returned, hasty, c, calls, missing⟩
  · exact .inl noted
  · rw [← settle_now s] at hasty
    refine .inr ⟨returned, hasty, c, calls, ?_⟩
    cases missing with
    | mk done p rest outcomes split gone foretold =>
      rw [← settle_now s] at gone
      exact .going done (p :: rest) outcomes split gone foretold.settle

/-- **No moment passes that is not needed**: a teardown that is missing, or the body it waits for,
sleeps until then at most. -/
theorem timing_advance (places : ∀ p ∈ all, lo ≤ p.2 ∧ p.2 < hi) {w : Watch} {s : Service}
    (h : Timing start deadline count C all (Missing C deadline lo hi all) w s)
    (empty : s.queue = []) {m : Nat} (next : nextMoment? draining w s = some m) :
    Timing start deadline count C all (Advancing C deadline lo hi all) w (s.advance m) := by
  rcases h with noted | ⟨returned, hasty, c, calls, missing⟩
  · exact .inl noted
  · obtain ⟨lt, -, sleeps, looks⟩ := nextMoment?_eq_some next
    have later : s.now ≤ m := Nat.le_of_lt lt
    cases missing with
    | mk done p rest outcomes split gone foretold unknown early =>
      have inside : p ∈ all := by simp [split]
      obtain ⟨le, lt⟩ := places p inside
      refine .inr ⟨returned, ⟨Nat.le_trans hasty.started later, fun b begun isOver => ?_⟩, _, calls,
        .going done (p :: rest) outcomes split (fun q hq => (gone q hq).mono later)
          (foretold.advance empty later sleeps)⟩
      rcases isOver p inside with past | ended
      · refine Nat.le_trans (looks deadline (List.mem_append_left _ ?_) early) past
        rw [calls]
        exact List.mem_cons_self
      · obtain ⟨n, mem, soon, before⟩ :=
          foretold.next empty le lt unknown (hasty.soon b begun isOver) ended
        exact Nat.le_trans (sleeps n mem soon) before

end Watching

section Drain

variable {s : Service} {deadline : Nat}

/-- How long the teardown of a component takes. -/
theorem lasting_component (s : Service) (c : Shutdown.Component) :
    lasting s.now (s.course (.component c)) =
      match c.ending with
      | .hangs => none
      | _ => some (afterDelay s.now c.delay - s.now) := by
  show lasting s.now (c.ending.gives?.map _) = _
  cases c.ending <;> rfl

/-- The teardowns that a call has to collect have the courses of the members. -/
theorem opening_courses (s : Service) (deadline : Nat) :
    (s.opening deadline).pending.map (fun p => s.courseAt p.2) = s.members.map s.course := by
  refine map_zip_range' _ _ _ _ _ fun i m hm => ?_
  show s.courseAt (s.jobs.length + i) = _
  unfold courseAt
  rw [Nat.add_sub_cancel_left, hm]
  rfl

/-- The winning call once it has been made. -/
theorem opening_advancing (h : Poised s) (deadline : Nat) (log : List Log.Record) :
    Advancing s.courseAt deadline s.jobs.length (s.jobs.length + s.members.length)
      (s.opening deadline).pending
      { ((Call.collecting (s.opening deadline)).poll (s.teardownsStarted deadline)).2 with log }
      ((Call.collecting (s.opening deadline)).poll (s.teardownsStarted deadline)).1 := by
  have looked : Looked (s.teardownsStarted deadline)
      { ((Call.collecting (s.opening deadline)).poll (s.teardownsStarted deadline)).2 with log } :=
    (looked_poll _ _).trans ⟨log, _, _, rfl⟩
  rcases poll_advancing (opening_places s deadline)
    (.going [] _ [] rfl nofun (teardownsStarted_foretold h deadline)) with ⟨r, got, gone⟩ | missing
  · rw [show ((Call.collecting (s.opening deadline)).poll (s.teardownsStarted deadline)).1 =
      .finished r from got]
    obtain ⟨_, _, _, e⟩ := looked
    rw [e]
    exact .finished r gone
  · exact (missing.looked looked).advancing

/-- The calls of a shutdown once they have been made. -/
theorem opening_timing (h : Poised s) (deadline count : Nat) (log : List Log.Record)
    (lookouts : List Lookout) :
    Timing s.now deadline count s.courseAt (s.opening deadline).pending
      (Advancing s.courseAt deadline s.jobs.length (s.jobs.length + s.members.length)
        (s.opening deadline).pending)
      ⟨((Call.collecting (s.opening deadline)).poll (s.teardownsStarted deadline)).1 ::
        List.replicate count .ignored, none, lookouts⟩
      { ((Call.collecting (s.opening deadline)).poll (s.teardownsStarted deadline)).2 with
        log } := by
  have now : ((Call.collecting (s.opening deadline)).poll (s.teardownsStarted deadline)).2.now =
      s.now := by
    obtain ⟨_, _, _, e⟩ := looked_poll (.collecting (s.opening deadline))
      (s.teardownsStarted deadline)
    rw [e]
    rfl
  refine .inr ⟨rfl, ⟨Nat.le_of_eq now.symm, fun b le _ => ?_⟩, _, rfl, opening_advancing h _ log⟩
  exact now.symm ▸ le

/-- The teardowns that a call has to collect are over when the courses of the members are. -/
theorem gone_opening (s : Service) (deadline now : Nat) :
    Gone s.courseAt deadline (s.opening deadline).pending now ↔
      ∀ c ∈ s.members.map s.course, IsOver deadline c now := by
  rw [← opening_courses s deadline, List.forall_mem_map]
  exact Iff.rfl

/-- **How long a shutdown takes.** -/
theorem drain_duration (h : Poised s) (running : s.phase = .running)
    (computable : deadline? s.now s.setup.drainTimeout = some deadline) (count : Nat)
    (probes : List Nat) : ∃ d, (s.drain (count + 1) probes).1 = .ok d ∧
      d.duration = within s.setup.drainTimeout
        (longest (s.members.map fun m => lasting s.now (s.course m))) := by
  have places := opening_places s deadline
  obtain ⟨log, calls⟩ := startCalls_wins count running computable
  have timing := opening_timing h deadline count log
    (probes.map fun d => ⟨wakeTime s.now d, none⟩)
  have scheduled : Scheduled none
      { ((Call.collecting (s.opening deadline)).poll (s.teardownsStarted deadline)).2 with log } :=
    ((looked_poll _ _).trans ⟨log, _, _, rfl⟩).scheduled
      (teardownsStarted_scheduled h.scheduled deadline)
  unfold drain
  rw [calls]
  dsimp only
  refine ⟨_, rfl, ?_⟩
  dsimp only
  generalize hw : (⟨_, none, probes.map fun d => ⟨wakeTime s.now d, none⟩⟩ : Watch) = w at timing ⊢
  have honest : w.Honest := by
    subst hw
    nofun
  obtain ⟨timed, -⟩ := await_rule draining_calm (fun _ _ _ k => timing_poll places k)
    (fun _ _ _ k _ => timing_settle k) (fun _ _ _ _ k _ empty next =>
      timing_advance places k empty next) w _ scheduled timing
  have ended := (draining_returned honest scheduled).1
  generalize await draining w _ = last at timed ended ⊢
  rcases timed with ⟨m, returned, gone, hasty⟩ | ⟨-, -, c, calls, missing⟩
  · have moment := deadline?_eq_some computable
    subst moment
    have exactly := within_longest ((gone_opening s _ m).mp gone)
      ⟨hasty.started, fun b le k => hasty.soon b le ((gone_opening s _ b).mpr k)⟩
    rw [List.map_map] at exactly
    rw [returned, Option.getD_some, exactly, Nat.add_sub_cancel_left]
    rfl
  · have isOver := ended c (by rw [calls]; exact List.mem_cons_self)
    rw [missing.waits] at isOver
    cases isOver

end Drain

end Service

open Service

namespace World

/-- **A check and a shutdown take exactly as long as they must.** In whatever way a service has come
about, a check of it takes as long as the longest run of its checkers, and a shutdown as long as the
longest teardown of its components, and either at most until the deadline. The runs, in the order of
that moment, or the teardowns are started together, each with this one deadline. -/
theorem no_longer_than_needed (setup : Setup) (clock : Time.Stamp) (ms : List Move)
    (free : ((new setup clock).after ms).turn = none) :
    let s := ((new setup clock).after ms).service
    (∀ timeout deadline, deadline? s.now timeout = some deadline →
      (∃ r, (s.check timeout).1 = .ok r ∧ (s.check timeout).2.now = s.now + within timeout
        (longest (s.roster.entries.map fun x => lasting s.now (s.runCourse deadline x)))) ∧
      (∀ (x : String × Nat) e, s.checkers[x.2]? = some e →
        lasting s.now (s.runCourse deadline x) =
          match e.checker.ending (s.runsBefore x.2) with
          | .hangs => none
          | _ => some (afterDelay s.now e.checker.delay - s.now)) ∧
      (s.startAggregation deadline).2.jobs =
        s.jobs ++ s.rollCall.map (s.runJob (s.now + timeout)) ∧
      s.rollCall.Perm s.roster.entries) ∧
    ∀ deadline count probes, s.phase = .running →
      deadline? s.now s.setup.drainTimeout = some deadline →
      (∃ d, (s.drain (count + 1) probes).1 = .ok d ∧ d.duration = within s.setup.drainTimeout
        (longest (s.members.map fun m => lasting s.now (s.course m)))) ∧
      (∀ c : Shutdown.Component, lasting s.now (s.course (.component c)) =
        match c.ending with
        | .hangs => none
        | _ => some (afterDelay s.now c.delay - s.now)) ∧
      s.startCall.2.jobs =
        s.jobs ++ s.members.map (s.teardown (s.now + s.setup.drainTimeout)) := by
  intro s
  refine ⟨fun timeout deadline computable => ?_, fun deadline count probes running computable => ?_⟩
  · refine ⟨check_duration (after_askable setup clock ms free) computable,
      fun x e he => lasting_runCourse he deadline, ?_, s.rollCall_perm⟩
    rw [← deadline?_eq_some computable]
    show (startRuns deadline s.rollCall s).2.jobs = _
    rw [startRuns_eq]
  · refine ⟨drain_duration (after_poised setup clock ms free running) running computable count
      probes, lasting_component s, ?_⟩
    rw [← deadline?_eq_some computable]
    rcases startCall_cases s with ⟨late, -⟩ | ⟨-, overflow, -⟩ | ⟨-, d, hd, started⟩
    · exact absurd running late
    · rw [computable] at overflow
      cases overflow
    · rw [computable] at hd
      cases hd
      obtain ⟨_, _, _, e⟩ := looked_poll (.collecting (s.opening deadline))
        (s.teardownsStarted deadline)
      rw [started, e]
      rfl

/-- Two checkers of twenty and thirty milliseconds, a component that takes fifty milliseconds and
one that never stops. -/
theorem check_takes_thirty_shutdown_hundred :
    let s := ((new ⟨1000, 100, true, ⟨"api", "test", ⟨none, none⟩⟩, .ascending⟩ ⟨0, 0⟩).after
      [.act (.register ⟨"cache", false, some 20, [], [.returns .passed]⟩),
        .act (.register ⟨"disk", false, some 30, [], [.timeLeft]⟩),
        .addComponent ⟨"listener", some 50, [], .returns .ok⟩,
        .addComponent ⟨"cache", none, [], .hangs⟩]).service
    (s.check 50).2.now = 30 ∧ (s.check 25).2.now = 25 ∧
      ∃ d, (s.drain 1 []).1 = .ok d ∧ d.duration = 100 := by
  obtain ⟨checks, drains⟩ := no_longer_than_needed
    ⟨1000, 100, true, ⟨"api", "test", ⟨none, none⟩⟩, .ascending⟩ ⟨0, 0⟩
    [.act (.register ⟨"cache", false, some 20, [], [.returns .passed]⟩),
      .act (.register ⟨"disk", false, some 30, [], [.timeLeft]⟩),
      .addComponent ⟨"listener", some 50, [], .returns .ok⟩,
      .addComponent ⟨"cache", none, [], .hangs⟩] rfl
  obtain ⟨⟨-, -, thirty⟩, -⟩ := checks 50 50 rfl
  obtain ⟨⟨-, -, timeout⟩, -⟩ := checks 25 25 rfl
  obtain ⟨⟨d, drained, duration⟩, -⟩ := drains 100 0 [] rfl rfl
  exact ⟨thirty, timeout, d, drained, duration⟩

end World

end ServiceHealth
