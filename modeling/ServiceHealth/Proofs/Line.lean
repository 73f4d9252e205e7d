import ServiceHealth.Proofs.Registry
import ServiceHealth.Proofs.Settle

/-!
# In which order runs begin

Jobs have their turns in the order in which they have joined the queue, and a run of a checker
begins with the first step of the first turn of its job. So the runs of a checker begin in the order
in which they were started, and the number of a run, which decides how it ends, is known as soon as
its job has been started. `line` lists the runs of a checker in that order, also in the middle of a
turn.

* `Lined`: what holds of the queue at every moment, in every world (`after_lined`).
* `step_line`, `begin_line`: a turn moves a run on, but the line stays what it is.
* `settle_line`: **nor is the line changed by all turns until the queue is empty**.
* `Lined.spawn`: a run that is started comes last.
-/

namespace ServiceHealth

namespace Service

/-! ## 1. The line -/

/-- Whether steps begin with a run of a checker. -/
def opens (n : Nat) : List Step → Bool
  | .begin k :: _ => k == n
  | _ => false

/-- The jobs that have begun a run of a checker, the first one first. -/
def runsOf (s : Service) (n : Nat) : List JobId := ((s.checkers[n]?).map (·.runs)).getD []

/-- Whether a run of a checker begins in the next turn of a job. -/
def willBegin (s : Service) (n : Nat) (i : JobId) : Bool :=
  match s.jobs[i]? with
  | some j => decide (j.state = .ready) && opens n j.todo
  | none => false

/-- The job that has its turn, if a run of a checker begins with its next step. -/
def Turn.begins (n : Nat) : Option Turn → List JobId
  | some t => if opens n t.todo then [t.job] else []
  | none => []

/-- **The runs of a checker in the order in which they begin**: those that have begun, the one that
is about to, and those in the queue. -/
def line (turn : Option Turn) (s : Service) (n : Nat) : List JobId :=
  s.runsOf n ++ Turn.begins n turn ++ s.queue.filter (s.willBegin n)

/-- **The queue is in order**: nobody stands in it twice or has a turn at the same time, nobody in
it is held up, a run begins with the first step of its job, and whoever is held up has none to
begin. -/
structure Lined (turn : Option Turn) (s : Service) : Prop where
  nodup : s.queue.Nodup
  queued : ∀ i ∈ s.queue, ∃ j, s.jobs[i]? = some j ∧ j.state.isBlocked = false
  unseated : ∀ t, turn = some t → t.job ∉ s.queue
  once : ∀ (i : JobId) (j : Job), s.jobs[i]? = some j → ∀ k, Step.begin k ∉ j.todo.tail
  begun : ∀ (i : JobId) (j : Job), s.jobs[i]? = some j → j.state.isBlocked = true →
    ∀ k, Step.begin k ∉ j.todo

theorem new_lined (setup : Setup) (clock : Time.Stamp) : Lined none (.new setup clock) where
  nodup := List.nodup_nil
  queued _ h := nomatch h
  unseated _ h := nomatch h
  once _ _ h := nomatch h
  begun _ _ h := nomatch h

theorem opens_eq_false {todo : List Step} (h : ∀ k, Step.begin k ∉ todo) (n : Nat) :
    opens n todo = false := by
  unfold opens
  split
  · exact absurd List.mem_cons_self (h _)
  · rfl

theorem willBegin_of {s : Service} {i : JobId} {j : Job} (hj : s.jobs[i]? = some j) (n : Nat) :
    s.willBegin n i = (decide (j.state = .ready) && opens n j.todo) := by
  unfold willBegin
  rw [hj]

theorem willBegin_congr {s s' : Service} {i : JobId} (h : s'.jobs[i]? = s.jobs[i]?) (n : Nat) :
    s'.willBegin n i = s.willBegin n i := by
  unfold willBegin
  rw [h]

theorem runsOf_congr {s s' : Service} (h : s'.checkers = s.checkers) (n : Nat) :
    s'.runsOf n = s.runsOf n := by
  unfold runsOf
  rw [h]

theorem line_congr {s s' : Service} (jobs : s'.jobs = s.jobs) (queue : s'.queue = s.queue)
    {n : Nat} (runs : s'.runsOf n = s.runsOf n) (turn : Option Turn) :
    line turn s' n = line turn s n := by
  have same : s'.willBegin n = s.willBegin n :=
    funext fun i => willBegin_congr (by rw [jobs]) n
  unfold line
  rw [runs, queue, same]

/-- Whoever has its turn and does not begin a run with its next step is not in the line. -/
theorem line_some {t : Turn} {n : Nat} (h : opens n t.todo = false) (s : Service) :
    line (some t) s n = line none s n := by
  have idle : Turn.begins n (some t) = [] := if_neg (by rw [h]; nofun)
  unfold line
  rw [idle]
  rfl

theorem Lined.congr {turn : Option Turn} {s s' : Service} (h : Lined turn s)
    (jobs : s'.jobs = s.jobs) (queue : s'.queue = s.queue) : Lined turn s' where
  nodup := by rw [queue]; exact h.nodup
  queued := by rw [jobs, queue]; exact h.queued
  unseated := by rw [queue]; exact h.unseated
  once := by rw [jobs]; exact h.once
  begun := by rw [jobs]; exact h.begun

/-- After its first step a script begins no run. -/
theorem Lined.tail {t : Turn} {s : Service} (h : Lined (some t) s)
    (scheduled : Scheduled (some t) s) (k : Nat) : Step.begin k ∉ t.todo.tail := by
  obtain ⟨j, hj, -, -, before, eq⟩ := scheduled.seated t rfl
  intro mem
  refine h.once _ j hj k ?_
  rw [← eq]
  cases before with
  | nil => exact mem
  | cons x before => exact List.mem_append_right _ (List.mem_of_mem_tail mem)

/-! ## 2. Waking, leaving and joining -/

section Changes

variable {s : Service}

theorem jobsIn_nodup (s : Service) (p : JobState → Bool) : (s.jobsIn p).Nodup :=
  List.nodup_range.filter _

/-- Nobody who is held up begins a run in its next turn. -/
theorem Lined.willBegin_blocked {turn : Option Turn} (h : Lined turn s) {i : JobId} {j : Job}
    (hj : s.jobs[i]? = some j) (held : j.state.isBlocked = true) (n : Nat) :
    s.willBegin n i = false := by
  rw [willBegin_of hj, opens_eq_false (h.begun i j hj held), Bool.and_false]

theorem Lined.willBegin_wake {turn : Option Turn} (h : Lined turn s) {p : JobState → Bool}
    (hp : ∀ state, p state = true → state.isBlocked = true) (n : Nat) :
    (s.wake p).willBegin n = s.willBegin n := by
  funext i
  cases hj : s.jobs[i]? with
  | none =>
    refine willBegin_congr ?_ n
    rw [wake_getElem?, hj]
    rfl
  | some j =>
    have hj' : (s.wake p).jobs[i]? = some (j.woken p) := by
      rw [wake_getElem?, hj]
      rfl
    by_cases k : p j.state = true
    · have silent := opens_eq_false (h.begun i j hj (hp _ k)) n
      rw [willBegin_of hj', Job.woken_todo, silent, Bool.and_false,
        h.willBegin_blocked hj (hp _ k)]
    · rw [willBegin_of hj, willBegin_of hj', Job.woken_eq_self (by simpa using k)]

/-- Those who are woken join the queue, but not the line. -/
theorem Lined.wake_line {turn : Option Turn} (h : Lined turn s) {p : JobState → Bool}
    (hp : ∀ state, p state = true → state.isBlocked = true) (n : Nat) :
    line turn (s.wake p) n = line turn s n := by
  have silent : (s.jobsIn p).filter (s.willBegin n) = [] := by
    refine List.filter_eq_nil_iff.mpr fun i hi => ?_
    obtain ⟨j, hj, k⟩ := mem_jobsIn.mp hi
    rw [h.willBegin_blocked hj (hp _ k)]
    nofun
  have queue : (s.wake p).queue = s.queue ++ s.jobsIn p := rfl
  unfold line
  rw [h.willBegin_wake hp, queue, List.filter_append, silent, List.append_nil]
  rfl

/-- Waking those that are held up: nobody who is woken has a run to begin. -/
theorem Lined.wake {turn : Option Turn} (h : Lined turn s) {p : JobState → Bool}
    (hp : ∀ state, p state = true → state.isBlocked = true)
    (seat : ∀ t, turn = some t → ∀ j, s.jobs[t.job]? = some j → j.state.isBlocked = false) :
    Lined turn (s.wake p) ∧ ∀ n, line turn (s.wake p) n = line turn s n := by
  have blocked : ∀ i ∈ s.jobsIn p, ∃ j, s.jobs[i]? = some j ∧ j.state.isBlocked = true :=
    fun i hi => (mem_jobsIn.mp hi).imp fun j hj => ⟨hj.1, hp _ hj.2⟩
  refine ⟨⟨?_, ?_, ?_, ?_, ?_⟩, h.wake_line hp⟩
  · refine List.nodup_append.mpr ⟨h.nodup, jobsIn_nodup s p, fun i hi k hk e => ?_⟩
    subst e
    obtain ⟨j, hj, free⟩ := h.queued i hi
    obtain ⟨j', hj', held⟩ := blocked i hk
    rw [hj] at hj'
    cases hj'
    rw [free] at held
    cases held
  · intro i hi
    have woken : ∀ j, s.jobs[i]? = some j → (j.woken p).state.isBlocked = false →
        ∃ j, (s.wake p).jobs[i]? = some j ∧ j.state.isBlocked = false := fun j hj k =>
      ⟨j.woken p, by rw [wake_getElem?, hj]; rfl, k⟩
    rcases List.mem_append.mp hi with old | new
    · obtain ⟨j, hj, free⟩ := h.queued i old
      refine woken j hj ?_
      rw [Job.woken_state]
      split
      · rfl
      · exact free
    · obtain ⟨j, hj, k⟩ := mem_jobsIn.mp new
      refine woken j hj ?_
      rw [Job.woken_state, if_pos k]
      rfl
  · intro t ht mem
    rcases List.mem_append.mp mem with old | new
    · exact h.unseated t ht old
    · obtain ⟨j, hj, held⟩ := blocked _ new
      rw [seat t ht j hj] at held
      cases held
  · intro i j hj
    obtain ⟨j', hj', rfl⟩ := woken_of hj
    rw [Job.woken_todo]
    exact h.once i j' hj'
  · intro i j hj held
    obtain ⟨j', hj', rfl⟩ := woken_of hj
    rw [Job.woken_todo]
    refine h.begun i j' hj' ?_
    rw [Job.woken_state] at held
    split at held
    · cases held
    · exact held

/-- A job that leaves its turn with no run to begin. -/
theorem Lined.leave {t : Turn} (h : Lined (some t) s) {f : Job → Job}
    (done : ∀ j k, Step.begin k ∉ (f j).todo) :
    Lined none (s.updateJob t.job f) ∧ ∀ n, line none (s.updateJob t.job f) n = line none s n := by
  have out := h.unseated t rfl
  have other : ∀ {i : JobId}, t.job ≠ i → (s.updateJob t.job f).jobs[i]? = s.jobs[i]? := by
    intro i ne
    rw [updateJob_getElem?]
    cases s.jobs[i]? with
    | none => rfl
    | some j => exact congrArg some (if_neg ne)
  have changed : ∀ {i : JobId} {j : Job}, (s.updateJob t.job f).jobs[i]? = some j →
      s.jobs[i]? = some j ∨ ∀ k, Step.begin k ∉ j.todo := by
    intro i j hj
    by_cases e : t.job = i
    · rw [updateJob_getElem?] at hj
      obtain ⟨j', -, rfl⟩ := Option.map_eq_some_iff.mp hj
      rw [if_pos e]
      exact .inr (done j')
    · exact .inl (other e ▸ hj)
  refine ⟨⟨h.nodup, ?_, nofun, ?_, ?_⟩, fun n => ?_⟩
  · intro i hi
    rw [other (i := i) fun e => out (e ▸ hi)]
    exact h.queued i hi
  · intro i j hj k
    rcases changed hj with old | empty
    · exact h.once i j old k
    · exact fun mem => empty k (List.mem_of_mem_tail mem)
  · intro i j hj held
    rcases changed hj with old | empty
    · exact h.begun i j old held
    · exact empty
  · have same : s.queue.filter ((s.updateJob t.job f).willBegin n) =
        s.queue.filter (s.willBegin n) :=
      List.filter_congr fun i hi => willBegin_congr (other fun e => out (e ▸ hi)) n
    unfold line
    have queue : (s.updateJob t.job f).queue = s.queue := rfl
    rw [queue, same]
    rfl

/-- A job that is started comes last in the queue, and in the line if it has a run to begin. -/
theorem Lined.spawn (h : Lined none s) {new : Job} (ready : new.state = .ready)
    (once : ∀ k, Step.begin k ∉ new.todo.tail) : Lined none (s.spawn new) ∧
      ∀ n, line none (s.spawn new) n =
        line none s n ++ if opens n new.todo then [s.jobs.length] else [] := by
  have known : ∀ i ∈ s.queue, i < s.jobs.length := fun i hi => by
    obtain ⟨j, hj, -⟩ := h.queued i hi
    exact (List.getElem?_eq_some_iff.mp hj).1
  have old : ∀ i ∈ s.queue, (s.spawn new).jobs[i]? = s.jobs[i]? := fun i hi =>
    List.getElem?_append_left (known i hi)
  have last : (s.spawn new).jobs[s.jobs.length]? = some new := List.getElem?_concat_length
  refine ⟨⟨?_, ?_, nofun, ?_, ?_⟩, fun n => ?_⟩
  · refine List.nodup_append.mpr ⟨h.nodup, List.pairwise_singleton _ _, fun i hi k hk e => ?_⟩
    rw [List.mem_singleton.mp hk] at e
    exact Nat.lt_irrefl _ (e ▸ known i hi)
  · intro i hi
    rcases List.mem_append.mp hi with mem | mem
    · rw [old i mem]
      exact h.queued i mem
    · rw [List.mem_singleton.mp mem]
      exact ⟨new, last, by rw [ready]; rfl⟩
  · intro i j hj
    rcases spawn_getElem? hj with old | ⟨-, rfl⟩
    · exact h.once i j old
    · exact once
  · intro i j hj held
    rcases spawn_getElem? hj with old | ⟨-, rfl⟩
    · exact h.begun i j old held
    · rw [ready] at held
      cases held
  · have same : s.queue.filter ((s.spawn new).willBegin n) = s.queue.filter (s.willBegin n) :=
      List.filter_congr fun i hi => willBegin_congr (old i hi) n
    have here : (s.spawn new).willBegin n s.jobs.length = opens n new.todo := by
      rw [willBegin_of last, ready]
      rfl
    have queue : (s.spawn new).queue = s.queue ++ [s.jobs.length] := rfl
    have runs : (s.spawn new).runsOf n = s.runsOf n := rfl
    unfold line
    rw [queue, runs, List.filter_append, same, List.filter_cons, here, List.filter_nil,
      List.append_assoc _ _ (ite _ _ _)]

theorem Lined.abort (h : Lined none s) (job : JobId) : Lined none (s.abort job) where
  nodup := h.nodup
  queued i hi := by
    obtain ⟨j, hj, free⟩ := h.queued i hi
    unfold Service.abort
    rw [updateJob_getElem?, hj]
    refine ⟨_, rfl, ?_⟩
    split
    · dsimp only
      split
      · exact free
      · rfl
    · exact free
  unseated := nofun
  once i j hj := by
    rcases abort_getElem? hj with old | ⟨j', old, -, rfl⟩
    · exact h.once i j old
    · exact h.once i j' old
  begun i j hj held := by
    rcases abort_getElem? hj with old | ⟨j', old, -, rfl⟩
    · exact h.begun i j old held
    · cases held

end Changes

/-! ## 3. Turns -/

section Turns

variable {t : Turn} {s : Service}

/-- Whoever has its turn is not held up. -/
theorem Scheduled.seat_free {turn : Option Turn} (h : Scheduled turn s) (t : Turn)
    (ht : turn = some t) (j : Job) (hj : s.jobs[t.job]? = some j) : j.state.isBlocked = false := by
  obtain ⟨j', hj', ready, -⟩ := h.seated t ht
  rw [hj] at hj'
  cases hj'
  rw [ready]
  rfl

theorem Readied.line {s' : Service} {close : Close} (r : Readied s close s')
    (scheduled : Scheduled (some t) s) (h : Lined (some t) s) :
    Lined (some t) s' ∧ ∀ n, line (some t) s' n = line (some t) s n := by
  cases r with
  | same => exact ⟨h, fun _ => rfl⟩
  | noted => exact ⟨h.congr rfl rfl, fun _ => rfl⟩
  | told task =>
    have start : Lined (some t) (s.updateTask task fun t => { t with fired := true }) :=
      h.congr rfl rfl
    obtain ⟨lined, same⟩ := start.wake (awaits_isBlocked task) scheduled.seat_free
    obtain ⟨jobs, queue, -⟩ := claim_frame (s.fire task) task
    refine ⟨lined.congr jobs queue, fun n => ?_⟩
    have runs := runsOf_congr (JobsOnly.claim (s.fire task) task).checkers n
    exact (line_congr jobs queue runs _).trans (same n)

theorem closed_line {s' : Service} (scheduled : Scheduled (some t) s) (h : Lined (some t) s)
    (empty : t.todo = []) (c : Closed s t.job t.close s') :
    Lined none s' ∧ ∀ n, line none s' n = line (some t) s n := by
  have silent : ∀ (s : Service) (n : Nat), line (some t) s n = line none s n := fun s n =>
    line_some (by rw [empty]; rfl) s
  cases c with
  | @concluded s₁ r result =>
    obtain ⟨h₁, same₁⟩ := r.line scheduled h
    obtain ⟨h₂, same₂⟩ := h₁.leave (f := fun j => { j with todo := [], state := .ended result })
      fun _ _ => List.not_mem_nil
    obtain ⟨h₃, same₃⟩ := h₂.wake (joins_isBlocked t.job) fun _ k => nomatch k
    refine ⟨h₃, fun n => ?_⟩
    calc line none (s₁.conclude t.job result) n
        = line none _ n := same₃ n
      _ = line none s₁ n := same₂ n
      _ = line (some t) s₁ n := (silent s₁ n).symm
      _ = line (some t) s n := same₁ n
  | hung close' =>
    obtain ⟨h₁, same₁⟩ := h.leave
      (f := fun j => { j with todo := [], close := close', state := .hung })
      fun _ _ => List.not_mem_nil
    exact ⟨h₁, fun n => (same₁ n).trans (silent s n).symm⟩
  | @joining s₁ r awaited =>
    obtain ⟨h₁, same₁⟩ := r.line scheduled h
    obtain ⟨h₂, same₂⟩ := h₁.leave
      (f := fun j => { j with todo := [], close := .join awaited, state := .joining awaited })
      fun _ _ => List.not_mem_nil
    exact ⟨h₂, fun n => (same₂ n).trans ((silent s₁ n).symm.trans (same₁ n))⟩

/-- The runs that have begun after a step that does not end the turn. -/
theorem act_runsOf (s : Service) (job : JobId) (who : String) (x : Step) (rest : List Step)
    {n : Nat} (lt : n < s.checkers.length) : (s.act job who x).runsOf n =
      s.runsOf n ++ if opens n (x :: rest) then [job] else [] := by
  have same : ∀ s' : Service, s'.checkers = s.checkers → s'.runsOf n = s.runsOf n ++ [] :=
    fun s' h => by rw [runsOf_congr h, List.append_nil]
  cases x with
  | begin k =>
    have checkers := beginRun_checkers s job who k n
    rw [List.getElem?_eq_getElem lt] at checkers
    unfold runsOf act
    dsimp only
    rw [checkers, List.getElem?_eq_getElem lt]
    by_cases e : k = n <;> simp [opens, e]
  | perform a =>
    cases a with
    | register c =>
      unfold runsOf act performAction register
      dsimp only
      rw [List.getElem?_append_left lt]
      exact (List.append_nil _).symm
    | _ => exact same _ rfl
  | _ => exact same _ rfl

/-- **A step of a turn leaves the line as it is.** -/
theorem step_line (scheduled : Scheduled (some t) s) (h : Lined (some t) s) :
    Lined (t.step s).1 (t.step s).2 ∧ ∀ n, n < s.checkers.length →
      line (t.step s).1 (t.step s).2 n = line (some t) s n := by
  have tail := h.tail scheduled
  rcases t.step_cases s with ⟨x, rest, ht, -, e⟩ | ⟨x, rest, state, ht, hx, e⟩ | ⟨ht, e⟩
  · rw [ht] at tail
    rw [e]
    obtain ⟨jobs, queue, -, -⟩ := act_frame s t.job t.who x
    have acted := h.congr jobs queue
    refine ⟨⟨acted.nodup, acted.queued, ?_, acted.once, acted.begun⟩, fun n lt => ?_⟩
    · intro t' ht'
      cases ht'
      exact acted.unseated t rfl
    · have begins : Turn.begins n (some t) = if opens n (x :: rest) then [t.job] else [] := by
        rw [← ht]
        rfl
      rw [line_some (opens_eq_false tail n)]
      have same : (s.act t.job t.who x).willBegin n = s.willBegin n :=
        funext fun i => willBegin_congr (by rw [jobs]) n
      unfold line
      rw [act_runsOf s t.job t.who x rest lt, queue, same, begins]
      simp [Turn.begins]
  · rw [ht] at tail
    rw [e]
    obtain ⟨h₁, same₁⟩ := h.leave (f := fun j => { j with todo := rest, close := t.close, state })
      fun _ => tail
    refine ⟨h₁, fun n _ => (same₁ n).trans (line_some ?_ s).symm⟩
    rw [ht]
    rcases holdUp?_cases hx with ⟨d, rfl, -, -⟩ | ⟨k, rfl, -, -⟩ <;> rfl
  · rw [e]
    obtain ⟨h₁, same₁⟩ := closed_line scheduled h ht (closed_closeJob s t.job t.close)
    exact ⟨h₁, fun n _ => same₁ n⟩

/-- **Whoever takes its turn keeps its place in the line.** -/
theorem begin_line (h : Lined none s) : Lined (Turn.begin s).1 (Turn.begin s).2 ∧
    ∀ n, line (Turn.begin s).1 (Turn.begin s).2 n = line none s n := by
  unfold Turn.begin
  cases hq : s.queue with
  | nil => exact ⟨h, fun _ => rfl⟩
  | cons job rest =>
    have nodup := h.nodup
    rw [hq, List.nodup_cons] at nodup
    refine ⟨⟨nodup.2, ?_, ?_, h.once, h.begun⟩, fun n => ?_⟩
    · intro i hi
      exact h.queued i (by rw [hq]; exact List.mem_cons_of_mem _ hi)
    · intro t ht
      dsimp only at ht
      split at ht
      · split at ht
        · cases ht
          exact nodup.1
        · cases ht
      · cases ht
    · have same : ({ s with queue := rest } : Service).willBegin n = s.willBegin n := rfl
      have runs : ({ s with queue := rest } : Service).runsOf n = s.runsOf n := rfl
      unfold line
      rw [same, runs, hq, List.filter_cons, willBegin]
      dsimp only
      cases hj : s.jobs[job]? with
      | none => simp [Turn.begins]
      | some j =>
        dsimp only
        by_cases ready : j.state = .ready
        · by_cases opening : opens n j.todo = true <;> simp [ready, opening, Turn.begins]
        · simp [ready, Turn.begins]

theorem step_grown (t : Turn) (s : Service) : Grown s (t.step s).2 :=
  (World.step_enrolment t s).grown

theorem Grown.length {s s' : Service} (h : Grown s s') {n : Nat} (lt : n < s.checkers.length) :
    n < s'.checkers.length := by
  obtain ⟨more, k⟩ := h n _ (List.getElem?_eq_getElem lt)
  exact (List.getElem?_eq_some_iff.mp k).1

/-- **All turns until the queue is empty leave the line as it is.** -/
theorem settle_line (scheduled : Scheduled none s) (h : Lined none s) :
    Lined none s.settle ∧ Grown s s.settle ∧
      ∀ n, n < s.checkers.length → line none s.settle n = line none s n :=
  (settleLoop_induction
    (P := fun turn s' => Scheduled turn s' ∧ Lined turn s' ∧ Grown s s' ∧
      ∀ n, n < s.checkers.length → line turn s' n = line none s n)
    (fun s' ⟨scheduled, h, grown, same⟩ =>
      ⟨begin_scheduled scheduled, (begin_line h).1, grown.trans (JobsOnly.begin s').registry.grown,
        fun n lt => ((begin_line h).2 n).trans (same n lt)⟩)
    (fun t s' ⟨scheduled, h, grown, same⟩ =>
      ⟨step_scheduled scheduled, (step_line scheduled h).1, grown.trans (step_grown t s'),
        fun n lt => ((step_line scheduled h).2 n (grown.length lt)).trans (same n lt)⟩)
    _ s ⟨scheduled, h, .refl s, fun _ _ => rfl⟩).2

end Turns

/-! ## 4. What happens from outside -/

/-- A delay and actions are nothing but sleeps and actions. -/
theorem mem_work {delay : Option Nat} {actions : List (Health.Action Health.Checker)} {x : Step}
    (h : x ∈ work delay actions) : (∃ d, x = .sleep d) ∨ ∃ a, x = .perform a := by
  rcases List.mem_append.mp h with sleep | act
  · obtain ⟨d, -, rfl⟩ := Option.map_eq_some_iff.mp (Option.mem_toList.mp sleep)
    exact .inl ⟨d, rfl⟩
  · obtain ⟨a, -, rfl⟩ := List.mem_map.mp act
    exact .inr ⟨a, rfl⟩

theorem begin_not_mem_work (delay : Option Nat) (actions : List (Health.Action Health.Checker))
    (k : Nat) : Step.begin k ∉ work delay actions := fun h => by
  rcases mem_work h with ⟨_, e⟩ | ⟨_, e⟩ <;> cases e

theorem awaitSignal_not_mem_work (delay : Option Nat)
    (actions : List (Health.Action Health.Checker)) (k : Nat) :
    Step.awaitSignal k ∉ work delay actions := fun h => by
  rcases mem_work h with ⟨_, e⟩ | ⟨_, e⟩ <;> cases e

theorem ofRun_once (checker : Nat) (c : Health.Checker) (deadline k : Nat) :
    Step.begin k ∉ (Job.ofRun checker c deadline).todo.tail :=
  begin_not_mem_work c.delay c.actions k

theorem ofBody_once (task : Nat) (t : Shutdown.Task) (k : Nat) :
    Step.begin k ∉ (Job.ofBody task t).todo.tail := by
  have script := begin_not_mem_work t.delay [] k
  unfold Job.ofBody
  rw [List.tail_cons]
  simp only [List.mem_append, not_or]
  refine ⟨⟨?_, script⟩, ?_⟩
  · split <;> simp
  · split <;> simp

theorem teardown_once (s : Service) (deadline : Nat) (m : Member) (k : Nat) :
    Step.begin k ∉ (s.teardown deadline m).todo.tail := by
  cases m with
  | component c =>
    have script := begin_not_mem_work c.delay c.actions k
    show _ ∉ (work c.delay c.actions ++ _)
    simp only [List.mem_append, not_or]
    refine ⟨script, ?_⟩
    cases c.ending <;> simp
  | task task => exact List.not_mem_nil

theorem Lined.startTeardowns {s : Service} (h : Lined none s) (deadline : Nat) (ms : List Member) :
    Lined none (startTeardowns deadline ms s).2 := by
  induction ms generalizing s with
  | nil => exact h
  | cons m ms ih =>
    simp only [Service.startTeardowns, startTeardown_eq]
    exact ih (h.spawn (teardown_fresh s deadline m).ready (teardown_once s deadline m)).1

theorem Lined.teardownsStarted {s : Service} (h : Lined none s) (deadline : Nat) :
    Lined none (s.teardownsStarted deadline) := by
  have started := h.startTeardowns deadline s.members
  rw [startTeardowns_eq] at started
  exact started.congr rfl rfl

theorem sleepsUntil_isBlocked (m : Nat) (state : JobState)
    (h : JobState.sleepsUntil m state = true) : state.isBlocked = true := by
  cases state <;> first | rfl | cases h

/-- Time that passes leaves the line as it is. -/
theorem advance_line {s : Service} (h : Lined none s) (moment : Nat) :
    Lined none (s.advance moment) ∧ ∀ n, line none (s.advance moment) n = line none s n :=
  Lined.wake (s := { s with now := moment }) (h.congr rfl rfl) (sleepsUntil_isBlocked moment)
    fun _ k => nomatch k

end Service

open Service

namespace World

theorem outside_lined {w : World} (h : Lined none w.service) (free : w.turn = none) (m : Move) :
    Lined (w.outside m).turn (w.outside m).service := by
  by_cases hb : m = .begin
  · subst hb
    exact (begin_line h).1
  rw [outside_turn w m hb free]
  refine outside_rule hb h (fun _ _ q h => h.congr q.jobs q.queue) (fun _ _ => h.congr rfl rfl)
    (fun t _ => (h.spawn rfl (ofBody_once _ t)).1.congr rfl rfl)
    (fun _ _ _ _ _ h => (h.spawn rfl (ofRun_once _ _ _)).1) (fun _ job _ h => h.abort job)
    (fun k _ _ => ?_) (fun _ _ d => h.teardownsStarted d)
    (fun moment _ => (advance_line h moment).1)
  have start : Lined none (w.service.updateTask k fun t => { t with fired := true }) :=
    h.congr rfl rfl
  obtain ⟨jobs, queue, -⟩ := claim_frame (w.service.fire k) k
  exact (start.wake (awaits_isBlocked k) fun _ k => nomatch k).1.congr jobs queue

/-- **In every world nobody stands in the queue twice or has to begin a run after having been held
up.** -/
theorem after_lined (w : World) (ms : List Move) (scheduled : Scheduled w.turn w.service)
    (h : Lined w.turn w.service) : Lined (w.after ms).turn (w.after ms).service := by
  refine (after_induction (P := fun w => Scheduled w.turn w.service ∧ Lined w.turn w.service)
    (fun w m ⟨scheduled, h⟩ => ⟨apply_scheduled w m scheduled, ?_⟩) w ms ⟨scheduled, h⟩).2
  rcases w.apply_cases m with ⟨free, e⟩ | ⟨t, ht, -, e⟩ | ⟨t, -, -, e⟩
  · rw [free] at h
    rw [e]
    exact outside_lined h free m
  · rw [ht] at scheduled h
    rw [e]
    exact (step_line scheduled h).1
  · rw [e]
    exact h

end World

end ServiceHealth
