import ServiceHealth.Proofs.Turn

/-!
# What a call to shut down does

The winning call withdraws readiness and starts all teardowns before it looks at any of them; the
state it then looks at is `teardownsStarted`. Looking at a call changes nothing but the log, the
counters of outcomes and, with the last outcome, the phase.

* `startTeardowns_eq`: the teardowns are the jobs after those there were, in the order of
  registration, and stand at the end of the queue.
* `startCall_cases`: a call comes too late, breaks off, or wins.
* `poll_cases`: a call has returned, goes on collecting, or gets its report.
-/

namespace ServiceHealth.Service

/-! ## 1. Starting the teardowns -/

/-- The job that stops a member. -/
def teardown (s : Service) (deadline : Nat) : Member → Job
  | .component c => .ofTeardown c deadline
  | .task task => .ofStop task (s.memberName (.task task))

theorem memberName_congr {s s' : Service} (h : s'.tasks = s.tasks) (m : Member) :
    s'.memberName m = s.memberName m := by
  cases m with
  | component c => rfl
  | task task => simp only [memberName, h]

theorem teardown_congr {s s' : Service} (h : s'.tasks = s.tasks) (deadline : Nat) (m : Member) :
    s'.teardown deadline m = s.teardown deadline m := by
  cases m with
  | component c => rfl
  | task task => simp only [teardown, memberName_congr h]

theorem startTeardown_eq (s : Service) (deadline : Nat) (m : Member) :
    s.startTeardown deadline m =
      ((s.memberName m, s.jobs.length), s.spawn (s.teardown deadline m)) := by
  cases m <;> rfl

/-- **The teardowns are new jobs in the order of registration, at the end of the queue.** -/
theorem startTeardowns_eq (deadline : Nat) (ms : List Member) (s : Service) :
    startTeardowns deadline ms s =
      ((ms.map s.memberName).zip (List.range' s.jobs.length ms.length),
        { s with
          jobs := s.jobs ++ ms.map (s.teardown deadline)
          queue := s.queue ++ List.range' s.jobs.length ms.length }) := by
  induction ms generalizing s with
  | nil => simp [startTeardowns]
  | cons m ms ih =>
    have names : (s.spawn (s.teardown deadline m)).memberName = s.memberName :=
      funext (memberName_congr rfl)
    have jobs : (s.spawn (s.teardown deadline m)).teardown deadline = s.teardown deadline :=
      funext (teardown_congr rfl deadline)
    simp only [startTeardowns, startTeardown_eq, ih, names, jobs]
    simp [spawn, List.range'_succ]

/-- The state in which the winning call has withdrawn readiness and started all teardowns. -/
def teardownsStarted (s : Service) (deadline : Nat) : Service :=
  let s' := ({ s with phase := .draining }).withdraw.logWithdrawal
  { s' with
    jobs := s.jobs ++ s.members.map (s.teardown deadline)
    queue := s.queue ++ List.range' s.jobs.length s.members.length }

/-- What the winning call has to collect. -/
def opening (s : Service) (deadline : Nat) : Collection :=
  ⟨deadline, (s.members.map s.memberName).zip (List.range' s.jobs.length s.members.length), []⟩

theorem deadline?_eq_some {now timeout d : Nat} (h : deadline? now timeout = some d) :
    d = now + timeout := by
  unfold deadline? at h
  split at h
  · cases h
    rfl
  · cases h

/-- **When a deadline cannot be computed.** -/
theorem deadline?_eq_none {now timeout : Nat} :
    deadline? now timeout = none ↔ momentLimit ≤ now + timeout := by
  unfold deadline?
  split <;> simp <;> omega

section TeardownsStarted

variable (s : Service) (deadline : Nat)

@[simp] theorem teardownsStarted_now : (s.teardownsStarted deadline).now = s.now := rfl

@[simp] theorem teardownsStarted_metrics : (s.teardownsStarted deadline).metrics =
    if s.setup.publishes then s.metrics.observeFlags ⟨false, true⟩ else s.metrics := rfl

@[simp] theorem teardownsStarted_tasks : (s.teardownsStarted deadline).tasks = s.tasks := rfl

@[simp] theorem teardownsStarted_jobs : (s.teardownsStarted deadline).jobs =
    s.jobs ++ s.members.map (s.teardown deadline) := rfl

end TeardownsStarted

/-- **What becomes of a call to shut down**: it comes too late, it breaks off because its deadline
cannot be computed, or it wins. -/
theorem startCall_cases (s : Service) :
    (s.phase ≠ .running ∧ s.startCall = (.ok .ignored,
      s.logged .debug "Shutdown already triggered, ignoring duplicate trigger" [])) ∨
    (s.phase = .running ∧ deadline? s.now s.setup.drainTimeout = none ∧
      s.startCall = (.error .deadline, { s with phase := .draining })) ∨
    (s.phase = .running ∧ ∃ deadline, deadline? s.now s.setup.drainTimeout = some deadline ∧
      s.startCall =
        (.ok ((Call.collecting (s.opening deadline)).poll (s.teardownsStarted deadline)).1,
          ((Call.collecting (s.opening deadline)).poll (s.teardownsStarted deadline)).2)) := by
  by_cases running : s.phase = .running
  · right
    cases hd : deadline? s.now s.setup.drainTimeout with
    | none => exact .inl ⟨running, rfl, by simp [startCall, running, hd]⟩
    | some deadline =>
      refine .inr ⟨running, deadline, rfl, ?_⟩
      simp only [startCall, running, if_true, hd, startTeardowns_eq]
      rfl
  · exact .inl ⟨running, startCall_ignored s running⟩

/-! ## 2. Looking at a call -/

/-- The second state differs from the first at most in the log and in the counters of outcomes. -/
def Recorded (s s' : Service) : Prop :=
  ∃ log outcomes, s' = { s with log, metrics := { s.metrics with outcomes } }

theorem Recorded.refl (s : Service) : Recorded s s := ⟨s.log, s.metrics.outcomes, rfl⟩

theorem Recorded.trans {s s' s'' : Service} (h : Recorded s s') (k : Recorded s' s'') :
    Recorded s s'' := by
  obtain ⟨log, outcomes, rfl⟩ := h
  obtain ⟨log', outcomes', rfl⟩ := k
  exact ⟨log', outcomes', rfl⟩

theorem recorded_logged (s : Service) (level : Log.Level) (message : String)
    (fields : List Log.Field) : Recorded s (s.logged level message fields) :=
  ⟨_, s.metrics.outcomes, rfl⟩

theorem recorded_recordOutcome (s : Service) (o : Shutdown.Outcome) :
    Recorded s (s.recordOutcome o) := by
  unfold recordOutcome
  have logged : ∀ s' : Service, Recorded s s' →
      Recorded s (if s.setup.publishes then
        { s' with metrics := s'.metrics.countOutcome o.fate.kind.label } else s') := by
    intro s' h
    split
    · exact h.trans ⟨s'.log, _, rfl⟩
    · exact h
  apply logged
  split <;> exact recorded_logged s _ _ _

/-- **Collecting outcomes changes only the log and the counters of outcomes.** -/
theorem recorded_collect (deadline : Nat) (pending : List (String × JobId))
    (outcomes : List Shutdown.Outcome) (s : Service) :
    Recorded s (collect deadline pending outcomes s).2 := by
  induction pending generalizing outcomes s with
  | nil => exact .refl s
  | cons p rest ih =>
    obtain ⟨name, job⟩ := p
    unfold collect
    split
    · exact (recorded_recordOutcome s _).trans (ih _ _)
    · exact .refl s

/-- **What looking at a call can come to**: it has returned, it goes on collecting, or it gets its
report and the service is stopped. -/
theorem poll_cases (c : Call) (s : Service) :
    (c.hasReturned = true ∧ c.poll s = (c, s)) ∨
    (∃ x x' s', c = .collecting x ∧ x'.pending ≠ [] ∧ Recorded s s' ∧
      c.poll s = (.collecting x', s')) ∨
    (∃ x r s', c = .collecting x ∧ Recorded s s' ∧
      c.poll s = (.finished r, { s' with phase := .stopped })) := by
  cases c with
  | ignored => exact .inl ⟨rfl, rfl⟩
  | finished r => exact .inl ⟨rfl, rfl⟩
  | collecting x =>
    right
    have recorded := recorded_collect x.deadline x.pending x.outcomes s
    simp only [Call.poll]
    split
    · exact .inr ⟨x, _, _, rfl, recorded, rfl⟩
    · rename_i h
      exact .inl ⟨x, _, _, rfl, h, recorded, rfl⟩

theorem poll_returned {c : Call} (h : c.hasReturned = true) (s : Service) : c.poll s = (c, s) := by
  cases c with
  | collecting x => cases h
  | _ => rfl

/-- **Looking at a call changes at most the log, the counters of outcomes and the phase.** -/
theorem poll_frame (c : Call) (s : Service) : ∃ log outcomes phase,
    (c.poll s).2 = { s with log, metrics := { s.metrics with outcomes }, phase } := by
  rcases poll_cases c s with
    ⟨-, k⟩ | ⟨_, _, s', -, -, ⟨log, outcomes, rfl⟩, k⟩ | ⟨_, _, s', -, ⟨log, outcomes, rfl⟩, k⟩
  · exact ⟨s.log, s.metrics.outcomes, s.phase, by rw [k]⟩
  · exact ⟨log, outcomes, s.phase, by rw [k]⟩
  · exact ⟨log, outcomes, .stopped, by rw [k]⟩

end ServiceHealth.Service
