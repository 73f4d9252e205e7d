import ServiceHealth.Proofs.Scheduled

/-!
# Each teardown is invoked once

A teardown is invoked when its job does its first step: the component notes that it is being
stopped, the task is told to stop. How often a job has still to do this is what it owes. Every move
keeps the sum of what a job owes and what was observed of it; only the call that withdraws
readiness starts jobs that owe anything.

* `step_owed`, `apply_owed`: the sum is kept.
* `owed_teardownsStarted`: what is owed when the teardowns have been started.
* `not_invoked_before`: before a withdrawal nothing is owed, so nothing is invoked.
-/

namespace ServiceHealth

open Service

/-! ## 1. What a script owes -/

/-- Whether a step is the first one of a component's teardown. -/
def Service.Step.starts : Step → Bool
  | .noteStop _ => true
  | _ => false

/-- Whether a close is that of a task's teardown. -/
def Service.Close.starts : Close → Bool
  | .stopTask _ => true
  | _ => false

/-- How often steps and a close invoke a teardown. -/
def Service.scriptOwed (todo : List Step) (close : Close) : Nat :=
  todo.countP Step.starts + close.starts.toNat

/-- How often a job has still to invoke a teardown. -/
def Service.Job.owed (j : Job) : Nat :=
  match j.state with
  | .ended _ => 0
  | _ => scriptOwed j.todo j.close

/-- How often the job with a number has still to invoke a teardown, by its record. -/
def Service.debt (s : Service) (i : JobId) : Nat := ((s.jobs[i]?).map Job.owed).getD 0

/-- How often the job with a number has still to invoke a teardown, during a turn. -/
def Service.owedBy (turn : Option Turn) (s : Service) (i : JobId) : Nat :=
  match turn with
  | some t => if t.job = i then scriptOwed t.todo t.close else s.debt i
  | none => s.debt i

/-- Whether the teardown of a job was invoked. -/
def Happening.invokes (i : JobId) : Happening → Bool
  | .invoked job _ => job == i
  | _ => false

namespace Service

theorem Job.owed_of_ne {j : Job} (h : ∀ r, j.state ≠ .ended r) :
    j.owed = scriptOwed j.todo j.close := by
  unfold Job.owed
  split
  · rename_i r e
    exact absurd e (h r)
  · rfl

theorem Job.owed_woken (p : JobState → Bool) (hp : ∀ r, p (.ended r) = false) (j : Job) :
    (j.woken p).owed = j.owed := by
  unfold Job.woken
  split
  · rename_i h
    have unfinished : ∀ r, j.state ≠ .ended r := by
      intro r e
      rw [e, hp] at h
      cases h
    rw [Job.owed_of_ne unfinished]
    rfl
  · rfl

@[simp] theorem owedBy_none (s : Service) (i : JobId) : owedBy none s i = s.debt i := rfl

theorem owedBy_some (t : Turn) (s : Service) (i : JobId) :
    owedBy (some t) s i = if t.job = i then scriptOwed t.todo t.close else s.debt i := rfl

theorem debt_congr {s s' : Service} (h : s'.jobs = s.jobs) (i : JobId) : s'.debt i = s.debt i := by
  unfold debt
  rw [h]

theorem debt_wake (s : Service) (p : JobState → Bool) (hp : ∀ r, p (.ended r) = false)
    (i : JobId) : (s.wake p).debt i = s.debt i := by
  unfold debt
  rw [wake_getElem?, Option.map_map]
  congr 2
  funext j
  exact Job.owed_woken p hp j

theorem debt_updateJob (s : Service) (job : JobId) (f : Job → Job) (i : JobId)
    (hf : ∀ j, s.jobs[i]? = some j → job = i → (f j).owed = j.owed) :
    (s.updateJob job f).debt i = s.debt i := by
  unfold debt
  rw [updateJob_getElem?, Option.map_map]
  cases hj : s.jobs[i]? with
  | none => rfl
  | some j =>
    by_cases e : job = i
    · simp [e, hf j hj e]
    · simp [e]

theorem debt_updateJob_ne (s : Service) {job i : JobId} (f : Job → Job) (h : job ≠ i) :
    (s.updateJob job f).debt i = s.debt i :=
  debt_updateJob s job f i fun _ _ e => absurd e h

theorem debt_updateJob_self (s : Service) {job : JobId} (f : Job → Job) {n : Nat}
    (h : job < s.jobs.length) (hf : ∀ j, (f j).owed = n) : (s.updateJob job f).debt job = n := by
  unfold debt
  rw [updateJob_getElem?, List.getElem?_eq_getElem h]
  simp [hf]

theorem debt_abort (s : Service) (job i : JobId) : (s.abort job).debt i = s.debt i := by
  apply debt_updateJob
  intro j _ _
  unfold Job.owed
  cases h : j.state <;> simp [h]

theorem debt_spawn (s : Service) (j : Job) (h : j.owed = 0) (i : JobId) :
    (s.spawn j).debt i = s.debt i := by
  unfold debt spawn
  simp only
  rcases Nat.lt_trichotomy i s.jobs.length with lt | rfl | gt
  · rw [List.getElem?_append_left lt]
  · simp [h]
  · rw [List.getElem?_append_right (Nat.le_of_lt gt), List.getElem?_eq_none (by simp; omega),
      List.getElem?_eq_none (Nat.le_of_lt gt)]

theorem debt_fire (s : Service) (task : Nat) (i : JobId) : (s.fire task).debt i = s.debt i := by
  unfold fire
  rw [debt_wake _ _ fun _ => rfl]
  rfl

theorem Readied.debt {s s' : Service} {close : Close} (h : Readied s close s') (i : JobId) :
    s'.debt i = s.debt i := by
  cases h with
  | same => rfl
  | noted => rfl
  | told task => rw [debt_congr ((claim_frame _ task).1), debt_fire]

theorem Readied.length {s s' : Service} {close : Close} (h : Readied s close s') :
    s'.jobs.length = s.jobs.length := by
  cases h with
  | same => rfl
  | noted => rfl
  | told task => simp [(claim_frame _ task).1, fire, updateTask]

theorem debt_conclude_ne (s : Service) {job i : JobId} (r : Result) (h : job ≠ i) :
    (s.conclude job r).debt i = s.debt i := by
  unfold conclude
  rw [debt_wake _ _ fun _ => rfl, debt_updateJob_ne s _ h]

theorem debt_conclude_self (s : Service) {job : JobId} (r : Result) (h : job < s.jobs.length) :
    (s.conclude job r).debt job = 0 := by
  unfold conclude
  rw [debt_wake _ _ fun _ => rfl]
  exact debt_updateJob_self s _ h fun _ => rfl

theorem debt_hold_ne (s : Service) {job i : JobId} (todo : List Step) (close : Close)
    (state : JobState) (h : job ≠ i) : (s.hold job todo close state).debt i = s.debt i :=
  debt_updateJob_ne s _ h

theorem debt_hold_self (s : Service) {job : JobId} (todo : List Step) (close : Close)
    {state : JobState} (hs : ∀ r, state ≠ .ended r) (h : job < s.jobs.length) :
    (s.hold job todo close state).debt job = scriptOwed todo close := by
  refine debt_updateJob_self s _ h fun j => ?_
  unfold Job.owed
  cases state with
  | ended r => exact absurd rfl (hs r)
  | _ => rfl

/-! ## 2. A step pays what it is observed to do -/

section StepOwed

variable (t : Turn) (s : Service)

/-- A step that does not hold its job up is observed as often as it owes. -/
theorem happenings_act {x : Step} {rest : List Step} (ht : t.todo = x :: rest) (i : JobId) :
    (t.happenings s).countP (Happening.invokes i) = if t.job = i then x.starts.toNat else 0 := by
  unfold Turn.happenings
  rw [ht]
  cases x with
  | noteStop deadline =>
    by_cases e : t.job = i <;> simp [Happening.invokes, Step.starts, e]
  | _ => simp [Happening.invokes, Step.starts]

theorem happenings_close (ht : t.todo = []) (i : JobId) :
    (t.happenings s).countP (Happening.invokes i) =
      if t.job = i then t.close.starts.toNat else 0 := by
  unfold Turn.happenings
  rw [ht]
  cases t.close with
  | stopTask task => by_cases e : t.job = i <;> simp [Happening.invokes, Close.starts, e]
  | _ => simp [Close.starts]

theorem closed_debt {s' : Service} {job : JobId} {close : Close} (h : Closed s job close s')
    (seat : job < s.jobs.length) (i : JobId) : s'.debt i = if job = i then 0 else s.debt i := by
  by_cases e : job = i
  · subst e
    rw [if_pos rfl]
    cases h with
    | concluded h r => exact debt_conclude_self _ r (by rw [h.length]; exact seat)
    | hung close' hc k =>
      rw [debt_hold_self s _ _ (fun _ e => by cases e) seat]
      cases close' with
      | stopTask task => exact absurd rfl (k task)
      | _ => rfl
    | joining h awaited =>
      rw [debt_hold_self _ _ _ (fun _ e => by cases e) (by rw [h.length]; exact seat)]
      rfl
  · rw [if_neg e]
    cases h with
    | concluded h r => rw [debt_conclude_ne _ r e, h.debt]
    | hung => exact debt_hold_ne s _ _ _ e
    | joining h => rw [debt_hold_ne _ _ _ _ e, h.debt]

/-- **A step pays what it is observed to do**: what was observed and what is owed afterwards is
what was owed before. -/
theorem step_owed (seat : t.job < s.jobs.length) (i : JobId) :
    (t.happenings s).countP (Happening.invokes i) + owedBy (t.step s).1 (t.step s).2 i =
      owedBy (some t) s i := by
  rcases t.step_cases s with ⟨x, rest, ht, -, h⟩ | ⟨x, rest, state, ht, hx, h⟩ | ⟨ht, h⟩
  · rw [happenings_act t s ht, h, owedBy_some, owedBy_some, ht,
      debt_congr (act_frame s t.job t.who x).1]
    by_cases e : t.job = i
    · simp only [e, if_true, scriptOwed, List.countP_cons]
      cases x.starts with
      | false => simp
      | true =>
        simp
        omega
    · simp [e]
  · rw [happenings_act t s ht, h, owedBy_none, owedBy_some, ht]
    have free : x.starts = false := by
      rcases holdUp?_cases hx with ⟨_, rfl, -, -⟩ | ⟨_, rfl, -, -⟩ <;> rfl
    have blocked : ∀ r, state ≠ .ended r := by
      rcases holdUp?_cases hx with ⟨_, -, -, rfl⟩ | ⟨_, -, -, rfl⟩ <;> intro r e <;> cases e
    by_cases e : t.job = i
    · subst e
      simp [debt_hold_self s rest t.close blocked seat, free, scriptOwed]
    · simp [debt_hold_ne s rest t.close state e, e]
  · rw [happenings_close t s ht, h, owedBy_none, owedBy_some, ht,
      closed_debt s (closed_closeJob s t.job t.close) seat i]
    by_cases e : t.job = i <;> simp [e, scriptOwed]

end StepOwed

theorem begin_owed (s : Service) (i : JobId) :
    owedBy (Turn.begin s).1 (Turn.begin s).2 i = s.debt i := by
  unfold Turn.begin
  split
  · rfl
  · rename_i job rest hq
    cases hj : s.jobs[job]? with
    | none => rfl
    | some j =>
      by_cases ready : j.state = .ready
      · simp only [ready, if_true, owedBy_some]
        by_cases e : job = i
        · subst e
          have owed : j.owed = scriptOwed j.todo j.close :=
            Job.owed_of_ne fun r k => by rw [ready] at k; cases k
          simp [debt, hj, owed]
        · rw [if_neg e]
          rfl
      · simp only [ready, if_false]
        rfl

/-! ## 3. What new jobs owe -/

theorem work_starts (delay : Option Nat) (actions : List (Health.Action Health.Checker)) :
    (work delay actions).countP Step.starts = 0 := by
  unfold work
  cases delay <;> simp [List.countP_eq_zero, Step.starts]

theorem ofRun_owed (checker : Nat) (c : Health.Checker) (deadline : Nat) :
    (Job.ofRun checker c deadline).owed = 0 := by
  simp [Job.owed, Job.ofRun, scriptOwed, work_starts, Step.starts, Close.starts]

theorem ofBody_owed (task : Nat) (t : Shutdown.Task) : (Job.ofBody task t).owed = 0 := by
  simp only [Job.owed, Job.ofBody, scriptOwed, List.countP_cons, List.countP_append, work_starts]
  cases t.waits <;> cases t.ending <;> simp [Step.starts, Close.starts]

theorem teardown_owed (s : Service) (deadline : Nat) (m : Member) :
    (s.teardown deadline m).owed = 1 := by
  cases m with
  | component c =>
    simp only [teardown, Job.owed, Job.ofTeardown, scriptOwed, List.countP_cons,
      List.countP_append, work_starts]
    cases c.ending <;> simp [Step.starts, Close.starts]
  | task task => rfl

theorem debt_poll (c : Call) (s : Service) (i : JobId) : (c.poll s).2.debt i = s.debt i := by
  obtain ⟨_, _, _, h⟩ := poll_frame c s
  rw [h]
  rfl

/-- **When the teardowns have been started, each of their jobs owes one invocation.** -/
theorem owed_teardownsStarted (s : Service) (deadline i : Nat) :
    (s.teardownsStarted deadline).debt i =
      s.debt i + if s.jobs.length ≤ i ∧ i < s.jobs.length + s.members.length then 1 else 0 := by
  unfold debt
  rw [teardownsStarted_jobs]
  by_cases old : i < s.jobs.length
  · have here : ¬ (s.jobs.length ≤ i ∧ i < s.jobs.length + s.members.length) := by omega
    rw [List.getElem?_append_left old, if_neg here]
    rfl
  · have le : s.jobs.length ≤ i := by omega
    rw [List.getElem?_append_right le, List.getElem?_map, List.getElem?_eq_none le]
    by_cases new : i < s.jobs.length + s.members.length
    · have inside : i - s.jobs.length < s.members.length := by omega
      rw [if_pos ⟨le, new⟩, List.getElem?_eq_getElem inside]
      simp [teardown_owed]
    · have beyond : s.members.length ≤ i - s.jobs.length := by omega
      rw [if_neg fun h => new h.2, List.getElem?_eq_none beyond]
      rfl

end Service

/-! ## 4. Moves -/

namespace World

/-- How often the job with a number has still to invoke a teardown. -/
def owes (w : World) (i : JobId) : Nat := owedBy w.turn w.service i

/-- Nothing that happens outside a turn invokes a teardown. -/
theorem outside_not_invoked {w : World} (free : w.turn = none) (m : Move) (i : JobId) :
    (w.outsideHappenings m).countP (Happening.invokes i) = 0 := by
  rw [List.countP_eq_zero]
  intro h mem
  cases observed_outside free mem with
  | invoked ht =>
    rw [free] at ht
    cases ht
  | performed ht =>
    rw [free] at ht
    cases ht
  | _ => exact Bool.false_ne_true

/-- **The call that withdraws readiness owes one invocation for each member.** -/
theorem debt_call_withdrew (w : World) (h : CanWithdraw w.service) (i : Nat) :
    w.call.service.debt i = w.service.debt i +
      if w.service.jobs.length ≤ i
          ∧ i < w.service.jobs.length + w.service.members.length then 1 else 0 := by
  rcases call_cases w with ⟨late, -, -⟩ | ⟨-, hd, -, -⟩ | ⟨d, -, -, e, -⟩
  · exact absurd h.1 late
  · have := h.2
    rw [hd] at this
    cases this
  · rw [e, debt_poll, owed_teardownsStarted]

/-- Outside a turn only the call that withdraws readiness starts anything that owes. -/
theorem outside_debt (w : World) (m : Move) (hm : m ≠ .begin)
    (h : .withdrew ∉ w.outsideHappenings m) (i : JobId) :
    (w.outside m).service.debt i = w.service.debt i :=
  outside_rule (P := fun s => s.debt i = w.service.debt i) hm rfl
    (fun _ _ q e => (debt_congr q.jobs i).trans e)
    (fun _ _ => rfl)
    (fun t _ => debt_spawn w.service _ (ofBody_owed _ t) i)
    (fun s _ _ _ _ e => (debt_spawn s _ (ofRun_owed _ _ _) i).trans e)
    (fun s job _ e => (debt_abort s job i).trans e)
    (fun k _ _ => (debt_congr (claim_frame _ k).1 i).trans (debt_fire _ k i))
    (fun e can _ => by
      have here : .withdrew ∈ w.outsideHappenings .call := by
        rw [outsideHappenings, if_pos can]
        exact List.mem_singleton.mpr rfl
      rw [e] at h
      exact absurd here h)
    (fun _ _ => debt_wake _ _ (fun _ => rfl) i)

/-- **A move that does not withdraw readiness keeps the sum of what a job owes and what was
observed of it.** -/
theorem apply_owed (w : World) (m : Move) (scheduled : Scheduled w.turn w.service)
    (h : .withdrew ∉ w.happenings m) (i : JobId) :
    (w.happenings m).countP (Happening.invokes i) + (w.apply m).owes i = w.owes i := by
  unfold happenings at h ⊢
  unfold apply owes
  cases ht : w.turn with
  | none =>
    simp only [ht] at h ⊢
    rw [outside_not_invoked ht, Nat.zero_add, owedBy_none]
    by_cases hb : m = .begin
    · subst hb
      exact begin_owed w.service i
    · have debt := outside_debt w m hb h i
      have free : (w.outside m).turn = none := outside_turn w m hb ht
      rw [free, owedBy_none, debt]
  | some t =>
    simp only
    split
    · exact step_owed t w.service (ht ▸ scheduled).seat i
    · simp [ht]

/-- **While readiness is not withdrawn, nothing more is invoked than was owed.** -/
theorem history_owed (w : World) (ms : List Move) (scheduled : Scheduled w.turn w.service)
    (h : .withdrew ∉ w.history ms) (i : JobId) :
    (w.history ms).countP (Happening.invokes i) + (w.after ms).owes i = w.owes i := by
  induction ms generalizing w with
  | nil => exact Nat.zero_add _
  | cons m ms ih =>
    rw [history_cons, List.mem_append, not_or] at h
    have first := apply_owed w m scheduled h.1 i
    have rest := ih (w.apply m) (apply_scheduled w m scheduled) h.2
    rw [history_cons, List.countP_append, after_cons]
    omega

theorem new_scheduled (setup : Setup) (clock : Time.Stamp) :
    Scheduled (new setup clock).turn (new setup clock).service :=
  Service.new_scheduled setup clock

/-- **Before a withdrawal no teardown is invoked**, and none is waiting to be. -/
theorem not_invoked_before (setup : Setup) (clock : Time.Stamp) (ms : List Move)
    (h : .withdrew ∉ (new setup clock).history ms) (i : JobId) :
    ((new setup clock).history ms).countP (Happening.invokes i) = 0 ∧
      ((new setup clock).after ms).owes i = 0 := by
  have sum := history_owed (new setup clock) ms (new_scheduled setup clock) h i
  have fresh : (new setup clock).owes i = 0 := rfl
  omega

end World

end ServiceHealth
