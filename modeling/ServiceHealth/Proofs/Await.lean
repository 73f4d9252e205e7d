import ServiceHealth.Proofs.Settle

/-!
# Waiting comes to an end

`await` lets a number of moments pass that is fixed beforehand. It is enough: every moment that
passes ends a sleep or is one at which the waiter wanted to look again, and of both there are only
so many. `patience` counts them.

* `Waiter.Calm`: what a waiter may do to a service when it looks at it.
* `awaitLoop_rule`: **what looks, turns and moments keep holds when waiting is over**, and then the
  waiter has what it waits for, or nothing will ever happen again.
-/

namespace ServiceHealth.Service

/-! ## 1. The sleeps that are left -/

/-- Whether a step may be a sleep. -/
def Step.sleeps : Step → Bool
  | .sleep _ => true
  | _ => false

/-- Whether a job sleeps. -/
def JobState.isSleeping : JobState → Bool
  | .sleeping _ => true
  | _ => false

/-- How many sleeps of a job are not over yet. -/
def Job.naps (j : Job) : Nat := j.todo.countP Step.sleeps + j.state.isSleeping.toNat

theorem Job.naps_woken_le (p : JobState → Bool) (j : Job) : (j.woken p).naps ≤ j.naps := by
  unfold Job.naps
  rw [Job.woken_todo, Job.woken_state]
  split
  · exact Nat.add_le_add_left (Nat.zero_le _) _
  · exact Nat.le_refl _

theorem load_naps_le (s : Service) : load Job.naps s ≤ s.effort := by
  refine load_le Job.naps (fun j => j.todo.length + 2) (fun j => ?_) s
  have steps : j.todo.countP Step.sleeps ≤ j.todo.length := List.countP_le_length
  have one : j.state.isSleeping.toNat ≤ 1 := by cases j.state.isSleeping <;> decide
  unfold Job.naps
  omega

theorem Readied.naps {s s' : Service} {close : Close} (r : Readied s close s') :
    load Job.naps s' ≤ load Job.naps s := by
  cases r with
  | same => exact Nat.le_refl _
  | noted => exact Nat.le_refl _
  | told task =>
    rw [load_congr (claim_frame (s.fire task) task).1]
    exact load_wake _ _ _ (Job.naps_woken_le _)

theorem naps_updateJob (s : Service) {job : JobId} {j : Job} (h : s.jobs[job]? = some j)
    (g : Job → Job) (le : (g j).naps ≤ j.naps) :
    load Job.naps (s.updateJob job g) ≤ load Job.naps s := by
  have sum := load_updateJob Job.naps s h g
  omega

theorem closed_naps {t : Turn} {s s' : Service} (h : Scheduled (some t) s)
    (c : Closed s t.job t.close s') : load Job.naps s' ≤ load Job.naps s := by
  cases c with
  | concluded r =>
    obtain ⟨j, hj, -⟩ := (r.scheduled h).seated t rfl
    exact Nat.le_trans (load_wake _ _ _ (Job.naps_woken_le _))
      (Nat.le_trans (naps_updateJob _ hj _ (Nat.zero_le _)) r.naps)
  | hung =>
    obtain ⟨j, hj, -⟩ := h.seated t rfl
    exact naps_updateJob _ hj _ (Nat.zero_le _)
  | joining r =>
    obtain ⟨j, hj, -⟩ := (r.scheduled h).seated t rfl
    exact Nat.le_trans (naps_updateJob _ hj _ (Nat.zero_le _)) r.naps

/-- A step of a turn does not add to the sleeps that are left. -/
theorem step_naps {t : Turn} {s : Service} (h : Scheduled (some t) s) :
    load Job.naps (t.step s).2 ≤ load Job.naps s := by
  rcases t.step_cases s with ⟨x, rest, -, -, e⟩ | ⟨x, rest, state, ht, hx, e⟩ | ⟨-, e⟩
  · rw [e]
    exact Nat.le_of_eq (load_congr (act_frame s t.job t.who x).1 _)
  · rw [e]
    obtain ⟨j, hj, -, -, todo⟩ := h.seated t rfl
    refine naps_updateJob s hj _ ?_
    rw [ht] at todo
    have fewer : (x :: rest).countP Step.sleeps ≤ j.todo.countP Step.sleeps :=
      todo.sublist.countP_le
    rw [List.countP_cons] at fewer
    unfold Job.naps
    rcases holdUp?_cases hx with ⟨d, rfl, -, rfl⟩ | ⟨k, rfl, -, rfl⟩
    · show rest.countP Step.sleeps + 1 ≤ _
      have one : (if Step.sleeps (.sleep d) then 1 else 0) = 1 := rfl
      omega
    · show rest.countP Step.sleeps + 0 ≤ _
      omega
  · rw [e]
    exact closed_naps h (closed_closeJob s t.job t.close)

theorem step_now (t : Turn) (s : Service) : (t.step s).2.now = s.now := by
  rcases t.step_cases s with ⟨x, rest, -, -, e⟩ | ⟨_, _, _, -, -, e⟩ | ⟨-, e⟩
  · rw [e]
    exact (act_frame s t.job t.who x).2.2.1
  · rw [e]
    rfl
  · rw [e]
    exact (closed_closeJob s t.job t.close).jobsOnly.now

theorem settle_naps {s : Service} (h : Scheduled none s) :
    load Job.naps s.settle ≤ load Job.naps s :=
  (settleLoop_induction
    (P := fun turn s' => Scheduled turn s' ∧ load Job.naps s' ≤ load Job.naps s)
    (fun s' k => ⟨begin_scheduled k.1, by rw [load_congr (begin_jobs s')]; exact k.2⟩)
    (fun _ _ k => ⟨step_scheduled k.1, Nat.le_trans (step_naps k.1) k.2⟩) _ s
    ⟨h, Nat.le_refl _⟩).2

theorem settle_now (s : Service) : s.settle.now = s.now :=
  settleLoop_induction (P := fun _ s' => s'.now = s.now)
    (fun s' k => (JobsOnly.begin s').now.trans k) (fun t s' k => (step_now t s').trans k) _ s rfl

/-! ## 2. The next moment -/

theorem mem_sleepEnds {s : Service} {m : Nat} :
    m ∈ s.sleepEnds ↔ ∃ j ∈ s.jobs, j.state = .sleeping m := by
  unfold sleepEnds
  rw [List.mem_filterMap]
  constructor
  · rintro ⟨j, hj, h⟩
    split at h
    · rename_i t hs
      cases h
      exact ⟨j, hj, hs⟩
    · cases h
  · rintro ⟨j, hj, h⟩
    exact ⟨j, hj, by rw [h]⟩

/-- What the next moment is: the first one after the current at which a sleep ends or the waiter
wants to look. -/
theorem nextMoment?_eq_some {σ : Type} {w : Waiter σ} {st : σ} {s : Service} {m : Nat}
    (h : nextMoment? w st s = some m) :
    s.now < m ∧ (m ∈ s.sleepEnds ∨ m ∈ w.moments st) ∧
      (∀ t ∈ s.sleepEnds, s.now < t → m ≤ t) ∧ ∀ t ∈ w.moments st, s.now < t → m ≤ t := by
  obtain ⟨mem, least⟩ := List.min?_eq_some_iff.mp h
  rw [List.mem_filter, List.mem_append, decide_eq_true_eq] at mem
  refine ⟨mem.2, mem.1, fun t ht lt => least t ?_, fun t ht lt => least t ?_⟩
  · exact List.mem_filter.mpr ⟨List.mem_append_left _ ht, decide_eq_true lt⟩
  · exact List.mem_filter.mpr ⟨List.mem_append_right _ ht, decide_eq_true lt⟩

theorem nextMoment?_eq_none {σ : Type} {w : Waiter σ} {st : σ} {s : Service}
    (h : nextMoment? w st s = none) {m : Nat} (hm : m ∈ s.sleepEnds ∨ m ∈ w.moments st) :
    m ≤ s.now := by
  have nothing := List.min?_eq_none_iff.mp h
  refine Nat.le_of_not_lt fun lt => ?_
  have mem : m ∈ (s.sleepEnds ++ w.moments st).filter (s.now < ·) :=
    List.mem_filter.mpr ⟨List.mem_append.mpr hm, decide_eq_true lt⟩
  rw [nothing] at mem
  cases mem

theorem load_wake_lt {f : Job → Nat} {s : Service} {p : JobState → Bool}
    (h : ∀ j, f (j.woken p) ≤ f j) {j : Job} (hj : j ∈ s.jobs) (lt : f (j.woken p) < f j) :
    load f (s.wake p) < load f s := by
  have sum : ∀ js : List Job, j ∈ js → ((js.map (Job.woken p)).map f).sum < (js.map f).sum := by
    intro js
    induction js with
    | nil => nofun
    | cons j' js ih =>
      intro mem
      have le : ((js.map (Job.woken p)).map f).sum ≤ (js.map f).sum :=
        load_wake f { s with jobs := js } p h
      simp only [List.map_cons, List.sum_cons]
      rcases List.mem_cons.mp mem with rfl | mem
      · omega
      · have := ih mem
        have := h j'
        omega
  exact sum s.jobs hj

/-! ## 3. Waiters -/

/-- What a waiter may do to a service when it looks at it. -/
structure Waiter.Calm {σ : Type} (w : Waiter σ) : Prop where
  now : ∀ st s, (w.poll st s).2.now = s.now
  queue : ∀ st s, (w.poll st s).2.queue = s.queue
  naps : ∀ st s, load Job.naps (w.poll st s).2 ≤ load Job.naps s
  scheduled : ∀ st s, Scheduled none s → Scheduled none (w.poll st s).2
  moments : ∀ st s, List.Sublist (w.moments (w.poll st s).1) (w.moments st)

/-- How many moments can still pass. -/
def patience {σ : Type} (w : Waiter σ) (st : σ) (s : Service) : Nat :=
  load Job.naps s + (w.moments st).countP (s.now < ·)

section Patience

variable {σ : Type} {w : Waiter σ}

theorem patience_poll (calm : w.Calm) (st : σ) (s : Service) :
    patience w (w.poll st s).1 (w.poll st s).2 ≤ patience w st s := by
  unfold patience
  rw [calm.now]
  exact Nat.add_le_add (calm.naps st s) (calm.moments st s).countP_le

theorem patience_settle (st : σ) {s : Service} (h : Scheduled none s) :
    patience w st s.settle ≤ patience w st s := by
  unfold patience
  rw [settle_now]
  exact Nat.add_le_add_right (settle_naps h) _

/-- **When the next moment has come, fewer can still pass.** -/
theorem patience_advance {st : σ} {s : Service} {m : Nat} (h : nextMoment? w st s = some m) :
    patience w st (s.advance m) < patience w st s := by
  obtain ⟨lt, source, -, -⟩ := nextMoment?_eq_some h
  have naps : load Job.naps (s.advance m) ≤ load Job.naps s :=
    load_wake _ { s with now := m } _ (Job.naps_woken_le _)
  have moments : ∀ xs : List Nat, xs.countP (m < ·) ≤ xs.countP (s.now < ·) := fun xs =>
    List.countP_mono_left fun t _ k => decide_eq_true (Nat.lt_trans lt (of_decide_eq_true k))
  unfold patience
  show load Job.naps (s.advance m) + (w.moments st).countP (m < ·) < _
  rcases source with ends | look
  · obtain ⟨j, hj, hs⟩ := mem_sleepEnds.mp ends
    have woken : load Job.naps (s.advance m) < load Job.naps s := by
      refine load_wake_lt (s := { s with now := m }) (Job.naps_woken_le _) hj ?_
      unfold Job.naps
      rw [Job.woken_todo, Job.woken_state, hs]
      have wakes : JobState.sleepsUntil m (.sleeping m) = true := by simp [JobState.sleepsUntil]
      rw [if_pos wakes]
      exact Nat.lt_succ_self _
    have := moments (w.moments st)
    omega
  · obtain ⟨xs, ys, split⟩ := List.append_of_mem look
    rw [split, List.countP_append, List.countP_append, List.countP_cons, List.countP_cons,
      if_neg (by simp), if_pos (by simpa using lt)]
    have := moments xs
    have := moments ys
    omega

/-! ## 4. Waiting -/

theorem awaitLoop_succ (w : Waiter σ) (fuel : Nat) (st : σ) (s : Service) :
    awaitLoop w (fuel + 1) st s =
      let first := w.poll st s
      if w.isDone first.1 then first
      else
        let second := w.poll first.1 first.2.settle
        if w.isDone second.1 then second
        else
          match nextMoment? w second.1 second.2 with
          | some moment => awaitLoop w fuel second.1 (second.2.advance moment)
          | none => second := rfl

/-- Nobody waits for what the first look shows. -/
theorem await_done {st : σ} {s : Service} (done : w.isDone (w.poll st s).1 = true) :
    await w st s = w.poll st s := by
  unfold await
  rw [awaitLoop_succ]
  exact if_pos done

/-- **What looks, turns and moments keep holds when waiting is over.** `P` is what holds before a
look and `Q` what holds after it; the service is scheduled at both. With enough fuel the waiter
has what it waits for, or nothing happens any more. -/
theorem awaitLoop_rule (calm : w.Calm) {P Q : σ → Service → Prop}
    (poll : ∀ st s, Scheduled none s → P st s → Q (w.poll st s).1 (w.poll st s).2)
    (settle : ∀ st s, Scheduled none s → Q st s → w.isDone st = false → P st s.settle)
    (advance : ∀ st s m, Scheduled none s → Q st s → w.isDone st = false → s.queue = [] →
      nextMoment? w st s = some m → P st (s.advance m))
    (fuel : Nat) (st : σ) (s : Service) (scheduled : Scheduled none s) (before : P st s)
    (enough : patience w st s < fuel) :
    Q (awaitLoop w fuel st s).1 (awaitLoop w fuel st s).2 ∧
      Scheduled none (awaitLoop w fuel st s).2 ∧
      (w.isDone (awaitLoop w fuel st s).1 = true ∨ (awaitLoop w fuel st s).2.queue = [] ∧
        nextMoment? w (awaitLoop w fuel st s).1 (awaitLoop w fuel st s).2 = none) := by
  induction fuel generalizing st s with
  | zero => exact absurd enough (Nat.not_lt_zero _)
  | succ fuel ih =>
    rw [awaitLoop_succ]
    dsimp only
    have scheduled₁ := calm.scheduled st s scheduled
    have after₁ := poll st s scheduled before
    cases done₁ : w.isDone (w.poll st s).1 with
    | true => exact ⟨after₁, scheduled₁, .inl done₁⟩
    | false =>
      have scheduled₂ := calm.scheduled (w.poll st s).1 _ (settle_scheduled scheduled₁)
      have after₂ := poll _ _ (settle_scheduled scheduled₁) (settle _ _ scheduled₁ after₁ done₁)
      have empty : (w.poll (w.poll st s).1 (w.poll st s).2.settle).2.queue = [] := by
        rw [calm.queue, settle_queue scheduled₁]
      have left : patience w (w.poll (w.poll st s).1 (w.poll st s).2.settle).1
          (w.poll (w.poll st s).1 (w.poll st s).2.settle).2 ≤ patience w st s :=
        calc _ ≤ patience w (w.poll st s).1 (w.poll st s).2.settle := patience_poll calm _ _
          _ ≤ patience w (w.poll st s).1 (w.poll st s).2 := patience_settle _ scheduled₁
          _ ≤ patience w st s := patience_poll calm st s
      simp only [Bool.false_eq_true, if_false]
      generalize w.poll (w.poll st s).1 (w.poll st s).2.settle = second at *
      cases done₂ : w.isDone second.1 with
      | true => exact ⟨after₂, scheduled₂, .inl done₂⟩
      | false =>
        simp only [Bool.false_eq_true, if_false]
        cases next : nextMoment? w second.1 second.2 with
        | none => exact ⟨after₂, scheduled₂, .inr ⟨empty, next⟩⟩
        | some m =>
          have := patience_advance next
          exact ih second.1 _ (advance_scheduled scheduled₂ m)
            (advance _ _ m scheduled₂ after₂ done₂ empty next) (by omega)

/-- `await` has enough fuel. -/
theorem patience_lt (st : σ) (s : Service) :
    patience w st s < s.effort + (w.moments st).length + 1 := by
  have naps := load_naps_le s
  have moments : (w.moments st).countP (s.now < ·) ≤ (w.moments st).length := List.countP_le_length
  unfold patience
  omega

/-- `awaitLoop_rule` for `await`. -/
theorem await_rule (calm : w.Calm) {P Q : σ → Service → Prop}
    (poll : ∀ st s, Scheduled none s → P st s → Q (w.poll st s).1 (w.poll st s).2)
    (settle : ∀ st s, Scheduled none s → Q st s → w.isDone st = false → P st s.settle)
    (advance : ∀ st s m, Scheduled none s → Q st s → w.isDone st = false → s.queue = [] →
      nextMoment? w st s = some m → P st (s.advance m))
    (st : σ) (s : Service) (scheduled : Scheduled none s) (before : P st s) :
    Q (await w st s).1 (await w st s).2 ∧ Scheduled none (await w st s).2 ∧
      (w.isDone (await w st s).1 = true ∨
        (await w st s).2.queue = [] ∧ nextMoment? w (await w st s).1 (await w st s).2 = none) :=
  awaitLoop_rule calm poll settle advance _ st s scheduled before (patience_lt st s)

end Patience

end ServiceHealth.Service
