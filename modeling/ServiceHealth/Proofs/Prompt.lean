import ServiceHealth.Proofs.Invocation
import ServiceHealth.Proofs.Outlook

/-!
# What is owed is paid in the next turn

A teardown invokes its component with its first step, so a job that owes an invocation has not begun
and can go on: it stands in the queue until it has its turn, and that turn pays. Nobody gives such a
job up, since only runs of checkers are given up.

* `step_paid`: after a step of its turn a job owes nothing.
* `InvokedPromptly`: the invariant, and `after_invokedPromptly`: it holds in every world.
* `owed_queued`: **whoever owes an invocation stands in the queue**.
-/

namespace ServiceHealth

open Service

/-! ## 1. Scripts that invoke -/

/-- A script that begins with what invokes a teardown, be it of a component or of a task, and owes
nothing after that. -/
inductive Service.Heads : List Step → Close → Prop where
  | component (deadline : Nat) {rest : List Step} {close : Close}
      (paid : scriptOwed rest close = 0) : Heads (.noteStop deadline :: rest) close
  | task (k : Nat) : Heads [] (.stopTask k)

namespace Service

theorem Heads.owed {todo : List Step} {close : Close} (h : Heads todo close) :
    scriptOwed todo close = 1 := by
  cases h with
  | component deadline paid =>
    unfold scriptOwed at paid ⊢
    rw [List.countP_cons]
    have one : (if Step.starts (.noteStop deadline) = true then 1 else 0) = 1 := rfl
    omega
  | task k => rfl

theorem teardown_heads (s : Service) (deadline : Nat) (m : Member) :
    Heads (s.teardown deadline m).todo (s.teardown deadline m).close := by
  cases m with
  | component c =>
    refine .component deadline ?_
    unfold scriptOwed
    rw [List.countP_append, work_starts]
    cases c.ending <;> rfl
  | task k => exact .task k

/-- **Whoever owes an invocation can go on, and begins with it.** -/
structure Prompt (turn : Option Turn) (s : Service) : Prop where
  jobs : ∀ (i : JobId) (j : Job), s.jobs[i]? = some j → 0 < j.owed →
    j.state = .ready ∧ Heads j.todo j.close
  turn : ∀ t, turn = some t → 0 < scriptOwed t.todo t.close → Heads t.todo t.close

/-! ## 2. Turns -/

section Step

variable {t : Turn} {s : Service}

/-- What the next step of a turn is observed to invoke, if the turn begins with it. -/
theorem heads_happenings (h : Heads t.todo t.close) :
    (t.happenings s).countP (Happening.invokes t.job) = 1 := by
  have counted : ∀ f, [Happening.invoked t.job f].countP (Happening.invokes t.job) = 1 := by
    intro f
    rw [List.countP_singleton]
    simp [Happening.invokes]
  unfold Turn.happenings
  obtain ⟨job, who, close, todo⟩ := t
  cases h with
  | component deadline paid => exact counted _
  | task k => exact counted _

/-- **After a step of its turn a job owes nothing.** -/
theorem step_paid (h : Prompt (some t) s) (seat : t.job < s.jobs.length) :
    owedBy (t.step s).1 (t.step s).2 t.job = 0 := by
  have sum := step_owed t s seat t.job
  rw [owedBy_some, if_pos rfl] at sum
  by_cases owes : 0 < scriptOwed t.todo t.close
  · have heads := h.turn t rfl owes
    rw [heads_happenings heads, heads.owed] at sum
    omega
  · omega

theorem debt_of {i : JobId} {j : Job} (hj : s.jobs[i]? = some j) : s.debt i = j.owed := by
  unfold debt
  rw [hj]
  rfl

theorem Stirred.prompt {j j' : Job} (st : Stirred j j')
    (h : 0 < j.owed → j.state = .ready ∧ Heads j.todo j.close) (owes : 0 < j'.owed) :
    j'.state = .ready ∧ Heads j'.todo j'.close := by
  cases st with
  | same => exact h owes
  | woken waits =>
    have unfinished : ∀ r, j.state ≠ .ended r := by
      intro r e
      rw [e] at waits
      cases waits
    have same : j.owed = Job.owed { j with state := .ready } := by
      rw [Job.owed_of_ne unfinished]
      rfl
    exact ⟨rfl, (h (by rw [same]; exact owes)).2⟩

/-- **A step of a turn keeps everybody prompt.** -/
theorem step_prompt (h : Prompt (some t) s) (scheduled : Scheduled (some t) s) :
    Prompt (t.step s).1 (t.step s).2 := by
  have paid := step_paid h scheduled.seat
  refine ⟨fun i j' hj' owes => ?_, fun t' ht' owes => ?_⟩
  · have lt : i < s.jobs.length := by
      rw [← (step_evolves scheduled).length]
      exact (List.getElem?_eq_some_iff.mp hj').1
    have hj := List.getElem?_eq_getElem lt
    by_cases own : t.job = i
    · subst own
      rcases t.step_cases s with ⟨x, rest, -, -, e⟩ | ⟨_, _, _, -, -, e⟩ | ⟨-, e⟩
      · rw [e] at hj'
        rw [(act_frame s t.job t.who x).1] at hj'
        exact h.jobs t.job j' hj' owes
      · rw [e] at paid hj'
        rw [owedBy_none, debt_of hj'] at paid
        omega
      · rw [e] at paid hj'
        rw [owedBy_none, debt_of hj'] at paid
        omega
    · obtain ⟨j'', hj'', st⟩ := step_stirred t s hj own
      rw [hj''] at hj'
      cases hj'
      exact st.prompt (h.jobs i _ hj) owes
  · have same : t'.job = t.job := by
      rcases t.step_cases s with ⟨x, rest, -, -, e⟩ | ⟨_, _, _, -, -, e⟩ | ⟨-, e⟩
      · rw [e] at ht'
        cases ht'
        rfl
      · rw [e] at ht'
        cases ht'
      · rw [e] at ht'
        cases ht'
    rw [ht', owedBy_some, if_pos same] at paid
    omega

theorem begin_prompt (h : Prompt none s) : Prompt (Turn.begin s).1 (Turn.begin s).2 := by
  refine ⟨by rw [begin_jobs]; exact h.jobs, fun t ht owes => ?_⟩
  obtain ⟨j, hj, ready, close, todo⟩ := Turn.begin_eq_some ht
  rw [← close, ← todo] at owes ⊢
  refine (h.jobs t.job j hj ?_).2
  rw [Job.owed_of_ne fun r e => by rw [ready] at e; cases e]
  exact owes

end Step

/-! ## 3. What happens outside a turn -/

section Outside

variable {s : Service}

theorem Prompt.quiet {s' : Service} (h : Prompt none s) (jobs : s'.jobs = s.jobs) :
    Prompt none s' := ⟨by rw [jobs]; exact h.jobs, nofun⟩

theorem Prompt.spawn (h : Prompt none s) {new : Job} (free : new.owed = 0) :
    Prompt none (s.spawn new) := by
  refine ⟨fun i j hj owes => ?_, nofun⟩
  rcases spawn_getElem? hj with old | ⟨-, rfl⟩
  · exact h.jobs i j old owes
  · omega

theorem Prompt.wake (h : Prompt none s) {p : JobState → Bool} (hp : ∀ r, p (.ended r) = false) :
    Prompt none (s.wake p) := by
  refine ⟨fun i j' hj' owes => ?_, nofun⟩
  obtain ⟨j, hj, rfl⟩ := woken_of hj'
  rw [Job.owed_woken p hp] at owes
  obtain ⟨ready, heads⟩ := h.jobs i j hj owes
  rw [Job.woken_state, Job.woken_todo, Job.woken_close]
  refine ⟨?_, heads⟩
  split
  · rfl
  · exact ready

theorem Prompt.abort (h : Prompt none s) {job : JobId} (free : s.debt job = 0) :
    Prompt none (s.abort job) := by
  refine ⟨fun i j hj owes => ?_, nofun⟩
  by_cases same : job = i
  · rw [← debt_of hj, debt_abort, ← same] at owes
    omega
  · have old : s.jobs[i]? = some j := by
      unfold Service.abort at hj
      rw [updateJob_getElem?] at hj
      obtain ⟨j', hj', e⟩ := Option.map_eq_some_iff.mp hj
      rw [if_neg same] at e
      rw [hj', e]
    exact h.jobs i j old owes

theorem Prompt.teardownsStarted (h : Prompt none s) (deadline : Nat) :
    Prompt none (s.teardownsStarted deadline) := by
  refine ⟨fun i j hj owes => ?_, nofun⟩
  rw [teardownsStarted_jobs, List.getElem?_append] at hj
  split at hj
  · exact h.jobs i j hj owes
  · rw [List.getElem?_map] at hj
    obtain ⟨m, -, rfl⟩ := Option.map_eq_some_iff.mp hj
    exact ⟨(teardown_fresh s deadline m).ready, teardown_heads s deadline m⟩

end Outside

end Service

namespace World

/-- **Invocations are prompt**: whoever owes one can go on and begins with it, and the runs that
somebody waits for, and may give up, owe none. -/
structure InvokedPromptly (w : World) : Prop where
  prompt : Prompt w.turn w.service
  inquired : ∀ job, Inquired w job → job < w.service.jobs.length ∧ w.owes job = 0

theorem new_invokedPromptly (setup : Setup) (clock : Time.Stamp) :
    InvokedPromptly (new setup clock) where
  prompt := ⟨nofun, nofun⟩
  inquired job h := by
    obtain ⟨q, hq, -⟩ := h
    cases hq

theorem startRuns_entries (deadline : Nat) (xs : List (String × Nat)) (s : Service) :
    s.jobs.length ≤ (startRuns deadline xs s).2.jobs.length ∧
      ∀ e ∈ (startRuns deadline xs s).1,
        s.jobs.length ≤ e.job ∧ e.job < (startRuns deadline xs s).2.jobs.length := by
  induction xs generalizing s with
  | nil => exact ⟨Nat.le_refl _, nofun⟩
  | cons x xs ih =>
    have each : ∀ new : Job,
        s.jobs.length ≤ (startRuns deadline xs (s.spawn new)).2.jobs.length ∧
          ∀ e ∈ (⟨x.1, s.jobs.length, none⟩ : Entry) :: (startRuns deadline xs (s.spawn new)).1,
            s.jobs.length ≤ e.job ∧
              e.job < (startRuns deadline xs (s.spawn new)).2.jobs.length := by
      intro new
      have one : (s.spawn new).jobs.length = s.jobs.length + 1 := by simp [spawn]
      obtain ⟨le, rest⟩ := ih (s.spawn new)
      rw [one] at le rest
      refine ⟨Nat.le_of_succ_le le, fun e he => ?_⟩
      rcases List.mem_cons.mp he with rfl | he
      · exact ⟨Nat.le_refl _, le⟩
      · exact ⟨Nat.le_of_succ_le (rest e he).1, (rest e he).2⟩
    exact each _

/-- A run that somebody waits for after the beginning of an aggregation is old or new. -/
theorem inquire_inquired {w : World} {request : Option Probe.Request} {timeout : Nat} {job : JobId}
    (h : Inquired (w.inquire request timeout) job) : Inquired w job ∨
      w.service.jobs.length ≤ job ∧ job < (w.inquire request timeout).service.jobs.length := by
  unfold inquire at h ⊢
  split at h
  · exact .inl h
  · rename_i deadline _
    obtain ⟨q, hq, e, he, rfl⟩ := h
    rcases List.mem_append.mp hq with old | new
    · exact .inl ⟨q, old, e, he, rfl⟩
    · rw [List.mem_singleton.mp new] at he
      exact .inr ((startRuns_entries deadline _ w.service).2 e he)

theorem debt_beyond {s : Service} {i : Nat} (h : s.jobs.length ≤ i) : s.debt i = 0 := by
  unfold debt
  rw [List.getElem?_eq_none h]
  rfl

/-- What happens outside a turn to those that were there before. -/
theorem outside_kept {w : World} (h : InvokedPromptly w) (free : w.turn = none) {m : Move}
    (hm : m ≠ .begin) : Prompt none (w.outside m).service ∧
      w.service.jobs.length ≤ (w.outside m).service.jobs.length ∧
      ∀ job, job < w.service.jobs.length → (w.outside m).service.debt job = w.service.debt job := by
  have prompt : Prompt none w.service := free ▸ h.prompt
  let Kept (s : Service) : Prop := Prompt none s ∧ w.service.jobs.length ≤ s.jobs.length ∧
    ∀ job, job < w.service.jobs.length → s.debt job = w.service.debt job
  have here : Kept w.service := ⟨prompt, Nat.le_refl _, fun _ _ => rfl⟩
  have grown : ∀ (s : Service) (new : Job), new.owed = 0 → Kept s → Kept (s.spawn new) := by
    intro s new owed ⟨prompt, le, debts⟩
    refine ⟨prompt.spawn owed, ?_, fun job lt => (debt_spawn s new owed job).trans (debts job lt)⟩
    simp only [spawn, List.length_append]
    omega
  have quiet : ∀ s : Service, Kept s → ∀ s' : Service, s'.jobs = s.jobs → Kept s' := by
    intro s ⟨prompt, le, debts⟩ s' jobs
    exact ⟨prompt.quiet jobs, by rw [jobs]; exact le, fun job lt =>
      (debt_congr jobs job).trans (debts job lt)⟩
  have woken : ∀ (s : Service) (p : JobState → Bool), (∀ r, p (.ended r) = false) → Kept s →
      Kept (s.wake p) := by
    intro s p hp ⟨prompt, le, debts⟩
    exact ⟨prompt.wake hp, by rw [jobs_wake_length]; exact le, fun job lt =>
      (debt_wake s p hp job).trans (debts job lt)⟩
  refine outside_rule (P := Kept) hm here (fun s s' q h => quiet s h s' q.jobs)
    (fun _ _ => quiet _ here _ rfl)
    (fun t _ => quiet _ (grown w.service _ (ofBody_owed w.service.tasks.length t) here) _ rfl)
    (fun s _ _ _ _ => grown s _ (ofRun_owed _ _ _)) ?_
    (fun k _ _ => quiet _ (woken (w.service.updateTask k _) _ (fun _ => rfl)
      (quiet _ here _ rfl)) _ (claim_frame _ k).1) ?_
    (fun moment _ => woken { w.service with now := moment } _ (fun _ => rfl) (quiet _ here _ rfl))
  · intro s job asked ⟨prompt, le, debts⟩
    obtain ⟨lt, paid⟩ := h.inquired job asked
    unfold owes at paid
    rw [free] at paid
    refine ⟨prompt.abort ((debts job lt).trans paid), ?_,
      fun i lt => (debt_abort s job i).trans (debts i lt)⟩
    unfold abort
    rw [jobs_updateJob_length]
    exact le
  · intro _ _ d
    refine ⟨prompt.teardownsStarted d, by rw [teardownsStarted_jobs, List.length_append]; omega, ?_⟩
    intro job lt
    rw [owed_teardownsStarted, if_neg (by omega)]
    exact Nat.add_zero _

theorem outside_invokedPromptly {w : World} (h : InvokedPromptly w) (free : w.turn = none)
    (m : Move) :
    InvokedPromptly (w.outside m) := by
  by_cases hm : m = .begin
  · subst hm
    refine ⟨begin_prompt (free ▸ h.prompt), fun job asked => ?_⟩
    obtain ⟨lt, paid⟩ := h.inquired job asked
    unfold owes at paid ⊢
    rw [free] at paid
    exact ⟨by change _ < (Turn.begin w.service).2.jobs.length; rw [begin_jobs]; exact lt,
      (begin_owed w.service job).trans paid⟩
  obtain ⟨prompt, le, debts⟩ := outside_kept h free hm
  have still := outside_turn w m hm free
  refine ⟨still ▸ prompt, fun job asked => ?_⟩
  unfold owes
  rw [still, owedBy_none]
  have old : Inquired w job →
      job < (w.outside m).service.jobs.length ∧ (w.outside m).service.debt job = 0 := by
    intro asked
    obtain ⟨lt, paid⟩ := h.inquired job asked
    unfold owes at paid
    rw [free] at paid
    exact ⟨Nat.lt_of_lt_of_le lt le, (debts job lt).trans paid⟩
  rcases outside_inquiries w m with
    same | ⟨request, timeout, e, -⟩ | ⟨i, q, q', hq, set, -, -, jobs⟩
  · refine old ?_
    unfold Inquired at asked ⊢
    rwa [same] at asked
  · rw [e] at asked
    rcases inquire_inquired asked with before | ⟨ge, lt⟩
    · exact old before
    · rw [e]
      refine ⟨lt, ?_⟩
      rw [← debt_beyond ge]
      exact inquire_rule (P := fun s => s.debt job = w.service.debt job)
        (fun s _ _ _ _ k => (debt_spawn s _ (ofRun_owed _ _ _) job).trans k) rfl _ _
  · refine old ?_
    obtain ⟨p, hp, en, hen, rfl⟩ := asked
    rw [set] at hp
    rcases List.mem_or_eq_of_mem_set hp with before | rfl
    · exact ⟨p, before, en, hen, rfl⟩
    · have mem : en.job ∈ q.aggregation.entries.map (·.job) := by
        rw [← jobs]
        exact List.mem_map_of_mem hen
      obtain ⟨en', hen', same⟩ := List.mem_map.mp mem
      exact ⟨q, List.mem_of_getElem? hq, en', hen', same⟩

/-- **Every move keeps it.** -/
theorem apply_invokedPromptly {w : World} (h : InvokedPromptly w)
    (scheduled : Scheduled w.turn w.service) (m : Move) : InvokedPromptly (w.apply m) := by
  unfold apply
  cases ht : w.turn with
  | none => exact outside_invokedPromptly h ht m
  | some t =>
    rw [ht] at scheduled
    dsimp only
    split
    · refine ⟨step_prompt (ht ▸ h.prompt) scheduled, fun job asked => ?_⟩
      obtain ⟨lt, paid⟩ := h.inquired job asked
      have sum := step_owed t w.service scheduled.seat job
      unfold owes at paid ⊢
      rw [ht] at paid
      rw [paid] at sum
      exact ⟨by dsimp only; rw [(step_evolves scheduled).length]; exact lt, by dsimp only; omega⟩
    · exact h

/-- **In every world whoever owes an invocation is prompt.** -/
theorem after_invokedPromptly {w : World} (h : InvokedPromptly w)
    (scheduled : Scheduled w.turn w.service) (ms : List Move) : InvokedPromptly (w.after ms) := by
  induction ms generalizing w with
  | nil => exact h
  | cons m ms ih => exact ih (apply_invokedPromptly h scheduled m) (apply_scheduled w m scheduled)

/-- **Whoever owes an invocation stands in the queue.** -/
theorem owed_queued {w : World} (h : InvokedPromptly w) (scheduled : Scheduled w.turn w.service)
    (free : w.turn = none) {i : JobId} (owes : 0 < w.owes i) : i ∈ w.service.queue := by
  unfold World.owes at owes
  rw [free, owedBy_none] at owes
  cases hj : w.service.jobs[i]? with
  | none =>
    rw [debt_beyond (List.getElem?_eq_none_iff.mp hj)] at owes
    omega
  | some j =>
    rw [debt_of hj] at owes
    rcases scheduled.queued i j hj (h.prompt.jobs i j hj owes).1 with mem | ⟨t, ht, -⟩
    · exact mem
    · rw [free] at ht
      cases ht

end World

end ServiceHealth
