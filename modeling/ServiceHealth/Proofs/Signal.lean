import Mathlib.Data.List.Induction
import ServiceHealth.Proofs.Agenda
import ServiceHealth.Proofs.Trigger
import ServiceHealth.Proofs.Withdrawal

/-!
# When the signal of a task is fired

The signal of a task is fired by whoever stops the task: a call to do so, or its teardown. As long
as there was neither, a task is as it was started. A call that shuts the service down starts the
teardown, and no time passes until that has fired the signal, so the moment of the call is the one
at which the body is told.

* `after_untouched`: as long as nobody stops a task, and nobody the service, the task is untouched.
* `Rings`, `after_rung`: **from a shutdown on the signal is fired at the moment of the call**.
* `Manned`, `after_manned`: the body of every task goes its own way.
-/

namespace ServiceHealth

open Service

namespace World

/-! ## 1. Untouched tasks -/

/-- Outside a turn a task is changed by a call to stop it and by nothing else. -/
theorem outside_task {w : World} {m : Move} {k : Nat} {x : RunningTask}
    (hx : w.service.tasks[k]? = some x) :
    (w.outside m).service.tasks[k]? = some x ∨ ∃ giveUp, m = .stop k giveUp := by
  by_cases stops : ∃ giveUp, m = .stop k giveUp
  · exact .inr stops
  left
  by_cases hb : m = .begin
  · subst hb
    show (Turn.begin w.service).2.tasks[k]? = some x
    rw [begin_tasks]
    exact hx
  refine outside_rule (P := fun s => s.tasks[k]? = some x) hb hx
    (fun _ _ q h => by rw [q.tasks]; exact h) (fun _ _ => hx) (fun t _ => ?_) (fun _ _ _ _ _ h => h)
    (fun _ _ _ h => h) (fun k' giveUp e => ?_) (fun _ _ _ => hx) (fun _ _ => hx)
  · show (w.service.tasks ++ [_])[k]? = some x
    rw [List.getElem?_append_left (List.getElem?_eq_some_iff.mp hx).1]
    exact hx
  · have ne : k' ≠ k := fun same => stops ⟨giveUp, by rw [e, same]⟩
    rw [told_tasks, List.getElem?_modify, hx]
    simp [ne]

/-- The signal of a task is fired, or a teardown that can go on is about to fire it. -/
def Rings (k : Nat) (i : JobId) (w : World) : Prop :=
  w.service.isFired k = true ∨ (¬ Inquired w i ∧ ∃ j, w.service.jobs[i]? = some j ∧
    j.close = .stopTask k ∧ j.todo = [] ∧ j.state = .ready)

section Rings

variable {w : World} {k : Nat} {i : JobId}

/-- A signal that is fired stays so. -/
theorem apply_fired (scheduled : Scheduled w.turn w.service) (m : Move)
    (fired : w.service.isFired k = true) : (w.apply m).service.isFired k = true := by
  have told : ∀ k', ((w.service.fire k').claim k').2.isFired k = true := by
    intro k'
    rw [isFired_claim, isFired_fire, fired, Bool.true_or]
  rcases w.apply_cases m with ⟨-, e⟩ | ⟨t, ht, -, e⟩ | ⟨t, -, -, e⟩
  · rw [e]
    by_cases stops : ∃ k' giveUp, m = .stop k' giveUp
    · obtain ⟨k', giveUp, rfl⟩ := stops
      exact told k'
    · rw [outside_isFired w fun k' g e => stops ⟨k', g, e⟩]
      exact fired
  · rw [ht] at scheduled
    rw [e]
    unfold isFired at fired ⊢
    cases hx : w.service.tasks[k]? with
    | none =>
      rw [hx] at fired
      cases fired
    | some x =>
      rw [hx] at fired
      obtain ⟨x', hx', -, still⟩ := (step_evolves scheduled).tasks k x hx
      dsimp only
      rw [hx']
      exact still fired
  · rw [e]
    exact fired

theorem after_fired (scheduled : Scheduled w.turn w.service) (ms : List Move)
    (fired : w.service.isFired k = true) : (w.after ms).service.isFired k = true := by
  induction ms generalizing w with
  | nil => exact fired
  | cons m ms ih => exact ih (apply_scheduled w m scheduled) (apply_fired scheduled m fired)

/-- The turn of a teardown that is to stop a task fires its signal. -/
theorem closeStop_fires (s : Service) (job : JobId) (known : k < s.tasks.length) :
    (s.closeJob job (.stopTask k)).isFired k = true := by
  have told : ((s.fire k).claim k).2.isFired k = true := by
    rw [isFired_claim, isFired_fire]
    simp [known]
  rcases closeStop_cases s job k with ⟨-, e⟩ | ⟨x, -, -, e⟩
  · rw [e]
    exact told
  · rw [e]
    rcases closeJoin_cases ((s.fire k).claim k).2 job x.body with ⟨r, -, e⟩ | ⟨-, e⟩ <;> rw [e] <;>
      exact told

theorem apply_tasks_length (scheduled : Scheduled w.turn w.service) (m : Move) :
    w.service.tasks.length ≤ (w.apply m).service.tasks.length := by
  rcases w.apply_cases m with ⟨-, e⟩ | ⟨t, ht, -, e⟩ | ⟨t, -, -, e⟩
  · rw [e]
    exact outside_tasks_length w m
  · rw [ht] at scheduled
    rw [e]
    exact Nat.le_of_eq (step_evolves scheduled).count.symm
  · rw [e]

theorem apply_rings (h : Rings k i w) (scheduled : Scheduled w.turn w.service)
    (known : k < w.service.tasks.length) (m : Move) : Rings k i (w.apply m) := by
  rcases h with fired | ⟨unasked, j, hj, close, todo, ready⟩
  · exact .inl (apply_fired scheduled m fired)
  rcases w.apply_cases m with ⟨-, e⟩ | ⟨t, ht, -, e⟩ | ⟨t, -, -, e⟩
  · rw [e]
    have there := (List.getElem?_eq_some_iff.mp hj).1
    refine .inr ⟨fun asked => unasked (outside_inquired there asked), ?_⟩
    -- whoever can go on waits for nothing, so a move from outside leaves it as it is
    obtain ⟨j', hj', ⟨-, roused⟩ | ⟨-, woken⟩⟩ :=
      outside_left m unasked hj (fun k' e => by rw [ready] at e; cases e)
    · cases roused with
      | same => exact ⟨j, hj', close, todo, ready⟩
      | heard state =>
        rw [ready] at state
        cases state
    · rw [Job.woken_eq_self (by rw [ready]; rfl)] at woken
      exact ⟨j, by rw [hj', woken], close, todo, ready⟩
  · rw [ht] at scheduled
    rw [e]
    by_cases own : t.job = i
    · subst own
      obtain ⟨j', hj', -, same, suffix⟩ := scheduled.seated t rfl
      rw [hj] at hj'
      cases hj'
      rw [todo, List.suffix_nil] at suffix
      left
      rcases t.step_cases w.service with ⟨x, rest, hx, -, -⟩ | ⟨x, rest, _, hx, -, -⟩ | ⟨-, e⟩
      · rw [suffix] at hx
        cases hx
      · rw [suffix] at hx
        cases hx
      · rw [e, ← same, close]
        exact closeStop_fires w.service t.job known
    · obtain ⟨j', hj', stirred⟩ := step_stirred t w.service hj own
      refine .inr ⟨unasked, ?_⟩
      cases stirred with
      | same => exact ⟨j, hj', close, todo, ready⟩
      | woken waits =>
        rw [ready] at waits
        cases waits
  · rw [e]
    exact .inr ⟨unasked, j, hj, close, todo, ready⟩

/-- Nobody asks for the result of a teardown who might give it up. -/
theorem teardown_unasked (promptly : InvokedPromptly w) (free : w.turn = none)
    (can : CanWithdraw w.service) (p : Nat) :
    ¬ Inquired (w.apply .call) (w.service.jobs.length + p) := by
  have same : (w.apply .call).inquiries = w.inquiries := by
    obtain ⟨d, -, e⟩ := call_won can
    rw [apply_free free]
    show w.call.inquiries = _
    rw [e]
  rintro ⟨q, mem, x, hx, job⟩
  rw [same] at mem
  have old := (promptly.inquired _ ⟨q, mem, x, hx, job⟩).1
  exact absurd old (Nat.not_lt.mpr (Nat.le_add_right _ _))

/-- **The call that wins starts a teardown that is about to fire the signal**, for each task. -/
theorem call_rings (promptly : InvokedPromptly w) (free : w.turn = none)
    (can : CanWithdraw w.service) {p : Nat} (here : w.service.members[p]? = some (.task k)) :
    Rings k (w.service.jobs.length + p) (w.apply .call) :=
  .inr ⟨teardown_unasked promptly free can p, _, call_started free can here, rfl, rfl, rfl⟩

/-- When time passes on time, nobody is about to fire a signal. -/
theorem rings_passes (h : Rings k i w) (scheduled : Scheduled w.turn w.service) {m : Move}
    (timely : w.Timely m) (later : w.service.now < (w.apply m).service.now) :
    w.service.isFired k = true := by
  rcases h with fired | ⟨-, j, hj, -, -, ready⟩
  · exact fired
  · rw [free_of_later later] at scheduled
    exact absurd ready (scheduled.idle (timely later).1 hj)

/-- **A signal that is about to be fired is fired before time passes.** -/
theorem after_rung {signal : Nat} (h : Rings k i w) (scheduled : Scheduled w.turn w.service)
    (known : k < w.service.tasks.length) (begun : signal ≤ w.service.now)
    (prompt : w.service.isFired k = false → w.service.now = signal) {ms : List Move}
    (timely : w.OnTime ms) : Rung (· = k) signal (w.after ms).service := by
  induction ms generalizing w with
  | nil =>
    rintro _ rfl
    exact ⟨fun unfired => Nat.le_of_eq (prompt unfired), fun _ => begun⟩
  | cons m ms ih =>
    have now := apply_now w m
    refine ih (apply_rings h scheduled known m) (apply_scheduled w m scheduled)
      (Nat.lt_of_lt_of_le known (apply_tasks_length scheduled m)) (Nat.le_trans begun now)
      (fun unfired => ?_) timely.2
    have before : w.service.isFired k = false := by
      refine Bool.eq_false_iff.mpr fun fired => ?_
      rw [apply_fired scheduled m fired] at unfired
      cases unfired
    have still : ¬ w.service.now < (w.apply m).service.now := by
      intro later
      rw [rings_passes h scheduled timely.1 later] at before
      cases before
    have := prompt before
    omega

/-- When nobody can go on, no signal is about to be fired. -/
theorem rings_rest (h : Rings k i w) (scheduled : Scheduled w.turn w.service) (rest : w.AtRest) :
    w.service.isFired k = true := by
  rcases h with fired | ⟨-, j, hj, -, -, ready⟩
  · exact fired
  · rw [rest.1] at scheduled
    exact absurd ready (scheduled.idle rest.2 hj)

theorem after_rings (h : Rings k i w) (scheduled : Scheduled w.turn w.service)
    (known : k < w.service.tasks.length) (ms : List Move) : Rings k i (w.after ms) := by
  induction ms generalizing w with
  | nil => exact h
  | cons m ms ih =>
    exact ih (apply_rings h scheduled known m) (apply_scheduled w m scheduled)
      (Nat.lt_of_lt_of_le known (apply_tasks_length scheduled m))

/-- **From a shutdown on, the signal of a task is fired at the moment of the call**: no time passes
before. -/
theorem call_rung (promptly : InvokedPromptly w) (scheduled : Scheduled w.turn w.service)
    (free : w.turn = none) (can : CanWithdraw w.service) (known : k < w.service.tasks.length)
    {p : Nat} (here : w.service.members[p]? = some (.task k)) {ms : List Move}
    (timely : (w.apply .call).OnTime ms) :
    (∀ q, q <+: .call :: ms → Rung (· = k) w.service.now (w.after q).service) ∧
      ((w.after (.call :: ms)).AtRest → ∀ k', k' = k →
        (w.after (.call :: ms)).service.isFired k' = true) := by
  have scheduled' := apply_scheduled w .call scheduled
  have known' := Nat.lt_of_lt_of_le known (apply_tasks_length scheduled .call)
  have rings := call_rings promptly free can here
  have now := call_now free
  constructor
  · rintro q ⟨rest, e⟩
    cases q with
    | nil =>
      rintro _ rfl
      exact ⟨fun _ => Nat.le_refl _, fun _ => Nat.le_refl _⟩
    | cons m q =>
      obtain ⟨rfl, rfl⟩ := List.cons.inj e
      exact after_rung rings scheduled' known' (Nat.le_of_eq now.symm) (fun _ => now)
        ((onTime_append _ q rest).mp timely).1
  · rintro rest _ rfl
    exact rings_rest (after_rings rings scheduled' known' ms) (after_scheduled _ ms scheduled') rest

end Rings

/-! ## 3. The bodies of tasks -/

/-- What a task is when it has been started. -/
theorem addTask_started {w : World} (free : w.turn = none) (t : Shutdown.Task) :
    (w.apply (.addTask t)).service.tasks[w.service.tasks.length]? =
        some ⟨t.name, false, w.service.jobs.length, false⟩ ∧
      (w.apply (.addTask t)).service.jobs[w.service.jobs.length]? =
        some (.ofBody w.service.tasks.length t) ∧
      (w.apply (.addTask t)).service.members[w.service.members.length]? =
        some (.task w.service.tasks.length) := by
  rw [apply_free free]
  exact ⟨List.getElem?_concat_length, List.getElem?_concat_length, List.getElem?_concat_length⟩

theorem ofBody_heeds (k : Nat) (t : Shutdown.Task) : Heeds (· = k) t.ending (.ofBody k t) where
  close := rfl
  stands := .inl rfl
  waits := (ofBody_isBody k t).waits
  awaiting := (ofBody_isBody k t).awaiting

/-- **The body of a task that is started goes its own way.** -/
theorem addTask_byItself {w : World} (promptly : InvokedPromptly w)
    (scheduled : Scheduled w.turn w.service) (free : w.turn = none) (t : Shutdown.Task) :
    ByItself (· = w.service.tasks.length) t.ending (w.apply (.addTask t))
      w.service.jobs.length where
  scheduled := apply_scheduled w _ scheduled
  unasked := by
    rw [apply_free free]
    exact fun asked => Nat.lt_irrefl _ (promptly.inquired _ asked).1
  known := by
    rintro _ rfl
    exact (List.getElem?_eq_some_iff.mp (addTask_started free t).1).1
  job := ⟨_, (addTask_started free t).2.1, ofBody_heeds _ t⟩

/-- A task keeps its body. -/
theorem apply_body {w : World} (scheduled : Scheduled w.turn w.service) (m : Move) {k : Nat}
    {x : RunningTask} (hx : w.service.tasks[k]? = some x) :
    ∃ x', (w.apply m).service.tasks[k]? = some x' ∧ x'.body = x.body := by
  rcases w.apply_cases m with ⟨-, e⟩ | ⟨t, ht, -, e⟩ | ⟨t, -, -, e⟩
  · rw [e]
    rcases outside_task (m := m) hx with kept | ⟨giveUp, rfl⟩
    · exact ⟨x, kept, rfl⟩
    · show ∃ x', ((w.service.fire k).claim k).2.tasks[k]? = some x' ∧ _
      obtain ⟨x', hx', body, -⟩ := (evolves_told w.service k).tasks k x hx
      exact ⟨x', hx', body⟩
  · rw [ht] at scheduled
    rw [e]
    obtain ⟨x', hx', body, -⟩ := (step_evolves scheduled).tasks k x hx
    exact ⟨x', hx', body⟩
  · rw [e]
    exact ⟨x, hx, rfl⟩

/-- A task that was not there before was started by the move. -/
theorem apply_started {w : World} (scheduled : Scheduled w.turn w.service) {m : Move} {k : Nat}
    (absent : w.service.tasks[k]? = none) {x : RunningTask}
    (hx : (w.apply m).service.tasks[k]? = some x) :
    w.turn = none ∧ ∃ t, m = .addTask t ∧ k = w.service.tasks.length := by
  have lt := (List.getElem?_eq_some_iff.mp hx).1
  have le := List.getElem?_eq_none_iff.mp absent
  rcases w.apply_cases m with ⟨free, e⟩ | ⟨t, ht, -, e⟩ | ⟨t, -, -, e⟩
  · refine ⟨free, ?_⟩
    rw [e] at lt
    by_cases added : ∃ t, m = .addTask t
    · obtain ⟨t, rfl⟩ := added
      refine ⟨t, rfl, ?_⟩
      change k < (w.service.tasks ++ [_]).length at lt
      rw [List.length_append, List.length_singleton] at lt
      omega
    · have same := outside_tasks_count w fun t e => added ⟨t, e⟩
      omega
  · rw [ht] at scheduled
    rw [e] at lt
    exact absurd lt (Nat.not_lt.mpr ((step_evolves scheduled).count.symm ▸ le))
  · rw [e] at lt
    exact absurd lt (Nat.not_lt.mpr le)

/-- **Every task has a body that goes its own way**, and heeds no signal but that of the task. -/
def Manned (w : World) : Prop :=
  ∀ (k : Nat) (x : RunningTask), w.service.tasks[k]? = some x →
    ∃ ending, ByItself (· = k) ending w x.body

theorem apply_manned {w : World} (h : Manned w) (promptly : InvokedPromptly w)
    (scheduled : Scheduled w.turn w.service) (m : Move) : Manned (w.apply m) := by
  intro k x' hx'
  cases hx : w.service.tasks[k]? with
  | some x =>
    obtain ⟨x'', hx'', body⟩ := apply_body scheduled m hx
    rw [hx'] at hx''
    cases hx''
    obtain ⟨ending, byItself⟩ := h k x hx
    rw [body]
    exact ⟨ending, apply_byItself byItself m⟩
  | none =>
    obtain ⟨free, t, rfl, rfl⟩ := apply_started scheduled hx hx'
    rw [(addTask_started free t).1] at hx'
    cases hx'
    exact ⟨t.ending, addTask_byItself promptly scheduled free t⟩

/-- **In every world the bodies of tasks go their own way.** -/
theorem after_manned (setup : Setup) (clock : Time.Stamp) (ms : List Move) :
    Manned ((new setup clock).after ms) := by
  have all : ∀ (w : World), Manned w → InvokedPromptly w → Scheduled w.turn w.service →
      Manned (w.after ms) := by
    induction ms with
    | nil => exact fun _ h _ _ => h
    | cons m ms ih =>
      exact fun w h promptly scheduled => ih _ (apply_manned h promptly scheduled m)
        (apply_invokedPromptly promptly scheduled m) (apply_scheduled w m scheduled)
  exact all _ (fun k x hx => by cases hx) (new_invokedPromptly setup clock)
    (new_scheduled setup clock)

end World

end ServiceHealth
