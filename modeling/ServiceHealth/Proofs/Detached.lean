import ServiceHealth.Proofs.Aftermath
import ServiceHealth.Proofs.Signal

/-!
# A shutdown gives nobody up

A shutdown waits until its deadline and no longer, but whoever has not stopped by then goes on by
itself. It does the steps that it would do without a deadline, and each of them when it would do it.
Nobody waits for its end any more, and that changes nothing of what the shutdown has left.

* `Spared`, `after_spared`: no teardown is given up, whatever happens.
* `Component.conduct`: what the teardown of a component does by itself, and when.
* `Undisturbed`, `component_undisturbed`: **on time it does that and nothing else**.
  `component_ended`: so it ends when it is done.
* `body_undisturbed`: the body of a task does what it had to do as well.
* `LeftBehind`, `report_late`: what is reported late had not ended when the call returned.
-/

namespace ServiceHealth

open Service

/-! ## 1. Nobody is given up -/

namespace Service

/-- A turn gives nobody up. -/
theorem step_unaborted {t : Turn} {s : Service} (scheduled : Scheduled (some t) s) {i : JobId}
    {j : Job} (hj : s.jobs[i]? = some j) (going : j.state ≠ .aborted) :
    ∃ j', (t.step s).2.jobs[i]? = some j' ∧ j'.state ≠ .aborted := by
  by_cases own : t.job = i
  · subst own
    obtain ⟨j₀, hj₀, ready, -⟩ := scheduled.seated t rfl
    rw [hj] at hj₀
    cases hj₀
    rcases t.step_cases s with ⟨x, rest, -, -, e⟩ | ⟨x, rest, state, -, hx, e⟩ | ⟨-, e⟩
    · rw [e]
      exact ⟨j, by rw [(act_frame s t.job t.who x).1]; exact hj, going⟩
    · rw [e]
      refine ⟨{ j with todo := rest, close := t.close, state }, ?_, ?_⟩
      · rw [hold_getElem?, hj, Option.map_some, if_pos rfl]
      · rcases holdUp?_cases hx with ⟨d, -, -, rfl⟩ | ⟨k, -, -, rfl⟩ <;> nofun
    · rw [e]
      have closed := closed_closeJob s t.job t.close
      generalize s.closeJob t.job t.close = s' at closed
      cases closed with
      | @concluded s₁ r result =>
        obtain ⟨j', hj', -⟩ := r.stirred hj
        exact ⟨_, by rw [conclude_getElem?, hj', Option.map_some, if_pos rfl], by nofun⟩
      | hung close' =>
        exact ⟨_, by rw [hold_getElem?, hj, Option.map_some, if_pos rfl], by nofun⟩
      | @joining s₁ r awaited =>
        obtain ⟨j', hj', -⟩ := r.stirred hj
        exact ⟨_, by rw [hold_getElem?, hj', Option.map_some, if_pos rfl], by nofun⟩
  · obtain ⟨j', hj', stirred⟩ := step_stirred t s hj own
    cases stirred with
    | same => exact ⟨j, hj', going⟩
    | woken waits => exact ⟨_, hj', nofun⟩

end Service

namespace World

/-- A job that nobody has given up, and nobody asks for its result who might do so. -/
def Spared (w : World) (i : JobId) : Prop :=
  ¬ Inquired w i ∧ ∃ j, w.service.jobs[i]? = some j ∧ j.state ≠ .aborted

theorem outside_spared {w : World} {i : JobId} (h : Spared w i) (m : Move) :
    Spared (w.outside m) i := by
  obtain ⟨unasked, j, hj, going⟩ := h
  refine ⟨fun asked => unasked (outside_inquired (List.getElem?_eq_some_iff.mp hj).1 asked), ?_⟩
  by_cases hb : m = .begin
  · subst hb
    refine ⟨j, ?_, going⟩
    show (Turn.begin w.service).2.jobs[i]? = some j
    rw [begin_jobs]
    exact hj
  have woken : ∀ p, (j.woken p).state ≠ .aborted := by
    intro p
    unfold Job.woken
    split
    · nofun
    · exact going
  refine outside_rule (P := fun s => ∃ j, s.jobs[i]? = some j ∧ j.state ≠ .aborted) hb
    ⟨j, hj, going⟩ (fun _ _ q h => by rw [q.jobs]; exact h) (fun _ _ => ⟨j, hj, going⟩)
    (fun t _ => ⟨j, spawn_getElem?_old hj, going⟩)
    (fun s number c d _ ⟨j, hj, going⟩ => ⟨j, spawn_getElem?_old hj, going⟩)
    (fun s job asked ⟨j, hj, going⟩ => ?_) (fun k _ _ => ?_) (fun _ _ d => ?_)
    (fun moment _ => ⟨_, by rw [advance_getElem?, hj]; rfl, woken _⟩)
  · have other : job ≠ i := by
      rintro rfl
      exact unasked asked
    refine ⟨j, ?_, going⟩
    unfold abort
    rw [updateJob_getElem?, hj]
    simp [other]
  · refine ⟨j.woken (JobState.awaits k), ?_, woken _⟩
    rw [(claim_frame _ k).1, fire, wake_getElem?]
    show (w.service.jobs[i]?).map _ = _
    rw [hj]
    rfl
  · refine ⟨j, ?_, going⟩
    rw [teardownsStarted_jobs, List.getElem?_append_left (List.getElem?_eq_some_iff.mp hj).1]
    exact hj

/-- **Whoever was spared is spared in whatever happens.** -/
theorem after_spared {w : World} {i : JobId} (h : Spared w i)
    (scheduled : Scheduled w.turn w.service) (ms : List Move) : Spared (w.after ms) i := by
  induction ms generalizing w with
  | nil => exact h
  | cons m ms ih =>
    refine ih ?_ (apply_scheduled w m scheduled)
    rcases w.apply_cases m with ⟨-, e⟩ | ⟨t, ht, -, e⟩ | ⟨t, -, -, e⟩
    · rw [e]
      exact outside_spared h m
    · obtain ⟨unasked, j, hj, going⟩ := h
      rw [ht] at scheduled
      rw [e]
      exact ⟨unasked, step_unaborted scheduled hj going⟩
    · rw [e]
      exact h

theorem teardown_spared {w : World} (promptly : InvokedPromptly w) (free : w.turn = none)
    (can : CanWithdraw w.service) {p : Nat} {m : Member} (here : w.service.members[p]? = some m) :
    Spared (w.apply .call) (w.service.jobs.length + p) := by
  refine ⟨teardown_unasked promptly free can p, _, call_started free can here, ?_⟩
  cases m <;> nofun

end World

/-! ## 2. What a component does by itself -/

namespace Service

/-- A step without the deadline that it is told. -/
def Step.undated : Step → Step
  | .noteStop _ => .noteStop 0
  | x => x

/-- Something done at a moment, without the deadline that is told. -/
def undated (x : Nat × Option Step) : Nat × Option Step := (x.1, x.2.map Step.undated)

theorem agenda_undated (signal : Nat) (todo : List Step) (m : Nat) :
    (agenda signal todo m).map undated = agenda signal (todo.map Step.undated) m := by
  induction todo generalizing m with
  | nil => rfl
  | cons x rest ih =>
    have same : x.undated.doneAt signal m = x.doneAt signal m := by cases x <;> rfl
    show _ :: (agenda signal rest _).map undated = _ :: agenda signal (rest.map Step.undated) _
    rw [ih, same]
    rfl

end Service

namespace Shutdown.Component

variable (c : Component) (start : Nat)

/-- **What the teardown of a component does by itself**, and when, if it begins at a moment. -/
def conduct : List (Nat × Option Step) := agenda start (Job.ofTeardown c 0).todo start

/-- When the teardown of a component is done, if it begins at a moment. -/
def done : Nat := afterDelay start c.delay

theorem ofTeardown_undated (deadline : Nat) :
    (Job.ofTeardown c deadline).todo.map Step.undated = (Job.ofTeardown c 0).todo := by
  have performs : c.actions.map (Step.undated ∘ Step.perform) = c.actions.map Step.perform := rfl
  unfold Job.ofTeardown work
  simp only [List.map_cons, List.map_append, List.map_map, performs]
  cases c.delay <;> cases c.ending <;> rfl

theorem ends_ofTeardown (deadline : Nat) :
    ends start (Job.ofTeardown c deadline).todo start = c.done start := by
  show ends start (work c.delay c.actions ++ _) start = _
  rw [ends_append, ends_work]
  cases c.ending <;> rfl

/-- It does nothing before it begins and nothing after it is done, and it comes to its end then. -/
theorem conduct_bounds : (c.done start, none) ∈ c.conduct start ∧
    ∀ x ∈ c.conduct start, start ≤ x.1 ∧ x.1 ≤ c.done start := by
  rw [← ends_ofTeardown c start 0]
  exact ⟨ends_mem _ _ _, fun x mem => ⟨le_of_mem_agenda mem, le_ends mem⟩⟩

end Shutdown.Component

namespace World

/-! ## 3. Whoever goes on does so undisturbed -/

/-- **A job goes on undisturbed**: what it has done is what it has to do, in order, and when nobody
can go on, everything whose moment has come. It has ended in its own way when it has done all, and
goes on until then. -/
structure Undisturbed (all : List (Nat × Option Step)) (ending : Shutdown.Ending)
    (done : List (Nat × Option Step)) (w : World) (i : JobId) : Prop where
  order : done <+: all
  moments : w.AtRest → done = all.filter (·.1 ≤ w.service.now)
  stands : w.AtRest → ∃ j, w.service.jobs[i]? = some j ∧
    (done = all → j.state = ending.leaves) ∧ (done ≠ all → j.state.goesOn = true)

section Undisturbed

variable {signals : Nat → Prop} {ending : Shutdown.Ending} {signal : Nat} {w : World} {i : JobId}

/-- **Whoever goes its own way goes on undisturbed.** -/
theorem undisturbed {ms : List Move} (h : ByItself signals ending w i) (timely : w.OnTime ms)
    (rung : ∀ p, p <+: ms → Rung signals signal (w.after p).service)
    (heard : (w.after ms).AtRest → ∀ k, signals k → (w.after ms).service.isFired k = true) :
    Undisturbed (w.due signal i) ending (did i (w.deeds ms)) (w.after ms) i where
  order := ⟨_, did_due h timely rung⟩
  moments rest := (did_rest h timely rung rest (heard rest)).1
  stands rest := by
    have sum := did_due h timely rung
    obtain ⟨-, -, -, j, hj, heeds⟩ := after_byItself h ms
    rw [due_free rest.1, dueOf_of hj] at sum
    refine ⟨j, hj, fun all => ?_, fun more => ?_⟩
    · rw [all] at sum
      exact heeds.ended (List.append_right_eq_self.mp sum)
    · rcases heeds.stands with goes | leaves
      · exact goes
      · rw [Job.due_left leaves, List.append_nil] at sum
        exact absurd sum more

/-- It does not matter what it is told of a deadline. -/
theorem Undisturbed.undated {all done : List (Nat × Option Step)}
    (h : Undisturbed all ending done w i) :
    Undisturbed (all.map undated) ending (done.map undated) w i where
  order := h.order.map _
  moments rest := by
    rw [h.moments rest, List.filter_map]
    rfl
  stands rest := by
    obtain ⟨j, hj, ended, goes⟩ := h.stands rest
    refine ⟨j, hj, fun same => ended ?_, fun more => goes fun e => more (by rw [e])⟩
    refine h.order.eq_of_length ?_
    rw [← List.length_map (f := Service.undated), same, List.length_map]

/-- **When it has ended**: with the last thing that it has to do, and in its own way. -/
theorem Undisturbed.ended {all done : List (Nat × Option Step)} {last : Nat}
    (h : Undisturbed all ending done w i) (close : (last, none) ∈ all)
    (bound : ∀ x ∈ all, x.1 ≤ last) (rest : w.AtRest) :
    ∃ j, w.service.jobs[i]? = some j ∧
      if last ≤ w.service.now then j.state = ending.leaves else j.state.goesOn = true := by
  obtain ⟨j, hj, ended, goes⟩ := h.stands rest
  have moments := h.moments rest
  refine ⟨j, hj, ?_⟩
  split
  · rename_i past
    refine ended (moments.trans (List.filter_eq_self.mpr fun x mem => decide_eq_true ?_))
    exact Nat.le_trans (bound x mem) past
  · rename_i early
    refine goes fun complete => early ?_
    rw [complete] at moments
    exact of_decide_eq_true (List.filter_eq_self.mp moments.symm _ close)

/-- Whoever has the same to do has done the same at the same moment. -/
theorem Undisturbed.same {all done done' : List (Nat × Option Step)} {w' : World} {i' : JobId}
    (h : Undisturbed all ending done w i) (h' : Undisturbed all ending done' w' i')
    (rest : w.AtRest) (rest' : w'.AtRest) (now : w'.service.now = w.service.now) :
    done' = done := by
  rw [h'.moments rest', now, h.moments rest]

end Undisturbed

/-- What a teardown has done some moves after the call that has started it, without the deadline
that it was told. -/
def teardownDeeds (w : World) (p : Nat) (ms : List Move) : List (Nat × Option Step) :=
  (did (w.service.jobs.length + p) ((w.apply .call).deeds ms)).map undated

section Drain

variable {w : World} (promptly : InvokedPromptly w) (scheduled : Scheduled w.turn w.service)
  (free : w.turn = none) (can : CanWithdraw w.service)

include promptly scheduled free can

/-- **From the call on a component goes on undisturbed**, and as it would without a deadline. -/
theorem component_undisturbed {p : Nat} {c : Shutdown.Component}
    (here : w.service.members[p]? = some (.component c)) {ms : List Move}
    (timely : (w.apply .call).OnTime ms) :
    Undisturbed (c.conduct w.service.now) c.ending (w.teardownDeeds p ms)
      ((w.apply .call).after ms) (w.service.jobs.length + p) := by
  have started := call_started free can here
  have byItself : ByItself (fun _ => False) c.ending (w.apply .call)
      (w.service.jobs.length + p) := by
    refine ⟨apply_scheduled w .call scheduled, teardown_unasked promptly free can p, nofun, _,
      started, ?_⟩
    refine ⟨rfl, .inl rfl, fun k hk => ?_, nofun⟩
    rcases teardown_plan w.service (w.service.now + w.service.setup.drainTimeout)
      (.component c) with ⟨-, todo, -⟩ | ⟨_, close⟩ | ⟨_, close⟩
    · exact todo k hk
    · cases close
    · cases close
  have due : (w.apply .call).due w.service.now (w.service.jobs.length + p) = agenda w.service.now
      (Job.ofTeardown c (w.service.now + w.service.setup.drainTimeout)).todo w.service.now := by
    rw [due_free (apply_turn (m := .call) free nofun), dueOf_of started, call_now free]
    exact Job.due_of rfl
  have rung : ∀ q, q <+: ms →
      Rung (fun _ => False) w.service.now ((w.apply .call).after q).service := fun _ _ _ k => k.elim
  have own := undisturbed byItself timely rung fun _ _ k => k.elim
  rw [due] at own
  have dated := own.undated
  rw [agenda_undated, Shutdown.Component.ofTeardown_undated] at dated
  exact dated

/-- **It has ended when it is done**, and goes on until then. -/
theorem component_ended {p : Nat} {c : Shutdown.Component}
    (here : w.service.members[p]? = some (.component c)) {ms : List Move}
    (timely : (w.apply .call).OnTime ms) (rest : ((w.apply .call).after ms).AtRest) :
    ∃ j, ((w.apply .call).after ms).service.jobs[w.service.jobs.length + p]? = some j ∧
      if c.done w.service.now ≤ ((w.apply .call).after ms).service.now
      then j.state = c.ending.leaves else j.state.goesOn = true := by
  obtain ⟨close, bound⟩ := c.conduct_bounds w.service.now
  exact (component_undisturbed promptly scheduled free can here timely).ended close
    (fun x mem => (bound x mem).2) rest

/-- **So does the body of a task**: it does what it had to do when the service was shut down, if its
signal is fired at that moment. -/
theorem body_undisturbed (manned : Manned w) {p k : Nat} {x : RunningTask}
    (here : w.service.members[p]? = some (.task k)) (hx : w.service.tasks[k]? = some x)
    : ∃ ending, (∃ j, w.service.jobs[x.body]? = some j ∧ j.close = .ending ending) ∧
    ∀ ms, (w.apply .call).OnTime ms →
      Undisturbed (w.due w.service.now x.body) ending (did x.body ((w.apply .call).deeds ms))
        ((w.apply .call).after ms) x.body := by
  obtain ⟨ending, byItself⟩ := manned k x hx
  obtain ⟨j, hj, heeds⟩ := byItself.job
  refine ⟨ending, ⟨j, hj, heeds.close⟩, fun ms timely => ?_⟩
  have known := (List.getElem?_eq_some_iff.mp hx).1
  obtain ⟨rung, heard⟩ := call_rung promptly scheduled free can known here timely
  have timely' : w.OnTime (.call :: ms) := ⟨call_timely free, timely⟩
  have own := undisturbed byItself timely' rung heard
  rw [deeds_cons, deedsOf_free free, List.nil_append, after_cons] at own
  exact own

end Drain

/-! ## 4. What the report says of those who go on -/

/-- **Whoever is reported late was left behind**: the deadline had come when the call had its
report, and the teardown had no result. -/
structure LeftBehind (w : World) (p : Nat) (r : Shutdown.Report) (ms : List Move) : Prop where
  reported : ((w.apply .call).after ms).calls[w.calls.length]? = some (.ok (.finished r))
  late : w.service.now + w.service.setup.drainTimeout ≤ ((w.apply .call).after ms).service.now
  goes : ((w.apply .call).after ms).service.result? (w.service.jobs.length + p) = none

theorem report_late {w : World} (scheduled : Scheduled w.turn w.service) (free : w.turn = none)
    (can : CanWithdraw w.service) {p : Nat} {m : Member} (here : w.service.members[p]? = some m)
    {ms : List Move} {r : Shutdown.Report}
    (reported : ((w.apply .call).after ms).calls[w.calls.length]? = some (.ok (.finished r))) :
    ∃ o, r.outcomes[p]? = some o ∧ o.component = w.service.memberName m ∧
      (o.fate = .timedOut → ∃ q, q <+: ms ∧ LeftBehind w p r q) := by
  rcases after_accounted scheduled free can ms with
    ⟨x, collecting, -⟩ | ⟨r', q, ⟨rest, rfl⟩, hr, told⟩
  · rw [reported] at collecting
    cases collecting
  · have same : r = r' := by
      obtain ⟨d, hd, goesOn⟩ := after_continues _ rest hr
      rw [← after_append, reported] at hd
      cases goesOn.ended rfl
      cases hd
      rfl
    subst same
    have place : (w.service.opening (w.service.now + w.service.setup.drainTimeout)).pending[p]? =
        some (w.service.memberName m, w.service.jobs.length + p) := by
      have lt := (List.getElem?_eq_some_iff.mp here).1
      refine List.getElem?_zip_eq_some.mpr ⟨?_, ?_⟩
      · rw [List.getElem?_map, here]
        rfl
      · rw [List.getElem?_range' lt, Nat.one_mul]
    refine ⟨_, by rw [told.outcomes, List.getElem?_map, place]; rfl, rfl, fun late => ?_⟩
    obtain ⟨goes, past⟩ := judged_late (told.known _ (List.mem_of_getElem? place)) late
    exact ⟨q, List.prefix_append q rest, hr, past, goes⟩

/-- **A driver that shuts the service down and goes on** lets time pass on time from the call on. -/
theorem drain_then_run {w : World} (free : w.turn = none) (poised : Poised w.service)
    (can : CanWithdraw w.service) (count : Nat) (probes : List Nat) (cs : List Command) :
    ∃ ms more d r, (w.apply .call).OnTime (ms ++ more) ∧
      w.service.drain (count + 1) probes = (.ok d, ((w.apply .call).after ms).service) ∧
      d.reports.head? = some (some r) ∧
      ((w.apply .call).after ms).calls[w.calls.length]? = some (.ok (.finished r)) ∧
      ((w.apply .call).after (ms ++ more)).service =
        (run cs ((w.apply .call).after ms).service).2 := by
  obtain ⟨v, d, r, reached, free', drained, first, calls⟩ :=
    drain_reaches free poised can count probes
  have still : (w.apply .call).turn = none := apply_turn free nofun
  have scheduled := apply_scheduled w .call (by rw [free]; exact poised.scheduled)
  rw [still] at scheduled
  obtain ⟨v', reached', -, service⟩ :=
    run_reaches free' (reached.scheduled still scheduled free') cs
  obtain ⟨ms, timely, rfl⟩ := reached
  obtain ⟨more, timely', rfl⟩ := reached'
  exact ⟨ms, more, d, r, (onTime_append _ _ _).mpr ⟨timely, timely'⟩, drained, first, calls,
    by rw [after_append, service]⟩

/-! ## 5. A shutdown gives nobody up -/

/-- **A shutdown gives nobody up.** Whatever its timeout and whatever happens after the call that
wins, no teardown is given up. As long as the clock waits for the jobs, every component does what it
would do without a deadline, and each step when it would do it, also in comparison with any other
shutdown that begins at that moment; and so does the body of every task. Whoever is reported late
had not ended when the call returned; and whatever happens after that, the ends of those who go on
among it, changes neither the report nor the phase, neither the counters of outcomes nor the log,
but for a record of each call that comes too late. A driver that shuts the service down, and then
does whatever it likes, is such an order of moves. -/
theorem drain_gives_nobody_up (setup : Setup) (clock : Time.Stamp) (before : List Move)
    (free : ((new setup clock).after before).turn = none)
    (can : CanWithdraw ((new setup clock).after before).service) :
    let w := (new setup clock).after before
    let v := w.apply .call
    (∀ p < w.service.members.length, ∀ ms, ∃ j,
      (v.after ms).service.jobs[w.service.jobs.length + p]? = some j ∧ j.state ≠ .aborted) ∧
    (∀ (p : Nat) (c : Shutdown.Component), w.service.members[p]? = some (.component c) →
      ∀ ms, v.OnTime ms →
        Undisturbed (c.conduct w.service.now) c.ending (w.teardownDeeds p ms) (v.after ms)
          (w.service.jobs.length + p) ∧
        ((v.after ms).AtRest → ∃ j,
          (v.after ms).service.jobs[w.service.jobs.length + p]? = some j ∧
            if c.done w.service.now ≤ (v.after ms).service.now then j.state = c.ending.leaves
            else j.state.goesOn = true) ∧
        ∀ (setup' : Setup) (clock' : Time.Stamp) (before' : List Move) (p' : Nat) (ms' : List Move),
          let w' := (new setup' clock').after before'
          w'.turn = none → CanWithdraw w'.service → w'.service.now = w.service.now →
          w'.service.members[p']? = some (.component c) → (w'.apply .call).OnTime ms' →
          (v.after ms).AtRest → ((w'.apply .call).after ms').AtRest →
          ((w'.apply .call).after ms').service.now = (v.after ms).service.now →
          w'.teardownDeeds p' ms' = w.teardownDeeds p ms) ∧
    (∀ (p k : Nat) (x : RunningTask), w.service.members[p]? = some (.task k) →
      w.service.tasks[k]? = some x → ∃ ending,
        (∃ j, w.service.jobs[x.body]? = some j ∧ j.close = .ending ending) ∧
        ∀ ms, v.OnTime ms → Undisturbed (w.due w.service.now x.body) ending
          (did x.body (v.deeds ms)) (v.after ms) x.body) ∧
    (∀ ms r, (v.after ms).calls[w.calls.length]? = some (.ok (.finished r)) →
      (∀ p m, w.service.members[p]? = some m → ∃ o, r.outcomes[p]? = some o ∧
        o.component = w.service.memberName m ∧
        (o.fate = .timedOut → ∃ q, q <+: ms ∧ LeftBehind w p r q)) ∧
      ∀ more, ∃ n, n ≤ more.countP Move.isCall ∧ Shelved n (v.after ms) (v.after (ms ++ more))) ∧
    ∀ count probes cs, ∃ ms more d r, v.OnTime (ms ++ more) ∧
      w.service.drain (count + 1) probes = (.ok d, (v.after ms).service) ∧
      d.reports.head? = some (some r) ∧
      (v.after ms).calls[w.calls.length]? = some (.ok (.finished r)) ∧
      (v.after (ms ++ more)).service = (run cs (v.after ms).service).2 := by
  intro w v
  have promptly :=
    after_invokedPromptly (new_invokedPromptly setup clock) (new_scheduled setup clock) before
  have scheduled := after_scheduled (new setup clock) before (new_scheduled setup clock)
  have inOrder := after_inOrder _ before (new_inOrder setup clock)
  refine ⟨fun p lt ms => ?_, fun p c here ms timely => ?_, fun p k x here hx =>
    body_undisturbed promptly scheduled free can (after_manned setup clock before) here hx,
    fun ms r reported => ⟨fun p m here => report_late scheduled free can here reported,
      fun more => ?_⟩, drain_then_run free (after_poised setup clock before free can.1) can⟩
  · have spared := teardown_spared promptly free can (List.getElem?_eq_getElem lt)
    exact (after_spared spared (apply_scheduled w .call scheduled) ms).2
  · have own := component_undisturbed promptly scheduled free can here timely
    refine ⟨own, component_ended promptly scheduled free can here timely, ?_⟩
    intro setup' clock' before' p' ms' w' free' can' start here' timely' rest rest' now
    have other := component_undisturbed
      (after_invokedPromptly (new_invokedPromptly setup' clock') (new_scheduled setup' clock')
        before')
      (after_scheduled (new setup' clock') before' (new_scheduled setup' clock'))
      free' can' here' timely'
    rw [start] at other
    exact own.same other rest rest' now
  · have stopped : (v.after ms).service.phase = .stopped := by
      rw [inOrder.uncalled can.1] at reported
      exact won_ended inOrder free can reported rfl
    rw [after_append]
    exact after_shelved (after_inOrder _ ms (apply_inOrder w .call inOrder)) stopped more

/-- A cache that takes longer than the shutdown waits, and then panics: it is reported late, does
the rest of what it would do in any case, and its panic leaves what the shutdown has left. -/
theorem slow_cache_goes_on :
    let w := (new ⟨1000, 10, true, ⟨"api", "test", ⟨none, none⟩⟩, .ascending⟩ ⟨0, 0⟩).after
      [.addComponent ⟨"cache", some 50, [], .panics (.text "late")⟩]
    let ms : List Move := [.begin, .go, .go, .advance 10, .lookCall 0]
    let more : List Move := [.advance 50, .begin, .go]
    CanWithdraw w.service ∧
      ((w.apply .call).after ms).calls = [.ok (.finished ⟨[⟨"cache", .timedOut⟩]⟩)] ∧
      ((w.apply .call).after ms).service.result? 0 = none ∧
      w.teardownDeeds 0 (ms ++ more) =
        Shutdown.Component.conduct ⟨"cache", some 50, [], .panics (.text "late")⟩ 0 ∧
      ((w.apply .call).after (ms ++ more)).service.result? 0 = some (.panicked (.text "late")) ∧
      Shelved 0 ((w.apply .call).after ms) ((w.apply .call).after (ms ++ more)) := by
  intro w ms more
  have can : CanWithdraw w.service := by decide +kernel
  have calls : ((w.apply .call).after ms).calls =
      [.ok (.finished ⟨[⟨"cache", .timedOut⟩]⟩)] := by decide +kernel
  have timely : (w.apply .call).OnTime (ms ++ more) := by decide +kernel
  have rest : ((w.apply .call).after (ms ++ more)).AtRest :=
    ⟨by decide +kernel, by decide +kernel⟩
  obtain ⟨-, components, -, reports, -⟩ := drain_gives_nobody_up
    ⟨1000, 10, true, ⟨"api", "test", ⟨none, none⟩⟩, .ascending⟩ ⟨0, 0⟩
    [.addComponent ⟨"cache", some 50, [], .panics (.text "late")⟩] rfl can
  have done := (components 0 ⟨"cache", some 50, [], .panics (.text "late")⟩ rfl _ timely).1.moments
    rest
  obtain ⟨n, none_, shelved⟩ := (reports ms ⟨[⟨"cache", .timedOut⟩]⟩ (by
    rw [calls]
    rfl)).2 more
  obtain rfl : n = 0 := Nat.le_zero.mp none_
  exact ⟨can, calls, by decide +kernel, done.trans rfl, by decide +kernel, shelved⟩

end World

end ServiceHealth
