import ServiceHealth.Proofs.Line
import ServiceHealth.Proofs.Outcomes

/-!
# What a run of a checker gives

A run ends in the way that its checker has for the run with its number, and its number is its place
among the runs of that checker. Checkers are never changed and the runs that have begun stay in
their order, so what a run has given can be read off the registry at any later time.

* `Checker.gives?`: what a run gives that ends at a moment.
* `closeRun_cases`: how a run ends.
* `Attested`, `after_attested`: **in every world, what a run has given is what its own checker gives
  for the run with its number**.
-/

namespace ServiceHealth

/-- What a run of a checker gives that ends at a moment, if it ends. -/
def Health.Checker.gives? (c : Health.Checker) (run deadline moment : Nat) :
    Option Health.Outcome :=
  match c.ending run with
  | .returns o => some o
  | .timeLeft => some (.failed (.unhealthy (toString (deadline - moment) ++ " ms left")))
  | .panics _ => some (.failed .panicked)
  | .hangs => none

namespace Service

/-! ## 1. The end of a run -/

/-- **How a run ends**: it gives what its checker gives, or it never goes on. -/
theorem closeRun_cases {s : Service} {job : JobId} {j : Job} {n : Nat} {e : Enrolled}
    (hj : s.jobs[job]? = some j) (he : s.checkers[n]? = some e) (deadline : Nat) :
    (∃ r, (s.closeRun job n deadline).jobs[job]? = some { j with todo := [], state := .ended r } ∧
      e.checker.gives? (e.runs.idxOf job) deadline s.now = some r.asCheck) ∨
    ((s.closeRun job n deadline).jobs[job]? =
        some { j with todo := [], close := .verdict n deadline, state := .hung } ∧
      e.checker.gives? (e.runs.idxOf job) deadline s.now = none) := by
  have concluded : ∀ (s' : Service) (r : Result), s'.jobs = s.jobs →
      (s'.conclude job r).jobs[job]? = some { j with todo := [], state := .ended r } := by
    intro s' r same
    rw [conclude_getElem?, same, hj, Option.map_some, if_pos rfl]
  have noted : (if e.checker.noted then s.note job e.checker.name "check end" else s).jobs =
      s.jobs := by split <;> rfl
  unfold closeRun Health.Checker.gives?
  rw [he]
  dsimp only
  cases e.checker.ending (e.runs.idxOf job) with
  | returns o => exact .inl ⟨_, concluded _ _ noted, rfl⟩
  | timeLeft => exact .inl ⟨_, concluded _ _ noted, rfl⟩
  | panics p => exact .inl ⟨_, concluded _ _ rfl, rfl⟩
  | hangs =>
    refine .inr ⟨?_, rfl⟩
    dsimp only
    rw [hold_getElem?, hj, Option.map_some, if_pos rfl]

/-! ## 2. The invariant -/

/-- **Every run is attested by its checker**, the one in the list `checkers`: whoever has begun a
run is a job, and a job that runs a checker has still to begin, or is among its runs; what it has
given is what the checker gives for the run with that number. -/
structure Attested (checkers : List Enrolled) (turn : Option Turn) (s : Service) : Prop where
  known : ∀ (n : Nat) (e : Enrolled), checkers[n]? = some e → ∀ i ∈ e.runs, i < s.jobs.length
  run : ∀ (i : JobId) (j : Job) (n d : Nat), s.jobs[i]? = some j → j.close = .verdict n d →
    ∃ e, checkers[n]? = some e ∧ (Step.begin n ∈ j.todo ∨ i ∈ e.runs) ∧
      ∀ r, j.state = .ended r → i ∈ e.runs ∧
        ∃ m, m ≤ s.now ∧ e.checker.gives? (e.runs.idxOf i) d m = some r.asCheck
  seated : ∀ t, turn = some t → ∀ n d, t.close = .verdict n d →
    ∃ e, checkers[n]? = some e ∧ (Step.begin n ∈ t.todo ∨ t.job ∈ e.runs)

theorem new_attested (setup : Setup) (clock : Time.Stamp) :
    Attested (Service.new setup clock).checkers none (.new setup clock) where
  known _ _ h := nomatch h
  run _ _ _ _ h := nomatch h
  seated _ h := nomatch h

/-- Runs that begin later change nothing for those that have begun. -/
theorem Attested.grow {checkers checkers' : List Enrolled} {turn : Option Turn} {s : Service}
    (h : Attested checkers turn s)
    (grown : ∀ (n : Nat) (e : Enrolled), checkers[n]? = some e →
      ∃ more : List JobId, checkers'[n]? = some ⟨e.checker, e.runs ++ more⟩)
    (known : ∀ (n : Nat) (e : Enrolled), checkers'[n]? = some e → ∀ i ∈ e.runs, i < s.jobs.length) :
    Attested checkers' turn s where
  known := known
  run i j n d hj close := by
    obtain ⟨e, he, place, ended⟩ := h.run i j n d hj close
    obtain ⟨more, he'⟩ := grown n e he
    refine ⟨_, he', place.imp id (List.mem_append_left _), fun r hr => ?_⟩
    obtain ⟨mem, m, le, gives⟩ := ended r hr
    exact ⟨List.mem_append_left _ mem, m, le, by rw [List.idxOf_append, if_pos mem]; exact gives⟩
  seated t ht n d close := by
    obtain ⟨e, he, place⟩ := h.seated t ht n d close
    obtain ⟨more, he'⟩ := grown n e he
    exact ⟨_, he', place.imp id (List.mem_append_left _)⟩

/-- A change outside a turn: every run was there before and has given what it had given, or it is
new and has still to begin. -/
theorem Attested.carry {checkers : List Enrolled} {turn : Option Turn} {s s' : Service}
    (h : Attested checkers turn s) (now : s.now ≤ s'.now)
    (length : s.jobs.length ≤ s'.jobs.length)
    (jobs : ∀ (i : JobId) (j' : Job) (n d : Nat), s'.jobs[i]? = some j' →
      j'.close = .verdict n d →
      (∃ j, s.jobs[i]? = some j ∧ j.close = j'.close ∧ j.todo = j'.todo ∧
        ∀ r, j'.state = .ended r → j.state = .ended r) ∨
      ((∃ e, checkers[n]? = some e) ∧ Step.begin n ∈ j'.todo ∧ ∀ r, j'.state ≠ .ended r)) :
    Attested checkers none s' where
  known n e he i hi := Nat.lt_of_lt_of_le (h.known n e he i hi) length
  run i j' n d hj' close := by
    rcases jobs i j' n d hj' close with ⟨j, hj, same, todo, state⟩ | ⟨⟨e, he⟩, begins, going⟩
    · obtain ⟨e, he, place, ended⟩ := h.run i j n d hj (same.trans close)
      refine ⟨e, he, by rw [← todo]; exact place, fun r hr => ?_⟩
      obtain ⟨mem, m, le, gives⟩ := ended r (state r hr)
      exact ⟨mem, m, Nat.le_trans le now, gives⟩
    · exact ⟨e, he, .inl begins, fun r hr => absurd hr (going r)⟩
  seated _ ht := nomatch ht

/-! ## 3. Turns -/

section Turns

variable {t : Turn} {s : Service}

theorem Stirred.todo {j j' : Job} (h : Stirred j j') : j'.todo = j.todo := by cases h <;> rfl

/-- Whoever begins a run in its turn is a job. -/
theorem step_known (scheduled : Scheduled (some t) s) (h : Attested s.checkers (some t) s) (n : Nat)
    (e : Enrolled) (he : (t.step s).2.checkers[n]? = some e) (i : JobId) (hi : i ∈ e.runs) :
    i < s.jobs.length := by
  cases World.step_enrolment t s with
  | same registry =>
    rw [registry.checkers] at he
    exact h.known n e he i hi
  | @began _ k _ seat _ _ checkers =>
    cases seat
    rw [checkers] at he
    obtain ⟨e', he', rfl⟩ := Option.map_eq_some_iff.mp he
    split at hi
    · rcases List.mem_append.mp hi with old | new
      · exact h.known n e' he' i old
      · rw [List.mem_singleton.mp new]
        exact scheduled.seat
    · exact h.known n e' he' i hi
  | registered c registry =>
    rw [registry.checkers] at he
    rcases List.mem_append.mp (List.mem_of_getElem? he) with old | new
    · obtain ⟨k, hk⟩ := List.getElem?_of_mem old
      exact h.known k e hk i hi
    · rw [List.mem_singleton.mp new] at hi
      cases hi

/-- The end of a run in its turn. -/
theorem step_ended (scheduled : Scheduled (some t) s) (h : Attested s.checkers (some t) s)
    {j' : Job} {n d : Nat} {r : Result} (close : t.close = .verdict n d)
    (hj' : (t.step s).2.jobs[t.job]? = some j') (ended : j'.state = .ended r) :
    ∃ e, s.checkers[n]? = some e ∧ (t.step s).2.checkers = s.checkers ∧ t.job ∈ e.runs ∧
      e.checker.gives? (e.runs.idxOf t.job) d s.now = some r.asCheck := by
  obtain ⟨j, hj, ready, -, -⟩ := scheduled.seated t rfl
  rcases t.step_cases s with ⟨x, rest, -, -, eq⟩ | ⟨x, rest, state, -, hx, eq⟩ | ⟨ht, eq⟩
  · rw [eq, (act_frame s t.job t.who x).1, hj] at hj'
    cases hj'
    rw [ready] at ended
    cases ended
  · rw [eq] at hj'
    rw [hold_getElem?, hj, Option.map_some, if_pos rfl] at hj'
    cases hj'
    rcases holdUp?_cases hx with ⟨_, -, -, rfl⟩ | ⟨_, -, -, rfl⟩ <;> cases ended
  · obtain ⟨e, he, place⟩ := h.seated t rfl n d close
    have mem : t.job ∈ e.runs := by
      rw [ht] at place
      exact place.resolve_left List.not_mem_nil
    rw [eq] at hj' ⊢
    have same := (closed_closeJob s t.job t.close).jobsOnly.checkers
    rw [close] at hj' same ⊢
    refine ⟨e, he, same, mem, ?_⟩
    change (s.closeRun t.job n d).jobs[t.job]? = some j' at hj'
    rcases closeRun_cases hj he d with ⟨r', k, gives⟩ | ⟨k, -⟩
    · rw [k] at hj'
      cases hj'
      cases ended
      exact gives
    · rw [k] at hj'
      cases hj'
      cases ended

/-- What is left of the script of a run that is held up or closed in its turn. -/
theorem step_place (scheduled : Scheduled (some t) s) (h : Attested s.checkers (some t) s)
    {j' : Job} {n d : Nat} (close : t.close = .verdict n d)
    (hj' : (t.step s).2.jobs[t.job]? = some j') :
    ∃ e, s.checkers[n]? = some e ∧ (Step.begin n ∈ j'.todo ∨ t.job ∈ e.runs) := by
  obtain ⟨j, hj, ready, same, -⟩ := scheduled.seated t rfl
  obtain ⟨e, he, place⟩ := h.seated t rfl n d close
  refine ⟨e, he, ?_⟩
  rcases t.step_cases s with ⟨x, rest, -, -, eq⟩ | ⟨x, rest, state, ht, hx, eq⟩ | ⟨ht, eq⟩
  · rw [eq, (act_frame s t.job t.who x).1, hj] at hj'
    cases hj'
    obtain ⟨e', he', place', -⟩ := h.run t.job j' n d hj (same.trans close)
    rw [he] at he'
    cases he'
    exact place'
  · rw [eq] at hj'
    rw [hold_getElem?, hj, Option.map_some, if_pos rfl] at hj'
    cases hj'
    rw [ht] at place
    refine place.imp (fun mem => ?_) id
    rcases List.mem_cons.mp mem with rfl | mem
    · rcases holdUp?_cases hx with ⟨_, k, -, -⟩ | ⟨_, k, -, -⟩ <;> cases k
    · exact mem
  · rw [ht] at place
    exact .inr (place.resolve_left List.not_mem_nil)

/-- The run that has its turn, after a step of it. -/
theorem step_own_run (scheduled : Scheduled (some t) s) (h : Attested s.checkers (some t) s)
    {j' : Job} {n d : Nat} (close : t.close = .verdict n d)
    (hj' : (t.step s).2.jobs[t.job]? = some j') :
    ∃ e, (t.step s).2.checkers[n]? = some e ∧ (Step.begin n ∈ j'.todo ∨ t.job ∈ e.runs) ∧
      ∀ r, j'.state = .ended r → t.job ∈ e.runs ∧
        ∃ m, m ≤ s.now ∧ e.checker.gives? (e.runs.idxOf t.job) d m = some r.asCheck := by
  obtain ⟨e, he, place⟩ := step_place scheduled h close hj'
  obtain ⟨more, he'⟩ := step_grown t s n e he
  refine ⟨_, he', place.imp id (List.mem_append_left _), fun r hr => ?_⟩
  obtain ⟨e₁, he₁, same, mem, gives⟩ := step_ended scheduled h close hj' hr
  rw [same, he₁] at he'
  rw [he] at he₁
  cases he₁
  have runs : e.runs ++ more = e.runs := (congrArg (·.runs) (Option.some.inj he')).symm
  rw [runs]
  exact ⟨mem, s.now, Nat.le_refl _, gives⟩

/-- A run that goes on with its turn has still to begin, or has begun. -/
theorem step_seated (h : Attested s.checkers (some t) s) {t' : Turn}
    (ht' : (t.step s).1 = some t') {n d : Nat} (close : t'.close = .verdict n d) :
    ∃ e, (t.step s).2.checkers[n]? = some e ∧ (Step.begin n ∈ t'.todo ∨ t'.job ∈ e.runs) := by
  rcases t.step_cases s with ⟨x, rest, ht, -, eq⟩ | ⟨_, _, _, -, -, eq⟩ | ⟨-, eq⟩
  · rw [eq] at ht'
    cases ht'
    obtain ⟨e, he, place⟩ := h.seated t rfl n d close
    obtain ⟨more, he'⟩ := step_grown t s n e he
    rw [ht] at place
    refine ⟨_, he', ?_⟩
    rcases place with mem | mem
    · rcases List.mem_cons.mp mem with rfl | mem
      · -- the run begins with this very step
        refine .inr ?_
        rw [eq] at he'
        have checkers := beginRun_checkers s t.job t.who n n
        rw [he, Option.map_some, if_pos rfl] at checkers
        have here := checkers.symm.trans he'
        rw [Option.some.injEq] at here
        rw [← congrArg (·.runs) here]
        exact List.mem_append_right _ (List.mem_singleton.mpr rfl)
      · exact .inl mem
    · exact .inr (List.mem_append_left _ mem)
  · rw [eq] at ht'
    cases ht'
  · rw [eq] at ht'
    cases ht'

/-- **A step of a turn keeps what holds of the runs.** -/
theorem step_attested (scheduled : Scheduled (some t) s) (h : Attested s.checkers (some t) s) :
    Attested (t.step s).2.checkers (t.step s).1 (t.step s).2 := by
  have ev := step_evolves scheduled
  refine ⟨fun n e he i hi => ?_, fun i j' n d hj' close' => ?_, fun t' ht' n d => step_seated h ht'⟩
  · rw [ev.length]
    exact step_known scheduled h n e he i hi
  · obtain ⟨j, hj, evolved⟩ := ev.jobs i j' hj'
    have close : j.close = .verdict n d := by
      rcases evolved.close with c | ⟨_, _, -, -, -, c⟩
      · exact c.symm.trans close'
      · rw [close'] at c
        cases c
    rw [step_now]
    by_cases own : t.job = i
    · subst own
      obtain ⟨j₀, hj₀, -, seat, -⟩ := scheduled.seated t rfl
      rw [hj] at hj₀
      cases hj₀
      exact step_own_run scheduled h (seat.symm.trans close) hj'
    · obtain ⟨j₁, hj₁, st⟩ := step_stirred t s hj own
      rw [hj'] at hj₁
      cases hj₁
      obtain ⟨e, he, place, ended⟩ := h.run i j n d hj close
      obtain ⟨more, he'⟩ := step_grown t s n e he
      refine ⟨_, he', ?_, fun r hr => ?_⟩
      · rw [st.todo]
        exact place.imp id (List.mem_append_left _)
      · obtain ⟨mem, m, le, gives⟩ := ended r (st.ended.mp hr)
        rw [List.idxOf_append, if_pos mem]
        exact ⟨List.mem_append_left _ mem, m, le, gives⟩

theorem begin_attested {checkers : List Enrolled} (h : Attested checkers none s) :
    Attested checkers (Turn.begin s).1 (Turn.begin s).2 := by
  have jobs := begin_jobs s
  refine ⟨by rw [jobs]; exact h.known, ?_, ?_⟩
  · rw [jobs, (JobsOnly.begin s).now]
    exact h.run
  · intro t ht n d close
    obtain ⟨j, hj, -, same, todo⟩ := Turn.begin_eq_some ht
    obtain ⟨e, he, place, -⟩ := h.run t.job j n d hj (same.trans close)
    exact ⟨e, he, by rw [← todo]; exact place⟩

end Turns

/-! ## 4. What happens from outside -/

section Outside

variable {checkers : List Enrolled} {s : Service}

theorem Attested.quiet (h : Attested checkers none s) {s' : Service} (jobs : s'.jobs = s.jobs)
    (now : s'.now = s.now) : Attested checkers none s' :=
  h.carry (by rw [now]) (by rw [jobs]) fun i j' n d hj' _ =>
    .inl ⟨j', by rw [← jobs]; exact hj', rfl, rfl, fun _ => id⟩

theorem Attested.wake (h : Attested checkers none s) (s' : Service) (jobs : s'.jobs = s.jobs)
    (now : s.now ≤ s'.now) (p : JobState → Bool) : Attested checkers none (s'.wake p) := by
  refine h.carry now (by rw [jobs_wake_length, jobs]) fun i j' n d hj' _ => ?_
  obtain ⟨j, hj, rfl⟩ := woken_of hj'
  rw [jobs] at hj
  exact .inl ⟨j, hj, (j.woken_close p).symm, (j.woken_todo p).symm, fun r hr =>
    (Job.of_woken hr nofun).1⟩

/-- A job that is started is no run, or the run of a checker that is registered. -/
theorem Attested.spawn (h : Attested checkers none s) {new : Job} (ready : new.state = .ready)
    (run : ∀ n d, new.close = .verdict n d →
      (∃ e, checkers[n]? = some e) ∧ Step.begin n ∈ new.todo) :
    Attested checkers none (s.spawn new) := by
  refine h.carry (Nat.le_refl _) ?_ fun i j' n d hj' close => ?_
  · show s.jobs.length ≤ (s.jobs ++ [new]).length
    rw [List.length_append]
    exact Nat.le_add_right _ _
  · rcases spawn_getElem? hj' with old | ⟨-, rfl⟩
    · exact .inl ⟨j', old, rfl, rfl, fun _ => id⟩
    · obtain ⟨enrolled, begins⟩ := run n d close
      exact .inr ⟨enrolled, begins, fun r hr => by rw [ready] at hr; cases hr⟩

theorem Attested.abort (h : Attested checkers none s) (job : JobId) :
    Attested checkers none (s.abort job) := by
  refine h.carry (Nat.le_refl _) (by unfold Service.abort; rw [jobs_updateJob_length])
    fun i j' n d hj' _ => ?_
  rcases abort_getElem? hj' with old | ⟨j, hj, -, rfl⟩
  · exact .inl ⟨j', old, rfl, rfl, fun _ => id⟩
  · exact .inl ⟨j, hj, rfl, rfl, fun _ hr => by cases hr⟩

theorem Attested.teardownsStarted (h : Attested checkers none s) (deadline : Nat) :
    Attested checkers none (s.teardownsStarted deadline) := by
  refine h.carry (Nat.le_refl _) ?_ fun i j' n d hj' close => ?_
  · rw [teardownsStarted_jobs, List.length_append]
    exact Nat.le_add_right _ _
  · rcases teardownsStarted_getElem? hj' with old | ⟨m, -, -, rfl⟩
    · exact .inl ⟨j', old, rfl, rfl, fun _ => id⟩
    · cases m <;> cases close

end Outside

end Service

open Service

namespace World

theorem outside_attested {w : World} (free : w.turn = none) (enlisted : Enlisted w.service)
    (h : Attested w.service.checkers none w.service) (m : Move) :
    Attested (w.outside m).service.checkers (w.outside m).turn (w.outside m).service := by
  by_cases hb : m = .begin
  · subst hb
    show Attested (Turn.begin w.service).2.checkers _ _
    rw [(JobsOnly.begin w.service).checkers]
    exact begin_attested h
  rw [outside_turn w m hb free]
  by_cases hm : ∃ a, m = .act a
  · obtain ⟨a, rfl⟩ := hm
    have acted : Attested w.service.checkers none (w.service.performAction a) :=
      h.quiet (performAction_jobs _ a) (performAction_now _ a)
    cases a with
    | register c =>
      refine acted.grow (grown_register w.service c) fun n e he i hi => ?_
      rcases List.mem_append.mp (List.mem_of_getElem? he) with old | new
      · obtain ⟨k, hk⟩ := List.getElem?_of_mem old
        exact h.known k e hk i hi
      · rw [List.mem_singleton.mp new] at hi
        cases hi
    | _ => exact acted
  · rw [(outside_registry w m fun a e => hm ⟨a, e⟩).checkers]
    refine outside_rule (P := Attested w.service.checkers none) hb h
      (fun _ _ q h => h.quiet q.jobs q.now) (fun _ _ => h.quiet rfl rfl)
      (fun t _ => (h.spawn rfl fun _ _ close => by cases close).quiet rfl rfl)
      (fun _ number c d listed h => h.spawn rfl fun n _ close => ?_)
      (fun _ job _ h => h.abort job) (fun k _ _ => ?_)
      (fun _ _ d => h.teardownsStarted d) (fun moment later => ?_)
    · cases close
      obtain ⟨⟨name, mem⟩, -⟩ := listed
      obtain ⟨e, he, -⟩ := enlisted name number (Keyed.get?_eq_some.mpr mem)
      exact ⟨⟨e, he⟩, List.mem_cons_self⟩
    · obtain ⟨jobs, -, now⟩ := claim_frame (w.service.fire k) k
      refine Attested.quiet ?_ jobs now
      exact h.wake (w.service.updateTask k _) rfl (Nat.le_refl _) _
    · exact h.wake { w.service with now := moment } rfl (Nat.le_of_lt later) _

/-- **In every world, what a run has given is what its own checker gives for the run with its
number.** -/
theorem after_attested (w : World) (ms : List Move) (scheduled : Scheduled w.turn w.service)
    (enlisted : Enlisted w.service) (h : Attested w.service.checkers w.turn w.service) :
    Attested (w.after ms).service.checkers (w.after ms).turn (w.after ms).service := by
  refine (after_induction (P := fun w => Scheduled w.turn w.service ∧ Enlisted w.service ∧
      Attested w.service.checkers w.turn w.service)
    (fun w m ⟨scheduled, enlisted, h⟩ =>
      ⟨apply_scheduled w m scheduled, (apply_enrolment w m).enlisted enlisted, ?_⟩)
    w ms ⟨scheduled, enlisted, h⟩).2.2
  rcases w.apply_cases m with ⟨free, e⟩ | ⟨t, ht, -, e⟩ | ⟨t, -, -, e⟩
  · rw [free] at h
    rw [e]
    exact outside_attested free enlisted h m
  · rw [ht] at scheduled h
    rw [e]
    exact step_attested scheduled h
  · rw [e]
    exact h

end World

end ServiceHealth
