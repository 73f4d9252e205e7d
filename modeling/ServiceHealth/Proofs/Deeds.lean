import ServiceHealth.Proofs.Outlook

/-!
# What jobs do

Whatever a job does it does in a step of its turn. The deeds of some moves are these steps, each
with its moment and its job. They account for everything that a job can do to a service: what it
notes, the flags it writes and the checkers it registers.

* `World.deeds`: the deeds of some moves, in order.
* `after_events`: whatever is noted is noted by a deed. `did_of_history`: whatever is written is
  written from outside or by a deed.
* `after_over`: **whoever has ended or was given up stays as it is and does nothing any more**.
-/

namespace ServiceHealth

namespace Service

/-- Something that a job does in its turn at a moment: a step, or without one its close. -/
structure Deed where
  moment : Nat
  job : JobId
  step : Option Step

/-- What a job notes. -/
def notedBy (i : JobId) (s : Service) : List Event := s.events.filter (·.job = i)

end Service

open Service

namespace World

/-! ## 1. Deeds -/

/-- What is done by a job in a move. -/
def deedsOf (w : World) (m : Move) : List Deed :=
  match w.turn, m with
  | some t, .go => [⟨w.service.now, t.job, t.todo.head?⟩]
  | _, _ => []

/-- What is done by jobs in some moves, in order. -/
def deeds (w : World) : List Move → List Deed
  | [] => []
  | m :: ms => w.deedsOf m ++ (w.apply m).deeds ms

@[simp] theorem deeds_cons (w : World) (m : Move) (ms : List Move) :
    w.deeds (m :: ms) = w.deedsOf m ++ (w.apply m).deeds ms := rfl

theorem deeds_append (w : World) (ms ns : List Move) :
    w.deeds (ms ++ ns) = w.deeds ms ++ (w.after ms).deeds ns := by
  induction ms generalizing w with
  | nil => rfl
  | cons m ms ih => simp [ih, List.append_assoc]

/-- Outside a turn no job does anything. -/
theorem deedsOf_free {w : World} (free : w.turn = none) (m : Move) : w.deedsOf m = [] := by
  simp [deedsOf, free]

theorem deedsOf_go {w : World} {t : Turn} (ht : w.turn = some t) :
    w.deedsOf .go = [⟨w.service.now, t.job, t.todo.head?⟩] := by
  simp [deedsOf, ht]

/-- In a turn nothing but its steps is a deed. -/
theorem deedsOf_wait {w : World} {m : Move} (other : m ≠ .go) : w.deedsOf m = [] := by
  unfold deedsOf
  split
  · exact absurd rfl other
  · rfl

theorem deeds_of_mem {w : World} {before after : List Move} {m : Move} {d : Deed}
    (mem : d ∈ (w.after before).deedsOf m) : d ∈ w.deeds (before ++ m :: after) := by
  rw [deeds_append, deeds_cons]
  exact List.mem_append_right _ (List.mem_append_left _ mem)

end World

/-! ## 2. What is noted and what is written -/

namespace Service

/-- Events are added, all of them noted by a job at a moment. -/
def Notes (job : JobId) (moment : Nat) (s s' : Service) : Prop :=
  ∃ more, s'.events = s.events ++ more ∧ ∀ e ∈ more, e.job = job ∧ e.moment = moment

theorem Notes.nothing {job : JobId} {moment : Nat} {s s' : Service} (h : s'.events = s.events) :
    Notes job moment s s' := ⟨[], by simp [h], nofun⟩

theorem Notes.note (s : Service) (job : JobId) (who what : String) :
    Notes job s.now s (s.note job who what) :=
  ⟨[⟨s.now, job, who, what⟩], rfl, by simp⟩

theorem claim_events (s : Service) (task : Nat) : (s.claim task).2.events = s.events := by
  unfold claim
  split <;> rfl

theorem act_notes (s : Service) (job : JobId) (who : String) (x : Step) :
    Notes job s.now s (s.act job who x) := by
  cases x with
  | begin checker =>
    simp only [act, beginRun]
    split
    · split
      · exact ⟨[_], rfl, by simp⟩
      · exact .nothing rfl
    · exact .nothing rfl
  | note what => exact .note s job who what
  | noteStop deadline => exact .note s job who _
  | noteSignal what task => exact .note s job who _
  | perform a => cases a <;> exact .nothing rfl
  | _ => exact .nothing rfl

theorem closeJoin_events (s : Service) (job awaited : JobId) :
    (s.closeJoin job awaited).events = s.events := by
  unfold closeJoin
  split <;> rfl

theorem closeRun_notes (s : Service) (job : JobId) (checker deadline : Nat) :
    Notes job s.now s (s.closeRun job checker deadline) := by
  unfold closeRun
  split
  · exact .nothing rfl
  · rename_i e _
    have noted : Notes job s.now s
        (if e.checker.noted then s.note job e.checker.name "check end" else s) := by
      split
      · exact .note s job _ _
      · exact .nothing rfl
    dsimp only
    split
    · exact noted
    · exact noted
    · exact .nothing rfl
    · exact .nothing rfl

theorem closeJob_notes (s : Service) (job : JobId) (close : Close) :
    Notes job s.now s (s.closeJob job close) := by
  cases close with
  | verdict checker deadline => exact closeRun_notes s job checker deadline
  | ending e => cases e <;> exact .nothing rfl
  | stopTask task =>
    rcases closeStop_cases s job task with ⟨-, e⟩ | ⟨t, -, -, e⟩
    · rw [e]
      exact .nothing (claim_events _ task)
    · rw [e]
      exact .nothing ((closeJoin_events _ job t.body).trans (claim_events _ task))
  | join awaited => exact .nothing (closeJoin_events s job awaited)

/-- **Whoever notes something has its turn.** -/
theorem step_notes (t : Turn) (s : Service) : Notes t.job s.now s (t.step s).2 := by
  rcases t.step_cases s with ⟨x, rest, -, -, e⟩ | ⟨x, rest, state, -, -, e⟩ | ⟨-, e⟩
  · rw [e]
    exact act_notes s t.job t.who x
  · rw [e]
    exact .nothing rfl
  · rw [e]
    exact closeJob_notes s t.job t.close

theorem begin_events (s : Service) : (Turn.begin s).2.events = s.events := by
  unfold Turn.begin
  split <;> rfl

theorem startAggregation_events (s : Service) (deadline : Nat) :
    (s.startAggregation deadline).2.events = s.events := by
  have runs : ∀ (xs : List (String × Nat)) (s : Service),
      (startRuns deadline xs s).2.events = s.events := by
    intro xs
    induction xs with
    | nil => exact fun _ => rfl
    | cons x xs ih => exact fun s => ih (s.spawn _)
  exact runs s.rollCall s

theorem pollEntries_events (deadline : Nat) (es : List Entry) (s : Service) :
    (pollEntries deadline es s).2.events = s.events :=
  World.pollEntries_rule (P := fun s' => s'.events = s.events) deadline es (fun _ _ _ h => h) rfl

theorem poll_events (c : Call) (s : Service) : (c.poll s).2.events = s.events := by
  obtain ⟨_, _, _, e⟩ := poll_frame c s
  rw [e]

end Service

namespace World

theorem inquire_events (w : World) (request : Option Probe.Request) (timeout : Nat) :
    (w.inquire request timeout).service.events = w.service.events := by
  unfold inquire
  split
  · rfl
  · exact startAggregation_events _ _

/-- **Nothing is noted outside a turn.** -/
theorem outside_events (w : World) (m : Move) :
    (w.outside m).service.events = w.service.events := by
  cases m with
  | act a => cases a <;> rfl
  | request r =>
    unfold outside receive
    dsimp only
    split
    · exact inquire_events w _ _
    · rename_i hr
      have other : ¬ isLiveness r := fun ⟨b, hb⟩ => hr b hb
      rcases respond_frame w.service r other with e | e <;> rw [e]
  | ask timeout => exact inquire_events w _ _
  | look i =>
    unfold outside look
    dsimp only
    split
    · exact pollEntries_events _ _ _
    · rfl
  | answer i =>
    unfold outside answer
    dsimp only
    repeat' split
    all_goals rfl
  | stop k giveUp => exact claim_events _ k
  | call =>
    show w.call.service.events = _
    rcases call_cases w with ⟨-, e, -⟩ | ⟨-, -, e, -⟩ | ⟨d, -, -, e, -⟩
    · rw [e]
      rfl
    · rw [e]
    · rw [e]
      exact poll_events _ _
  | lookCall i =>
    unfold outside lookCall
    dsimp only
    split
    · exact poll_events _ _
    · rfl
  | begin => exact begin_events w.service
  | advance moment =>
    unfold outside
    dsimp only
    split <;> rfl
  | _ => rfl

theorem apply_events (w : World) (m : Move) : ∃ more,
    (w.apply m).service.events = w.service.events ++ more ∧
      ∀ e ∈ more, ∃ d ∈ w.deedsOf m, d.job = e.job ∧ d.moment = e.moment := by
  rcases w.apply_cases m with ⟨-, e⟩ | ⟨t, ht, rfl, e⟩ | ⟨t, -, -, e⟩
  · exact ⟨[], by simp [e, outside_events], nofun⟩
  · obtain ⟨more, events, noted⟩ := step_notes t w.service
    refine ⟨more, by rw [e]; exact events, fun e mem => ?_⟩
    obtain ⟨job, moment⟩ := noted e mem
    exact ⟨_, by rw [deedsOf_go ht]; exact List.mem_singleton.mpr rfl, job.symm, moment.symm⟩
  · exact ⟨[], by simp [e], nofun⟩

/-- **Whatever is noted is noted by a deed**: of its job, at its moment. -/
theorem after_events (w : World) (ms : List Move) : ∃ more,
    (w.after ms).service.events = w.service.events ++ more ∧
      ∀ e ∈ more, ∃ d ∈ w.deeds ms, d.job = e.job ∧ d.moment = e.moment := by
  induction ms generalizing w with
  | nil => exact ⟨[], by simp, nofun⟩
  | cons m ms ih =>
    obtain ⟨first, events, noted⟩ := apply_events w m
    obtain ⟨more, events', noted'⟩ := ih (w.apply m)
    refine ⟨first ++ more, ?_, fun e mem => ?_⟩
    · rw [after_cons, events', events, List.append_assoc]
    · rw [deeds_cons]
      rcases List.mem_append.mp mem with old | new
      · obtain ⟨d, hd, same⟩ := noted e old
        exact ⟨d, List.mem_append_left _ hd, same⟩
      · obtain ⟨d, hd, same⟩ := noted' e new
        exact ⟨d, List.mem_append_right _ hd, same⟩

/-- A job that does nothing notes nothing. -/
theorem notedBy_after {w : World} {ms : List Move} {i : JobId}
    (idle : ∀ d ∈ w.deeds ms, d.job ≠ i) :
    (w.after ms).service.notedBy i = w.service.notedBy i := by
  obtain ⟨more, events, noted⟩ := after_events w ms
  have others : more.filter (·.job = i) = [] := by
    refine List.filter_eq_nil_iff.mpr fun e mem => ?_
    obtain ⟨d, hd, job, -⟩ := noted e mem
    simpa [← job] using idle d hd
  simp [notedBy, events, others]

/-- **Whatever is written is written from outside or by a deed.** -/
theorem did_of_history {w : World} {ms : List Move} {a : Health.Action Health.Checker}
    (mem : .did a ∈ w.history ms) :
    .act a ∈ ms ∨ ∃ d ∈ w.deeds ms, d.step = some (.perform a) := by
  obtain ⟨before, m, after, rfl, here⟩ := mem_history mem
  have observed := observed_of_mem here
  cases observed with
  | acted => exact .inl (by simp)
  | @performed t _ rest ht todo =>
    refine .inr ⟨⟨(w.after before).service.now, t.job, t.todo.head?⟩, deeds_of_mem ?_, ?_⟩
    · rw [deedsOf_go ht]
      exact List.mem_singleton.mpr rfl
    · rw [todo]
      rfl

end World

/-! ## 3. Whoever is over -/

namespace Service

/-- Whoever is over is neither woken nor given up again. -/
theorem Job.woken_over {p : JobState → Bool} {j : Job} (gone : j.state.isOver = true)
    (held : ∀ state, p state = true → state.isOver = false) : j.woken p = j := by
  refine Job.woken_eq_self (Bool.eq_false_iff.mpr fun k => ?_)
  rw [held _ k] at gone
  cases gone

theorem sleepsUntil_going (moment : Nat) (state : JobState)
    (h : JobState.sleepsUntil moment state = true) : state.isOver = false := by
  cases state <;> first | rfl | cases h

theorem waits_going (state : JobState) (h : state.waits = true) : state.isOver = false := by
  cases state <;> first | rfl | cases h

theorem abort_over {s : Service} {i : JobId} {j : Job} (hj : s.jobs[i]? = some j)
    (gone : j.state.isOver = true) (job : JobId) : (s.abort job).jobs[i]? = some j := by
  cases hs : j.state with
  | ended r => exact abort_getElem?_ended hj hs job
  | aborted =>
    obtain ⟨who, todo, close, state⟩ := j
    cases hs
    unfold abort
    rw [updateJob_getElem?, hj]
    simp
  | _ =>
    rw [hs] at gone
    cases gone

/-- Whoever is over has no turn, and the turns of others leave it as it is. -/
theorem step_over {t : Turn} {s : Service} (scheduled : Scheduled (some t) s) {i : JobId} {j : Job}
    (hj : s.jobs[i]? = some j) (gone : j.state.isOver = true) :
    t.job ≠ i ∧ (t.step s).2.jobs[i]? = some j := by
  have other : t.job ≠ i := by
    rintro rfl
    obtain ⟨j', hj', ready, -⟩ := scheduled.seated t rfl
    rw [hj] at hj'
    cases hj'
    rw [ready] at gone
    cases gone
  obtain ⟨j', hj', stirred⟩ := step_stirred t s hj other
  refine ⟨other, ?_⟩
  cases stirred with
  | same => exact hj'
  | woken waits =>
    rw [waits_going j.state waits] at gone
    cases gone

end Service

namespace World

theorem outside_over {w : World} {i : JobId} {j : Job} (hj : w.service.jobs[i]? = some j)
    (gone : j.state.isOver = true) (m : Move) : (w.outside m).service.jobs[i]? = some j := by
  by_cases hb : m = .begin
  · subst hb
    show (Turn.begin w.service).2.jobs[i]? = some j
    rw [begin_jobs]
    exact hj
  have woken : ∀ (s : Service) (p : JobState → Bool),
      (∀ state, p state = true → state.isOver = false) → s.jobs[i]? = some j →
      (s.wake p).jobs[i]? = some j := by
    intro s p held hs
    rw [wake_getElem?, hs, Option.map_some, Job.woken_over gone held]
  refine outside_rule (P := fun s => s.jobs[i]? = some j) hb hj
    (fun _ _ q h => by rw [q.jobs]; exact h) (fun _ _ => hj) (fun t _ => ?_)
    (fun s number c d _ h => spawn_getElem?_old h) (fun s job _ h => abort_over h gone job)
    (fun k _ _ => ?_) (fun _ _ d => ?_)
    (fun moment _ => woken { w.service with now := moment } _ (sleepsUntil_going moment) hj)
  · exact spawn_getElem?_old hj
  · rw [(claim_frame _ k).1]
    exact woken (w.service.updateTask k _) _
      (fun state h => waits_going state (awaits_waits k state h)) hj
  · rw [teardownsStarted_jobs, List.getElem?_append_left (List.getElem?_eq_some_iff.mp hj).1]
    exact hj

theorem apply_over {w : World} (scheduled : Scheduled w.turn w.service) {i : JobId} {j : Job}
    (hj : w.service.jobs[i]? = some j) (gone : j.state.isOver = true) (m : Move) :
    (w.apply m).service.jobs[i]? = some j ∧ ∀ d ∈ w.deedsOf m, d.job ≠ i := by
  rcases w.apply_cases m with ⟨free, e⟩ | ⟨t, ht, rfl, e⟩ | ⟨t, -, wait, e⟩
  · rw [e, deedsOf_free free]
    exact ⟨outside_over hj gone m, nofun⟩
  · rw [ht] at scheduled
    obtain ⟨other, kept⟩ := step_over scheduled hj gone
    rw [e]
    refine ⟨kept, fun d hd => ?_⟩
    rw [deedsOf_go ht, List.mem_singleton] at hd
    rw [hd]
    exact other
  · rw [e, deedsOf_wait wait]
    exact ⟨hj, nofun⟩

/-- **Whoever has ended or was given up stays as it is and does nothing any more.** -/
theorem after_over {w : World} (scheduled : Scheduled w.turn w.service) {i : JobId} {j : Job}
    (hj : w.service.jobs[i]? = some j) (gone : j.state.isOver = true) (ms : List Move) :
    (w.after ms).service.jobs[i]? = some j ∧ ∀ d ∈ w.deeds ms, d.job ≠ i := by
  induction ms generalizing w with
  | nil => exact ⟨hj, nofun⟩
  | cons m ms ih =>
    obtain ⟨kept, idle⟩ := apply_over scheduled hj gone m
    obtain ⟨kept', idle'⟩ := ih (apply_scheduled w m scheduled) kept
    refine ⟨kept', fun d hd => ?_⟩
    rcases List.mem_append.mp hd with here | later
    · exact idle d here
    · exact idle' d later

end World

end ServiceHealth
