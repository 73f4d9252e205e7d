import ServiceHealth.Proofs.Tended

/-!
# When a task counts as finished

As soon as somebody has taken a task on it counts as finished, and everybody else who stops it is
told at once that it has stopped. That is true once whoever has taken it on has its result. Until
then, and for good if that call was given up, a task counts as finished whose body goes on.

* `LeftWaiting`: whoever has taken a task on has no result.
* `after_stopsTended`: in every world a task that was taken on has ended, or somebody was left
  waiting.
* `StopsTended.isFinished_iff`: **a task counts as finished if its body has ended or somebody was
  left waiting**.
* `finished_unless_left_waiting`: what is said of a task is true unless somebody was left waiting.
* `abandoned_worker_looks_finished`: a call that is given up makes it untrue.
-/

namespace ServiceHealth

open Service

namespace World

/-! ## 1. In every world -/

/-- A call to stop a task waits for a body, or was given up. -/
def CallWaits (stops : List StopCall) (b : JobId) : Prop :=
  ∃ c ∈ stops, c.awaited = some b ∧ ∀ r, c.answer ≠ some (.result r)

/-- **Somebody was left waiting**: whoever has taken on the task with a body, a call or a teardown,
has no result. -/
def LeftWaiting (w : World) (b : JobId) : Prop :=
  CallWaits w.stops b ∨ w.service.TeardownWaits b

/-- **Every task that was taken on is tended**: it has ended or is waited for, by a call or by a
teardown, and a call that has taken a task on answers with what its body gave. -/
structure StopsTended (w : World) : Prop where
  tended : Tended (CallWaits w.stops) w.service
  answered : ∀ c ∈ w.stops, ∀ b, c.awaited = some b →
    (∃ x ∈ w.service.tasks, x.body = b ∧ x.claimed = true) ∧
      ∀ r, c.answer = some (.result r) → ∃ r', w.service.result? b = some r' ∧ r = r'.asStop

theorem new_stopsTended (setup : Setup) (clock : Time.Stamp) : StopsTended (new setup clock) :=
  ⟨new_tended _ setup clock, nofun⟩

/-- What goes on without a word of the calls. -/
theorem StopsTended.carry {w w' : World} (h : StopsTended w) (stops : w'.stops = w.stops)
    (tended : Tended (CallWaits w.stops) w'.service) (holds : Holds w.service w'.service) :
    StopsTended w' where
  tended := by rw [stops]; exact tended
  answered c mem b awaited := by
    rw [stops] at mem
    obtain ⟨⟨x, hx, body, taken⟩, result⟩ := h.answered c mem b awaited
    obtain ⟨x', hx', body', taken'⟩ := holds.taken x hx taken
    refine ⟨⟨x', hx', body'.trans body, taken'⟩, fun r ho => ?_⟩
    obtain ⟨r', given, same⟩ := result r ho
    exact ⟨r', holds.given b r' given, same⟩

theorem poll_awaited (c : StopCall) (s : Service) : (c.poll s).awaited = c.awaited := by
  unfold StopCall.poll
  repeat' split
  all_goals rfl

/-- **A look at a call** that waits for a body: its answer is the result of the body, if there is
one. -/
theorem poll_answer (c : StopCall) (s : Service) {b : JobId} (awaited : c.awaited = some b) :
    (c.poll s).answer = c.answer ∨
      (∃ r, s.result? b = some r ∧ (c.poll s).answer = some (.result r.asStop)) ∨
      (s.result? b = none ∧ (c.poll s).answer = some .gaveUp) := by
  unfold StopCall.poll
  rw [awaited]
  cases ho : c.answer with
  | some o => exact .inl ho
  | none =>
    dsimp only
    cases s.result? b with
    | some r => exact .inr (.inl ⟨r, rfl, rfl⟩)
    | none =>
      dsimp only
      split
      · exact .inr (.inr ⟨rfl, rfl⟩)
      · exact .inl ho

/-- Whoever waits goes on waiting, unless the body has ended. -/
theorem poll_waits {c : StopCall} {s : Service} {b : JobId} (awaited : c.awaited = some b)
    (waits : ∀ r, c.answer ≠ some (.result r)) :
    (s.result? b).isSome ∨ ∀ r, (c.poll s).answer ≠ some (.result r) := by
  rcases poll_answer c s awaited with same | ⟨r, given, -⟩ | ⟨-, left⟩
  · rw [same]
    exact .inr waits
  · rw [given]
    exact .inl rfl
  · rw [left]
    exact .inr nofun

/-- A result that a call has after a look it had before, or it is that of the body. -/
theorem poll_result {c : StopCall} {s : Service} {b : JobId} (awaited : c.awaited = some b)
    {r : Shutdown.Result} (answer : (c.poll s).answer = some (.result r)) :
    c.answer = some (.result r) ∨ ∃ r', s.result? b = some r' ∧ r = r'.asStop := by
  rcases poll_answer c s awaited with same | ⟨r', given, gives⟩ | ⟨-, left⟩
  · exact .inl (same ▸ answer)
  · rw [gives] at answer
    cases answer
    exact .inr ⟨r', given, rfl⟩
  · rw [left] at answer
    cases answer

/-- A move other than a call to stop a task, seen from the tasks. -/
theorem outside_stopsTended {w : World} (h : StopsTended w) (haveBodies : TasksHaveBodies w.service)
    {m : Move} (hb : m ≠ .begin) (other : ∀ k giveUp, m ≠ .stop k giveUp) :
    Tended (CallWaits w.stops) (w.outside m).service ∧
      Holds w.service (w.outside m).service := by
  have lasts : ∀ s s' : Service, Lasting s s' → s'.tasks = s.tasks →
      Tended (CallWaits w.stops) s ∧ Holds w.service s →
      Tended (CallWaits w.stops) s' ∧ Holds w.service s' :=
    fun s s' lasting tasks h => ⟨h.1.carry lasting tasks, h.2.trans (lasting.holds tasks)⟩
  have here : Tended (CallWaits w.stops) w.service ∧ Holds w.service w.service :=
    ⟨h.tended, .refl _⟩
  refine outside_rule (P := fun s => Tended (CallWaits w.stops) s ∧ Holds w.service s) hb here
    (fun s s' q => lasts s s' (.of_jobs q.jobs) q.tasks)
    (fun _ _ => lasts w.service _ (.of_jobs rfl) rfl here)
    (fun t _ => ⟨h.tended.startTask t _, ?_, ?_⟩)
    (fun s number c d _ => lasts _ _ (.spawn ⟨ofRun_fresh number c d, nofun⟩) rfl)
    (fun s job _ => lasts _ _ (.abort s job) rfl)
    (fun k giveUp e => absurd e (other k giveUp))
    (fun _ _ d => lasts w.service _ (.teardownsStarted haveBodies d) rfl here)
    (fun moment _ => lasts w.service _ (.wake (fun _ => rfl) rfl) rfl here)
  · exact fun x mem taken => ⟨x, List.mem_append_left _ mem, rfl, taken⟩
  · exact fun b r given => (Lasting.spawn ⟨ofBody_fresh _ t, nofun⟩).gives given

/-- **A call to stop a task** takes it on and waits for its body, or has nothing to wait for. -/
theorem stop_cases (w : World) (k : Nat) (giveUp : Option Nat) :
    ((∀ x, w.service.tasks[k]? = some x → x.claimed = true) ∧
      w.stop k giveUp = { w with
        service := ((w.service.fire k).claim k).2
        stops := w.stops ++
          [⟨none, giveUp.map (wakeTime w.service.now), some (.result .ok)⟩] }) ∨
    ∃ x, w.service.tasks[k]? = some x ∧ x.claimed = false ∧
      w.stop k giveUp = { w with
        service := ((w.service.fire k).claim k).2
        stops := w.stops ++ [StopCall.poll
          ⟨some x.body, giveUp.map (wakeTime w.service.now), none⟩
          ((w.service.fire k).claim k).2] } := by
  have gets := claim_fst w.service k
  unfold stop
  generalize (w.service.fire k).claim k = claimed at gets
  obtain ⟨body, s'⟩ := claimed
  dsimp only at gets
  subst gets
  cases hx : w.service.tasks[k]? with
  | none => exact .inl ⟨nofun, rfl⟩
  | some x =>
    cases hc : x.claimed with
    | true => exact .inl ⟨fun y e => by cases e; exact hc, by simp [hc, StopCall.poll]⟩
    | false => exact .inr ⟨x, rfl, hc, by simp [hc]⟩

theorem CallWaits.more {stops : List StopCall} {b : JobId} (h : CallWaits stops b)
    (c : StopCall) : CallWaits (stops ++ [c]) b := by
  obtain ⟨c', mem, waits⟩ := h
  exact ⟨c', List.mem_append_left _ mem, waits⟩

theorem stop_stopsTended {w : World} (h : StopsTended w) (k : Nat) (giveUp : Option Nat) :
    StopsTended (w.stop k giveUp) := by
  have holds := told_holds w.service k
  have before : ∀ c ∈ w.stops, ∀ b, c.awaited = some b →
      (∃ x ∈ ((w.service.fire k).claim k).2.tasks, x.body = b ∧ x.claimed = true) ∧
        ∀ r, c.answer = some (.result r) →
          ∃ r', ((w.service.fire k).claim k).2.result? b = some r' ∧ r = r'.asStop := by
    intro c mem b awaited
    obtain ⟨⟨x, hx, body, taken⟩, result⟩ := h.answered c mem b awaited
    obtain ⟨x', hx', body', taken'⟩ := holds.taken x hx taken
    refine ⟨⟨x', hx', body'.trans body, taken'⟩, fun r ho => ?_⟩
    obtain ⟨r', given, same⟩ := result r ho
    exact ⟨r', holds.given b r' given, same⟩
  rcases stop_cases w k giveUp with ⟨taken, e⟩ | ⟨x, hx, free, e⟩
  · rw [e]
    refine ⟨h.tended.told k (fun b => (CallWaits.more · _)) fun x hx no => ?_,
      fun c mem b awaited => ?_⟩
    · rw [taken x hx] at no
      cases no
    · rcases List.mem_append.mp mem with old | new
      · exact before c old b awaited
      · rw [List.mem_singleton.mp new] at awaited
        cases awaited
  · rw [e]
    let call : StopCall := ⟨some x.body, giveUp.map (wakeTime w.service.now), none⟩
    refine ⟨h.tended.told k (fun b => (CallWaits.more · _)) fun y hy _ => ?_,
      fun c mem b awaited => ?_⟩
    · rw [hx] at hy
      cases hy
      have waits := poll_waits (c := call) (s := ((w.service.fire k).claim k).2) (b := x.body) rfl
        nofun
      refine waits.imp (fun ended => ?_) fun waits => ?_
      · rwa [result?_told] at ended
      · exact ⟨_, List.mem_append_right _ (List.mem_singleton.mpr rfl), poll_awaited _ _, waits⟩
    · rcases List.mem_append.mp mem with old | new
      · exact before c old b awaited
      · rw [List.mem_singleton.mp new] at awaited ⊢
        rw [poll_awaited] at awaited
        cases awaited
        refine ⟨⟨_, List.mem_of_getElem? (told_task w.service k hx), by simp⟩, fun r answer => ?_⟩
        exact (poll_result (c := call) rfl answer).resolve_left nofun

/-- A look at a call to stop a task. -/
theorem lookStop_stopsTended {w : World} (h : StopsTended w) (i : Nat) :
    StopsTended { w with stops := w.stops.modify i (·.poll w.service) } := by
  have now : ∀ {n : Nat} {c : StopCall}, w.stops[n]? = some c →
      (w.stops.modify i (·.poll w.service))[n]? =
        some (if i = n then c.poll w.service else c) := by
    intro n c hc
    rw [List.getElem?_modify, hc]
    by_cases e : i = n <;> simp [e]
  refine ⟨h.tended.more fun b ⟨c, mem, awaited, waits⟩ => ?_, fun c' mem b awaited => ?_⟩
  · obtain ⟨n, hn⟩ := List.getElem?_of_mem mem
    have mem' := List.mem_of_getElem? (now hn)
    split at mem'
    · exact (poll_waits awaited waits).imp id fun still =>
        ⟨_, mem', (poll_awaited c _).trans awaited, still⟩
    · exact .inr ⟨c, mem', awaited, waits⟩
  · obtain ⟨n, hn⟩ := List.getElem?_of_mem mem
    have lt : n < w.stops.length := by
      have lt := (List.getElem?_eq_some_iff.mp hn).1
      rwa [List.length_modify] at lt
    have before := List.getElem?_eq_getElem lt
    rw [now before, Option.some.injEq] at hn
    generalize w.stops[n] = c at before hn
    have old := h.answered c (List.mem_of_getElem? before)
    subst hn
    split
    · rename_i e
      rw [if_pos e, poll_awaited] at awaited
      obtain ⟨task, result⟩ := old b awaited
      exact ⟨task, fun r answer => (poll_result awaited answer).elim (result r) id⟩
    · rename_i e
      rw [if_neg e] at awaited
      exact old b awaited

/-- Nobody else touches the calls to stop a task. -/
theorem outside_stops (w : World) {m : Move} (stop : ∀ k giveUp, m ≠ .stop k giveUp)
    (looks : ∀ i, m ≠ .lookStop i) : (w.outside m).stops = w.stops := by
  cases m with
  | stop k giveUp => exact absurd rfl (stop k giveUp)
  | lookStop i => exact absurd rfl (looks i)
  | request r =>
    unfold outside receive inquire
    dsimp only
    repeat' split
    all_goals rfl
  | ask timeout =>
    unfold outside inquire
    dsimp only
    split <;> rfl
  | look i =>
    unfold outside look
    dsimp only
    split <;> rfl
  | answer i =>
    unfold outside answer
    dsimp only
    repeat' split
    all_goals rfl
  | call =>
    show w.call.stops = _
    rcases call_cases w with ⟨-, e, -⟩ | ⟨-, -, e, -⟩ | ⟨d, -, -, e, -⟩ <;> rw [e]
  | lookCall i =>
    unfold outside lookCall
    dsimp only
    split <;> rfl
  | advance moment =>
    unfold outside
    dsimp only
    split <;> rfl
  | _ => rfl

theorem apply_stopsTended {w : World} (h : StopsTended w) (scheduled : Scheduled w.turn w.service)
    (haveBodies : TasksHaveBodies w.service) (m : Move) : StopsTended (w.apply m) := by
  rcases w.apply_cases m with ⟨-, e⟩ | ⟨t, ht, -, e⟩ | ⟨t, -, -, e⟩
  · rw [e]
    by_cases hb : m = .begin
    · subst hb
      have lasting : Lasting w.service (Turn.begin w.service).2 := .of_jobs (begin_jobs _)
      exact h.carry rfl (h.tended.carry lasting (begin_tasks _)) (lasting.holds (begin_tasks _))
    by_cases stops : ∃ k giveUp, m = .stop k giveUp
    · obtain ⟨k, giveUp, rfl⟩ := stops
      exact stop_stopsTended h k giveUp
    by_cases looks : ∃ i, m = .lookStop i
    · obtain ⟨i, rfl⟩ := looks
      exact lookStop_stopsTended h i
    have other : ∀ k giveUp, m ≠ .stop k giveUp := fun k giveUp e => stops ⟨k, giveUp, e⟩
    obtain ⟨tended, holds⟩ := outside_stopsTended h haveBodies hb other
    exact h.carry (outside_stops w other fun i e => looks ⟨i, e⟩) tended holds
  · rw [ht] at scheduled
    rw [e]
    exact h.carry rfl (step_tended scheduled h.tended) (step_holds scheduled)
  · rw [e]
    exact h

/-- **In every world tasks and calls are stopsTended.** -/
theorem after_stopsTended (setup : Setup) (clock : Time.Stamp) (ms : List Move) :
    StopsTended ((new setup clock).after ms) := by
  have kept := after_induction
    (P := fun w => StopsTended w ∧ Scheduled w.turn w.service ∧ TasksHaveBodies w.service)
    (fun w m ⟨stopsTended, scheduled, haveBodies⟩ =>
      ⟨apply_stopsTended stopsTended scheduled haveBodies m, apply_scheduled w m scheduled,
        after_tasksHaveBodies w [m] scheduled haveBodies⟩)
    (new setup clock) ms
    ⟨new_stopsTended setup clock, new_scheduled setup clock, new_tasksHaveBodies setup clock⟩
  exact kept.1

/-! ## 2. What is said of a task -/

section Said

variable {w : World} {k : Nat} {x : RunningTask}

/-- Whoever was left waiting for a task has taken it on. -/
theorem StopsTended.claimed (h : StopsTended w) (mem : x ∈ w.service.tasks)
    (left : w.LeftWaiting x.body) :
    x.claimed = true := by
  have taken : ∃ y ∈ w.service.tasks, y.body = x.body ∧ y.claimed = true := by
    rcases left with ⟨c, mem', awaited, -⟩ | ⟨i, j, hj, join, -⟩
    · exact (h.answered c mem' x.body awaited).1
    · exact (h.tended.joins i j x.body hj join).1
  obtain ⟨y, mem', same, claimed⟩ := taken
  exact h.tended.alone mem' mem same ▸ claimed

/-- A task that was taken on has ended, or somebody was left waiting for it. -/
theorem StopsTended.ended_or_left (h : StopsTended w) (hx : w.service.tasks[k]? = some x)
    (claimed : x.claimed = true) :
    (w.service.result? x.body).isSome ∨ w.LeftWaiting x.body := by
  rcases h.tended.claimed k x hx claimed with ended | called | waits
  · exact .inl ended
  · exact .inr (.inl called)
  · exact .inr (.inr waits)

/-- **A task counts as finished** if its body has ended, and also if somebody was left waiting. -/
theorem StopsTended.isFinished_iff (h : StopsTended w) (hx : w.service.tasks[k]? = some x) :
    w.service.isFinished k = true ↔
      (w.service.result? x.body).isSome = true ∨ w.LeftWaiting x.body := by
  have tells : w.service.isFinished k = (x.claimed || (w.service.result? x.body).isSome) := by
    unfold isFinished
    rw [hx]
  rw [tells, Bool.or_eq_true]
  constructor
  · rintro (claimed | ended)
    · exact h.ended_or_left hx claimed
    · exact .inl ended
  · rintro (ended | left)
    · exact .inr ended
    · exact .inl (h.claimed (List.mem_of_getElem? hx) left)

end Said

/-- **What is said of a task is true unless somebody was left waiting.** In every world a task
counts as finished exactly if its body has ended or whoever has taken it on has no result, because
the call still waits or was given up. If nobody was left waiting, the body has ended whenever the
task counts as finished, whenever a call to stop it is answered with a result, at once or later, and
whenever its teardown has ended. Whoever has taken a task on is given nothing but the result of its
body. -/
theorem finished_unless_left_waiting (setup : Setup) (clock : Time.Stamp) (ms : List Move) (k : Nat)
    (x : RunningTask) (hx : ((new setup clock).after ms).service.tasks[k]? = some x) :
    let w := (new setup clock).after ms
    let ended := (w.service.result? x.body).isSome = true
    (w.service.isFinished k = true ↔ ended ∨ w.LeftWaiting x.body) ∧
    (∀ c ∈ w.stops, c.awaited = some x.body → ∀ r, c.answer = some (.result r) →
      ∃ r', w.service.result? x.body = some r' ∧ r = r'.asStop) ∧
    (¬ w.LeftWaiting x.body →
      (w.service.isFinished k = true → ended) ∧
      (w.turn = none → ∀ giveUp, ∃ c, (w.apply (.stop k giveUp)).stops = w.stops ++ [c] ∧
        ∀ r, c.answer = some (.result r) → ended) ∧
      ∀ (i : JobId) (j : Job), w.service.jobs[i]? = some j →
        j.close = .stopTask k ∨ j.close = .join x.body → ∀ r, j.state = .ended r → ended) := by
  intro w ended
  have stopsTended : StopsTended w := after_stopsTended setup clock ms
  have iff := stopsTended.isFinished_iff hx
  refine ⟨iff, fun c mem awaited => (stopsTended.answered c mem x.body awaited).2,
    fun settled => ?_⟩
  have claimed : x.claimed = true → ended := fun taken =>
    (stopsTended.ended_or_left hx taken).resolve_right settled
  refine ⟨fun finished => (iff.mp finished).resolve_right settled, fun free giveUp => ?_, ?_⟩
  · rw [apply_free free]
    show ∃ c, (w.stop k giveUp).stops = _ ∧ _
    rcases stop_cases w k giveUp with ⟨taken, e⟩ | ⟨y, hy, -, e⟩
    · rw [e]
      exact ⟨_, rfl, fun r _ => claimed (taken x hx)⟩
    · rw [e]
      refine ⟨_, rfl, fun r answer => ?_⟩
      rw [hx] at hy
      cases hy
      obtain ⟨r', given, -⟩ := (poll_result (b := x.body) rfl answer).resolve_left nofun
      rw [result?_told] at given
      show (w.service.result? x.body).isSome = true
      rw [given]
      rfl
  · rintro i j hj (stop | join) r gone
    · obtain ⟨y, hy, taken⟩ := stopsTended.tended.stops i j k hj stop
      rw [hx] at hy
      cases hy
      exact claimed (taken r gone)
    · exact (stopsTended.tended.joins i j x.body hj join).2 r gone

/-- A worker that is stopped and given the time it takes: it counts as finished, and it is. -/
theorem prompt_worker_is_finished :
    let w := (new ⟨1000, 100, true, ⟨"api", "test", ⟨none, none⟩⟩, .ascending⟩ ⟨0, 0⟩).after
      [.addTask ⟨"worker", true, some 20, .returns .ok⟩, .stop 0 (some 50), .begin, .go, .go, .go,
        .go, .advance 20, .begin, .go, .go, .lookStop 0]
    ¬ w.LeftWaiting 0 ∧ w.service.isFinished 0 = true ∧ (w.service.result? 0).isSome = true := by
  intro w
  have settled : ¬ w.LeftWaiting 0 := by
    have calls : w.stops = [⟨some 0, some 50, some (.result .ok)⟩] := by decide +kernel
    have closes : w.service.jobs.map (·.close) = [.ending (.returns .ok)] := by decide +kernel
    rintro (⟨c, mem, -, left⟩ | ⟨i, j, hj, join, -⟩)
    · rw [calls, List.mem_singleton] at mem
      rw [mem] at left
      exact left .ok rfl
    · have mem := List.mem_map_of_mem (f := (·.close)) (List.mem_of_getElem? hj)
      rw [closes, List.mem_singleton, join] at mem
      cases mem
  have finished : w.service.isFinished 0 = true := by decide +kernel
  obtain ⟨-, -, given⟩ := finished_unless_left_waiting
    ⟨1000, 100, true, ⟨"api", "test", ⟨none, none⟩⟩, .ascending⟩ ⟨0, 0⟩
    [.addTask ⟨"worker", true, some 20, .returns .ok⟩, .stop 0 (some 50), .begin, .go, .go, .go,
      .go, .advance 20, .begin, .go, .go, .lookStop 0] 0 ⟨"worker", true, 0, true⟩
    (by decide +kernel)
  exact ⟨settled, finished, (given settled).1 finished⟩

/-- **A worker that is stopped by a call that is given up** counts as finished while it still runs,
and whoever stops it again is told at once that it has stopped. -/
theorem abandoned_worker_looks_finished :
    let w := (new ⟨1000, 100, true, ⟨"api", "test", ⟨none, none⟩⟩, .ascending⟩ ⟨0, 0⟩).after
      [.addTask ⟨"worker", false, some 1000, .returns .ok⟩, .stop 0 (some 10), .begin, .go, .go,
        .advance 10, .lookStop 0]
    w.stops = [⟨some 0, some 10, some .gaveUp⟩] ∧
      w.service.tasks[0]? = some ⟨"worker", true, 0, true⟩ ∧
      w.service.isFinished 0 = true ∧ w.service.result? 0 = none ∧
      (w.apply (.stop 0 none)).stops = w.stops ++ [⟨none, none, some (.result .ok)⟩] ∧
      (w.apply (.stop 0 none)).service.result? 0 = none := by
  refine ⟨?_, ?_, ?_, ?_, ?_, ?_⟩ <;> decide +kernel

end World

end ServiceHealth
