import ServiceHealth.Proofs.Stopped

/-!
# The result of a task is delivered once

A driver starts a task and stops it, as often as it likes, many times at once or one after the
other, and gives its calls up after any time. The first call gets the result of the body, when the
body is done or at once, unless it was given up before; every other call is told at once that the
task has stopped. So no result is delivered twice, and none is delivered of a task whose first call
was given up.

* `perform_leftAlone`, `run_leftAlone`: nothing stops a task but a command to do so.
* `stopTask_taken`: a command to stop a task that was taken on has its answers at once.
* `first_rule`: what holds of the first of some calls made at once when waiting is over.
* `FirstAnswer`: what the first call is answered, and when.
* `result_delivered_once`: **the result of a task is delivered once**.
-/

namespace ServiceHealth

open Service

namespace Service

/-! ## 1. Commands that stop nobody -/

/-- Whether a command neither stops a certain task nor shuts the service down. -/
def Command.spares (k : Nat) : Command → Bool
  | .stopTask task count _ => task != k || count == 0
  | .drain _ _ => false
  | _ => true

section LeftAlone

variable {k : Nat} {x : RunningTask} {s : Service} (h : LeftAlone k x s)

include h

theorem LeftAlone.pollAggregations (as : List Aggregation) :
    LeftAlone k x (Service.pollAggregations as s).2 :=
  pollAggregations_rule (fun _ job h => h.abort job) as h

variable (scheduled : Scheduled none s)

include scheduled

theorem LeftAlone.settle : LeftAlone k x s.settle :=
  (settleLoop_induction (P := fun turn s' => Scheduled turn s' ∧ LeftAlone k x s')
    (fun s' ⟨scheduled, h⟩ => ⟨begin_scheduled scheduled, h.same (begin_jobs s') (begin_tasks s')⟩)
    (fun _ _ ⟨scheduled, h⟩ => ⟨step_scheduled scheduled, h.step scheduled⟩) _ s ⟨scheduled, h⟩).2

/-- Whoever waits leaves alone what a look leaves alone. -/
theorem LeftAlone.await {σ : Type} {W : Waiter σ} (calm : W.Calm)
    (poll : ∀ st s, LeftAlone k x s → LeftAlone k x (W.poll st s).2) (st : σ) :
    LeftAlone k x (Service.await W st s).2 :=
  (await_rule calm (P := fun _ => LeftAlone k x) (Q := fun _ => LeftAlone k x)
    (fun st s _ h => poll st s h) (fun _ _ scheduled h _ => h.settle scheduled)
    (fun _ _ m _ h _ _ _ => h.advance m) st s scheduled h).1

end LeftAlone

end Service

namespace World

/-- A service with nothing under way. -/
def idle (s : Service) : World := ⟨s, none, [], [], []⟩

theorem perform_after {s : Service} (scheduled : Scheduled none s) (c : Command) :
    ∃ ms, ((idle s).after ms).service = (s.perform c).2 := by
  obtain ⟨_, ⟨ms, -, rfl⟩, -, service⟩ := perform_reaches (w := idle s) rfl scheduled c
  exact ⟨ms, service⟩

theorem perform_scheduled {s : Service} (scheduled : Scheduled none s) (c : Command) :
    Scheduled none (s.perform c).2 := by
  obtain ⟨v, reached, free, service⟩ := perform_reaches (w := idle s) rfl scheduled c
  have kept := reached.scheduled rfl scheduled free
  rw [service] at kept
  exact kept

section LeftAlone

variable {k : Nat} {x : RunningTask} {s : Service} (h : LeftAlone k x s)
  (scheduled : Scheduled none s)

include h scheduled

theorem asks_leftAlone {timeout deadline : Nat} (hd : deadline? s.now timeout = some deadline)
    (count : Nat) : LeftAlone k x (await aggregating (startAggregations deadline count s).1
      (startAggregations deadline count s).2).2 := by
  have led := startAggregations_led timeout count deadline (w := idle s) rfl hd
  have scheduled' := after_scheduled (idle s) (List.replicate count (.ask timeout)) scheduled
  have started : LeftAlone k x ((idle s).after (List.replicate count (.ask timeout))).service :=
    after_leftAlone h scheduled (fun g mem => nomatch List.eq_of_mem_replicate mem)
      fun mem => nomatch List.eq_of_mem_replicate mem
  rw [led] at scheduled' started
  exact started.await scheduled' aggregating_calm (fun as _ h => h.pollAggregations as) _

theorem check_leftAlone (timeout : Nat) : LeftAlone k x (s.check timeout).2 := by
  unfold check
  cases hd : deadline? s.now timeout with
  | none => exact h
  | some deadline => exact asks_leftAlone h scheduled hd 1

theorem respond_leftAlone (r : Probe.Request) : LeftAlone k x (s.respond r).2 := by
  have checked := check_leftAlone h scheduled s.setup.checkTimeout
  unfold respond
  split
  · exact h
  · exact h
  · show LeftAlone k x s.healthz.2
    unfold healthz
    split
    · rename_i e
      rw [e] at checked
      exact checked
    · rename_i e
      rw [e] at checked
      exact checked.same rfl rfl
  · exact h.same rfl rfl
  · exact h

theorem stopTask_leftAlone {task count : Nat} (other : task ≠ k ∨ count = 0)
    (giveUp : Option Nat) : LeftAlone k x (s.stopTask task count giveUp).2 := by
  have led := startStops_led task giveUp count s.now (w := idle s) rfl rfl
  have scheduled' := after_scheduled (idle s) (List.replicate count (.stop task giveUp)) scheduled
  have started :
      LeftAlone k x ((idle s).after (List.replicate count (.stop task giveUp))).service := by
    refine after_leftAlone h scheduled (fun g mem => ?_)
      fun mem => nomatch List.eq_of_mem_replicate mem
    obtain ⟨some, same⟩ := List.mem_replicate.mp mem
    cases same
    exact other.elim (absurd rfl) some
  rw [led] at scheduled' started
  exact started.await scheduled' stopping_calm (fun _ _ h => h) _

/-- **Nothing stops a task but a command to do so**, or one to shut the service down. -/
theorem perform_leftAlone {c : Command} (spares : c.spares k = true) :
    LeftAlone k x (s.perform c).2 := by
  cases c with
  | check timeout =>
    rw [perform_check]
    exact check_leftAlone h scheduled timeout
  | checkMany count timeout =>
    rw [perform_checkMany]
    unfold checkMany
    cases hd : deadline? s.now timeout with
    | none => exact h
    | some deadline => exact asks_leftAlone h scheduled hd count
  | request r =>
    rw [perform_request]
    exact respond_leftAlone h scheduled r
  | sleep duration => exact h.await scheduled pause_calm (fun _ _ h => h) _
  | registerTask t => exact h.startTask t _
  | stopTask task count giveUp =>
    have other : task ≠ k ∨ count = 0 := by simpa [Command.spares] using spares
    exact stopTask_leftAlone h scheduled other giveUp
  | drain count probes => cases spares
  | _ => exact h.same rfl rfl

theorem run_leftAlone {cs : List Command} (spares : ∀ c ∈ cs, c.spares k = true) :
    LeftAlone k x (run cs s).2 := by
  induction cs generalizing s with
  | nil => exact h
  | cons c cs ih =>
    rw [run_cons]
    exact ih (perform_leftAlone h scheduled (spares c List.mem_cons_self))
      (perform_scheduled scheduled c)
      fun c mem => spares c (List.mem_cons_of_mem _ mem)

end LeftAlone

end World

namespace Service

/-! ## 2. Calls made at once -/

/-- A call that had nothing to wait for. -/
def StopCall.settled (deadline : Option Nat) : StopCall := ⟨none, deadline, some (.result .ok)⟩

section Taken

variable {s : Service} {k : Nat} {x : RunningTask} (hx : s.tasks[k]? = some x)

include hx

theorem told_taken : ∃ x', ((s.fire k).claim k).2.tasks[k]? = some x' ∧ x'.claimed = true :=
  ⟨_, told_task s k hx, by rw [if_pos rfl]⟩

/-- Calls to stop a task that was taken on have nothing to wait for. -/
theorem startStops_taken (taken : x.claimed = true) (deadline : Option Nat) (count : Nat) :
    (startStops k deadline count s).1 = List.replicate count (.settled deadline) := by
  induction count generalizing s x with
  | zero => rfl
  | succ count ih =>
    have nobody : ((s.fire k).claim k).1 = none := by
      rw [claim_fst, hx, Option.bind_some, if_pos taken]
    obtain ⟨x', hx', taken'⟩ := told_taken hx
    have rest := ih hx' taken'
    unfold startStops
    rw [List.replicate_succ, ← rest]
    show StopCall.poll ⟨((s.fire k).claim k).1, deadline, none⟩ _ :: _ = _
    rw [nobody]
    rfl

/-- **Of calls to stop a task that nobody has taken on only the first has something to wait for.**
-/
theorem startStops_untaken (untaken : x.claimed = false) (deadline : Option Nat) (count : Nat) :
    (startStops k deadline (count + 1) s).1 =
      StopCall.poll ⟨some x.body, deadline, none⟩ ((s.fire k).claim k).2 ::
        List.replicate count (.settled deadline) := by
  have gets : ((s.fire k).claim k).1 = some x.body := by
    rw [claim_fst, hx, Option.bind_some, if_neg (by rw [untaken]; nofun)]
  obtain ⟨x', hx', taken'⟩ := told_taken hx
  unfold startStops
  show StopCall.poll ⟨((s.fire k).claim k).1, deadline, none⟩ _ :: _ = _
  rw [gets, startStops_taken hx' taken']

end Taken

theorem poll_settled (deadline : Option Nat) (s : Service) :
    (StopCall.settled deadline).poll s = .settled deadline := World.poll_answered rfl s

theorem poll_replicate (deadline : Option Nat) (count : Nat) (s : Service) :
    (List.replicate count (StopCall.settled deadline)).map (·.poll s) =
      List.replicate count (.settled deadline) := by
  rw [List.map_replicate, poll_settled]

/-- Nobody waits if there is nothing to wait for. -/
theorem await_settled (deadline : Option Nat) (count : Nat) (s : Service) :
    await stopping (List.replicate count (.settled deadline)) s =
      (List.replicate count (.settled deadline), s) := by
  have polled : stopping.poll (List.replicate count (.settled deadline)) s =
      (List.replicate count (.settled deadline), s) :=
    Prod.ext (poll_replicate deadline count s) rfl
  rw [await_done, polled]
  rw [polled]
  exact List.all_eq_true.mpr fun c mem => by rw [List.eq_of_mem_replicate mem]; rfl

theorem perform_stopTask (s : Service) (k count : Nat) (giveUp : Option Nat) :
    s.perform (.stopTask k count giveUp) =
      (.stopped (s.stopTask k count giveUp).1, (s.stopTask k count giveUp).2) := rfl

theorem stopTask_eq (s : Service) (k count : Nat) (giveUp : Option Nat) :
    s.stopTask k count giveUp =
      let started := startStops k (giveUp.map (wakeTime s.now)) count s
      let last := await stopping started.1 started.2
      (last.1.map (·.answer), last.2) := rfl

/-- **A command to stop a task that was taken on has its answers at once.** -/
theorem stopTask_taken {s : Service} {k : Nat} {x : RunningTask} (hx : s.tasks[k]? = some x)
    (taken : x.claimed = true) (count : Nat) (giveUp : Option Nat) :
    s.stopTask k count giveUp = (List.replicate count (some (.result .ok)),
      (startStops k (giveUp.map (wakeTime s.now)) count s).2) := by
  rw [stopTask_eq]
  dsimp only
  rw [startStops_taken hx taken, await_settled, List.map_replicate]
  rfl

theorem stopTask_untaken {s : Service} {k : Nat} {x : RunningTask} (hx : s.tasks[k]? = some x)
    (untaken : x.claimed = false) (count : Nat) (giveUp : Option Nat) {calls : List StopCall}
    {s' : Service} (waited : await stopping
      (StopCall.poll ⟨some x.body, giveUp.map (wakeTime s.now), none⟩ ((s.fire k).claim k).2 ::
        List.replicate count (.settled (giveUp.map (wakeTime s.now))))
      (startStops k (giveUp.map (wakeTime s.now)) (count + 1) s).2 = (calls, s')) :
    s.stopTask k (count + 1) giveUp = (calls.map (·.answer), s') := by
  rw [← startStops_untaken hx untaken] at waited
  rw [stopTask_eq]
  dsimp only
  rw [waited]

/-- **What looks, turns and moments keep of the first of some calls**, of which the others have
nothing to wait for, holds when waiting is over. `P` is what holds before a look and `Q` what holds
after it. In the end the call has an answer, or nothing happens any more. -/
theorem first_rule {P Q : StopCall → Service → Prop} {deadline : Option Nat} {count : Nat}
    (poll : ∀ c s, Scheduled none s → P c s → Q (c.poll s) s)
    (settle : ∀ c s, Scheduled none s → Q c s → c.answer = none → P c s.settle)
    (advance : ∀ c s m, Scheduled none s → Q c s → c.answer = none → s.queue = [] →
      nextMoment? stopping (c :: List.replicate count (.settled deadline)) s = some m →
      P c (s.advance m))
    {c : StopCall} {s : Service} (scheduled : Scheduled none s) (before : P c s) :
    ∃ c' s', await stopping (c :: List.replicate count (.settled deadline)) s =
        (c' :: List.replicate count (.settled deadline), s') ∧ Q c' s' ∧ Scheduled none s' ∧
      (c'.answer ≠ none ∨ s'.queue = [] ∧
        nextMoment? stopping (c' :: List.replicate count (.settled deadline)) s' = none) := by
  have waits : ∀ c : StopCall,
      stopping.isDone (c :: List.replicate count (.settled deadline)) = c.answer.isSome := by
    intro c
    show List.all _ _ = _
    rw [List.all_cons, List.all_eq_true.mpr, Bool.and_true]
    intro c mem
    rw [List.eq_of_mem_replicate mem]
    rfl
  have unanswered : ∀ c : StopCall,
      stopping.isDone (c :: List.replicate count (.settled deadline)) = false →
      c.answer = none := by
    intro c more
    rw [waits] at more
    cases ho : c.answer with
    | none => rfl
    | some a =>
      rw [ho] at more
      cases more
  obtain ⟨⟨c', calls, after⟩, scheduled', done⟩ := await_rule World.stopping_calm
    (P := fun calls s => ∃ c, calls = c :: List.replicate count (.settled deadline) ∧ P c s)
    (Q := fun calls s => ∃ c, calls = c :: List.replicate count (.settled deadline) ∧ Q c s)
    (by
      rintro _ s scheduled ⟨c, rfl, h⟩
      exact ⟨c.poll s, congrArg (c.poll s :: ·) (poll_replicate deadline count s),
        poll c s scheduled h⟩)
    (by
      rintro _ s scheduled ⟨c, rfl, h⟩ more
      exact ⟨c, rfl, settle c s scheduled h (unanswered c more)⟩)
    (by
      rintro _ s m scheduled ⟨c, rfl, h⟩ more empty next
      exact ⟨c, rfl, advance c s m scheduled h (unanswered c more) empty next⟩)
    (c :: List.replicate count (.settled deadline)) s scheduled ⟨c, rfl, before⟩
  rw [calls] at done
  refine ⟨c', _, Prod.ext calls rfl, after, scheduled', ?_⟩
  rw [waits] at done
  exact done.imp_left fun answered => Option.isSome_iff_ne_none.mp answered

end Service

namespace World

/-! ## 3. The first answer -/

/-- **What the first call is answered, and when**: how the body ends, when it is done, or at once if
it was done before; that it was given up, if the body is not done before; or nothing, if it waits
for good. -/
inductive FirstAnswer (ending : Shutdown.Ending) (start done : Nat) (deadline : Option Nat)
    (moment : Nat) : Option StopAnswer → Prop where
  | result {r : Shutdown.Result} (gives : ending.gives? = some r) (when : moment = max start done)
      (soon : ∀ m, deadline = some m → done < m ∨ done ≤ start) :
      FirstAnswer ending start done deadline moment (some (.result r))
  | gaveUp {m : Nat} (limit : deadline = some m) (when : moment = m)
      (late : ending = .hangs ∨ m ≤ done) :
      FirstAnswer ending start done deadline moment (some .gaveUp)
  | never (unlimited : deadline = none) (hangs : ending = .hangs) :
      FirstAnswer ending start done deadline moment none

section Looks

variable (ending : Shutdown.Ending) (start done : Nat) (i : JobId)

/-- **How the first call stands before a look at it**: it has its answer, or it waits, and no moment
has passed at which it could have had one. -/
inductive BeforeLook (c : StopCall) (s : Service) : Prop where
  | answered (has : c.answer ≠ none)
      (first : FirstAnswer ending start done c.deadline s.now c.answer)
  | waits (unanswered : c.answer = none) (begun : start ≤ s.now)
      (early : s.now = start ∨ ending = .hangs ∨ s.now ≤ done)
      (within : ∀ m, c.deadline = some m → s.now ≤ m)
      (fresh : s.now = start ∨ s.result? i = none ∨ ∀ m, c.deadline = some m → s.now < m)

/-- **How it stands after a look**: it has its answer, or the body has given nothing yet, and its
time is not over. -/
inductive AfterLook (c : StopCall) (s : Service) : Prop where
  | answered (has : c.answer ≠ none)
      (first : FirstAnswer ending start done c.deadline s.now c.answer)
  | waits (unanswered : c.answer = none) (begun : start ≤ s.now) (ungiven : s.result? i = none)
      (within : ∀ m, c.deadline = some m → s.now < m)

variable {ending start done i} {c : StopCall} {s : Service} (stands : Stands ending done s i)

include stands

theorem BeforeLook.poll (awaited : c.awaited = some i) (h : BeforeLook ending start done i c s) :
    AfterLook ending start done i (c.poll s) s := by
  cases h with
  | answered has first =>
    obtain ⟨a, answer⟩ := Option.ne_none_iff_exists'.mp has
    rw [World.poll_answered answer]
    exact .answered has first
  | waits unanswered begun early within fresh =>
    cases given : s.result? i with
    | some r =>
      have answer := World.poll_given unanswered awaited given
      obtain ⟨gives, past⟩ := stands.given given
      refine .answered (by rw [answer]; nofun) ?_
      rw [answer, World.poll_deadline]
      refine .result gives ?_ fun m limit => ?_
      · rcases early with now | rfl | early
        · omega
        · cases gives
        · omega
      · rcases fresh with now | ungiven | soon
        · exact .inr (now ▸ past)
        · rw [given] at ungiven
          cases ungiven
        · exact .inl (Nat.lt_of_le_of_lt past (soon m limit))
    | none =>
      have pending : c.poll s =
          if c.deadline.any (· ≤ s.now) then { c with answer := some .gaveUp } else c := by
        unfold StopCall.poll
        rw [unanswered, awaited]
        dsimp only
        rw [given]
      rw [pending]
      split
      · rename_i late
        obtain ⟨m, limit, past⟩ := (Option.any_eq_true _ _).mp late
        have when := Nat.le_antisymm (within m limit) (of_decide_eq_true past)
        refine .answered nofun (.gaveUp limit when ?_)
        exact (stands.unended given).imp_right fun early => when ▸ early
      · rename_i open_
        refine .waits unanswered begun given fun m limit => Nat.lt_of_not_le fun past => open_ ?_
        rw [limit]
        exact decide_eq_true past

theorem AfterLook.settle (unanswered : c.answer = none)
    (h : AfterLook ending start done i c s) : BeforeLook ending start done i c s.settle := by
  cases h with
  | answered has => exact absurd unanswered has
  | waits _ begun ungiven within =>
    have now := settle_now s
    refine .waits unanswered (now ▸ begun) (.inr ?_) (fun m limit => ?_)
      (.inr (.inr fun m limit => now ▸ within m limit))
    · rw [now]
      exact stands.unended ungiven
    · exact Nat.le_of_lt (now ▸ within m limit)

theorem AfterLook.advance (scheduled : Scheduled none s) (empty : s.queue = []) {count : Nat}
    {deadline : Option Nat} {m : Nat} (unanswered : c.answer = none)
    (next : nextMoment? stopping (c :: List.replicate count (.settled deadline)) s = some m)
    (h : AfterLook ending start done i c s) : BeforeLook ending start done i c (s.advance m) := by
  cases h with
  | answered has => exact absurd unanswered has
  | waits _ begun ungiven within =>
    obtain ⟨later, -, sleeps, looks⟩ := nextMoment?_eq_some next
    have early := stands.next scheduled empty ungiven sleeps
    have still : (s.advance m).result? i = none :=
      (result?_wake { s with now := m } _ (fun _ => rfl) i).trans ungiven
    refine .waits unanswered (Nat.le_trans begun (Nat.le_of_lt later)) (.inr early)
      (fun t limit => looks t ?_ (within t limit)) (.inr (.inl still))
    show t ∈ List.filterMap _ (c :: _)
    rw [List.filterMap_cons, limit]
    exact List.mem_cons_self

/-- **A call that waits for good waits for a body that hangs**, and is not given up. -/
theorem AfterLook.never (scheduled : Scheduled none s) (empty : s.queue = []) {count : Nat}
    {deadline : Option Nat} (unanswered : c.answer = none)
    (nothing : nextMoment? stopping (c :: List.replicate count (.settled deadline)) s = none)
    (h : AfterLook ending start done i c s) :
    FirstAnswer ending start done c.deadline s.now c.answer := by
  cases h with
  | answered _ first => exact first
  | waits _ begun ungiven within =>
    rw [unanswered]
    refine .never ?_ ?_
    · cases limit : c.deadline with
      | none => rfl
      | some m =>
        have past := nextMoment?_eq_none nothing (m := m) (.inr ?_)
        · exact absurd past (Nat.not_le.mpr (within m limit))
        · show m ∈ List.filterMap _ (c :: _)
          rw [List.filterMap_cons, limit]
          exact List.mem_cons_self
    · refine (stands.next scheduled empty ungiven fun t ends later => ?_).resolve_right
        (Nat.not_succ_le_self done)
      exact absurd later (Nat.not_lt.mpr (nextMoment?_eq_none nothing (.inl ends)))

end Looks

/-- **Waiting for calls of which only the first has something to wait for**: the first answer comes
when it must, and the others are there. -/
theorem await_first {ending : Shutdown.Ending} {start done : Nat} {i : JobId} {w : World}
    (stands : ∀ u, Reaches w u → u.turn = none → Stands ending done u.service i) {c : StopCall}
    {s : Service} (deadline : Option Nat) (count : Nat) (scheduled : Scheduled none s)
    (brought : Brought w (fun (_ : List StopCall) _ => True) [] s) (awaited : c.awaited = some i)
    (before : BeforeLook ending start done i c s) :
    ∃ first s', await stopping (c :: List.replicate count (.settled deadline)) s =
        (first :: List.replicate count (.settled deadline), s') ∧
      FirstAnswer ending start done c.deadline s'.now first.answer := by
  have here : ∀ {s calls}, Brought w (fun (_ : List StopCall) _ => True) calls s →
      Stands ending done s i := by
    rintro _ _ ⟨u, reached, free, rfl, -⟩
    exact stands u reached free
  obtain ⟨first, s', waited, ⟨brought', -, same, after⟩, scheduled', last⟩ := first_rule
    (P := fun c' s => Brought w (fun _ _ => True) (c' :: List.replicate count (.settled deadline))
      s ∧ c'.awaited = some i ∧ c'.deadline = c.deadline ∧ BeforeLook ending start done i c' s)
    (Q := fun c' s => Brought w (fun _ _ => True) (c' :: List.replicate count (.settled deadline))
      s ∧ c'.awaited = some i ∧ c'.deadline = c.deadline ∧ AfterLook ending start done i c' s)
    (fun c' s _ ⟨⟨u, reached, free, service, _⟩, awaited, same, h⟩ =>
      ⟨⟨u, reached, free, service, trivial⟩, (poll_awaited c' s).trans awaited,
        (poll_deadline c' s).trans same,
        h.poll (service ▸ stands u reached free) awaited⟩)
    (fun c' s _ ⟨brought, awaited, same, h⟩ unanswered =>
      ⟨brought_settle brought fun _ _ _ => trivial, awaited, same,
        h.settle (here brought) unanswered⟩)
    (fun c' s m scheduled ⟨brought, awaited, same, h⟩ unanswered empty next =>
      ⟨brought_advance brought scheduled empty (fun _ _ _ => trivial) next, awaited, same,
        h.advance (here brought) scheduled empty unanswered next⟩)
    scheduled ⟨brought, awaited, rfl, before⟩
  refine ⟨first, s', waited, ?_⟩
  rw [← same]
  by_cases unanswered : first.answer = none
  · obtain ⟨empty, nothing⟩ := last.resolve_left fun has => has unanswered
    exact after.never (here brought') scheduled' empty unanswered nothing
  · cases after with
    | answered _ answer => exact answer
    | waits waiting => exact absurd waiting unanswered

/-- What holds of the first call after a look holds before the next one at that moment. -/
theorem AfterLook.again {ending : Shutdown.Ending} {start done : Nat} {i : JobId} {c : StopCall}
    {s s' : Service} (h : AfterLook ending start done i c s) (now : s.now = start)
    (same : s'.now = s.now) : BeforeLook ending start done i c s' := by
  cases h with
  | answered has first => exact .answered has (same ▸ first)
  | waits unanswered begun ungiven within =>
    exact .waits unanswered (same ▸ begun) (.inl (same.trans now))
      (fun m limit => same ▸ Nat.le_of_lt (within m limit)) (.inl (same.trans now))

theorem le_wakeTime (now d : Nat) : now ≤ wakeTime now d := by
  unfold wakeTime deadline?
  split
  · exact Nat.le_add_right now d
  · exact Nat.le_add_right now farFuture

theorem scheduled_stop {v : World} (free : v.turn = none) (scheduled : Scheduled none v.service)
    (k : Nat) (giveUp : Option Nat) : Scheduled none (v.apply (.stop k giveUp)).service := by
  have kept := apply_scheduled v (.stop k giveUp) (by rw [free]; exact scheduled)
  have still : (v.apply (.stop k giveUp)).turn = none := apply_turn free nofun
  rwa [still] at kept

/-- Calls made at once begin with the first. -/
theorem stops_reached {v : World} (free : v.turn = none) (k : Nat) (giveUp : Option Nat)
    (count : Nat) : ∃ u, Reaches (v.apply (.stop k giveUp)) u ∧ u.turn = none ∧
      u.service = (startStops k (giveUp.map (wakeTime v.service.now)) (count + 1) v.service).2 ∧
      u.stops = v.stops ++
        (startStops k (giveUp.map (wakeTime v.service.now)) (count + 1) v.service).1 ∧
      u.service.now = v.service.now := by
  have made := startStops_led k giveUp (count + 1) v.service.now free rfl
  have now : (v.after (List.replicate (count + 1) (.stop k giveUp))).service.now =
      v.service.now := by
    rw [made]
    exact startStops_now k _ (count + 1) v.service
  refine ⟨v.after (List.replicate (count + 1) (.stop k giveUp)),
    reaches_of_now rfl (now.trans (stop_now free k giveUp).symm), ?_, ?_, ?_, now⟩
  · rw [made]
    exact free
  · rw [made]
  · rw [made]

/-- A command to stop a task is carried out on time, and begins with the first call. -/
theorem stopTask_onward {v : World} (free : v.turn = none) (scheduled : Scheduled none v.service)
    (k count : Nat) (giveUp : Option Nat) : ∃ u, Reaches (v.apply (.stop k giveUp)) u ∧
      u.turn = none ∧ u.service = (v.service.stopTask k (count + 1) giveUp).2 := by
  obtain ⟨u₁, all, free₁, service, stops, -⟩ := stops_reached free k giveUp count
  have scheduled₁ :=
    all.scheduled (apply_turn free nofun) (scheduled_stop free scheduled k giveUp) free₁
  obtain ⟨u, reached, free', ended⟩ := stopping_reaches free₁ scheduled₁ stops
  exact ⟨u, all.trans reached, free', by rw [ended, service, stopTask_eq]⟩

section FirstStop

variable {w : World} (promptly : InvokedPromptly w) (scheduled : Scheduled w.turn w.service)
  (free : w.turn = none) {t : Shutdown.Task} {ms ms' : List Move} {giveUp : Option Nat}
  {v u : World}

/-- What happens later happens after the first call as well. -/
theorem FirstStop.onward (h : FirstStop w t ms giveUp ms' v u) {u' : World}
    (reached : Reaches u u') : ∃ ms'', FirstStop w t ms giveUp ms'' v u' := by
  obtain ⟨more, timely, rfl⟩ := reached
  refine ⟨ms' ++ more, h.untouched, h.before, (onTime_append _ ms' more).mpr ⟨h.timely, ?_⟩, ?_⟩
  · rw [h.after]
    exact timely
  · rw [after_append, h.after]

include promptly scheduled free

/-- The first call has not waited in vain when it is made. -/
theorem FirstStop.looked (h : FirstStop w t ms giveUp [] v u) :
    AfterLook t.ending v.service.now (t.done w.service.now v.service.now) w.service.jobs.length
      (StopCall.poll ⟨some w.service.jobs.length, giveUp.map (wakeTime v.service.now), none⟩
        u.service) u.service := by
  have here : v.apply (.stop w.service.tasks.length giveUp) = u := h.after
  have now : u.service.now = v.service.now := by rw [← here, stop_now h.turnless]
  have still : u.turn = none := by
    rw [← here]
    exact apply_turn h.turnless nofun
  refine BeforeLook.poll (h.stands promptly scheduled free still) rfl
    (.waits rfl (Nat.le_of_eq now.symm) (.inl now) (fun m limit => ?_) (.inl now))
  obtain ⟨d, -, rfl⟩ := Option.map_eq_some_iff.mp limit
  rw [now]
  exact le_wakeTime v.service.now d

/-- **A driver that makes some calls at once, of which the first is the first to stop a task**: the
first answer comes when it must, and the others are there. -/
theorem Untouched.stopTask (h : Untouched w t ms) (before : (w.apply (.addTask t)).after ms = v)
    (count : Nat) (giveUp : Option Nat) :
    ∃ ms' u first, FirstStop w t ms giveUp ms' v u ∧ u.turn = none ∧
      v.service.stopTask w.service.tasks.length (count + 1) giveUp =
        (first :: List.replicate count (some (.result .ok)), u.service) ∧
      FirstAnswer t.ending v.service.now (t.done w.service.now v.service.now)
        (giveUp.map (wakeTime v.service.now)) u.service.now first := by
  have here : FirstStop w t ms giveUp [] v (v.apply (.stop w.service.tasks.length giveUp)) :=
    ⟨h, before, onTime_nil _, rfl⟩
  have scheduled' : Scheduled none v.service := by
    have kept := after_scheduled _ ms (apply_scheduled w (.addTask t) scheduled)
    rwa [before, here.turnless] at kept
  -- the calls are made at one moment, and only the first has something to wait for
  obtain ⟨u₁, all, free₁, service, -, now⟩ :=
    stops_reached here.turnless w.service.tasks.length giveUp count
  have scheduled₁ := all.scheduled (apply_turn here.turnless nofun)
    (scheduled_stop here.turnless scheduled' _ giveUp) free₁
  have looked := (here.looked promptly scheduled free).again
    (stop_now here.turnless w.service.tasks.length giveUp)
    (now.trans (stop_now here.turnless w.service.tasks.length giveUp).symm)
  obtain ⟨first, s', waited, answer⟩ := await_first
    (fun u reached free' => by
      obtain ⟨_, later⟩ := here.onward reached
      exact later.stands promptly scheduled free free')
    (giveUp.map (wakeTime v.service.now)) count scheduled₁ ⟨u₁, all, free₁, rfl, trivial⟩
    (poll_awaited _ _) looked
  rw [stop_service here.turnless, service] at waited
  rw [poll_deadline] at answer
  have answers := stopTask_untaken here.task rfl count giveUp waited
  obtain ⟨u, reached, free', ended⟩ :=
    stopTask_onward here.turnless scheduled' w.service.tasks.length count giveUp
  rw [answers] at ended ⊢
  dsimp only at ended
  subst ended
  obtain ⟨ms', stopped⟩ := here.onward reached
  refine ⟨ms', u, first.answer, stopped, free', ?_, answer⟩
  rw [List.map_cons, List.map_replicate]
  rfl

end FirstStop

end World

/-! ## 4. The answers of a run -/

namespace Service

/-- What a command has answered to calls to stop a certain task. -/
def Command.answersTo (k : Nat) (c : Command) (answer : Answer) : List (Option StopAnswer) :=
  match c, answer with
  | .stopTask task _ _, .stopped answers => if task = k then answers else []
  | _, _ => []

/-- **What all calls to stop a certain task were answered in a run**, the first one first. -/
def answersTo (k : Nat) (cs : List Command) (replies : List Reply) : List (Option StopAnswer) :=
  (cs.zip replies).flatMap fun x => x.1.answersTo k x.2.answer

theorem answersTo_cons (k : Nat) (c : Command) (cs : List Command) (s : Service) :
    answersTo k (c :: cs) (run (c :: cs) s).1 =
      c.answersTo k (s.perform c).1 ++ answersTo k cs (run cs (s.perform c).2).1 := rfl

/-- Only a command to make calls to stop a task has answers to them. -/
theorem perform_answersTo (s : Service) (k : Nat) (c : Command) :
    c.answersTo k (s.perform c).1 = [] ∨ ∃ count giveUp, c = .stopTask k (count + 1) giveUp ∧
      c.answersTo k (s.perform c).1 = (s.stopTask k (count + 1) giveUp).1 := by
  cases c with
  | stopTask task count giveUp =>
    have answers : Command.answersTo k (.stopTask task count giveUp)
        (s.perform (.stopTask task count giveUp)).1 =
          if task = k then (s.stopTask task count giveUp).1 else [] := rfl
    rw [answers]
    split
    · rename_i same
      subst same
      cases count with
      | zero =>
        left
        rw [stopTask_eq]
        have nobody : await stopping [] s = ([], s) := await_settled none 0 s
        show (await stopping [] s).1.map StopCall.answer = []
        rw [nobody]
        rfl
      | succ count => exact .inr ⟨count, giveUp, rfl, rfl⟩
    · exact .inl rfl
  | _ => exact .inl rfl

end Service

namespace World

section Answers

variable {s : Service} (scheduled : Scheduled none s) {k : Nat} {x : RunningTask}
  (hx : s.tasks[k]? = some x)

include scheduled hx

/-- Of calls made at once at most the first is answered otherwise than that there is nothing to wait
for. -/
theorem stopTask_answers (count : Nat) (giveUp : Option Nat) :
    ∃ first, (s.stopTask k (count + 1) giveUp).1 =
      first :: List.replicate count (some (.result .ok)) := by
  cases untaken : x.claimed with
  | true =>
    rw [stopTask_taken hx untaken]
    exact ⟨_, rfl⟩
  | false =>
    obtain ⟨u, all, free, service, -⟩ := stops_reached (v := idle s) rfl k giveUp count
    have scheduled' :=
      all.scheduled (apply_turn rfl nofun) (scheduled_stop rfl scheduled k giveUp) free
    rw [service] at scheduled'
    obtain ⟨c, s', waited, -⟩ := first_rule (P := fun _ _ => True) (Q := fun _ _ => True)
      (fun _ _ _ _ => trivial) (fun _ _ _ _ _ => trivial) (fun _ _ _ _ _ _ _ _ => trivial)
      scheduled' trivial
    refine ⟨c.answer, ?_⟩
    rw [stopTask_untaken hx untaken count giveUp waited, List.map_cons, List.map_replicate]
    rfl

/-- After that the task is taken on. -/
theorem stopTask_takes (count : Nat) (giveUp : Option Nat) :
    ∃ x', (s.stopTask k (count + 1) giveUp).2.tasks[k]? = some x' ∧ x'.claimed = true := by
  obtain ⟨u, ⟨ms, -, rfl⟩, -, service⟩ :=
    stopTask_onward (v := idle s) rfl scheduled k count giveUp
  obtain ⟨x', hx', taken⟩ := told_taken hx
  have told := stop_service (w := idle s) rfl k giveUp
  change _ = (s.stopTask k (count + 1) giveUp).2 at service
  change _ = ((s.fire k).claim k).2 at told
  rw [← told] at hx'
  rw [← service]
  exact after_taken ms hx' taken

/-- A command leaves a task that was taken on as it is. -/
theorem perform_taken (taken : x.claimed = true) (c : Command) :
    ∃ x', (s.perform c).2.tasks[k]? = some x' ∧ x'.claimed = true := by
  obtain ⟨ms, service⟩ := perform_after scheduled c
  rw [← service]
  exact after_taken ms hx taken

theorem perform_known (c : Command) : ∃ x', (s.perform c).2.tasks[k]? = some x' := by
  obtain ⟨ms, service⟩ := perform_after scheduled c
  rw [← service]
  have kept := after_induction
    (P := fun v => Scheduled v.turn v.service ∧ s.tasks.length ≤ v.service.tasks.length)
    (fun v m ⟨scheduled, le⟩ =>
      ⟨apply_scheduled v m scheduled, Nat.le_trans le (apply_tasks_length scheduled m)⟩)
    (idle s) ms ⟨scheduled, Nat.le_refl _⟩
  have known := Nat.lt_of_lt_of_le (List.getElem?_eq_some_iff.mp hx).1 kept.2
  exact ⟨_, List.getElem?_eq_getElem known⟩

/-- **Once a task is taken on, every call to stop it is told that there is nothing to wait for.** -/
theorem answersTo_taken (taken : x.claimed = true) (cs : List Command) :
    ∀ a ∈ answersTo k cs (run cs s).1, a = some (.result .ok) := by
  induction cs generalizing s x with
  | nil => nofun
  | cons c cs ih =>
    intro a mem
    rw [answersTo_cons] at mem
    rcases List.mem_append.mp mem with here | later
    · rcases perform_answersTo s k c with none | ⟨count, giveUp, -, answers⟩
      · rw [none] at here
        cases here
      · rw [answers, stopTask_taken hx taken] at here
        exact List.eq_of_mem_replicate here
    · obtain ⟨x', hx', taken'⟩ := perform_taken scheduled hx taken c
      exact ih (perform_scheduled scheduled c) hx' taken' a later

/-- **In a whole run at most one call to stop a task is answered otherwise.** -/
theorem answersTo_once (cs : List Command) :
    ∀ a ∈ (answersTo k cs (run cs s).1).tail, a = some (.result .ok) := by
  induction cs generalizing s x with
  | nil => nofun
  | cons c cs ih =>
    rw [answersTo_cons]
    rcases perform_answersTo s k c with none | ⟨count, giveUp, rfl, answers⟩
    · rw [none]
      obtain ⟨x', hx'⟩ := perform_known scheduled hx c
      exact ih (perform_scheduled scheduled c) hx'
    · obtain ⟨first, batch⟩ := stopTask_answers scheduled hx count giveUp
      obtain ⟨x', hx', taken⟩ := stopTask_takes scheduled hx count giveUp
      rw [answers, batch]
      intro a mem
      rcases List.mem_append.mp mem with here | later
      · exact List.eq_of_mem_replicate here
      · exact answersTo_taken (perform_scheduled scheduled _) hx' taken cs a later

end Answers

/-! ## 5. The result of a task -/

/-- **A driver that stops a task for the first time**, with some calls at once. The first is
answered with the end of the body, and when it is done, unless it is given up before; every other
call, at once or later, is told without delay that there is nothing to wait for. The signal is fired
from then on, and the body goes on until it is done, whatever the driver does. -/
structure StopsFirst (w : World) (t : Shutdown.Task) (s : Service) (count : Nat)
    (giveUp : Option Nat) : Prop where
  unfired : s.isFired w.service.tasks.length = false
  answers : ∃ first, (s.perform (.stopTask w.service.tasks.length (count + 1) giveUp)).1 =
      .stopped (first :: List.replicate count (some (.result .ok))) ∧
    FirstAnswer t.ending s.now (t.done w.service.now s.now) (giveUp.map (wakeTime s.now))
      (s.perform (.stopTask w.service.tasks.length (count + 1) giveUp)).2.now first
  others : ∀ cs, let s' := (run (.stopTask w.service.tasks.length (count + 1) giveUp :: cs) s).2
    ∀ n giveUp', (s'.step (.stopTask w.service.tasks.length n giveUp')).1 =
      ⟨.stopped (List.replicate n (some (.result .ok))), 0⟩
  fired : ∀ cs, (run (.stopTask w.service.tasks.length (count + 1) giveUp :: cs) s).2.isFired
    w.service.tasks.length = true
  body : ∀ cs, let s' := (run (.stopTask w.service.tasks.length (count + 1) giveUp :: cs) s).2
    ∃ j, s'.jobs[w.service.jobs.length]? = some j ∧
      (s'.now < t.done w.service.now s.now → j.state.goesOn = true) ∧
      (t.done w.service.now s.now < s'.now → j.state = t.ending.leaves)

/-- Commands that stop nobody leave a task untouched. -/
theorem run_spares {w : World} (stopsTended : StopsTended w)
    (scheduled : Scheduled w.turn w.service) (free : w.turn = none) (t : Shutdown.Task)
    {cs : List Command} (spares : ∀ c ∈ cs, c.spares w.service.tasks.length = true) :
    ∃ ms, Untouched w t ms ∧
      ((w.apply (.addTask t)).after ms).service = (run (.registerTask t :: cs) w.service).2 := by
  have started := started_leftAlone stopsTended free t
  have scheduled' := apply_scheduled w (.addTask t) scheduled
  have still : (w.apply (.addTask t)).turn = none := apply_turn free nofun
  rw [still] at scheduled'
  have registered : (w.apply (.addTask t)).service = (w.service.perform (.registerTask t)).2 := by
    rw [apply_free free]
    rfl
  rw [registered] at started scheduled'
  exact run_untouched scheduled free t cs (run_leftAlone started scheduled' spares).task

theorem run_stopsFirst {w : World} (promptly : InvokedPromptly w) (stopsTended : StopsTended w)
    (scheduled : Scheduled w.turn w.service) (free : w.turn = none) (t : Shutdown.Task)
    {cs : List Command} (spares : ∀ c ∈ cs, c.spares w.service.tasks.length = true)
    (count : Nat) (giveUp : Option Nat) :
    StopsFirst w t (run (.registerTask t :: cs) w.service).2 count giveUp := by
  obtain ⟨ms, untouched, ran⟩ := run_spares stopsTended scheduled free t spares
  obtain ⟨ms', u, first, stopped, free', answered, answer⟩ :=
    untouched.stopTask promptly scheduled free rfl count giveUp
  have unfired := untouched.unfired scheduled (List.prefix_refl ms)
  rw [ran] at answered answer unfired
  generalize hv : (w.apply (.addTask t)).after ms = v at stopped ran
  generalize (run (.registerTask t :: cs) w.service).2 = s at answered answer unfired ran ⊢
  subst ran
  have performed : v.service.perform (.stopTask w.service.tasks.length (count + 1) giveUp) =
      (.stopped (first :: List.replicate count (some (.result .ok))), u.service) := by
    rw [perform_stopTask, answered]
  -- whatever the driver does then, it is some time after the first call
  have onward : ∀ cs', ∃ ms'' u', FirstStop w t ms giveUp ms'' v u' ∧ u'.turn = none ∧ u'.service =
      (run (.stopTask w.service.tasks.length (count + 1) giveUp :: cs') v.service).2 := by
    intro cs'
    have scheduled' := stopped.scheduled_after scheduled
    rw [free'] at scheduled'
    obtain ⟨u', reached, still, service⟩ := run_reaches free' scheduled' cs'
    obtain ⟨ms'', later⟩ := stopped.onward reached
    exact ⟨ms'', u', later, still, by rw [run_cons, performed, service]⟩
  refine ⟨unfired, ⟨first, by rw [performed], by rw [performed]; exact answer⟩, ?_,
    fun cs' => ?_, ?_⟩
  · intro cs' s' n giveUp'
    obtain ⟨ms'', u', later, still, service⟩ := onward cs'
    obtain ⟨x, hx, taken⟩ := later.taken
    change u'.service = s' at service
    rw [service] at hx
    have now := startStops_now w.service.tasks.length (giveUp'.map (wakeTime s'.now)) n s'
    unfold step
    rw [perform_stopTask, stopTask_taken hx taken]
    dsimp only
    rw [now, Nat.sub_self]
  · obtain ⟨ms'', u', later, still, service⟩ := onward cs'
    rw [← service]
    exact later.fired scheduled
  · intro cs' s'
    obtain ⟨ms'', u', later, still, service⟩ := onward cs'
    change u'.service = s' at service
    have stands := later.stands promptly scheduled free still
    have scheduled' := later.scheduled_after scheduled
    rw [still] at scheduled'
    rw [service] at stands scheduled'
    rcases Nat.lt_trichotomy s'.now (t.done w.service.now v.service.now) with early | same | late
    · obtain ⟨j, hj, goes⟩ := stands.goes early
      exact ⟨j, hj, fun _ => goes, fun late => absurd late (Nat.lt_asymm early)⟩
    · obtain ⟨j, hj⟩ := stands.here
      exact ⟨j, hj, fun early => absurd same (Nat.ne_of_lt early),
        fun late => absurd same.symm (Nat.ne_of_lt late)⟩
    · obtain ⟨j, hj, left⟩ := stands.late scheduled' (Nat.le_of_lt late) (.inl late)
      exact ⟨j, hj, fun early => absurd late (Nat.lt_asymm early), fun _ => left⟩

/-- **The result of a task is delivered once.** Somebody starts a task; nobody stops it or the
service, things happen on time, and at some moment, before the body has begun, while it goes on or
when it has ended, somebody makes the first call to stop it, and others follow. The first call gets
the end of the body unless it is given up; every other call is told that there is nothing to wait
for. The body hears its signal from the first call on and not before, and goes its own way to its
own end. A driver that makes some calls at once after whatever it likes gets the first answer when
the body is done, or at once if it was done before, or when the call is given up; it gets all others
without delay. And in a whole run, whatever else is done in it, at most one call to stop the task is
answered with more than that there is nothing to wait for. -/
theorem result_delivered_once (setup : Setup) (clock : Time.Stamp) (before : List Move)
    (t : Shutdown.Task) (free : ((new setup clock).after before).turn = none) :
    let w := (new setup clock).after before
    let k := w.service.tasks.length
    (∀ (ms : List Move) (giveUp : Option Nat) (ms' : List Move),
      let v := (w.apply (.addTask t)).after ms
      (∀ giveUp, .stop k giveUp ∉ ms) → .call ∉ ms → (w.apply (.addTask t)).OnTime ms →
      v.turn = none → (v.apply (.stop k giveUp)).OnTime ms' →
        Delivers w t ms giveUp ms' v ((v.apply (.stop k giveUp)).after ms')) ∧
    (∀ (cs : List Command) (count : Nat) (giveUp : Option Nat), (∀ c ∈ cs, c.spares k = true) →
      StopsFirst w t (run (.registerTask t :: cs) w.service).2 count giveUp) ∧
    ∀ cs : List Command, let replies := (run (.registerTask t :: cs) w.service).1
      ∀ a ∈ (answersTo k (.registerTask t :: cs) replies).tail, a = some (.result .ok) := by
  intro w k
  have promptly :=
    after_invokedPromptly (new_invokedPromptly setup clock) (new_scheduled setup clock) before
  have scheduled := after_scheduled (new setup clock) before (new_scheduled setup clock)
  have stopsTended := after_stopsTended setup clock before
  refine ⟨fun ms giveUp ms' alone running timely still timely' => ?_,
    fun cs count giveUp spares =>
      run_stopsFirst promptly stopsTended scheduled free t spares count giveUp,
    fun cs => ?_⟩
  · have untouched := untouched_of_leftAlone stopsTended scheduled free t alone running timely still
    have stopped : FirstStop w t ms giveUp ms' _ _ := ⟨untouched, rfl, timely', rfl⟩
    refine stopped.delivers promptly scheduled free ?_
    have all := after_stopsTended setup clock (before ++ .addTask t :: ms ++ .stop k giveUp :: ms')
    rwa [List.append_assoc, after_append, List.cons_append, after_cons, after_append,
      after_cons] at all
  · have scheduled' : Scheduled none w.service := by
      rw [free] at scheduled
      exact scheduled
    have registered : (w.service.perform (.registerTask t)).2.tasks[k]? =
        some ⟨t.name, false, w.service.jobs.length, false⟩ := List.getElem?_concat_length
    intro replies
    exact answersTo_once (perform_scheduled scheduled' _) registered cs

/-- A worker that waits for its signal, and panics twenty milliseconds after that, is stopped by two
calls at once, five milliseconds after it was started. The first gets the panic when the worker is
done. If the first call is given up after a millisecond, nobody ever gets it. -/
theorem panic_delivered_to_first :
    let worker : Shutdown.Task := ⟨"worker", true, some 20, .panics (.text "boom")⟩
    let w := new ⟨1000, 100, true, ⟨"api", "test", ⟨none, none⟩⟩, .ascending⟩ ⟨0, 0⟩
    let v := (w.apply (.addTask worker)).after [.begin, .go, .go, .advance 5]
    let u := (v.apply (.stop 0 none)).after [.begin, .go, .go]
    let s := (run [.registerTask worker, .sleep 5] w.service).2
    let panicked : StopAnswer := .result (.error (.panicked (Payload.text "boom").report))
    let cs : List Command := [.registerTask worker, .stopTask 0 1 (some 1), .sleep 40,
      .stopTask 0 2 none]
    (v.service.isFired 0 = false ∧ u.service.isFired 0 = true) ∧
    ((s.perform (.stopTask 0 2 none)).1 = .stopped [some panicked, some (.result .ok)] ∧
      (s.perform (.stopTask 0 2 none)).2.now = 25) ∧
    ∀ a ∈ (answersTo 0 cs (run cs w.service).1).tail, a = some (.result .ok) := by
  intro worker w v u s panicked cs
  obtain ⟨moves, driver, all⟩ := result_delivered_once
    ⟨1000, 100, true, ⟨"api", "test", ⟨none, none⟩⟩, .ascending⟩ ⟨0, 0⟩ [] worker rfl
  have delivers := moves [.begin, .go, .go, .advance 5] none [.begin, .go, .go] (by simp) (by simp)
    (by decide +kernel) (by decide +kernel) (by decide +kernel)
  have first : StopsFirst w worker s 1 none := driver [.sleep 5] 1 none (by decide)
  have number : w.service.tasks.length = 0 := rfl
  have begun : w.service.now = 0 := rfl
  have start : s.now = 5 := by decide +kernel
  have unfired : v.service.isFired 0 = false := delivers.unfired _ (List.prefix_refl _)
  have fired : u.service.isFired 0 = true := delivers.fired
  have once : ∀ a ∈ (answersTo 0 cs (run cs w.service).1).tail, a = some (.result .ok) :=
    all [.stopTask 0 1 (some 1), .sleep 40, .stopTask 0 2 none]
  refine ⟨⟨unfired, fired⟩, ?_, once⟩
  obtain ⟨a, answered, answer⟩ := first.answers
  simp only [number, begun, start, Nat.reduceAdd] at answered answer
  cases answer with
  | result gives when =>
    have done : max 5 (worker.done 0 5) = 25 := by decide +kernel
    cases gives
    exact ⟨answered, when.trans done⟩
  | gaveUp limit => cases limit
  | never unlimited hangs => cases hangs

end World

end ServiceHealth
