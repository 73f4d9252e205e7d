import ServiceHealth.Proofs.Trigger
import ServiceHealth.Proofs.Withdrawal
import ServiceHealth.Settings.Environment

/-!
# What a call to shut down leaves behind

A call that finds the service running moves it to draining, then computes its deadline, and only
then withdraws readiness. A deadline that cannot be computed breaks it off in between: nobody shuts
the service down then and nobody will, and it goes on to say that it is ready. Every other call,
when it has ended, has done everything or nothing.

* `Continues`, `after_continues`: what becomes of a call; `hasEnded`: when it is over.
* `Hopeless`: the calls that break off, `hopeless_iff`: they are those with a timeout too long.
* `TookEffect`, `NoEffect`: everything and nothing, `ended_iff`: the calls of which it is either.
* `Stranded`: what a call that breaks off leaves, `stranded`: for good.
* `trigger_split`: no service that is not running is without a call that found it running.
* `readyz_ok_iff`: when readiness probes still succeed after such a call.

So it is the timeout alone that decides whether a shutdown is all or nothing.
-/

namespace ServiceHealth

open Service

namespace World

/-! ## 1. Calls that have ended -/

/-- Whether a call to shut down is over: it has returned or broken off. -/
def hasEnded : Except Overflow Call → Bool
  | .ok c => c.hasReturned
  | .error _ => true

/-- **What becomes of a call**: one that collects goes on or gets its report, and any other stays
what it is. -/
inductive Continues : Except Overflow Call → Except Overflow Call → Prop where
  | same (c : Except Overflow Call) : Continues c c
  | collects (x y : Collection) : Continues (.ok (.collecting x)) (.ok (.collecting y))
  | finishes (x : Collection) (r : Shutdown.Report) :
      Continues (.ok (.collecting x)) (.ok (.finished r))

theorem Continues.trans {c d e : Except Overflow Call} (h : Continues c d) (k : Continues d e) :
    Continues c e := by
  cases h with
  | same => exact k
  | collects x y =>
    cases k with
    | same => exact .collects x y
    | collects _ z => exact .collects x z
    | finishes _ r => exact .finishes x r
  | finishes x r =>
    cases k
    exact .finishes x r

/-- A call that has ended stays what it is. -/
theorem Continues.ended {c d : Except Overflow Call} (h : Continues c d)
    (ended : hasEnded c = true) : d = c := by
  cases h with
  | same => rfl
  | collects => cases ended
  | finishes => cases ended

theorem poll_continues (c : Call) (s : Service) : Continues (.ok c) (.ok (c.poll s).1) := by
  rcases poll_cases c s with
    ⟨-, e⟩ | ⟨x, y, _, rfl, -, -, e⟩ | ⟨x, r, _, rfl, -, e⟩ <;> rw [e]
  · exact .same _
  · exact .collects x y
  · exact .finishes x r

theorem lookCall_continues (w : World) (j : Nat) {i : Nat} {c : Except Overflow Call}
    (hc : w.calls[i]? = some c) : ∃ d, (w.lookCall j).calls[i]? = some d ∧ Continues c d := by
  unfold lookCall
  split
  · rename_i x hx
    by_cases e : j = i
    · subst e
      rw [hx] at hc
      obtain rfl := Option.some.inj hc
      exact ⟨_, List.getElem?_set_self (List.getElem?_eq_some_iff.mp hx).1, poll_continues x _⟩
    · exact ⟨c, (List.getElem?_set_ne e).trans hc, .same c⟩
  · exact ⟨c, hc, .same c⟩

/-- Calls are not forgotten, and what a move does to one of them. -/
theorem apply_continues (w : World) (m : Move) {i : Nat} {c : Except Overflow Call}
    (hc : w.calls[i]? = some c) : ∃ d, (w.apply m).calls[i]? = some d ∧ Continues c d := by
  have added : ∀ d, (w.calls ++ [d])[i]? = some c := fun d => by
    rw [List.getElem?_append_left (List.getElem?_eq_some_iff.mp hc).1, hc]
  unfold apply
  split
  · by_cases called : m = .call
    · subst called
      refine ⟨c, ?_, .same c⟩
      show w.call.calls[i]? = _
      rcases call_cases w with ⟨-, e, -⟩ | ⟨-, -, e, -⟩ | ⟨d, -, -, e, -⟩ <;> rw [e] <;>
        exact added _
    by_cases looked : ∃ j, m = .lookCall j
    · obtain ⟨j, rfl⟩ := looked
      exact lookCall_continues w j hc
    · refine ⟨c, ?_, .same c⟩
      rw [(outside_phase w m called fun j e => looked ⟨j, e⟩).2, hc]
  · split <;> exact ⟨c, hc, .same c⟩

/-- **What becomes of a call in whatever happens.** -/
theorem after_continues (w : World) (ms : List Move) {i : Nat} {c : Except Overflow Call}
    (hc : w.calls[i]? = some c) : ∃ d, (w.after ms).calls[i]? = some d ∧ Continues c d := by
  induction ms generalizing w c with
  | nil => exact ⟨c, hc, .same c⟩
  | cons m ms ih =>
    obtain ⟨d, hd, first⟩ := apply_continues w m hc
    obtain ⟨e, he, later⟩ := ih (w.apply m) hd
    exact ⟨e, he, first.trans later⟩

/-! ## 2. What a call does -/

/-- A call that is made now would find the service running and break off. -/
def Hopeless (s : Service) : Prop :=
  s.phase = .running ∧ deadline? s.now s.setup.drainTimeout = none

/-- It is the length of the timeout that breaks a call off. -/
theorem hopeless_iff (s : Service) :
    Hopeless s ↔ s.phase = .running ∧ momentLimit ≤ s.now + s.setup.drainTimeout :=
  and_congr_right fun _ => deadline?_eq_none

theorem canWithdraw_of {s : Service} (running : s.phase = .running) (h : ¬ Hopeless s) :
    CanWithdraw s :=
  ⟨running, Option.isSome_iff_ne_none.mpr fun none => h ⟨running, none⟩⟩

/-- **A call that breaks off changes the phase and nothing else.** -/
theorem call_hopeless {w : World} (free : w.turn = none) (h : Hopeless w.service) :
    w.apply .call = { w with
      service := { w.service with phase := .draining }
      calls := w.calls ++ [.error .deadline] } := by
  rw [apply_free free]
  rcases call_cases w with ⟨late, -, -⟩ | ⟨-, -, e, -⟩ | ⟨d, -, hd, -, -⟩
  · exact absurd h.1 late
  · exact e
  · rw [h.2] at hd
    cases hd

theorem history_hopeless {w : World} (free : w.turn = none) (h : Hopeless w.service) :
    w.happenings .call = [] := by
  unfold happenings
  rw [free]
  refine if_neg fun can => ?_
  have computed := can.2
  rw [h.2] at computed
  cases computed

/-- **Everything that a call is to do**: it has withdrawn readiness, and later the service has
stopped. -/
structure TookEffect (w later : World) : Prop where
  withdrawn : Withdrawn (w.apply .call).service
  stopped : later.service.phase = .stopped

/-- A call that is made now changes at most the log. -/
def NoEffect (w : World) : Prop := ∃ log, (w.apply .call).service = { w.service with log }

/-- When a call that wins has ended, the service has stopped. -/
theorem won_ended {w : World} (h : InOrder w) (free : w.turn = none) (can : CanWithdraw w.service)
    {after : List Move} {c : Except Overflow Call}
    (hc : ((w.apply .call).after after).calls[0]? = some c) (ended : hasEnded c = true) :
    ((w.apply .call).after after).service.phase = .stopped := by
  have called : w.apply .call = w.call := apply_free free _
  obtain ⟨d, -, e⟩ := call_won can
  have made : (w.apply .call).calls[0]? = some
      (.ok ((Call.collecting (w.service.opening d)).poll (w.service.teardownsStarted d)).1) := by
    rw [called, e, h.uncalled can.1]
    rfl
  obtain ⟨c', hc', goesOn⟩ := after_continues _ after made
  rw [hc] at hc'
  obtain rfl := Option.some.inj hc'
  have finished : ∃ r, c = .ok (.finished r) := by
    cases (poll_continues _ _).trans goesOn with
    | same => cases ended
    | collects => cases ended
    | finishes x r => exact ⟨r, rfl⟩
  obtain ⟨r, rfl⟩ := finished
  obtain ⟨rest, calls⟩ := List.head?_eq_some_iff.mp (List.head?_eq_getElem?.trans hc)
  rw [(after_inOrder _ after (apply_inOrder w .call h)).phase, calls]
  rfl

/-- What the calls are after one that has broken off. -/
theorem hopeless_calls {w : World} (h : InOrder w) (free : w.turn = none)
    (hopeless : Hopeless w.service) (after : List Move) :
    ∃ n, ((w.apply .call).after after).calls =
      .error .deadline :: List.replicate n (.ok .ignored) := by
  have made : (w.apply .call).calls[0]? = some (.error .deadline) := by
    rw [call_hopeless free hopeless, h.uncalled hopeless.1]
    rfl
  obtain ⟨c, hc, goesOn⟩ := after_continues _ after made
  obtain rfl := goesOn.ended rfl
  have inOrder := after_inOrder _ after (apply_inOrder w .call h)
  obtain ⟨rest, calls⟩ := List.head?_eq_some_iff.mp (List.head?_eq_getElem?.trans hc)
  have ignored : rest = List.replicate rest.length (.ok .ignored) :=
    List.eq_replicate_iff.mpr ⟨rfl, fun d hd => inOrder.rest d (by rw [calls]; exact hd)⟩
  exact ⟨rest.length, calls.trans (congrArg _ ignored)⟩

theorem hopeless_draining {w : World} (h : InOrder w) (free : w.turn = none)
    (hopeless : Hopeless w.service) (after : List Move) :
    ((w.apply .call).after after).service.phase = .draining := by
  obtain ⟨n, calls⟩ := hopeless_calls h free hopeless after
  rw [(after_inOrder _ after (apply_inOrder w .call h)).phase, calls]
  rfl

/-- **A call that has ended has done everything or nothing, unless it has broken off.** -/
theorem ended_iff {w : World} (h : InOrder w) (free : w.turn = none) {after : List Move}
    {c : Except Overflow Call}
    (hc : ((w.apply .call).after after).calls[w.calls.length]? = some c)
    (ended : hasEnded c = true) :
    (TookEffect w ((w.apply .call).after after) ∨ NoEffect w) ↔ ¬ Hopeless w.service := by
  constructor
  · rintro (effect | ⟨log, none⟩) hopeless
    · have stopped := effect.stopped
      rw [hopeless_draining h free hopeless after] at stopped
      cases stopped
    · -- the phase has changed, which is more than nothing
      have phase := congrArg Service.phase none
      rw [call_hopeless free hopeless] at phase
      change Phase.draining = w.service.phase at phase
      rw [hopeless.1] at phase
      cases phase
  · intro hopeful
    by_cases running : w.service.phase = .running
    · have can := canWithdraw_of running hopeful
      rw [h.uncalled running] at hc
      refine .inl ⟨?_, won_ended h free can hc ended⟩
      rw [apply_free free]
      exact call_withdrawn can
    · have called : w.calls ≠ [] := fun none => running (by rw [h.phase, none]; rfl)
      have late := congrArg World.service (call_late h free called)
      exact .inr ⟨_, late⟩

/-! ## 3. What a call that breaks off leaves behind -/

/-- **A service that a call has left behind when it broke off.** It is draining for good and nobody
shuts it down: of the calls to do so, the first has broken off and all others were ignored.
Readiness is never withdrawn and no teardown ever invoked, and the flags are what others write. -/
structure Stranded (w₀ : World) (before after : List Move) : Prop where
  left : (w₀.after before).apply .call = { w₀.after before with
    service := { (w₀.after before).service with phase := .draining }
    calls := (w₀.after before).calls ++ [.error .deadline] }
  phase : (w₀.after (before ++ .call :: after)).service.phase = .draining
  calls : ∃ n, (w₀.after (before ++ .call :: after)).calls =
    .error .deadline :: List.replicate n (.ok .ignored)
  quiet : .withdrew ∉ w₀.history (before ++ .call :: after)
  invoked : ∀ j, invocations w₀ (before ++ .call :: after) j = 0
  flags : (w₀.after (before ++ .call :: after)).service.flags =
    (((w₀.after before).apply .call).history after).foldl wrote (w₀.after before).service.flags

theorem hopeless_flags {w : World} (free : w.turn = none) (hopeless : Hopeless w.service)
    (after : List Move) : ((w.apply .call).after after).service.flags =
      ((w.apply .call).history after).foldl wrote w.service.flags := by
  rw [after_flags, call_hopeless free hopeless]

theorem stranded (setup : Setup) (clock : Time.Stamp) (before after : List Move)
    (free : ((new setup clock).after before).turn = none)
    (hopeless : Hopeless ((new setup clock).after before).service) :
    Stranded (new setup clock) before after := by
  have inOrder := after_inOrder _ before (new_inOrder setup clock)
  have split : (new setup clock).after (before ++ .call :: after) =
      (((new setup clock).after before).apply .call).after after := by rw [after_append, after_cons]
  have quiet : .withdrew ∉ (new setup clock).history (before ++ .call :: after) := by
    rw [history_append, history_cons, history_hopeless free hopeless, List.nil_append,
      List.mem_append, not_or]
    refine ⟨fun k => withdrew_phase _ before k hopeless.1, withdrew_once _ after ?_⟩
    rw [call_hopeless free hopeless]
    nofun
  exact {
    left := call_hopeless free hopeless
    phase := by rw [split]; exact hopeless_draining inOrder free hopeless after
    calls := by rw [split]; exact hopeless_calls inOrder free hopeless after
    quiet
    invoked := fun j => (not_invoked_before setup clock _ quiet j).1
    flags := by rw [split]; exact hopeless_flags free hopeless after }

/-- **A shutdown whose first call breaks off** gives up at once, and changes the phase and nothing
else. -/
theorem drain_hopeless {s : Service} (h : Hopeless s) (count : Nat) (probes : List Nat) :
    s.drain (count + 1) probes = (.error .deadline, { s with phase := .draining }) := by
  have broken : s.startCall = (.error .deadline, { s with phase := .draining }) := by
    rcases startCall_cases s with ⟨late, -⟩ | ⟨-, -, e⟩ | ⟨-, d, hd, -⟩
    · exact absurd h.1 late
    · exact e
    · rw [h.2] at hd
      cases hd
  simp only [drain, startCalls, broken]

/-- A command whose first call breaks off answers that. -/
theorem perform_hopeless {s : Service} (h : Hopeless s) (count : Nat) (probes : List Nat) :
    s.perform (.drain (count + 1) probes) =
      (.overflow .deadline, { s with phase := .draining }) := by
  simp only [perform, drain_hopeless h]

/-- **A run that goes on with a call that breaks off is an order of moves of that kind.** -/
theorem run_stranded (setup : Setup) (clock : Time.Stamp) (cs : List Command) (count : Nat)
    (probes : List Nat) (cs' : List Command) (hopeless : Hopeless (run cs (.new setup clock)).2) :
    ∃ before after, ((new setup clock).after before).turn = none ∧
      ((new setup clock).after before).service = (run cs (.new setup clock)).2 ∧
      ((new setup clock).after (before ++ .call :: after)).service =
        (run (.drain (count + 1) probes :: cs') (run cs (.new setup clock)).2).2 ∧
      Stranded (new setup clock) before after := by
  obtain ⟨w, driven, free, service⟩ := run_driven cs (w := new setup clock) rfl
    (new_scheduled setup clock)
  obtain ⟨before, rfl, -⟩ := driven.moves
  change World.service _ = (run cs (.new setup clock)).2 at service
  rw [← service] at hopeless ⊢
  have left := call_hopeless free hopeless
  have scheduled :=
    apply_scheduled _ .call (after_scheduled (new setup clock) before (new_scheduled setup clock))
  have still : (((new setup clock).after before).apply .call).turn = none := by
    rw [left]
    exact free
  rw [still] at scheduled
  obtain ⟨w', rest, -, service'⟩ := run_driven cs' still scheduled
  obtain ⟨after, rfl, -⟩ := rest.moves
  refine ⟨before, after, free, rfl, ?_, stranded setup clock before after free hopeless⟩
  rw [after_append, after_cons, service', run_cons, perform_hopeless hopeless, left]

/-! ## 4. Services that are no longer running -/

/-- **A service that is no longer running has had a call that found it running.** -/
theorem trigger_split {w : World} (h : InOrder w) (running : w.service.phase = .running)
    {ms : List Move} (late : (w.after ms).service.phase ≠ .running) :
    ∃ before after, ms = before ++ .call :: after ∧ (w.after before).turn = none ∧
      (w.after before).service.phase = .running := by
  induction ms generalizing w with
  | nil => exact absurd running late
  | cons m ms ih =>
    by_cases still : (w.apply m).service.phase = .running
    · obtain ⟨before, after, rfl, free, found⟩ := ih (apply_inOrder w m h) still late
      exact ⟨m :: before, after, rfl, free, found⟩
    · rcases apply_phase_order h m with same | ⟨-, rfl⟩ | ⟨draining, -⟩
      · exact absurd (same.trans running) still
      · refine ⟨[], ms, rfl, ?_, running⟩
        cases free : w.turn with
        | none => exact free
        | some t =>
          -- in the turn of a job no call is made
          rw [apply_wait free (by nofun)] at still
          exact absurd running still
      · rw [running] at draining
        cases draining

/-- **When no call is under way, a service that is no longer running has stopped**, or a call has
broken off. -/
theorem stopped_or_hopeless {w : World} (h : InOrder w) (running : w.service.phase = .running)
    {ms : List Move} (late : (w.after ms).service.phase ≠ .running)
    (isOver : ∀ c ∈ (w.after ms).calls, hasEnded c = true) :
    (w.after ms).service.phase = .stopped ∨ ∃ before after, ms = before ++ .call :: after ∧
      (w.after before).turn = none ∧ Hopeless (w.after before).service := by
  obtain ⟨before, after, rfl, free, found⟩ := trigger_split h running late
  by_cases hopeless : Hopeless (w.after before).service
  · exact .inr ⟨before, after, rfl, free, hopeless⟩
  · left
    have inOrder := after_inOrder w before h
    have told := (after_inOrder w (before ++ .call :: after) h).phase
    have called : (w.after (before ++ .call :: after)).calls ≠ [] := fun none =>
      late (told.trans (by rw [none]; rfl))
    obtain ⟨c, rest, calls⟩ := List.exists_cons_of_ne_nil called
    have first : (w.after (before ++ .call :: after)).calls[0]? = some c := by
      rw [calls]
      rfl
    have ended := isOver c (List.mem_of_getElem? first)
    rw [after_append, after_cons] at first ⊢
    exact won_ended inOrder free (canWithdraw_of found hopeless) first ended

/-! ## 5. Readiness probes after a call -/

theorem readiness_ok_iff (f : Health.Flags) :
    (Probe.readiness f).status = 200 ↔ f = ⟨true, false⟩ := by
  obtain ⟨ready, down⟩ := f
  cases ready <;> cases down <;> decide

/-- **When nobody has written a flag since the call that found the service running, readiness probes
succeed if and only if it has broken off**, and they would have succeeded before. -/
theorem readyz_ok_iff (setup : Setup) (clock : Time.Stamp) (before after : List Move)
    (free : ((new setup clock).after before).turn = none)
    (running : ((new setup clock).after before).service.phase = .running)
    (silent : ∀ x ∈ (((new setup clock).after before).apply .call).history after, x.writes = false)
    {m : Move} {r : Probe.Request} {x : Probe.Response} {withBody : Bool}
    (target : r.target = .route .readyz withBody)
    (mem : .answered r x ∈
      ((((new setup clock).after before).apply .call).after after).happenings m) :
    x.status = 200 ↔ Hopeless ((new setup clock).after before).service ∧
      ((new setup clock).after before).service.flags = ⟨true, false⟩ := by
  rw [answered_readyz (since_asked setup clock before after) mem target, status_sent,
    readiness_ok_iff]
  by_cases hopeless : Hopeless ((new setup clock).after before).service
  · have late : (((new setup clock).after before).apply .call).service.phase ≠ .running := by
      rw [call_hopeless free hopeless]
      nofun
    rw [hopeless_flags free hopeless, wrote_same silent (withdrew_once _ after late)]
    exact ⟨fun e => ⟨hopeless, e⟩, fun e => e.2⟩
  · have can := canWithdraw_of running hopeless
    have withdrawn := since_withdrawn free can silent after [] (List.append_nil after).symm
    rw [withdrawn.1]
    exact ⟨nofun, fun e => absurd e.1 hopeless⟩

/-! ## 6. All or nothing -/

/-- **A shutdown is all or nothing unless its deadline cannot be computed.** When a call has ended,
it has withdrawn readiness and the service has stopped, or it has changed nothing, if and only if it
was not one that breaks off. One that does leaves the service draining for good, with readiness as
it was, in a run as in any other order of moves. Of the calls that find the service running it is
the only one after which readiness probes can succeed although nobody has written a flag, and the
only one after which a service is no longer running, has not stopped, and has no call under way. -/
theorem all_or_nothing_unless_hopeless (setup : Setup) (clock : Time.Stamp) :
    (∀ before after, ((new setup clock).after before).turn = none →
      let w := (new setup clock).after before
      let later := (w.apply .call).after after
      ((∃ c, later.calls[w.calls.length]? = some c ∧ hasEnded c = true) →
        ((TookEffect w later ∨ NoEffect w) ↔ ¬ Hopeless w.service)) ∧
      (Hopeless w.service → Stranded (new setup clock) before after) ∧
      (w.service.phase = .running →
        (∀ x ∈ (w.apply .call).history after, x.writes = false) →
        ∀ m r x withBody, r.target = .route .readyz withBody → .answered r x ∈ later.happenings m →
          (x.status = 200 ↔ Hopeless w.service ∧ w.service.flags = ⟨true, false⟩))) ∧
    (∀ ms, ((new setup clock).after ms).service.phase ≠ .running →
      (∀ c ∈ ((new setup clock).after ms).calls, hasEnded c = true) →
      ((new setup clock).after ms).service.phase = .stopped ∨
        ∃ before after, ms = before ++ .call :: after ∧
          ((new setup clock).after before).turn = none ∧
          Hopeless ((new setup clock).after before).service) ∧
    ∀ cs count probes cs', Hopeless (run cs (.new setup clock)).2 →
      ∃ before after, ((new setup clock).after before).turn = none ∧
        ((new setup clock).after before).service = (run cs (.new setup clock)).2 ∧
        ((new setup clock).after (before ++ .call :: after)).service =
          (run (.drain (count + 1) probes :: cs') (run cs (.new setup clock)).2).2 ∧
        Stranded (new setup clock) before after := by
  refine ⟨fun before after free => ⟨?_, stranded setup clock before after free, ?_⟩,
    fun ms late isOver => stopped_or_hopeless (new_inOrder setup clock) rfl late isOver,
    run_stranded setup clock⟩
  · rintro ⟨c, hc, ended⟩
    exact ended_iff (after_inOrder _ before (new_inOrder setup clock)) free hc ended
  · intro running silent m r x withBody target mem
    exact readyz_ok_iff setup clock before after free running silent target mem

/-- A service that is ready, with the longest timeout that its settings admit. -/
def boundlessService : World :=
  (new ⟨1000, 18446744073709551615 * 1000, true, ⟨"api", "test", ⟨none, none⟩⟩, .ascending⟩
    ⟨0, 0⟩).after
    [.act (.setReady true), .addComponent ⟨"cache", none, [], .returns .ok⟩]

/-- A call breaks off where the timeout is the longest, and readiness probes still succeed; where it
is the shortest, the call does everything. -/
theorem boundless_call_breaks_off_hasty_call_does_not :
    (Hopeless boundlessService.service ∧
      Stranded (new ⟨1000, 18446744073709551615 * 1000, true, ⟨"api", "test", ⟨none, none⟩⟩,
          .ascending⟩ ⟨0, 0⟩)
        [.act (.setReady true), .addComponent ⟨"cache", none, [], .returns .ok⟩]
        [.call, .begin, .request readyzRequest] ∧
      ∀ x, .answered readyzRequest x ∈
        ((boundlessService.apply .call).after [.call, .begin]).happenings (.request readyzRequest) →
        x.status = 200) ∧
    ¬ Hopeless hastyService.service ∧
    (TookEffect hastyService ((hastyService.apply .call).after [.call]) ∨
      NoEffect hastyService) := by
  have hopeless : Hopeless boundlessService.service := ⟨rfl, rfl⟩
  have hopeful : ¬ Hopeless hastyService.service := fun h => by cases h.2
  have boundless := (all_or_nothing_unless_hopeless
    ⟨1000, 18446744073709551615 * 1000, true, ⟨"api", "test", ⟨none, none⟩⟩, .ascending⟩ ⟨0, 0⟩).1
    [.act (.setReady true), .addComponent ⟨"cache", none, [], .returns .ok⟩]
  have hasty := (all_or_nothing_unless_hopeless
    ⟨1000, 0, true, ⟨"api", "test", ⟨none, none⟩⟩, .ascending⟩ ⟨0, 0⟩).1
    [.act (.setReady true), .addComponent ⟨"cache", none, [.setReady true], .returns .ok⟩]
  obtain ⟨-, left, -⟩ := boundless [.call, .begin, .request readyzRequest] rfl
  obtain ⟨-, -, probed⟩ := boundless [.call, .begin] rfl
  obtain ⟨whole, -, -⟩ := hasty [.call] rfl
  refine ⟨⟨hopeless, left hopeless, fun x mem => ?_⟩, hopeful, (whole ⟨_, rfl, rfl⟩).mpr hopeful⟩
  exact (probed rfl nofun _ _ x _ readyzRequest_target mem).mpr ⟨hopeless, rfl⟩

/-- **A shutdown is not all or nothing whatever its timeout.** The ready service with the longest
timeout is draining after a call, which has ended, and its readiness probes succeed; the next call
is ignored, and the teardown of the cache is not even started. -/
theorem boundless_call_does_half :
    Settings.readTimeout (fun _ => some "18446744073709551615") .shutdownTimeout 30 =
      .ok 18446744073709551615 ∧
    boundlessService.turn = none ∧
    (boundlessService.apply .call).calls = [.error .deadline] ∧
    ¬ (TookEffect boundlessService (boundlessService.apply .call) ∨ NoEffect boundlessService) ∧
    (boundlessService.apply .call).service.phase = .draining ∧
    (boundlessService.apply .call).service.flags = ⟨true, false⟩ ∧
    .answered readyzRequest ⟨200, some "text/plain; charset=utf-8", none, "ready"⟩ ∈
      (boundlessService.apply .call).happenings (.request readyzRequest) ∧
    ((boundlessService.apply .call).apply .call).calls = [.error .deadline, .ok .ignored] ∧
    ((boundlessService.apply .call).apply .call).service.jobs = [] := by
  refine ⟨by decide +kernel, rfl, rfl, ?_, rfl, rfl, List.mem_of_getElem? (i := 0) rfl, rfl, rfl⟩
  rintro (effect | ⟨log, none⟩)
  · cases effect.stopped
  · cases congrArg Service.phase none

end World

end ServiceHealth
