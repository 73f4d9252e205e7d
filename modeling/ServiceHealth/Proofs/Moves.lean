import ServiceHealth.Proofs.Checking
import ServiceHealth.Proofs.Draining

/-!
# Waiting is moves

A driver that waits looks, lets the jobs have their turns, looks again and lets time pass until
something can happen. Each of these is one of the moves of a world, or several, and by none of them
anything comes into the service that could do something to it.

* `brought`: the moves by which something comes in.
* `settle_led`: turns are moves.
* `await_led`: **waiting is moves, if looking is**.
* `aggregating_led`, `stopping_led`, `draining_led`: what a driver waits for.
* `startCalls_led`, `startStops_led`, `startAggregations_led`: what it starts before.
-/

namespace ServiceHealth

open Service

/-! ## 1. Turns -/

/-- Whether something comes into the service that does something to it: an action that somebody
does, or the actions of a component. -/
def Move.brings : Move → Bool
  | .act _ => true
  | .addComponent _ => true
  | _ => false

namespace World

/-- The moves by which actions come into the service. -/
def brought (ms : List Move) : List Move := ms.filter (·.brings)

theorem brought_append (ms ns : List Move) : brought (ms ++ ns) = brought ms ++ brought ns :=
  List.filter_append ..

/-- Moves by which nothing comes in, before others. -/
theorem brought_waiting {ms ns : List Move} (h : brought ms = []) :
    brought (ms ++ ns) = brought ns := by
  rw [brought_append, h, List.nil_append]

/-- Moves by which nothing comes in, after others. -/
theorem brought_waits {ms ns : List Move} (h : brought ns = []) :
    brought (ms ++ ns) = brought ms := by
  rw [brought_append, h, List.append_nil]

theorem brought_replicate (count : Nat) {m : Move} (h : m.brings = false) :
    brought (List.replicate count m) = [] := by
  unfold brought
  rw [List.filter_replicate, h]
  rfl

/-- A world at rest in which the service has gone on. -/
def withService (w : World) (s : Service) : World := { w with turn := none, service := s }

theorem withService_self {w : World} (free : w.turn = none) : w.withService w.service = w := by
  obtain ⟨s, turn, _, _, _⟩ := w
  cases free
  rfl

/-- **A turn is a row of steps.** -/
theorem proceed_led (job : JobId) (who : String) (close : Close) (todo : List Step) (w : World)
    (ht : w.turn = some ⟨job, who, close, todo⟩) :
    ∃ ns, brought ns = [] ∧ w.after ns = w.withService (proceed job who close todo w.service) := by
  induction todo generalizing w with
  | nil =>
    refine ⟨[.go], rfl, ?_⟩
    rw [after_cons, after_nil, apply, ht]
    rfl
  | cons x rest ih =>
    have stepped : w.apply .go = { w with
        turn := (Turn.step ⟨job, who, close, x :: rest⟩ w.service).1
        service := (Turn.step ⟨job, who, close, x :: rest⟩ w.service).2 } := by
      rw [apply, ht]
    cases hold : w.service.holdUp? x with
    | some state =>
      refine ⟨[.go], rfl, ?_⟩
      rw [after_cons, after_nil, stepped, proceed_cons_hold hold]
      simp only [Turn.step, hold]
      rfl
    | none =>
      simp only [Turn.step, hold] at stepped
      obtain ⟨ns, waits, h⟩ := ih (w.apply .go) (by rw [stepped])
      refine ⟨.go :: ns, waits, ?_⟩
      rw [after_cons, h, proceed_cons_act hold, stepped]
      rfl

/-- **All turns until the queue is empty are moves.** -/
theorem settleLoop_led (fuel : Nat) (w : World) (free : w.turn = none) :
    ∃ ns, brought ns = [] ∧ w.after ns = w.withService (settleLoop fuel w.service) := by
  induction fuel generalizing w with
  | zero => exact ⟨[], rfl, (withService_self free).symm⟩
  | succ fuel ih =>
    unfold settleLoop
    split
    · exact ⟨[], rfl, (withService_self free).symm⟩
    · rename_i job rest hq
      have begun : w.apply .begin =
          { w with turn := (Turn.begin w.service).1, service := (Turn.begin w.service).2 } :=
        apply_free free _
      have turned : ∃ ns, brought ns = [] ∧ w.after ns =
          w.withService (resume { w.service with queue := rest } job) := by
        rw [resume_eq hq]
        cases ht : (Turn.begin w.service).1 with
        | none =>
          refine ⟨[.begin], rfl, ?_⟩
          rw [after_cons, after_nil, begun, ht]
          rfl
        | some t =>
          obtain ⟨ns, waits, h⟩ := proceed_led t.job t.who t.close t.todo (w.apply .begin)
            (by rw [begun, ht])
          refine ⟨.begin :: ns, waits, ?_⟩
          rw [after_cons, h, begun]
          rfl
      obtain ⟨ns, waits, first⟩ := turned
      obtain ⟨ns', waits', later⟩ :=
        ih (w.withService (resume { w.service with queue := rest } job)) rfl
      refine ⟨ns ++ ns', by rw [brought_waiting waits, waits'], ?_⟩
      rw [after_append, first, later]
      rfl

theorem settle_led (w : World) (free : w.turn = none) :
    ∃ ns, brought ns = [] ∧ w.after ns = w.withService w.service.settle := settleLoop_led _ w free

/-! ## 2. Waiting -/

/-- The same is under way in the second world as in the first. -/
def SameTrays (w w' : World) : Prop :=
  w'.inquiries = w.inquiries ∧ w'.stops = w.stops ∧ w'.calls = w.calls

/-- Moves go on to a moment at which no job is running and the service is a certain one, and nothing
comes in on the way. -/
structure GoesOn (w : World) (ms : List Move) (s : Service) (ms' : List Move) : Prop where
  on : ms <+: ms'
  waits : brought ms' = brought ms
  free : (w.after ms').turn = none
  service : (w.after ms').service = s

theorem GoesOn.refl {w : World} {ms : List Move} (free : (w.after ms).turn = none) :
    GoesOn w ms (w.after ms).service ms := ⟨List.prefix_refl ms, rfl, free, rfl⟩

theorem GoesOn.trans {w : World} {ms ms' ms'' : List Move} {s s' : Service}
    (h : GoesOn w ms s ms') (k : GoesOn w ms' s' ms'') : GoesOn w ms s' ms'' :=
  ⟨h.on.trans k.on, k.waits.trans h.waits, k.free, k.service⟩

theorem GoesOn.moves {w : World} {ms ns : List Move} {s : Service} (waits : brought ns = [])
    (h : (w.after ms).after ns = (w.after ms).withService s) : GoesOn w ms s (ms ++ ns) where
  on := List.prefix_append ms ns
  waits := brought_waits waits
  free := by rw [after_append, h]; rfl
  service := by rw [after_append, h]; rfl

/-- **Waiting is moves**, if looking is. `R` says how the world keeps what the waiter has; it must
not depend on more of the world than on what is under way. -/
theorem awaitLoop_led {σ : Type} {W : Waiter σ} {w : World} {R : σ → List Move → Prop}
    (poll : ∀ st ms, (w.after ms).turn = none → R st ms →
      ∃ ms', GoesOn w ms (W.poll st (w.after ms).service).2 ms' ∧
        R (W.poll st (w.after ms).service).1 ms')
    (keep : ∀ st ms ms', ms <+: ms' → SameTrays (w.after ms) (w.after ms') → R st ms → R st ms')
    (fuel : Nat) (st : σ) (ms : List Move) (free : (w.after ms).turn = none) (h : R st ms) :
    ∃ ms', GoesOn w ms (awaitLoop W fuel st (w.after ms).service).2 ms' ∧
      R (awaitLoop W fuel st (w.after ms).service).1 ms' := by
  induction fuel generalizing st ms with
  | zero => exact ⟨ms, .refl free, h⟩
  | succ fuel ih =>
    rw [awaitLoop_succ]
    dsimp only
    obtain ⟨ms₁, first, h₁⟩ := poll st ms free h
    cases done₁ : W.isDone (W.poll st (w.after ms).service).1 with
    | true => exact ⟨ms₁, first, h₁⟩
    | false =>
      -- the turns until the queue is empty, and the second look
      obtain ⟨turns, waits, settled⟩ := settle_led (w.after ms₁) first.free
      have turned := GoesOn.moves waits settled
      have trays : SameTrays (w.after ms₁) (w.after (ms₁ ++ turns)) := by
        rw [after_append, settled]
        exact ⟨rfl, rfl, rfl⟩
      obtain ⟨ms₂, second, h₂⟩ := poll _ _ turned.free (keep _ _ _ turned.on trays h₁)
      rw [turned.service, first.service] at second h₂
      simp only [Bool.false_eq_true, if_false]
      generalize W.poll (W.poll st (w.after ms).service).1
        (W.poll st (w.after ms).service).2.settle = looked at *
      have until₂ := (first.trans turned).trans second
      cases done₂ : W.isDone looked.1 with
      | true => exact ⟨ms₂, until₂, h₂⟩
      | false =>
        simp only [Bool.false_eq_true, if_false]
        cases next : nextMoment? W looked.1 looked.2 with
        | none => exact ⟨ms₂, until₂, h₂⟩
        | some m =>
          have passes : (w.after ms₂).after [.advance m] =
              (w.after ms₂).withService (looked.2.advance m) := by
            rw [after_cons, after_nil, apply_free until₂.free]
            unfold outside
            dsimp only
            rw [until₂.service, if_pos (nextMoment?_eq_some next).1, withService, ← until₂.free]
          have passed := GoesOn.moves rfl passes
          have trays : SameTrays (w.after ms₂) (w.after (ms₂ ++ [.advance m])) := by
            rw [after_append, passes]
            exact ⟨rfl, rfl, rfl⟩
          obtain ⟨ms₃, later, h₃⟩ := ih looked.1 _ passed.free (keep _ _ _ passed.on trays h₂)
          rw [passed.service] at later h₃
          exact ⟨ms₃, (until₂.trans passed).trans later, h₃⟩

/-! ## 3. Looks -/

/-- What somebody sees who sends a readiness probe. -/
def glimpse (s : Service) : Sighting := ⟨s.now, s.phase, s.flags, s.readyz.1⟩

/-- Moves come past a service with a property. -/
def Passes (w : World) (ms : List Move) (P : Service → Prop) : Prop :=
  ∃ p, p <+: ms ∧ P (w.after p).service

theorem Passes.on {w : World} {ms ms' : List Move} {P : Service → Prop} (h : Passes w ms P)
    (le : ms <+: ms') : Passes w ms' P := by
  obtain ⟨p, hp, k⟩ := h
  exact ⟨p, hp.trans le, k⟩

theorem getElem?_middle {α : Type} (xs ys : List α) (x : α) :
    (xs ++ x :: ys)[xs.length]? = some x := by
  rw [List.getElem?_append_right (Nat.le_refl _), Nat.sub_self]
  rfl

theorem set_middle {α : Type} (xs ys : List α) (x y : α) :
    (xs ++ x :: ys).set xs.length y = xs ++ y :: ys := by
  rw [List.set_append_right _ _ (Nat.le_refl _), Nat.sub_self]
  rfl

theorem modify_middle {α : Type} (f : α → α) (xs ys : List α) (x : α) :
    (xs ++ x :: ys).modify xs.length f = xs ++ f x :: ys := by
  induction xs with
  | nil => rfl
  | cons a xs ih => exact congrArg (a :: ·) ih

/-- Looking at calls to shut down is moves. -/
theorem pollCalls_led (cs : List Call) (before : List (Except Overflow Call)) (w : World)
    (free : w.turn = none) (calls : w.calls = before ++ cs.map .ok) :
    ∃ ns, brought ns = [] ∧ w.after ns = { w with
      service := (pollCalls cs w.service).2
      calls := before ++ (pollCalls cs w.service).1.map .ok } := by
  induction cs generalizing before w with
  | nil =>
    refine ⟨[], rfl, ?_⟩
    rw [after_nil]
    unfold pollCalls
    dsimp only
    rw [← calls]
  | cons c cs ih =>
    have looked : w.apply (.lookCall before.length) = { w with
        service := (c.poll w.service).2
        calls := before ++ .ok (c.poll w.service).1 :: cs.map .ok } := by
      rw [apply_free free]
      unfold outside lookCall
      dsimp only
      rw [calls, List.map_cons, getElem?_middle]
      dsimp only
      rw [set_middle]
    obtain ⟨ns, waits, h⟩ := ih (before ++ [.ok (c.poll w.service).1])
      (w.apply (.lookCall before.length)) (by rw [looked]; exact free)
      (by rw [looked, List.append_assoc]; rfl)
    refine ⟨.lookCall before.length :: ns, waits, ?_⟩
    rw [after_cons, h, looked, List.append_assoc]
    rfl

/-- Looking at calls to stop a task is moves. -/
theorem pollStops_led (calls before : List StopCall) (w : World) (free : w.turn = none)
    (stops : w.stops = before ++ calls) :
    ∃ ns, brought ns = [] ∧
      w.after ns = { w with stops := before ++ calls.map (·.poll w.service) } := by
  induction calls generalizing before w with
  | nil => exact ⟨[], rfl, by rw [after_nil, List.map_nil, ← stops]⟩
  | cons c calls ih =>
    have looked : w.apply (.lookStop before.length) =
        { w with stops := before ++ c.poll w.service :: calls } := by
      rw [apply_free free]
      unfold outside
      dsimp only
      rw [stops, modify_middle]
    obtain ⟨ns, waits, h⟩ := ih (before ++ [c.poll w.service]) (w.apply (.lookStop before.length))
      (by rw [looked]; exact free) (by rw [looked, List.append_assoc]; rfl)
    refine ⟨.lookStop before.length :: ns, waits, ?_⟩
    rw [after_cons, h, looked, List.append_assoc]
    rfl

/-- Looking at aggregations is moves. -/
theorem pollAggregations_led (request : Option Probe.Request) (as : List Aggregation)
    (before : List Inquiry) (w : World) (free : w.turn = none)
    (inquiries : w.inquiries = before ++ as.map (⟨request, ·, false⟩)) :
    ∃ ns, brought ns = [] ∧ w.after ns = { w with
      service := (pollAggregations as w.service).2
      inquiries := before ++ (pollAggregations as w.service).1.map (⟨request, ·, false⟩) } := by
  induction as generalizing before w with
  | nil =>
    refine ⟨[], rfl, ?_⟩
    rw [after_nil]
    unfold pollAggregations
    dsimp only
    rw [← inquiries]
  | cons a as ih =>
    have looked : w.apply (.look before.length) = { w with
        service := (a.poll w.service).2
        inquiries := before ++ ⟨request, (a.poll w.service).1, false⟩ ::
          as.map (⟨request, ·, false⟩) } := by
      rw [apply_free free]
      unfold outside look
      dsimp only
      rw [inquiries, List.map_cons, getElem?_middle]
      dsimp only
      rw [set_middle]
    obtain ⟨ns, waits, h⟩ := ih (before ++ [⟨request, (a.poll w.service).1, false⟩])
      (w.apply (.look before.length)) (by rw [looked]; exact free)
      (by rw [looked, List.append_assoc]; rfl)
    refine ⟨.look before.length :: ns, waits, ?_⟩
    rw [after_cons, h, looked, List.append_assoc]
    rfl

/-- The request of a readiness probe. -/
def readyzRequest : Probe.Request := ⟨"GET", "/readyz"⟩

theorem readyzRequest_target : readyzRequest.target = .route .readyz true := by decide

/-- The request of a liveness probe. -/
def healthzRequest : Probe.Request := ⟨"GET", "/healthz"⟩

theorem healthzRequest_target : healthzRequest.target = .route .healthz true := by decide

/-- Sending probes is moves, and what they have seen is what somebody sees on the way. -/
theorem pollLookouts_led {w : World} (ls : List Lookout) (ms : List Move)
    (free : (w.after ms).turn = none)
    (seen : ∀ l ∈ ls, ∀ x, l.seen = some x → Passes w ms (x = glimpse ·)) :
    ∃ ms', ms <+: ms' ∧ brought ms' = brought ms ∧
      w.after ms' = { w.after ms with service := (pollLookouts ls (w.after ms).service).2 } ∧
      ∀ l ∈ (pollLookouts ls (w.after ms).service).1, ∀ x, l.seen = some x →
        Passes w ms' (x = glimpse ·) := by
  induction ls generalizing ms with
  | nil => exact ⟨ms, List.prefix_refl ms, rfl, rfl, nofun⟩
  | cons l ls ih =>
    have sent : ∃ ms₁, ms <+: ms₁ ∧ brought ms₁ = brought ms ∧
        w.after ms₁ = { w.after ms with service := (l.poll (w.after ms).service).2 } ∧
        ∀ x, (l.poll (w.after ms).service).1.seen = some x → Passes w ms₁ (x = glimpse ·) := by
      unfold Lookout.poll
      split
      · exact ⟨ms, List.prefix_refl ms, rfl, rfl, seen l List.mem_cons_self⟩
      · rename_i unseen
        split
        · refine ⟨ms ++ [.request readyzRequest], List.prefix_append _ _, brought_waits rfl, ?_, ?_⟩
          · rw [after_append, after_cons, after_nil, apply_free free]
            unfold outside receive respond
            dsimp only
            rw [readyzRequest_target]
          · rintro x ⟨⟩
            exact ⟨ms, List.prefix_append _ _, rfl⟩
        · exact ⟨ms, List.prefix_refl ms, rfl, rfl, seen l List.mem_cons_self⟩
    obtain ⟨ms₁, on, waits₁, after₁, seen₁⟩ := sent
    obtain ⟨ms₂, on₂, waits₂, after₂, seen₂⟩ := ih ms₁ (by rw [after₁]; exact free)
      fun l' hl' x hx => (seen l' (List.mem_cons_of_mem _ hl') x hx).on on
    rw [after₁] at after₂ seen₂
    refine ⟨ms₂, on.trans on₂, waits₂.trans waits₁, after₂, fun l' hl' x hx => ?_⟩
    rcases List.mem_cons.mp hl' with rfl | hl'
    · exact (seen₁ x hx).on on₂
    · exact seen₂ l' hl' x hx

/-! ## 4. What is started -/

theorem call_of {w : World} {r : Except Overflow Call} {s : Service}
    (h : w.service.startCall = (r, s)) :
    w.call = { w with service := s, calls := w.calls ++ [r] } := by
  unfold call
  rw [h]
  cases r <;> rfl

/-- Calls to shut down made at once are moves. -/
theorem startCalls_led (count : Nat) {w : World} (free : w.turn = none) {cs : List Call}
    {s : Service} (h : startCalls count w.service = (.ok cs, s)) :
    w.after (List.replicate count .call) = { w with service := s, calls := w.calls ++ cs.map .ok } ∧
      cs.length = count := by
  induction count generalizing w cs s with
  | zero =>
    cases h
    refine ⟨?_, rfl⟩
    rw [List.map_nil, List.append_nil]
    rfl
  | succ count ih =>
    unfold startCalls at h
    split at h
    · cases h
    · rename_i c s₁ hc
      split at h
      · cases h
      · rename_i cs' s₂ hcs
        cases h
        have made : w.apply .call = { w with service := s₁, calls := w.calls ++ [.ok c] } :=
          (apply_free free _).trans (call_of hc)
        obtain ⟨rest, length⟩ := ih (w := w.apply .call) (by rw [made]; exact free)
          (by rw [made]; exact hcs)
        refine ⟨?_, congrArg (· + 1) length⟩
        rw [List.replicate_succ, after_cons, rest, made, List.map_cons, List.append_assoc]
        rfl

/-- So are calls the last of which breaks off. -/
theorem startCalls_error_led (count : Nat) {w : World} (free : w.turn = none) {e : Overflow}
    {s : Service} (h : startCalls count w.service = (.error e, s)) :
    ∃ ns cs, brought ns = [] ∧
      w.after ns = { w with service := s, calls := w.calls ++ (cs ++ [.error e]) } := by
  induction count generalizing w e s with
  | zero => cases h
  | succ count ih =>
    unfold startCalls at h
    split at h
    · rename_i e' s₁ hc
      cases h
      exact ⟨[.call], [], rfl, (apply_free free _).trans (call_of hc)⟩
    · rename_i c s₁ hc
      split at h
      · rename_i e' s₂ hcs
        cases h
        have made : w.apply .call = { w with service := s₁, calls := w.calls ++ [.ok c] } :=
          (apply_free free _).trans (call_of hc)
        obtain ⟨ns, cs, waits, rest⟩ := ih (w := w.apply .call) (by rw [made]; exact free)
          (by rw [made]; exact hcs)
        refine ⟨.call :: ns, .ok c :: cs, waits, ?_⟩
        rw [after_cons, rest, made, List.append_assoc]
        rfl
      · cases h

/-- Calls to stop a task made at once are moves. -/
theorem startStops_led (task : Nat) (giveUp : Option Nat) (count now : Nat) {w : World}
    (free : w.turn = none) (hn : w.service.now = now) :
    w.after (List.replicate count (.stop task giveUp)) = { w with
      service := (startStops task (giveUp.map (wakeTime now)) count w.service).2
      stops := w.stops ++ (startStops task (giveUp.map (wakeTime now)) count w.service).1 } := by
  induction count generalizing w with
  | zero =>
    unfold startStops
    rw [List.append_nil]
    rfl
  | succ count ih =>
    have made : w.apply (.stop task giveUp) = w.stop task giveUp := apply_free free _
    have same : (w.stop task giveUp).service.now = now :=
      ((JobsOnly.fire w.service task).trans (.claim _ task)).now.trans hn
    rw [List.replicate_succ, after_cons, made, ih (w := w.stop task giveUp) free same]
    unfold stop
    rw [hn, List.append_assoc]
    rfl

/-- Aggregations started at once are moves. -/
theorem startAggregations_led (timeout count deadline : Nat) {w : World} (free : w.turn = none)
    (hd : deadline? w.service.now timeout = some deadline) :
    w.after (List.replicate count (.ask timeout)) = { w with
      service := (startAggregations deadline count w.service).2
      inquiries := w.inquiries ++
        (startAggregations deadline count w.service).1.map (⟨none, ·, false⟩) } := by
  induction count generalizing w with
  | zero =>
    unfold startAggregations
    rw [List.map_nil, List.append_nil]
    rfl
  | succ count ih =>
    have made : w.apply (.ask timeout) = { w with
        service := (w.service.startAggregation deadline).2
        inquiries := w.inquiries ++ [⟨none, (w.service.startAggregation deadline).1, false⟩] } := by
      rw [apply_free free]
      unfold outside inquire
      dsimp only
      rw [hd]
    have same : (w.service.startAggregation deadline).2.now = w.service.now :=
      (JobsOnly.startAggregation w.service deadline).now
    rw [List.replicate_succ, after_cons, ih (w := w.apply (.ask timeout)) (by rw [made]; exact free)
      (by rw [made]; dsimp only; rw [same, hd]), made, List.append_assoc]
    rfl

theorem startAggregations_flags (deadline count : Nat) (s : Service) :
    ∀ a ∈ (startAggregations deadline count s).1, a.flags = s.flags := by
  induction count generalizing s with
  | zero => nofun
  | succ count ih =>
    intro a ha
    rcases List.mem_cons.mp ha with rfl | ha
    · rfl
    · rw [← (JobsOnly.startAggregation s deadline).flags]
      exact ih _ a ha

/-! ## 5. What is awaited -/

theorem eq_of_trays {w w' : World} (turn : w'.turn = w.turn) (service : w'.service = w.service)
    (trays : SameTrays w w') : w' = w := by
  obtain ⟨_, _, _, _, _⟩ := w
  obtain ⟨inquiries, stops, calls⟩ := trays
  cases turn
  cases service
  cases inquiries
  cases stops
  cases calls
  rfl

theorem await_led {σ : Type} {W : Waiter σ} {w : World} {R : σ → List Move → Prop}
    (poll : ∀ st ms, (w.after ms).turn = none → R st ms →
      ∃ ms', GoesOn w ms (W.poll st (w.after ms).service).2 ms' ∧
        R (W.poll st (w.after ms).service).1 ms')
    (keep : ∀ st ms ms', ms <+: ms' → SameTrays (w.after ms) (w.after ms') → R st ms → R st ms')
    (st : σ) (free : w.turn = none) (h : R st []) :
    ∃ ns, GoesOn w [] (await W st w.service).2 ns ∧ R (await W st w.service).1 ns :=
  awaitLoop_led poll keep _ st [] free h

theorem sleep_led (w : World) (free : w.turn = none) (duration : Nat) :
    ∃ ns, brought ns = [] ∧ w.after ns = w.withService (w.service.sleep duration) := by
  obtain ⟨ns, on, trays⟩ := await_led (W := pause) (w := w)
    (R := fun _ ms => SameTrays w (w.after ms))
    (fun _ ms free h => ⟨ms, .refl free, h⟩)
    (fun _ _ _ _ same h => ⟨same.1.trans h.1, same.2.1.trans h.2.1, same.2.2.trans h.2.2⟩)
    (wakeTime w.service.now duration, false) free ⟨rfl, rfl, rfl⟩
  exact ⟨ns, on.waits, eq_of_trays on.free on.service trays⟩

/-- **Awaiting aggregations is moves.** -/
theorem aggregating_led (request : Option Probe.Request) (before : List Inquiry)
    (as : List Aggregation) (w : World) (free : w.turn = none)
    (inquiries : w.inquiries = before ++ as.map (⟨request, ·, false⟩)) :
    ∃ ns, brought ns = [] ∧ w.after ns = { w with
      service := (await aggregating as w.service).2
      inquiries := before ++ (await aggregating as w.service).1.map (⟨request, ·, false⟩) } := by
  obtain ⟨ns, on, kept, stops, calls⟩ := await_led (W := aggregating) (w := w)
    (R := fun as ms => (w.after ms).inquiries = before ++ as.map (⟨request, ·, false⟩) ∧
      (w.after ms).stops = w.stops ∧ (w.after ms).calls = w.calls)
    (fun as ms free ⟨kept, stops, calls⟩ => by
      obtain ⟨ns, waits, h⟩ := pollAggregations_led request as before (w.after ms) free kept
      rw [← after_append] at h
      refine ⟨ms ++ ns, ⟨List.prefix_append _ _, brought_waits waits, by rw [h]; exact free,
        by rw [h]; rfl⟩, ?_⟩
      rw [h]
      exact ⟨rfl, stops, calls⟩)
    (fun _ _ _ _ same h => ⟨same.1.trans h.1, same.2.1.trans h.2.1, same.2.2.trans h.2.2⟩)
    as free ⟨inquiries, rfl, rfl⟩
  exact ⟨ns, on.waits, eq_of_trays (on.free.trans free.symm) on.service ⟨kept, stops, calls⟩⟩

/-- **Awaiting calls to stop a task is moves.** -/
theorem stopping_led (before calls : List StopCall) (w : World) (free : w.turn = none)
    (stops : w.stops = before ++ calls) :
    ∃ ns, brought ns = [] ∧ w.after ns = { w with
      service := (await stopping calls w.service).2
      stops := before ++ (await stopping calls w.service).1 } := by
  obtain ⟨ns, on, inquiries, kept, calls⟩ := await_led (W := stopping) (w := w)
    (R := fun calls ms => (w.after ms).inquiries = w.inquiries ∧
      (w.after ms).stops = before ++ calls ∧ (w.after ms).calls = w.calls)
    (fun calls ms free ⟨inquiries, kept, others⟩ => by
      obtain ⟨ns, waits, h⟩ := pollStops_led calls before (w.after ms) free kept
      rw [← after_append] at h
      refine ⟨ms ++ ns, ⟨List.prefix_append _ _, brought_waits waits, by rw [h]; exact free,
        by rw [h]; rfl⟩, ?_⟩
      rw [h]
      exact ⟨inquiries, rfl, others⟩)
    (fun _ _ _ _ same h => ⟨same.1.trans h.1, same.2.1.trans h.2.1, same.2.2.trans h.2.2⟩)
    calls free ⟨rfl, stops, rfl⟩
  exact ⟨ns, on.waits, eq_of_trays (on.free.trans free.symm) on.service ⟨inquiries, kept, calls⟩⟩

/-- **Awaiting calls to shut down is moves**, and what the probes have seen is what somebody sees on
the way. -/
theorem draining_led (before : List (Except Overflow Call)) (watch : Watch) (w : World)
    (free : w.turn = none) (calls : w.calls = before ++ watch.calls.map .ok)
    (unseen : ∀ l ∈ watch.lookouts, l.seen = none) :
    ∃ ns, brought ns = [] ∧ w.after ns = { w with
        service := (await draining watch w.service).2
        calls := before ++ (await draining watch w.service).1.calls.map .ok } ∧
      ∀ l ∈ (await draining watch w.service).1.lookouts, ∀ x, l.seen = some x →
        Passes w ns (x = glimpse ·) := by
  obtain ⟨ns, on, inquiries, stops, kept, seen⟩ := await_led (W := draining) (w := w)
    (R := fun watch ms => (w.after ms).inquiries = w.inquiries ∧ (w.after ms).stops = w.stops ∧
      (w.after ms).calls = before ++ watch.calls.map .ok ∧
      ∀ l ∈ watch.lookouts, ∀ x, l.seen = some x → Passes w ms (x = glimpse ·))
    (fun watch ms free ⟨inquiries, stops, kept, seen⟩ => by
      obtain ⟨ns, waits, h⟩ := pollCalls_led watch.calls before (w.after ms) free kept
      rw [← after_append] at h
      obtain ⟨ms', le, waits', h', seen'⟩ := pollLookouts_led (w := w) watch.lookouts (ms ++ ns)
        (by rw [h]; exact free) fun l hl x hx => (seen l hl x hx).on (List.prefix_append _ _)
      rw [h] at h' seen'
      refine ⟨ms', ⟨(List.prefix_append _ _).trans le, waits'.trans (brought_waits waits),
        by rw [h']; exact free, by rw [h']; rfl⟩, ?_⟩
      rw [h']
      exact ⟨inquiries, stops, rfl, seen'⟩)
    (fun _ _ _ le same h => ⟨same.1.trans h.1, same.2.1.trans h.2.1, same.2.2.trans h.2.2.1,
      fun l hl x hx => (h.2.2.2 l hl x hx).on le⟩)
    watch free ⟨rfl, rfl, calls, fun l hl x hx => by rw [unseen l hl] at hx; cases hx⟩
  exact ⟨ns, on.waits, eq_of_trays (on.free.trans free.symm) on.service ⟨inquiries, stops, kept⟩,
    seen⟩

end World

end ServiceHealth
