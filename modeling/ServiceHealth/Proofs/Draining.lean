import ServiceHealth.Proofs.Call
import ServiceHealth.Proofs.Await

/-!
# Calls to shut down, awaited to their end

`drain` makes some calls at once and waits until all have returned and all probes have been sent.
Looking at calls and sending probes changes nothing but the log, the metrics and the phase, so the
jobs go their own way meanwhile.

* `collect_now`: whoever goes on collecting does so before the deadline.
* `draining_returned`: **every call returns and every probe is sent**.
* `startCalls_late`, `startCalls_wins`: of the calls made at once the first may win, and all others
  are ignored.
-/

namespace ServiceHealth.Service

/-! ## 1. Looks -/

/-- The second state differs from the first at most in the log, the metrics and the phase. -/
def Looked (s s' : Service) : Prop := ∃ log metrics phase, s' = { s with log, metrics, phase }

theorem Looked.refl (s : Service) : Looked s s := ⟨s.log, s.metrics, s.phase, rfl⟩

theorem Looked.trans {s s' s'' : Service} (h : Looked s s') (k : Looked s' s'') : Looked s s'' := by
  obtain ⟨_, _, _, rfl⟩ := h
  obtain ⟨log, metrics, phase, rfl⟩ := k
  exact ⟨log, metrics, phase, rfl⟩

theorem looked_poll (c : Call) (s : Service) : Looked s (c.poll s).2 := by
  obtain ⟨log, outcomes, phase, e⟩ := poll_frame c s
  exact ⟨log, _, phase, e⟩

theorem looked_pollCalls (cs : List Call) (s : Service) : Looked s (pollCalls cs s).2 := by
  induction cs generalizing s with
  | nil => exact .refl s
  | cons c cs ih => exact (looked_poll c s).trans (ih _)

theorem looked_pollLookout (l : Lookout) (s : Service) : Looked s (l.poll s).2 := by
  unfold Lookout.poll
  split
  · exact .refl s
  · split
    · exact ⟨s.log, _, s.phase, rfl⟩
    · exact .refl s

theorem looked_pollLookouts (ls : List Lookout) (s : Service) : Looked s (pollLookouts ls s).2 := by
  induction ls generalizing s with
  | nil => exact .refl s
  | cons l ls ih => exact (looked_pollLookout l s).trans (ih _)

theorem looked_draining (w : Watch) (s : Service) : Looked s (draining.poll w s).2 :=
  (looked_pollCalls w.calls s).trans (looked_pollLookouts w.lookouts _)

theorem Looked.scheduled {s s' : Service} (h : Looked s s') (scheduled : Scheduled none s) :
    Scheduled none s' := by
  obtain ⟨_, _, _, rfl⟩ := h
  exact scheduled.congr rfl rfl rfl fun _ => rfl

/-! ## 2. What is still waited for -/

/-- **Whoever goes on collecting does so before the deadline.** -/
theorem collect_now (deadline : Nat) (pending : List (String × JobId))
    (outcomes : List Shutdown.Outcome) (s : Service) :
    (collect deadline pending outcomes s).1.deadline = deadline ∧
      ((collect deadline pending outcomes s).1.pending ≠ [] → s.now < deadline) := by
  induction pending generalizing outcomes s with
  | nil => exact ⟨rfl, fun h => absurd rfl h⟩
  | cons p rest ih =>
    obtain ⟨name, job⟩ := p
    unfold collect
    cases hf : s.fate? deadline job with
    | some fate =>
      obtain ⟨_, _, e⟩ := recorded_recordOutcome s ⟨name, fate⟩
      have now : (s.recordOutcome ⟨name, fate⟩).now = s.now := by rw [e]
      have later := ih (outcomes ++ [⟨name, fate⟩]) (s.recordOutcome ⟨name, fate⟩)
      rw [now] at later
      exact later
    | none =>
      refine ⟨rfl, fun _ => ?_⟩
      unfold fate? at hf
      split at hf
      · cases hf
      · split at hf
        · cases hf
        · rename_i early
          exact Nat.lt_of_not_le early

theorem poll_now {c : Call} {s : Service} {x : Collection} (h : (c.poll s).1 = .collecting x) :
    s.now < x.deadline ∧ ∃ y, c = .collecting y ∧ y.deadline = x.deadline := by
  cases c with
  | ignored => cases h
  | finished r => cases h
  | collecting y =>
    obtain ⟨deadline, early⟩ := collect_now y.deadline y.pending y.outcomes s
    unfold Call.poll at h
    dsimp only at h
    split at h
    · cases h
    · rename_i more
      cases h
      rw [deadline]
      exact ⟨early more, y, rfl, rfl⟩

theorem pollCalls_now {cs : List Call} {s : Service} {x : Collection}
    (h : .collecting x ∈ (pollCalls cs s).1) : s.now < x.deadline := by
  induction cs generalizing s with
  | nil => cases h
  | cons c cs ih =>
    rcases List.mem_cons.mp h with e | h
    · exact (poll_now e.symm).1
    · obtain ⟨_, _, _, e⟩ := looked_poll c s
      have now : (c.poll s).2.now = s.now := by rw [e]
      rw [← now]
      exact ih h

/-- A call that is looked at stops waiting at the same moment or has returned. -/
theorem pollCalls_moments (cs : List Call) (s : Service) :
    List.Sublist ((pollCalls cs s).1.filterMap (·.moment?)) (cs.filterMap (·.moment?)) := by
  induction cs generalizing s with
  | nil => exact List.Sublist.refl _
  | cons c cs ih =>
    have rest := ih (c.poll s).2
    show List.Sublist (((c.poll s).1 :: (pollCalls cs (c.poll s).2).1).filterMap _) _
    cases h : (c.poll s).1 with
    | collecting x =>
      obtain ⟨-, y, rfl, e⟩ := poll_now h
      simp only [List.filterMap_cons, Call.moment?, e]
      exact rest.cons_cons _
    | ignored =>
      rw [List.filterMap_cons]
      exact rest.trans ((List.sublist_cons_self c cs).filterMap _)
    | finished r =>
      rw [List.filterMap_cons]
      exact rest.trans ((List.sublist_cons_self c cs).filterMap _)

theorem pollLookouts_moments (ls : List Lookout) (s : Service) :
    (pollLookouts ls s).1.map (·.moment) = ls.map (·.moment) := by
  induction ls generalizing s with
  | nil => rfl
  | cons l ls ih =>
    have here : (l.poll s).1.moment = l.moment := by
      unfold Lookout.poll
      repeat' split
      all_goals rfl
    simp only [pollLookouts, List.map_cons, ih, here]

theorem pollLookout_now {l : Lookout} {s : Service} (unseen : (l.poll s).1.seen = none) :
    s.now < (l.poll s).1.moment := by
  revert unseen
  unfold Lookout.poll
  split
  · rename_i seen
    rw [seen]
    nofun
  · split
    · nofun
    · rename_i early
      exact fun _ => Nat.lt_of_not_le early

theorem pollLookouts_now {ls : List Lookout} {s : Service} {l : Lookout}
    (h : l ∈ (pollLookouts ls s).1) (unseen : l.seen = none) : s.now < l.moment := by
  induction ls generalizing s with
  | nil => cases h
  | cons l' ls ih =>
    rcases List.mem_cons.mp h with rfl | h
    · exact pollLookout_now unseen
    · obtain ⟨_, _, _, e⟩ := looked_pollLookout l' s
      have now : (l'.poll s).2.now = s.now := by rw [e]
      rw [← now]
      exact ih h

theorem draining_calm : draining.Calm where
  now w s := by
    obtain ⟨_, _, _, e⟩ := looked_draining w s
    rw [e]
  queue w s := by
    obtain ⟨_, _, _, e⟩ := looked_draining w s
    rw [e]
  naps w s := by
    obtain ⟨_, _, _, e⟩ := looked_draining w s
    rw [e]
    exact Nat.le_refl _
  scheduled w s h := (looked_draining w s).scheduled h
  moments w s := by
    refine (pollCalls_moments w.calls s).append ?_
    exact pollLookouts_moments w.lookouts (pollCalls w.calls s).2 ▸ List.Sublist.refl _

theorem pollCalls_returned {cs : List Call} (h : ∀ c ∈ cs, c.hasReturned = true) (s : Service) :
    pollCalls cs s = (cs, s) := by
  induction cs with
  | nil => rfl
  | cons c cs ih =>
    have rest := ih fun c' hc' => h c' (List.mem_cons_of_mem _ hc')
    rw [pollCalls, poll_returned (h c List.mem_cons_self)]
    dsimp only
    rw [rest]

/-- A watch that notes the return of its calls notes it of all of them. -/
def Watch.Honest (w : Watch) : Prop := w.returned.isSome → ∀ c ∈ w.calls, c.hasReturned = true

/-- Once looked at, a watch waits only for what is still to come. -/
structure Watch.Current (w : Watch) (s : Service) : Prop where
  calls : ∀ x, .collecting x ∈ w.calls → s.now < x.deadline
  returned : (∀ c ∈ w.calls, c.hasReturned = true) → w.returned.isSome
  lookouts : ∀ l ∈ w.lookouts, l.seen = none → s.now < l.moment

theorem draining_honest {w : Watch} (h : w.Honest) (s : Service) :
    (draining.poll w s).1.Honest := by
  intro isSet
  change (w.returned.or (if (pollCalls w.calls s).1.all (·.hasReturned) then
    some (pollCalls w.calls s).2.now else none)).isSome at isSet
  show ∀ c ∈ (pollCalls w.calls s).1, c.hasReturned = true
  cases hr : w.returned with
  | some m =>
    have returned := h (by rw [hr]; rfl)
    rw [pollCalls_returned returned]
    exact returned
  | none =>
    rw [hr] at isSet
    by_cases returned : (pollCalls w.calls s).1.all (·.hasReturned) = true
    · exact List.all_eq_true.mp returned
    · rw [if_neg returned] at isSet
      cases isSet

theorem draining_current (w : Watch) (s : Service) :
    (draining.poll w s).1.Current (draining.poll w s).2 := by
  have now : (draining.poll w s).2.now = s.now := draining_calm.now w s
  refine ⟨?_, ?_, ?_⟩
  · intro x h
    rw [now]
    exact pollCalls_now h
  · intro h
    have all : (pollCalls w.calls s).1.all (·.hasReturned) = true := List.all_eq_true.mpr h
    show (w.returned.or (if (pollCalls w.calls s).1.all (·.hasReturned) then
      some (pollCalls w.calls s).2.now else none)).isSome
    rw [if_pos all]
    cases w.returned <;> rfl
  · intro l h unseen
    obtain ⟨_, _, _, e⟩ := looked_pollCalls w.calls s
    have mid : (pollCalls w.calls s).2.now = s.now := by rw [e]
    rw [now, ← mid]
    exact pollLookouts_now h unseen

/-- **Every call returns and every probe is sent.** -/
theorem draining_returned {w : Watch} (honest : w.Honest) {s : Service}
    (scheduled : Scheduled none s) :
    (∀ c ∈ (await draining w s).1.calls, c.hasReturned = true) ∧
      ∀ l ∈ (await draining w s).1.lookouts, l.seen.isSome = true := by
  obtain ⟨⟨current, honest⟩, -, done⟩ := await_rule draining_calm
    (P := fun w _ => w.Honest) (Q := fun w s => w.Current s ∧ w.Honest)
    (fun w s _ h => ⟨draining_current w s, draining_honest h s⟩) (fun _ _ _ h _ => h.2)
    (fun _ _ _ _ h _ _ _ => h.2) w s scheduled honest
  generalize await draining w s = last at *
  rcases done with done | ⟨-, never⟩
  · obtain ⟨returned, seen⟩ := (Bool.and_eq_true _ _).mp done
    exact ⟨honest returned, List.all_eq_true.mp seen⟩
  · have passed : ∀ m, m ∈ draining.moments last.1 → m ≤ last.2.now :=
      fun m hm => nextMoment?_eq_none never (.inr hm)
    refine ⟨fun c hc => ?_, fun l hl => ?_⟩
    · cases c with
      | collecting x =>
        have early := current.calls x hc
        have late := passed x.deadline
          (List.mem_append_left _ (List.mem_filterMap.mpr ⟨_, hc, rfl⟩))
        omega
      | _ => rfl
    · cases hs : l.seen with
      | some x => rfl
      | none =>
        have early := current.lookouts l hl hs
        have late := passed l.moment (List.mem_append_right _ (List.mem_map_of_mem hl))
        omega

theorem pollCalls_length (cs : List Call) (s : Service) :
    (pollCalls cs s).1.length = cs.length := by
  induction cs generalizing s with
  | nil => rfl
  | cons c cs ih => exact congrArg (· + 1) (ih (c.poll s).2)

theorem draining_length (w : Watch) {s : Service} (scheduled : Scheduled none s) :
    (await draining w s).1.calls.length = w.calls.length :=
  (await_rule draining_calm (P := fun w' _ => w'.calls.length = w.calls.length)
    (Q := fun w' _ => w'.calls.length = w.calls.length)
    (fun w' s' _ h => (pollCalls_length w'.calls s').trans h) (fun _ _ _ h _ => h)
    (fun _ _ _ _ h _ _ _ => h) w s scheduled rfl).1

/-! ## 3. Calls made at once -/

/-- **All calls to a service that is no longer running are ignored, and change only the log.** -/
theorem startCalls_late (count : Nat) {s : Service} (late : s.phase ≠ .running) :
    ∃ log, startCalls count s = (.ok (List.replicate count .ignored), { s with log }) := by
  induction count generalizing s with
  | zero => exact ⟨s.log, rfl⟩
  | succ count ih =>
    obtain ⟨log, rest⟩ :=
      ih (s := s.logged .debug "Shutdown already triggered, ignoring duplicate trigger" []) late
    refine ⟨log, ?_⟩
    simp only [startCalls, startCall_ignored s late, rest]
    rfl

/-- **Of the calls made at once to a running service the first wins and the others are ignored.** -/
theorem startCalls_wins (count : Nat) {s : Service} {deadline : Nat} (running : s.phase = .running)
    (hd : deadline? s.now s.setup.drainTimeout = some deadline) :
    ∃ log, startCalls (count + 1) s =
      (.ok (((Call.collecting (s.opening deadline)).poll (s.teardownsStarted deadline)).1
          :: List.replicate count .ignored),
        { ((Call.collecting (s.opening deadline)).poll (s.teardownsStarted deadline)).2 with
          log }) := by
  have first : s.startCall =
      (.ok ((Call.collecting (s.opening deadline)).poll (s.teardownsStarted deadline)).1,
        ((Call.collecting (s.opening deadline)).poll (s.teardownsStarted deadline)).2) := by
    rcases startCall_cases s with ⟨late, -⟩ | ⟨-, overflow, -⟩ | ⟨-, d, hd', e⟩
    · exact absurd running late
    · rw [hd] at overflow
      cases overflow
    · rw [hd] at hd'
      cases hd'
      exact e
  have late : ((Call.collecting (s.opening deadline)).poll (s.teardownsStarted deadline)).2.phase
      ≠ .running := by
    rcases poll_cases (.collecting (s.opening deadline)) (s.teardownsStarted deadline) with
      ⟨k, -⟩ | ⟨_, _, s', -, -, ⟨_, _, rfl⟩, k⟩ | ⟨_, _, s', -, ⟨_, _, rfl⟩, k⟩
    · cases k
    · rw [k]
      nofun
    · rw [k]
      nofun
  obtain ⟨log, rest⟩ := startCalls_late count late
  exact ⟨log, by simp only [startCalls, first, rest]⟩

end ServiceHealth.Service
