import ServiceHealth.Proofs.World

/-!
# Phases

The phase of a service is what its calls to shut down tell: nobody has made one, the first is still
collecting, or the first has its report. All calls but the first are ignored.

* `InOrder`: the invariant, `after_inOrder`: it holds in every world.
* `apply_phase`, `phase_le`: a shutdown never goes back.
* `withdrew_once`: readiness is withdrawn only by a call that finds the service running.
-/

namespace ServiceHealth

open Service

/-! ## 1. What moves do to the phase -/

/-- How far a phase lies. -/
def Service.Phase.rank : Phase → Nat
  | .running => 0
  | .draining => 1
  | .stopped => 2

theorem Service.Phase.rank_le (p : Phase) : p.rank ≤ 2 := by cases p <;> decide

namespace World

theorem step_phase (t : Turn) (s : Service) : (t.step s).2.phase = s.phase := by
  rcases t.step_cases s with ⟨x, rest, -, -, h⟩ | ⟨_, _, _, -, -, h⟩ | ⟨-, h⟩
  · rw [h]
    cases x with
    | begin checker =>
      simp only [act, beginRun]
      split
      · split <;> rfl
      · rfl
    | perform a => exact performAction_phase s a
    | _ => rfl
  · rw [h]
    rfl
  · rw [h]
    exact (closed_closeJob s t.job t.close).jobsOnly.phase

theorem inquire_phase (w : World) (request : Option Probe.Request) (timeout : Nat) :
    (w.inquire request timeout).service.phase = w.service.phase ∧
      (w.inquire request timeout).calls = w.calls := by
  unfold inquire
  split
  · exact ⟨rfl, rfl⟩
  · exact ⟨(JobsOnly.startAggregation _ _).phase, rfl⟩

/-- Only calls to shut down have to do with the phase. -/
theorem outside_phase (w : World) (m : Move) (hc : m ≠ .call) (hl : ∀ i, m ≠ .lookCall i) :
    (w.outside m).service.phase = w.service.phase ∧ (w.outside m).calls = w.calls := by
  cases m with
  | act a => exact ⟨performAction_phase w.service a, rfl⟩
  | addTask t => exact ⟨(JobsOnly.startTask w.service t).phase, rfl⟩
  | request r =>
    unfold outside receive
    dsimp only
    split
    · exact inquire_phase w _ _
    · rename_i hr
      have other : ¬ isLiveness r := fun ⟨b, hb⟩ => hr b hb
      rcases respond_frame w.service r other with h | h <;> exact ⟨by rw [h], rfl⟩
  | ask timeout => exact inquire_phase w _ _
  | look i =>
    unfold outside look
    dsimp only
    split
    · exact ⟨(JobsOnly.pollAggregation _ _).phase, rfl⟩
    · exact ⟨rfl, rfl⟩
  | answer i =>
    unfold outside answer
    dsimp only
    split
    · split <;> exact ⟨rfl, rfl⟩
    · exact ⟨rfl, rfl⟩
  | stop task giveUp => exact ⟨((JobsOnly.fire _ _).trans (.claim _ task)).phase, rfl⟩
  | call => exact absurd rfl hc
  | lookCall i => exact absurd rfl (hl i)
  | begin => exact ⟨(JobsOnly.begin w.service).phase, rfl⟩
  | advance moment =>
    unfold outside
    dsimp only
    split <;> exact ⟨rfl, rfl⟩
  | _ => exact ⟨rfl, rfl⟩

theorem poll_phase (c : Call) (s : Service) :
    (c.poll s).2.phase = s.phase ∨ (c.poll s).2.phase = .stopped := by
  rcases poll_cases c s with
    ⟨-, k⟩ | ⟨_, _, s', -, -, ⟨_, _, rfl⟩, k⟩ | ⟨_, _, s', -, ⟨_, _, rfl⟩, k⟩
  · exact .inl (by rw [k])
  · exact .inl (by rw [k])
  · exact .inr (by rw [k])

/-- **What a move does to the phase**: nothing, or it is a call to a running service, or the
service is stopped by it. -/
theorem apply_phase (w : World) (m : Move) :
    (w.apply m).service.phase = w.service.phase ∨ (w.service.phase = .running ∧ m = .call) ∨
      (w.apply m).service.phase = .stopped := by
  unfold apply
  split
  · cases m with
    | call =>
      rcases call_cases w with ⟨-, e, -⟩ | ⟨running, -, -, -⟩ | ⟨d, running, -, -, -⟩
      · refine .inl ?_
        show w.call.service.phase = _
        rw [e]
        rfl
      · exact .inr (.inl ⟨running, rfl⟩)
      · exact .inr (.inl ⟨running, rfl⟩)
    | lookCall i =>
      unfold outside lookCall
      dsimp only
      split
      · rename_i c _
        rcases poll_phase c w.service with h | h
        · exact .inl h
        · exact .inr (.inr h)
      · exact .inl rfl
    | _ => exact .inl (outside_phase w _ (by nofun) (by nofun)).1
  · split
    · exact .inl (step_phase _ _)
    · exact .inl rfl

theorem phase_le (w : World) (ms : List Move) :
    w.service.phase.rank ≤ (w.after ms).service.phase.rank := by
  induction ms generalizing w with
  | nil => exact Nat.le_refl _
  | cons m ms ih =>
    refine Nat.le_trans ?_ (ih (w.apply m))
    rcases apply_phase w m with h | ⟨h, -⟩ | h
    · exact Nat.le_of_eq (by rw [h])
    · rw [h]
      exact Nat.zero_le _
    · rw [h]
      exact Phase.rank_le _

/-- **Readiness is withdrawn by calls to a running service and by nothing else.** -/
theorem withdrew_mem {w : World} {m : Move} (h : .withdrew ∈ w.happenings m) :
    m = .call ∧ w.turn = none ∧ CanWithdraw w.service := by
  cases observed_of_mem h with
  | withdrew free can => exact ⟨rfl, free, can⟩

/-- **Once a shutdown has begun, readiness is not withdrawn again.** -/
theorem withdrew_once (w : World) (ms : List Move) (h : w.service.phase ≠ .running) :
    .withdrew ∉ w.history ms := by
  induction ms generalizing w with
  | nil => exact List.not_mem_nil
  | cons m ms ih =>
    rw [history_cons, List.mem_append, not_or]
    refine ⟨fun k => h (withdrew_mem k).2.2.1, ih _ ?_⟩
    rcases apply_phase w m with e | ⟨e, -⟩ | e
    · rw [e]
      exact h
    · exact absurd e h
    · rw [e]
      nofun

/-- A history with a withdrawal has a first one, and it is that of a call that wins. -/
theorem withdrew_split (w : World) (ms : List Move) (h : .withdrew ∈ w.history ms) :
    ∃ before after, ms = before ++ .call :: after ∧ .withdrew ∉ w.history before ∧
      (w.after before).turn = none ∧ CanWithdraw (w.after before).service := by
  induction ms generalizing w with
  | nil => cases h
  | cons m ms ih =>
    by_cases first : .withdrew ∈ w.happenings m
    · obtain ⟨rfl, free, can⟩ := withdrew_mem first
      exact ⟨[], ms, rfl, List.not_mem_nil, free, can⟩
    · rw [history_cons, List.mem_append] at h
      obtain ⟨before, after, rfl, absent, free, can⟩ := ih _ (h.resolve_left first)
      refine ⟨m :: before, after, rfl, ?_, free, can⟩
      rw [history_cons, List.mem_append, not_or]
      exact ⟨first, absent⟩

/-- The state in which the winning call leaves a world. -/
theorem call_won {w : World} (h : CanWithdraw w.service) : ∃ d,
    deadline? w.service.now w.service.setup.drainTimeout = some d ∧
      w.call = { w with
        service := ((Call.collecting (w.service.opening d)).poll (w.service.teardownsStarted d)).2
        calls := w.calls ++ [.ok
          ((Call.collecting (w.service.opening d)).poll (w.service.teardownsStarted d)).1] } := by
  rcases call_cases w with ⟨late, -, -⟩ | ⟨-, hd, -, -⟩ | ⟨d, -, hd, e, -⟩
  · exact absurd h.1 late
  · have computed := h.2
    rw [hd] at computed
    cases computed
  · exact ⟨d, hd, e⟩

theorem call_won_phase {w : World} (h : CanWithdraw w.service) :
    w.call.service.phase ≠ .running := by
  obtain ⟨d, -, e⟩ := call_won h
  rw [e]
  rcases poll_phase (.collecting (w.service.opening d)) (w.service.teardownsStarted d) with k | k
  · rw [k]
    nofun
  · rw [k]
    nofun

theorem rank_eq_zero {p : Phase} : p.rank = 0 ↔ p = .running := by cases p <;> decide

/-- **Once readiness has been withdrawn the service is never running again.** -/
theorem withdrew_phase (w : World) (ms : List Move) (h : .withdrew ∈ w.history ms) :
    (w.after ms).service.phase ≠ .running := by
  obtain ⟨before, after, rfl, -, free, can⟩ := withdrew_split w ms h
  have called : (w.after before).apply .call = (w.after before).call := apply_free free _
  rw [after_append, after_cons, called]
  have le := phase_le (w.after before).call after
  intro running
  rw [running] at le
  exact call_won_phase can (rank_eq_zero.mp (Nat.le_zero.mp le))

/-! ## 2. What the calls tell -/

/-- The phase as the calls to shut down tell it. -/
def toldPhase : List (Except Overflow Call) → Phase
  | [] => .running
  | .ok (.finished _) :: _ => .stopped
  | _ => .draining

/-- **The calls of a world are in order**: they tell the phase, all but the first are ignored and
the first is not, and one that collects has something left to collect. -/
structure InOrder (w : World) : Prop where
  phase : w.service.phase = toldPhase w.calls
  first : ∀ c, w.calls.head? = some c → c ≠ .ok .ignored
  rest : ∀ c ∈ w.calls.tail, c = .ok .ignored
  pending : ∀ x, .ok (.collecting x) ∈ w.calls → x.pending ≠ []

theorem toldPhase_running {cs : List (Except Overflow Call)} (h : toldPhase cs = .running) :
    cs = [] := by
  unfold toldPhase at h
  split at h
  · rfl
  · cases h
  · cases h

/-- A service that is running has had no call. -/
theorem InOrder.uncalled {w : World} (h : InOrder w) (running : w.service.phase = .running) :
    w.calls = [] := toldPhase_running (h.phase ▸ running)

theorem toldPhase_append {cs : List (Except Overflow Call)} (h : cs ≠ [])
    (ds : List (Except Overflow Call)) : toldPhase (cs ++ ds) = toldPhase cs := by
  cases cs with
  | nil => exact absurd rfl h
  | cons c cs =>
    match c with
    | .ok (.finished _) => rfl
    | .ok .ignored => rfl
    | .ok (.collecting _) => rfl
    | .error _ => rfl

theorem new_inOrder (setup : Setup) (clock : Time.Stamp) : InOrder (new setup clock) where
  phase := rfl
  first _ h := by cases h
  rest _ h := by cases h
  pending _ h := by cases h

theorem InOrder.congr {w w' : World} (h : InOrder w) (phase : w'.service.phase = w.service.phase)
    (calls : w'.calls = w.calls) : InOrder w' where
  phase := by rw [phase, calls]; exact h.phase
  first := by rw [calls]; exact h.first
  rest := by rw [calls]; exact h.rest
  pending := by rw [calls]; exact h.pending

/-- What a call that collects comes to when it is looked at, and what phase that leaves. -/
theorem poll_collecting (x : Collection) (s : Service) :
    (∃ y, ((Call.collecting x).poll s).1 = .collecting y ∧ y.pending ≠ [] ∧
      ((Call.collecting x).poll s).2.phase = s.phase) ∨
    (∃ r, ((Call.collecting x).poll s).1 = .finished r ∧
      ((Call.collecting x).poll s).2.phase = .stopped) := by
  rcases poll_cases (.collecting x) s with
    ⟨k, -⟩ | ⟨_, y, s', -, hy, ⟨_, _, rfl⟩, k⟩ | ⟨_, r, s', -, ⟨_, _, rfl⟩, k⟩
  · cases k
  · exact .inl ⟨y, by rw [k], hy, by rw [k]⟩
  · exact .inr ⟨r, by rw [k], by rw [k]⟩

/-- Calls of which the first leads and the others are ignored. -/
theorem InOrder.leading {w : World} {c : Except Overflow Call} {rest : List (Except Overflow Call)}
    (calls : w.calls = c :: rest) (others : ∀ d ∈ rest, d = .ok .ignored)
    (ignored : c ≠ .ok .ignored) (phase : w.service.phase = toldPhase (c :: rest))
    (pending : ∀ x, c = .ok (.collecting x) → x.pending ≠ []) : InOrder w where
  phase := by rw [calls]; exact phase
  first d h := by
    rw [calls] at h
    cases h
    exact ignored
  rest d h := by
    rw [calls] at h
    exact others d h
  pending x h := by
    rw [calls] at h
    rcases List.mem_cons.mp h with e | h
    · exact pending x e.symm
    · cases others _ h

/-- Only the first call collects. -/
theorem InOrder.collecting {w : World} (h : InOrder w) {i : Nat} {x : Collection}
    (hc : w.calls[i]? = some (.ok (.collecting x))) :
    i = 0 ∧ ∃ rest, w.calls = .ok (.collecting x) :: rest := by
  cases hl : w.calls with
  | nil =>
    rw [hl] at hc
    cases hc
  | cons d rest =>
    rw [hl] at hc
    cases i with
    | zero =>
      cases hc
      exact ⟨rfl, rest, rfl⟩
    | succ i =>
      have mem : .ok (.collecting x) ∈ w.calls.tail := by
        rw [hl]
        exact List.mem_of_getElem? hc
      cases h.rest _ mem

theorem call_inOrder (w : World) (h : InOrder w) : InOrder w.call := by
  rcases call_cases w with ⟨late, e, -⟩ | ⟨running, -, e, -⟩ | ⟨d, running, -, e, -⟩
  · have nonempty : w.calls ≠ [] := by
      intro k
      rw [h.phase, k] at late
      exact late rfl
    obtain ⟨c₀, cs, hw⟩ := List.exists_cons_of_ne_nil nonempty
    rw [e]
    refine ⟨?_, ?_, ?_, ?_⟩
    · rw [toldPhase_append nonempty]
      exact h.phase
    · intro c hc
      simp only [hw, List.cons_append, List.head?_cons] at hc
      exact h.first c (by rw [hw]; exact hc)
    · intro c hc
      simp only [hw, List.cons_append, List.tail_cons, List.mem_append, List.mem_singleton] at hc
      exact hc.elim (fun k => h.rest c (by rw [hw]; exact k)) id
    · intro x hx
      rw [List.mem_append, List.mem_singleton] at hx
      exact hx.elim (h.pending x) (fun k => nomatch k)
  · have empty := h.uncalled running
    rw [e]
    exact .leading (c := .error .deadline) (by rw [empty]; rfl) (fun _ k => by cases k)
      (fun k => nomatch k) rfl (fun x k => nomatch k)
  · have empty := h.uncalled running
    rw [e]
    refine .leading (by rw [empty]; rfl) (fun _ k => by cases k) ?_ ?_ ?_ <;>
      rcases poll_collecting (w.service.opening d) (w.service.teardownsStarted d) with
        ⟨y, k, hy, p⟩ | ⟨r, k, p⟩ <;> rw [k]
    · nofun
    · nofun
    · exact p
    · exact p
    · rintro x ⟨⟩
      exact hy
    · nofun

theorem lookCall_inOrder (w : World) (i : Nat) (h : InOrder w) : InOrder (w.lookCall i) := by
  unfold lookCall
  split
  · rename_i c hc
    -- a call that has returned is not changed by a look
    by_cases returned : c.hasReturned = true
    · have set : w.calls.set i (.ok c) = w.calls := by
        obtain ⟨lt, k⟩ := List.getElem?_eq_some_iff.mp hc
        rw [← k, List.set_getElem_self]
      rw [poll_returned returned]
      exact h.congr rfl set
    · obtain ⟨x, rfl⟩ : ∃ x, c = .collecting x := by
        cases c with
        | collecting x => exact ⟨x, rfl⟩
        | _ => exact absurd rfl returned
      obtain ⟨rfl, rest, hw⟩ := h.collecting hc
      have draining : w.service.phase = .draining := by
        rw [h.phase, hw]
        rfl
      have others : ∀ c ∈ rest, c = .ok .ignored := fun c hc => h.rest c (by rw [hw]; exact hc)
      refine .leading (by rw [hw]; rfl) others ?_ ?_ ?_ <;>
        rcases poll_collecting x w.service with ⟨y, k, hy, p⟩ | ⟨r, k, p⟩ <;> rw [k]
      · nofun
      · nofun
      · exact p.trans draining
      · exact p
      · rintro z ⟨⟩
        exact hy
      · nofun
  · exact h

theorem apply_inOrder (w : World) (m : Move) (h : InOrder w) : InOrder (w.apply m) := by
  unfold apply
  split
  · by_cases hc : m = .call
    · subst hc
      exact call_inOrder w h
    by_cases hl : ∃ i, m = .lookCall i
    · obtain ⟨i, rfl⟩ := hl
      exact lookCall_inOrder w i h
    have other := outside_phase w m hc fun i k => hl ⟨i, k⟩
    exact h.congr other.1 other.2
  · split
    · exact h.congr (step_phase _ _) rfl
    · exact h

/-- **In every world the calls are in order.** -/
theorem after_inOrder (w : World) (ms : List Move) (h : InOrder w) : InOrder (w.after ms) :=
  after_induction apply_inOrder w ms h

end World

end ServiceHealth
