import Mathlib.Data.List.Induction
import ServiceHealth.Proofs.AllOrNothing
import ServiceHealth.Proofs.Deeds
import ServiceHealth.Proofs.Outcomes

/-!
# After the report

When the call that shuts the service down has its report, the shutdown is over, whoever still goes
on. What comes later, the late end of a teardown among it, changes neither the report nor the phase,
neither the counters of outcomes nor the log. Only a call that comes too late leaves a record there.

* `SameShutdown`: services with the same shutdown behind them. `apply_same`: a move of a service
  that has stopped leaves it so, unless it is a call.
* `Shelved`, `after_shelved`: **what is left of a shutdown in whatever happens later**.
* `Gathered`, `Accounted`, `after_accounted`: what the report says, and of which moment.
-/

namespace ServiceHealth

open Service

namespace Service

/-! ## 1. What a shutdown leaves -/

/-- Two services with the same shutdown behind them. -/
structure SameShutdown (s s' : Service) : Prop where
  setup : s'.setup = s.setup
  phase : s'.phase = s.phase
  outcomes : s'.metrics.outcomes = s.metrics.outcomes
  log : s'.log = s.log

namespace SameShutdown

variable {s s' : Service}

protected theorem refl (s : Service) : SameShutdown s s := ⟨rfl, rfl, rfl, rfl⟩

theorem of_jobsOnly (h : JobsOnly s s') : SameShutdown s s' :=
  ⟨h.setup, h.phase, by rw [h.metrics], h.log⟩

theorem act (s : Service) (job : JobId) (who : String) (x : Step) :
    SameShutdown s (s.act job who x) := by
  cases x with
  | begin checker =>
    simp only [Service.act, beginRun]
    split
    · split <;> exact ⟨rfl, rfl, rfl, rfl⟩
    · exact ⟨rfl, rfl, rfl, rfl⟩
  | perform a => cases a <;> exact ⟨rfl, rfl, rfl, rfl⟩
  | _ => exact ⟨rfl, rfl, rfl, rfl⟩

/-- **No job has to do with the shutdown that is behind a service**, in whatever way it ends. -/
theorem step (t : Turn) (s : Service) : SameShutdown s (t.step s).2 := by
  rcases t.step_cases s with ⟨x, rest, -, -, e⟩ | ⟨x, rest, state, -, -, e⟩ | ⟨-, e⟩
  · rw [e]
    exact act s t.job t.who x
  · rw [e]
    exact ⟨rfl, rfl, rfl, rfl⟩
  · rw [e]
    exact of_jobsOnly (closed_closeJob s t.job t.close).jobsOnly

end SameShutdown

/-- The record of a call that comes too late. -/
def lateRecord (s : Service) : Log.Record :=
  s.setup.logger.record .debug "Shutdown already triggered, ignoring duplicate trigger" []

end Service

/-- Whether a move is a call to shut down. -/
def Move.isCall : Move → Bool
  | .call => true
  | _ => false

namespace World

/-! ## 2. What happens later -/

theorem inquire_same (w : World) (request : Option Probe.Request) (timeout : Nat) :
    SameShutdown w.service (w.inquire request timeout).service := by
  unfold inquire
  split
  · exact .refl _
  · exact .of_jobsOnly (JobsOnly.startAggregation _ _)

/-- Only calls have to do with a shutdown. -/
theorem outside_same (w : World) {m : Move} (hc : m ≠ .call) (hl : ∀ i, m ≠ .lookCall i) :
    SameShutdown w.service (w.outside m).service := by
  cases m with
  | act a => cases a <;> exact ⟨rfl, rfl, rfl, rfl⟩
  | addTask t => exact ⟨rfl, rfl, rfl, rfl⟩
  | request r =>
    unfold outside receive
    dsimp only
    split
    · exact inquire_same w _ _
    · rename_i hr
      have other : ¬ isLiveness r := fun ⟨b, hb⟩ => hr b hb
      rcases respond_frame w.service r other with h | h <;> rw [h] <;> exact ⟨rfl, rfl, rfl, rfl⟩
  | ask timeout => exact inquire_same w _ _
  | look i =>
    unfold outside look
    dsimp only
    split
    · exact .of_jobsOnly (JobsOnly.pollAggregation _ _)
    · exact .refl _
  | answer i =>
    unfold outside answer
    dsimp only
    split
    · split <;> exact ⟨rfl, rfl, rfl, rfl⟩
    · exact .refl _
  | stop task giveUp => exact .of_jobsOnly ((JobsOnly.fire _ _).trans (.claim _ task))
  | call => exact absurd rfl hc
  | lookCall i => exact absurd rfl (hl i)
  | begin => exact .of_jobsOnly (JobsOnly.begin w.service)
  | advance moment =>
    unfold outside
    dsimp only
    split <;> exact ⟨rfl, rfl, rfl, rfl⟩
  | _ => exact ⟨rfl, rfl, rfl, rfl⟩

/-- In a service that has stopped all calls have returned. -/
theorem InOrder.returned {w : World} (h : InOrder w) (stopped : w.service.phase = .stopped)
    {i : Nat} {c : Call} (hc : w.calls[i]? = some (.ok c)) : c.hasReturned = true := by
  cases c with
  | collecting x =>
    obtain ⟨-, rest, calls⟩ := h.collecting hc
    rw [h.phase, calls] at stopped
    cases stopped
  | _ => rfl

/-- Looking at a call of a service that has stopped changes nothing. -/
theorem lookCall_stopped {w : World} (h : InOrder w) (stopped : w.service.phase = .stopped)
    (i : Nat) : w.lookCall i = w := by
  unfold lookCall
  split
  · rename_i c hc
    rw [poll_returned (h.returned stopped hc)]
    have set : w.calls.set i (.ok c) = w.calls := by
      obtain ⟨lt, here⟩ := List.getElem?_eq_some_iff.mp hc
      rw [← here, List.set_getElem_self]
    dsimp only
    rw [set]
  · rfl

/-- **A move of a service that has stopped leaves its shutdown as it is**, unless it is a call. -/
theorem apply_same {w : World} (h : InOrder w) (stopped : w.service.phase = .stopped) {m : Move}
    (hc : m ≠ .call) :
    SameShutdown w.service (w.apply m).service ∧ (w.apply m).calls = w.calls := by
  unfold apply
  split
  · by_cases looked : ∃ i, m = .lookCall i
    · obtain ⟨i, rfl⟩ := looked
      show SameShutdown w.service (w.lookCall i).service ∧ (w.lookCall i).calls = w.calls
      rw [lookCall_stopped h stopped]
      exact ⟨.refl _, rfl⟩
    · have quiet : ∀ i, m ≠ .lookCall i := fun i e => looked ⟨i, e⟩
      exact ⟨outside_same w hc quiet, (outside_phase w m hc quiet).2⟩
  · split
    · exact ⟨.step _ _, rfl⟩
    · exact ⟨.refl _, rfl⟩

/-- **What is left of a shutdown after so many calls that came too late**: everything but a record
of each in the log. -/
structure Shelved (count : Nat) (w w' : World) : Prop where
  setup : w'.service.setup = w.service.setup
  phase : w'.service.phase = w.service.phase
  outcomes : w'.service.metrics.outcomes = w.service.metrics.outcomes
  log : w'.service.log = w.service.log ++ List.replicate count w.service.lateRecord
  calls : w'.calls = w.calls ++ List.replicate count (.ok .ignored)

theorem Shelved.refl (w : World) : Shelved 0 w w :=
  ⟨rfl, rfl, rfl, (List.append_nil _).symm, (List.append_nil _).symm⟩

theorem Shelved.trans {n n' : Nat} {w w' w'' : World} (h : Shelved n w w')
    (k : Shelved n' w' w'') : Shelved (n + n') w w'' where
  setup := k.setup.trans h.setup
  phase := k.phase.trans h.phase
  outcomes := k.outcomes.trans h.outcomes
  log := by
    have same : w'.service.lateRecord = w.service.lateRecord := by
      unfold lateRecord
      rw [h.setup]
    rw [k.log, h.log, same, List.append_assoc, List.replicate_append_replicate]
  calls := by rw [k.calls, h.calls, List.append_assoc, List.replicate_append_replicate]

theorem Shelved.of_same {w w' : World} (same : SameShutdown w.service w'.service)
    (calls : w'.calls = w.calls) : Shelved 0 w w' :=
  ⟨same.setup, same.phase, same.outcomes, by rw [same.log]; exact (List.append_nil _).symm,
    by rw [calls]; exact (List.append_nil _).symm⟩

theorem apply_shelved {w : World} (h : InOrder w) (stopped : w.service.phase = .stopped)
    (m : Move) : ∃ n, n ≤ [m].countP Move.isCall ∧ Shelved n w (w.apply m) := by
  by_cases called : m = .call
  · subst called
    cases ht : w.turn with
    | none =>
      have nonempty : w.calls ≠ [] := by
        intro none
        rw [h.phase, none] at stopped
        cases stopped
      rw [call_late h ht nonempty]
      exact ⟨1, Nat.le_refl _, rfl, rfl, rfl, rfl, rfl⟩
    | some t =>
      rw [apply_wait ht (by nofun)]
      exact ⟨0, Nat.zero_le _, .refl w⟩
  · obtain ⟨same, calls⟩ := apply_same h stopped called
    exact ⟨0, Nat.zero_le _, .of_same same calls⟩

/-- **What is left of a shutdown in whatever happens later.** -/
theorem after_shelved {w : World} (h : InOrder w) (stopped : w.service.phase = .stopped)
    (ms : List Move) : ∃ n, n ≤ ms.countP Move.isCall ∧ Shelved n w (w.after ms) := by
  induction ms generalizing w with
  | nil => exact ⟨0, Nat.le_refl _, .refl w⟩
  | cons m ms ih =>
    obtain ⟨n, le, first⟩ := apply_shelved h stopped m
    obtain ⟨n', le', rest⟩ := ih (apply_inOrder w m h) (first.phase.trans stopped)
    refine ⟨n + n', ?_, first.trans rest⟩
    have sum : ([m] ++ ms).countP Move.isCall = [m].countP Move.isCall + ms.countP Move.isCall :=
      List.countP_append
    rw [List.singleton_append] at sum
    omega

end World

/-! ## 3. What the report says -/

namespace Service

/-- The outcome of a teardown as it is seen at a moment at which it is known. -/
def judged (deadline : Nat) (s : Service) (p : String × JobId) : Shutdown.Outcome :=
  ⟨p.1, (s.fate? deadline p.2).getD .timedOut⟩

section Judged

variable {deadline : Nat} {s s' : Service} {p : String × JobId}

theorem fate?_congr (jobs : s'.jobs = s.jobs) (now : s'.now = s.now) (job : JobId) :
    s'.fate? deadline job = s.fate? deadline job := by
  unfold fate?
  rw [result?_congr jobs, now]

/-- A result is known at every moment. -/
theorem fate?_of_result {job : JobId} {r : Result} (hr : s.result? job = some r) :
    s.fate? deadline job = some (.ofResult r.asStop) := by
  unfold fate?
  rw [hr]

/-- A teardown that is reported late had given nothing, and the deadline had come. -/
theorem judged_late (known : (s.fate? deadline p.2).isSome)
    (late : (s.judged deadline p).fate = .timedOut) : s.result? p.2 = none ∧ deadline ≤ s.now := by
  obtain ⟨fate, hf⟩ := Option.isSome_iff_exists.mp known
  have same : (s.judged deadline p).fate = fate := by
    unfold judged
    rw [hf]
    rfl
  rcases fate?_eq_some hf with ⟨r, -, e⟩ | ⟨unknown, past, -⟩
  · rw [same, e] at late
    cases hr : r.asStop <;> rw [hr] at late <;> cases late
  · exact ⟨unknown, past⟩

end Judged

/-- What a call has collected that still waits: results, as they stand. -/
structure Gathered (deadline : Nat) (all : List (String × JobId)) (s : Service) (x : Collection) :
    Prop where
  limit : x.deadline = deadline
  split : ∃ done, all = done ++ x.pending ∧ x.outcomes = done.map (s.judged deadline) ∧
    ∀ p ∈ done, (s.result? p.2).isSome

/-- What a call says that has its report: the outcomes of all, as they stood at one moment. -/
structure Accounted (deadline : Nat) (all : List (String × JobId)) (s : Service)
    (r : Shutdown.Report) : Prop where
  outcomes : r.outcomes = all.map (s.judged deadline)
  known : ∀ p ∈ all, (s.fate? deadline p.2).isSome

section Gathered

variable {deadline : Nat} {all : List (String × JobId)} {s s' : Service}

/-- What has been collected stays so as long as results do. -/
theorem Gathered.carry {x : Collection} (h : Gathered deadline all s x)
    (stays : ∀ i r, s.result? i = some r → s'.result? i = some r) :
    Gathered deadline all s' x := by
  obtain ⟨done, split, outcomes, ended⟩ := h.split
  refine ⟨h.limit, done, split, ?_, fun p hp => ?_⟩
  · rw [outcomes]
    refine List.map_congr_left fun p hp => ?_
    obtain ⟨r, hr⟩ := Option.isSome_iff_exists.mp (ended p hp)
    unfold judged
    rw [fate?_of_result hr, fate?_of_result (stays p.2 r hr)]
  · obtain ⟨r, hr⟩ := Option.isSome_iff_exists.mp (ended p hp)
    rw [stays p.2 r hr]
    rfl

theorem Accounted.congr {r : Shutdown.Report} (h : Accounted deadline all s r)
    (jobs : s'.jobs = s.jobs) (now : s'.now = s.now) : Accounted deadline all s' r := by
  have same : s'.judged deadline = s.judged deadline := by
    funext p
    unfold judged
    rw [fate?_congr jobs now]
  refine ⟨by rw [same]; exact h.outcomes, fun p hp => ?_⟩
  rw [fate?_congr jobs now]
  exact h.known p hp

/-- **A look at a call that waits**: it goes on collecting results, or says what is known of all. -/
theorem poll_gathered {x : Collection} (h : Gathered deadline all s x) :
    (∃ y, ((Call.collecting x).poll s).1 = .collecting y ∧
      Gathered deadline all ((Call.collecting x).poll s).2 y) ∨
    ∃ r, ((Call.collecting x).poll s).1 = .finished r ∧
      Accounted deadline all ((Call.collecting x).poll s).2 r := by
  obtain ⟨rfl, done, split, outcomes, ended⟩ := h
  have quiet := World.quiet_poll (.collecting x) s
  obtain ⟨more, rest, split', collected, known, unknown⟩ :=
    collect_cut x.deadline x.pending x.outcomes s
  have all_split : all = (done ++ more) ++ rest := by rw [split, split', List.append_assoc]
  have gathered : x.outcomes ++ more.map (s.judged x.deadline) =
      (done ++ more).map (s.judged x.deadline) := by rw [List.map_append, outcomes]
  have polled : (Call.collecting x).poll s =
      if rest = [] then (.finished ⟨(done ++ more).map (s.judged x.deadline)⟩,
        { (collect x.deadline x.pending x.outcomes s).2 with phase := .stopped })
      else (.collecting ⟨x.deadline, rest, (done ++ more).map (s.judged x.deadline)⟩,
        (collect x.deadline x.pending x.outcomes s).2) := by
    rw [← gathered]
    unfold Call.poll
    dsimp only
    rw [collected]
    rfl
  by_cases last : rest = []
  · right
    rw [last, List.append_nil] at all_split
    rw [if_pos last, ← all_split] at polled
    have accounted : Accounted x.deadline all s ⟨all.map (s.judged x.deadline)⟩ := by
      refine ⟨rfl, fun p hp => ?_⟩
      rw [all_split] at hp
      rcases List.mem_append.mp hp with old | new
      · obtain ⟨r, hr⟩ := Option.isSome_iff_exists.mp (ended p old)
        rw [fate?_of_result hr]
        rfl
      · obtain ⟨fate, hf⟩ := known p new
        rw [hf]
        rfl
    exact ⟨_, congrArg Prod.fst polled, accounted.congr quiet.jobs quiet.now⟩
  · left
    rw [if_neg last] at polled
    obtain ⟨p, rest', rfl⟩ := List.exists_cons_of_ne_nil last
    -- whoever is missing is missing before the deadline, so what is there is results
    have early := (fate?_eq_none (unknown p rfl)).2
    have gathered : Gathered x.deadline all s
        ⟨x.deadline, p :: rest', (done ++ more).map (s.judged x.deadline)⟩ := by
      refine ⟨rfl, done ++ more, all_split, rfl, fun q hq => ?_⟩
      rcases List.mem_append.mp hq with old | new
      · exact ended q old
      · obtain ⟨fate, hf⟩ := known q new
        rcases fate?_eq_some hf with ⟨r, hr, -⟩ | ⟨-, past, -⟩
        · rw [hr]
          rfl
        · omega
    exact ⟨_, congrArg Prod.fst polled,
      gathered.carry fun i r hr => (result?_congr quiet.jobs i).trans hr⟩

end Gathered

end Service

namespace World

/-- What a move does to a call: nothing, or it is a look at it. -/
theorem apply_looks (w : World) (m : Move) {i : Nat} {c : Except Overflow Call}
    (hc : w.calls[i]? = some c) : (w.apply m).calls[i]? = some c ∨
      ∃ x, c = .ok x ∧ (w.apply m).calls[i]? = some (.ok (x.poll w.service).1) ∧
        (w.apply m).service = (x.poll w.service).2 := by
  have lt := (List.getElem?_eq_some_iff.mp hc).1
  cases ht : w.turn with
  | some t =>
    refine .inl ?_
    rcases w.apply_cases m with ⟨free, -⟩ | ⟨t, -, -, e⟩ | ⟨t, -, -, e⟩
    · rw [ht] at free
      cases free
    · rw [e]
      exact hc
    · rw [e]
      exact hc
  | none =>
    rw [apply_free ht]
    by_cases called : m = .call
    · subst called
      refine .inl ?_
      show w.call.calls[i]? = _
      rcases call_cases w with ⟨-, e, -⟩ | ⟨-, -, e, -⟩ | ⟨d, -, -, e, -⟩ <;>
      · rw [e, List.getElem?_append_left lt]
        exact hc
    by_cases looked : m = .lookCall i
    · subst looked
      cases c with
      | ok x =>
        refine .inr ⟨x, rfl, ?_⟩
        show (w.lookCall i).calls[i]? = _ ∧ (w.lookCall i).service = _
        unfold lookCall
        rw [hc]
        exact ⟨List.getElem?_set_self lt, rfl⟩
      | error e =>
        refine .inl ?_
        show (w.lookCall i).calls[i]? = _
        unfold lookCall
        rw [hc]
        exact hc
    by_cases other : ∃ j, m = .lookCall j
    · obtain ⟨j, rfl⟩ := other
      refine .inl ?_
      show (w.lookCall j).calls[i]? = _
      unfold lookCall
      split
      · exact (List.getElem?_set_ne fun e => looked (by rw [e])).trans hc
      · exact hc
    · rw [(outside_phase w m called fun j e => other ⟨j, e⟩).2]
      exact .inl hc

/-- Results are not taken back. -/
theorem apply_result {w : World} (scheduled : Scheduled w.turn w.service) (m : Move) {i : JobId}
    {r : Result} (hr : w.service.result? i = some r) : (w.apply m).service.result? i = some r := by
  obtain ⟨j, hj, ended⟩ := result?_eq_some.mp hr
  exact result?_eq_some.mpr ⟨j, (apply_over scheduled hj (by rw [ended]; rfl) m).1, ended⟩

/-- **What the call that wins says when it has its report**: what was known of all teardowns at some
moment since the call at which it had it. -/
theorem after_accounted {w : World} (scheduled : Scheduled w.turn w.service) (free : w.turn = none)
    (can : CanWithdraw w.service) (ms : List Move) :
    let deadline := w.service.now + w.service.setup.drainTimeout
    let all := (w.service.opening deadline).pending
    (∃ x, ((w.apply .call).after ms).calls[w.calls.length]? = some (.ok (.collecting x)) ∧
      Gathered deadline all ((w.apply .call).after ms).service x) ∨
    ∃ r p, p <+: ms ∧ ((w.apply .call).after p).calls[w.calls.length]? = some (.ok (.finished r)) ∧
      Accounted deadline all ((w.apply .call).after p).service r := by
  intro deadline all
  induction ms using List.reverseRecOn with
  | nil =>
    obtain ⟨d, hd, e⟩ := call_won can
    obtain rfl : d = deadline := deadline?_eq_some hd
    have made : (w.apply .call).calls[w.calls.length]? =
        some (.ok ((Call.collecting (w.service.opening deadline)).poll
          (w.service.teardownsStarted deadline)).1) ∧
        (w.apply .call).service = ((Call.collecting (w.service.opening deadline)).poll
          (w.service.teardownsStarted deadline)).2 := by
      rw [apply_free free]
      show w.call.calls[_]? = _ ∧ w.call.service = _
      rw [e]
      exact ⟨by simp, rfl⟩
    have first : Gathered deadline all (w.service.teardownsStarted deadline)
        (w.service.opening deadline) :=
      ⟨rfl, [], rfl, rfl, nofun⟩
    rcases poll_gathered first with ⟨y, e, gathered⟩ | ⟨r, e, accounted⟩
    · refine .inl ⟨y, by rw [after_nil, made.1, e], ?_⟩
      rw [after_nil, made.2]
      exact gathered
    · refine .inr ⟨r, [], List.prefix_refl _, by rw [after_nil, made.1, e], ?_⟩
      rw [after_nil, made.2]
      exact accounted
  | append_singleton ms m ih =>
    rcases ih with ⟨x, hx, gathered⟩ | ⟨r, p, hp, hr, accounted⟩
    · have moved : (w.apply .call).after (ms ++ [m]) = ((w.apply .call).after ms).apply m :=
        after_append _ ms [m]
      have scheduled' := after_scheduled (w.apply .call) ms (apply_scheduled w .call scheduled)
      rcases apply_looks _ m hx with kept | ⟨x', e, looked, service⟩
      · exact .inl ⟨x, by rw [moved]; exact kept, by
          rw [moved]
          exact gathered.carry fun i r hr => apply_result scheduled' m hr⟩
      · cases e
        rw [moved, looked, service]
        rcases poll_gathered gathered with ⟨y, e, gathered⟩ | ⟨r, e, accounted⟩
        · exact .inl ⟨y, by rw [e], gathered⟩
        · exact .inr ⟨r, ms ++ [m], List.prefix_refl _, by rw [moved, looked, e],
            by rw [moved, service]; exact accounted⟩
    · exact .inr ⟨r, p, hp.trans (List.prefix_append ms [m]), hr, accounted⟩

end World

end ServiceHealth
