import ServiceHealth.Proofs.Moves
import ServiceHealth.Proofs.Runs

/-!
# A report is a snapshot

Checkers may write flags, register other checkers or replace themselves while they are being asked,
and so may anybody else. None of this shows in the report: it has the time, the flags and the names
of the moment at which it was asked for, and each of its entries stems from the checker that was
registered under its name at that moment.

* `Stems`: an entry stems from a checker. `Stems.later`: it does so for ever.
* `Snapshot`: an aggregation is a snapshot of a service. `after_snapshot`: every move keeps it.
* `check_moves`: a check is moves, and its report is that of the aggregation it starts.
* `report_is_snapshot`: **every report is a snapshot, and what happens meanwhile shows in the next
  one**.
-/

namespace ServiceHealth

namespace Service

/-! ## 1. Where an entry stems from -/

/-- An entry stems from a checker, which is the one with a number: its job runs this checker against
the deadline, and its outcome, once there is one, is what this checker gives for the run with the
number it has, unless the deadline has come. -/
structure Stems (s : Service) (deadline n : Nat) (c : Health.Checker) (e : Entry) : Prop where
  job : ∃ j, s.jobs[e.job]? = some j ∧ j.close = .verdict n deadline
  outcome : ∃ en, s.checkers[n]? = some en ∧ en.checker = c ∧ ∀ o, e.outcome = some o →
    (o = .failed .timedOut ∧ deadline ≤ s.now) ∨
    (e.job ∈ en.runs ∧ ∃ m, m ≤ s.now ∧ c.gives? (en.runs.idxOf e.job) deadline m = some o)

/-- What goes on in a service and is never taken back. -/
structure Later (s s' : Service) : Prop where
  now : s.now ≤ s'.now
  grown : Grown s s'
  runs : ∀ (i : JobId) (j : Job) (n d : Nat), s.jobs[i]? = some j → j.close = .verdict n d →
    ∃ j', s'.jobs[i]? = some j' ∧ j'.close = .verdict n d

/-- **Where an entry stems from does not change.** -/
theorem Stems.later {s s' : Service} {deadline n : Nat} {c : Health.Checker} {e : Entry}
    (h : Stems s deadline n c e) (later : Later s s') : Stems s' deadline n c e where
  job := by
    obtain ⟨j, hj, close⟩ := h.job
    exact later.runs _ j n deadline hj close
  outcome := by
    obtain ⟨en, hen, same, known⟩ := h.outcome
    obtain ⟨more, hen'⟩ := later.grown n en hen
    refine ⟨_, hen', same, fun o ho => ?_⟩
    rcases known o ho with ⟨late, past⟩ | ⟨mem, m, le, gives⟩
    · exact .inl ⟨late, Nat.le_trans past later.now⟩
    · refine .inr ⟨List.mem_append_left _ mem, m, Nat.le_trans le later.now, ?_⟩
      rw [List.idxOf_append, if_pos mem]
      exact gives

/-- A look at an entry takes over what its checker gives, or finds that the deadline has come. -/
theorem Stems.seen {s : Service} {turn : Option Turn} {deadline n : Nat} {c : Health.Checker}
    {e : Entry} (h : Stems s deadline n c e) (attested : Attested s.checkers turn s) :
    Stems s deadline n c (e.seen deadline s) := by
  obtain ⟨j, hj, close⟩ := h.job
  obtain ⟨en, hen, same, known⟩ := h.outcome
  refine ⟨⟨j, hj, close⟩, en, hen, same, fun o ho => ?_⟩
  obtain ⟨name, job, outcome⟩ := e
  cases outcome with
  | some o' => exact known o ho
  | none =>
    simp only [Entry.seen, Option.none_or] at ho
    cases hr : s.result? job with
    | some r =>
      rw [hr] at ho
      cases ho
      obtain ⟨j', hj', ended⟩ := result?_eq_some.mp hr
      rw [hj] at hj'
      cases hj'
      obtain ⟨en', hen', -, gave⟩ := attested.run job j n deadline hj close
      rw [hen] at hen'
      cases hen'
      subst same
      exact .inr (gave r ended)
    | none =>
      rw [hr] at ho
      dsimp only at ho
      split at ho
      · rename_i past
        cases ho
        exact .inl ⟨rfl, past⟩
      · cases ho

/-- An aggregation, for a request or for somebody else, is a snapshot of a service. -/
structure Snapshot (base : Service) (request : Option Probe.Request) (deadline : Nat) (s : Service)
    (q : Inquiry) : Prop where
  request : q.request = request
  time : q.aggregation.time = base.clock
  flags : q.aggregation.flags = base.flags
  limit : q.aggregation.deadline = deadline
  names : (q.aggregation.entries.map (·.name)).Perm base.checkerNames
  entries : ∀ e ∈ q.aggregation.entries, ∃ n c, base.roster.get? e.name = some n ∧
    base.registered? e.name = some c ∧ Stems s deadline n c e

/-- An aggregation that is started is a snapshot. -/
theorem startAggregation_snapshot {s : Service} (enlisted : Enlisted s)
    (request : Option Probe.Request) (deadline : Nat) :
    Snapshot s request deadline (s.startAggregation deadline).2
      ⟨request, (s.startAggregation deadline).1, false⟩ where
  request := rfl
  time := rfl
  flags := rfl
  limit := rfl
  names := start_names_perm s deadline
  entries e mem := by
    obtain ⟨k, hk⟩ := List.getElem?_of_mem mem
    obtain ⟨⟨name, n⟩, hx, rfl, hj⟩ := startRuns_entry hk
    have hn : s.roster.get? name = some n :=
      Keyed.get?_eq_some.mpr (s.rollCall_perm.mem_iff.mp (List.mem_of_getElem? hx))
    obtain ⟨en, hen, found, -⟩ := enlisted.enrolled hn
    refine ⟨n, en.checker, hn, by rw [registered?, found]; rfl, ⟨_, hj, runJob_close _ _ _⟩,
      en, ?_, rfl, fun o ho => nomatch ho⟩
    rw [(JobsOnly.startAggregation s deadline).checkers]
    exact hen

/-- A snapshot that is looked at is still one. -/
theorem Snapshot.seen {base s : Service} {request : Option Probe.Request} {deadline : Nat}
    {turn : Option Turn} {q : Inquiry} (h : Snapshot base request deadline s q)
    (attested : Attested s.checkers turn s) :
    Snapshot base request deadline s { q with aggregation := (q.aggregation.poll s).1 } := by
  have entries : (q.aggregation.poll s).1.entries =
      q.aggregation.entries.map (·.seen deadline s) := by
    rw [← h.limit]
    exact pollEntries_seen _ _ s
  refine ⟨h.request, h.time, h.flags, h.limit, ?_, ?_⟩
  · dsimp only
    rw [entries, List.map_map]
    exact h.names
  · intro e mem
    dsimp only at mem
    rw [entries] at mem
    obtain ⟨e', mem', rfl⟩ := List.mem_map.mp mem
    obtain ⟨n, c, hn, hc, stems⟩ := h.entries e' mem'
    exact ⟨n, c, hn, hc, stems.seen attested⟩

/-- **The report of a snapshot** has the time, the flags and the names of the moment at which it was
asked for, and its entries are the outcomes of those that were asked. -/
theorem Snapshot.report {base s : Service} {request : Option Probe.Request} {deadline : Nat}
    {q : Inquiry} (h : Snapshot base request deadline s q) :
    q.aggregation.report.time = base.clock ∧ q.aggregation.report.flags = base.flags ∧
      q.aggregation.report.checks.keys = base.checkerNames ∧
      ∀ name x, q.aggregation.report.checks.get? name = some x ↔
        ∃ e ∈ q.aggregation.entries, e.name = name ∧
          x = Health.CheckResult.ofOutcome name (e.outcome.getD (.failed .timedOut)) := by
  exact ⟨h.time, h.flags, Aggregation.report_keys h.names base.roster.keys_ascending,
    fun name x => Aggregation.report_get? (h.names.nodup_iff.mpr base.roster.keys_nodup)⟩

end Service

open Service

namespace World

/-! ## 2. What moves do to an aggregation -/

theorem outside_now (w : World) (m : Move) : w.service.now ≤ (w.outside m).service.now := by
  by_cases hb : m = .begin
  · subst hb
    exact Nat.le_of_eq (JobsOnly.begin w.service).now.symm
  exact outside_rule (P := fun s => w.service.now ≤ s.now) hb (Nat.le_refl _)
    (fun _ _ q le => by rw [q.now]; exact le) (fun _ _ => Nat.le_refl _) (fun _ _ => Nat.le_refl _)
    (fun _ _ _ _ _ le => le) (fun _ _ _ le => le)
    (fun k _ _ => Nat.le_of_eq (claim_frame (w.service.fire k) k).2.2.symm)
    (fun _ _ _ => Nat.le_refl _) (fun _ lt => Nat.le_of_lt lt)

/-- A run stays a run of its checker, whatever happens outside a turn. -/
theorem outside_run (w : World) (m : Move) {i : JobId} {n d : Nat}
    (h : ∃ j, w.service.jobs[i]? = some j ∧ j.close = .verdict n d) :
    ∃ j, (w.outside m).service.jobs[i]? = some j ∧ j.close = .verdict n d := by
  by_cases hb : m = .begin
  · subst hb
    show ∃ j, (Turn.begin w.service).2.jobs[i]? = some j ∧ _
    rw [begin_jobs]
    exact h
  have woken : ∀ (s : Service) (p : JobState → Bool),
      (∃ j, s.jobs[i]? = some j ∧ j.close = .verdict n d) →
      ∃ j, (s.wake p).jobs[i]? = some j ∧ j.close = .verdict n d := by
    rintro s p ⟨j, hj, close⟩
    exact ⟨j.woken p, by rw [wake_getElem?, hj]; rfl, (j.woken_close p).trans close⟩
  refine outside_rule (P := fun s => ∃ j, s.jobs[i]? = some j ∧ j.close = .verdict n d) hb h
    (fun _ _ q h => by rw [q.jobs]; exact h) (fun _ _ => h) (fun t _ => ?_)
    (fun s number c d' _ h => ?_) (fun s job _ h => ?_) (fun k _ _ => ?_) (fun _ _ d' => ?_)
    (fun moment _ => woken _ _ h)
  · obtain ⟨j, hj, close⟩ := h
    exact ⟨j, spawn_getElem?_old hj, close⟩
  · obtain ⟨j, hj, close⟩ := h
    exact ⟨j, spawn_getElem?_old hj, close⟩
  · obtain ⟨j, hj, close⟩ := h
    unfold abort
    rw [updateJob_getElem?, hj]
    refine ⟨_, rfl, ?_⟩
    split
    · dsimp only
      split <;> exact close
    · exact close
  · rw [(claim_frame _ k).1]
    exact woken (w.service.updateTask k _) _ h
  · obtain ⟨j, hj, close⟩ := h
    refine ⟨j, ?_, close⟩
    rw [teardownsStarted_jobs, List.getElem?_append_left (List.getElem?_eq_some_iff.mp hj).1]
    exact hj

/-- A step of a turn leaves every run a run of its checker. -/
theorem step_run {t : Turn} {s : Service} (scheduled : Scheduled (some t) s) {i : JobId} {j : Job}
    {n d : Nat} (hj : s.jobs[i]? = some j) (close : j.close = .verdict n d) :
    ∃ j', (t.step s).2.jobs[i]? = some j' ∧ j'.close = .verdict n d := by
  have ev := step_evolves scheduled
  have lt : i < (t.step s).2.jobs.length := by
    rw [ev.length]
    exact (List.getElem?_eq_some_iff.mp hj).1
  obtain ⟨j₀, hj₀, evolved⟩ := ev.jobs i _ (List.getElem?_eq_getElem lt)
  rw [hj] at hj₀
  cases hj₀
  refine ⟨_, List.getElem?_eq_getElem lt, ?_⟩
  rcases evolved.close with c | ⟨_, _, c, -⟩
  · exact c.trans close
  · rw [close] at c
    cases c

theorem apply_now (w : World) (m : Move) : w.service.now ≤ (w.apply m).service.now := by
  rcases w.apply_cases m with ⟨-, e⟩ | ⟨t, -, -, e⟩ | ⟨t, -, -, e⟩
  · rw [e]
    exact outside_now w m
  · rw [e]
    exact Nat.le_of_eq (step_now t w.service).symm
  · rw [e]

/-- **What no move takes back.** -/
theorem apply_later (w : World) (m : Move) (scheduled : Scheduled w.turn w.service) :
    Later w.service (w.apply m).service where
  grown := (apply_enrolment w m).grown
  now := apply_now w m
  runs i j n d hj close := by
    rcases w.apply_cases m with ⟨-, e⟩ | ⟨t, ht, -, e⟩ | ⟨t, -, -, e⟩
    · rw [e]
      exact outside_run w m ⟨j, hj, close⟩
    · rw [ht] at scheduled
      rw [e]
      exact step_run scheduled hj close
    · rw [e]
      exact ⟨j, hj, close⟩

/-- What a move makes of an aggregation: it stays as it is, its request is answered, or it is looked
at. -/
inductive Onward (s : Service) (q : Inquiry) : Inquiry → Prop where
  | same : Onward s q q
  | answered : Onward s q { q with isAnswered := true }
  | looked : Onward s q { q with aggregation := (q.aggregation.poll s).1 }

section Onwards

variable {w : World} {k : Nat} {q : Inquiry}

theorem inquire_onward (hq : w.inquiries[k]? = some q) (request : Option Probe.Request)
    (timeout : Nat) : (w.inquire request timeout).inquiries[k]? = some q := by
  unfold inquire
  split
  · exact hq
  · exact (List.getElem?_append_left (List.getElem?_eq_some_iff.mp hq).1).trans hq

/-- One aggregation is replaced by what a move makes of it. -/
theorem set_onward (hq : w.inquiries[k]? = some q) {i : Nat} {p p' : Inquiry}
    (hp : w.inquiries[i]? = some p) (onward : Onward w.service p p') :
    ∃ q', (w.inquiries.set i p')[k]? = some q' ∧ Onward w.service q q' := by
  by_cases e : i = k
  · subst e
    rw [hq] at hp
    cases hp
    exact ⟨p', List.getElem?_set_self (List.getElem?_eq_some_iff.mp hq).1, onward⟩
  · exact ⟨q, (List.getElem?_set_ne e).trans hq, .same⟩

theorem outside_inquiry (hq : w.inquiries[k]? = some q) (m : Move) :
    ∃ q', (w.outside m).inquiries[k]? = some q' ∧ Onward w.service q q' := by
  have same : ∀ w' : World, w'.inquiries = w.inquiries →
      ∃ q', w'.inquiries[k]? = some q' ∧ Onward w.service q q' :=
    fun w' e => ⟨q, by rw [e]; exact hq, .same⟩
  cases m with
  | request r =>
    unfold outside receive
    dsimp only
    split
    · exact ⟨q, inquire_onward hq _ _, .same⟩
    · exact same _ rfl
  | ask timeout => exact ⟨q, inquire_onward hq none timeout, .same⟩
  | look i =>
    unfold outside look
    dsimp only
    split
    · rename_i p hp
      exact set_onward hq hp .looked
    · exact same _ rfl
  | answer i =>
    unfold outside answer
    dsimp only
    split
    · rename_i r a hp
      split
      · exact set_onward hq hp .answered
      · exact same _ rfl
    · exact same _ rfl
  | call =>
    rcases call_cases w with ⟨-, e, -⟩ | ⟨-, -, e, -⟩ | ⟨d, -, -, e, -⟩ <;>
      exact same _ (by show w.call.inquiries = _; rw [e])
  | lookCall i =>
    unfold outside lookCall
    dsimp only
    split <;> exact same _ rfl
  | advance moment =>
    unfold outside
    dsimp only
    split <;> exact same _ rfl
  | _ => exact same _ rfl

/-- **What a move does to an aggregation.** -/
theorem apply_inquiry (hq : w.inquiries[k]? = some q) (m : Move) :
    ∃ q', (w.apply m).inquiries[k]? = some q' ∧ Onward w.service q q' := by
  unfold apply
  split
  · exact outside_inquiry hq m
  · split <;> exact ⟨q, hq, .same⟩

end Onwards

/-! ## 3. Snapshots in every world -/

section Snapshots

variable {base : Service} {request : Option Probe.Request} {deadline : Nat}

/-- **Every result is vouched for by the checker that gave it**: every name leads to a checker, and
what a run has given is what its checker gives for the run with that number. -/
structure ResultsVouched (w : World) : Prop where
  scheduled : Scheduled w.turn w.service
  enlisted : Enlisted w.service
  attested : Attested w.service.checkers w.turn w.service

theorem after_resultsVouched (setup : Setup) (clock : Time.Stamp) (ms : List Move) :
    ResultsVouched ((new setup clock).after ms) where
  scheduled := after_scheduled _ ms (new_scheduled setup clock)
  enlisted := after_enlisted _ ms (new_enlisted setup clock)
  attested := after_attested _ ms (new_scheduled setup clock) (new_enlisted setup clock)
    (new_attested setup clock)

theorem ResultsVouched.after {w : World} (h : ResultsVouched w) (ms : List Move) :
    ResultsVouched (w.after ms) where
  scheduled := after_scheduled w ms h.scheduled
  enlisted := after_enlisted w ms h.enlisted
  attested := after_attested w ms h.scheduled h.enlisted h.attested

/-- **Every move keeps a snapshot.** -/
theorem after_snapshot {w : World} (vouched : ResultsVouched w) {k : Nat} {q : Inquiry}
    (hq : w.inquiries[k]? = some q) (h : Snapshot base request deadline w.service q)
    (ms : List Move) : ∃ q', (w.after ms).inquiries[k]? = some q' ∧
      Snapshot base request deadline (w.after ms).service q' := by
  induction ms generalizing w q with
  | nil => exact ⟨q, hq, h⟩
  | cons m ms ih =>
    have later := apply_later w m vouched.scheduled
    obtain ⟨q', hq', onward⟩ := apply_inquiry hq m
    refine ih (vouched.after [m]) hq' ?_
    have kept : Snapshot base request deadline w.service q' := by
      cases onward with
      | same => exact h
      | answered => exact ⟨h.request, h.time, h.flags, h.limit, h.names, h.entries⟩
      | looked => exact h.seen vouched.attested
    refine ⟨kept.request, kept.time, kept.flags, kept.limit, kept.names, fun e mem => ?_⟩
    obtain ⟨n, c, hn, hc, stems⟩ := kept.entries e mem
    exact ⟨n, c, hn, hc, stems.later later⟩

end Snapshots

/-! ## 4. Reports -/

section Reports

variable {w : World} {timeout deadline : Nat}

theorem inquire_eq (computable : deadline? w.service.now timeout = some deadline)
    (request : Option Probe.Request) : w.inquire request timeout =
      { w with
        service := (w.service.startAggregation deadline).2
        inquiries := w.inquiries ++
          [⟨request, (w.service.startAggregation deadline).1, false⟩] } := by
  unfold inquire
  rw [computable]

/-- Asking leads to a vouched world. -/
theorem ResultsVouched.inquire (h : ResultsVouched w) (free : w.turn = none)
    (computable : deadline? w.service.now timeout = some deadline)
    (request : Option Probe.Request) : ResultsVouched (w.inquire request timeout) := by
  have asked := h.after [.ask timeout]
  have same : w.after [.ask timeout] = w.inquire none timeout := apply_free free _
  rw [same, inquire_eq computable] at asked
  rw [inquire_eq computable]
  exact ⟨asked.scheduled, asked.enlisted, asked.attested⟩

/-- **What is asked for is a snapshot of the moment at which it is asked for, for ever.** -/
theorem inquire_snapshot (vouched : ResultsVouched w) (free : w.turn = none)
    (computable : deadline? w.service.now timeout = some deadline)
    (request : Option Probe.Request) (ms : List Move) :
    ∃ q, ((w.inquire request timeout).after ms).inquiries[w.inquiries.length]? = some q ∧
      Snapshot w.service request deadline ((w.inquire request timeout).after ms).service q := by
  have vouched' := vouched.inquire free computable request
  have asked := inquire_eq computable request
  refine after_snapshot (q := ⟨request, (w.service.startAggregation deadline).1, false⟩)
    vouched' ?_ ?_ ms
  · rw [asked]
    exact List.getElem?_concat_length
  · rw [asked]
    exact startAggregation_snapshot vouched.enlisted request deadline

/-- **A check is moves**, and its report is that of the aggregation it starts. -/
theorem check_moves (vouched : ResultsVouched w) (free : w.turn = none)
    (computable : deadline? w.service.now timeout = some deadline)
    (request : Option Probe.Request) :
    ∃ ns q, ((w.inquire request timeout).after ns).service = (w.service.check timeout).2 ∧
      ((w.inquire request timeout).after ns).inquiries[w.inquiries.length]? = some q ∧
      q.aggregation.isDone = true ∧ (w.service.check timeout).1 = .ok q.aggregation.report := by
  have asked := inquire_eq computable request
  have scheduled := (vouched.inquire free computable request).scheduled
  have still : (w.inquire request timeout).turn = none := by rw [asked]; exact free
  rw [still, asked] at scheduled
  obtain ⟨ns, -, led⟩ := aggregating_led request w.inquiries
    [(w.service.startAggregation deadline).1]
    (w.inquire request timeout) still (by rw [asked]; rfl)
  have isOver := aggregating_done [(w.service.startAggregation deadline).1] scheduled
  have alone := congrArg List.length
    (aggregating_flags [(w.service.startAggregation deadline).1] scheduled)
  have checked : w.service.check timeout =
      (.ok ((await aggregating [(w.service.startAggregation deadline).1]
          (w.service.startAggregation deadline).2).1.headD
        (w.service.startAggregation deadline).1).report,
        (await aggregating [(w.service.startAggregation deadline).1]
          (w.service.startAggregation deadline).2).2) := by
    unfold check
    rw [computable]
  have service : (w.inquire request timeout).service = (w.service.startAggregation deadline).2 := by
    rw [asked]
  rw [service] at led
  rw [List.length_map, List.length_map] at alone
  generalize await aggregating [(w.service.startAggregation deadline).1]
    (w.service.startAggregation deadline).2 = last at led isOver alone checked
  obtain ⟨a, single⟩ := List.length_eq_one_iff.mp alone
  rw [single] at led isOver checked
  refine ⟨ns, ⟨request, a, false⟩, ?_, ?_, isOver a List.mem_cons_self, ?_⟩
  · rw [led, checked]
  · rw [led]
    exact List.getElem?_concat_length
  · rw [checked]
    rfl

end Reports

/-- **Every report is a snapshot.** Whatever is done after it was asked for, by checkers or by
others, and in whatever order the checkers are asked, it has the time, the flags and the names of
that moment, and each entry stems from the checker that was registered under its name then; the
report of a check is such a report. What is done meanwhile is found by whoever asks next: the flags
as they were written last, and under each name the checker that was registered last. -/
theorem report_is_snapshot (setup : Setup) (clock : Time.Stamp) (before : List Move)
    (request : Option Probe.Request) (timeout : Nat) {deadline : Nat}
    (free : ((new setup clock).after before).turn = none)
    (computable : deadline? ((new setup clock).after before).service.now timeout = some deadline)
    (ms : List Move) :
    let w := (new setup clock).after before
    let v := w.inquire request timeout
    let u := v.after ms
    let flags := (v.history ms).foldl wrote w.service.flags
    let registered := fun name => (v.history ms).foldl (enlists name) (w.service.registered? name)
    (∃ q, u.inquiries[w.inquiries.length]? = some q ∧
      q.aggregation.report.time = w.service.clock ∧
      q.aggregation.report.flags = w.service.flags ∧
      q.aggregation.report.checks.keys = w.service.checkerNames ∧
      (∀ name x, q.aggregation.report.checks.get? name = some x ↔
        ∃ e ∈ q.aggregation.entries, e.name = name ∧
          x = Health.CheckResult.ofOutcome name (e.outcome.getD (.failed .timedOut))) ∧
      ∀ e ∈ q.aggregation.entries, ∃ n c, w.service.roster.get? e.name = some n ∧
        w.service.registered? e.name = some c ∧ Stems u.service deadline n c e) ∧
    (∃ ns q, (v.after ns).service = (w.service.check timeout).2 ∧
      (v.after ns).inquiries[w.inquiries.length]? = some q ∧ q.aggregation.isDone = true ∧
      (w.service.check timeout).1 = .ok q.aggregation.report) ∧
    u.service.flags = flags ∧ (∀ name, u.service.registered? name = registered name) ∧
    ∀ request' timeout' deadline', u.turn = none →
      deadline? u.service.now timeout' = some deadline' → ∀ ms',
      let z := (u.inquire request' timeout').after ms'
      ∃ q, z.inquiries[u.inquiries.length]? = some q ∧
        q.aggregation.report.time = u.service.clock ∧ q.aggregation.report.flags = flags ∧
        (∀ name, name ∈ q.aggregation.report.checks.keys ↔ ∃ c, registered name = some c) ∧
        ∀ e ∈ q.aggregation.entries, ∃ n c, u.service.roster.get? e.name = some n ∧
          registered e.name = some c ∧ Stems z.service deadline' n c e := by
  intro w v u flags registered
  have vouched : ResultsVouched w := after_resultsVouched setup clock before
  have asked : v = _ := inquire_eq computable request
  have vouched' : ResultsVouched v := vouched.inquire free computable request
  obtain ⟨q, hq, snapshot⟩ := inquire_snapshot vouched free computable request ms
  obtain ⟨time, flagged, keys, found⟩ := snapshot.report
  have frame : JobsOnly w.service v.service := by
    rw [asked]
    exact .startAggregation w.service deadline
  have wrotes : u.service.flags = flags := by
    refine (after_flags v ms).trans ?_
    rw [frame.flags]
  have enlisted : ∀ name, u.service.registered? name = registered name := by
    intro name
    refine (after_registered v ms vouched'.enlisted name).trans ?_
    have same : v.service.registered? name = w.service.registered? name := by
      unfold Service.registered? enrolled?
      rw [frame.roster, frame.checkers]
    rw [same]
  refine ⟨⟨q, hq, time, flagged, keys, found, snapshot.entries⟩,
    check_moves vouched free computable request, wrotes, enlisted, ?_⟩
  intro request' timeout' deadline' free' computable' ms' z
  have vouched'' : ResultsVouched u := vouched'.after ms
  obtain ⟨q', hq', snapshot'⟩ := inquire_snapshot vouched'' free' computable' request' ms'
  obtain ⟨time', flagged', keys', -⟩ := snapshot'.report
  refine ⟨q', hq', time', flagged'.trans wrotes, fun name => ?_, fun e mem => ?_⟩
  · rw [keys', ← enlisted name]
    exact vouched''.enlisted.mem_names
  · rw [← enlisted e.name]
    exact snapshot'.entries e mem

/-- A checker that withdraws readiness and puts one that fails in its own place: the report shows
neither, the next one both. -/
theorem cache_replaces_itself :
    let replacement : Health.Checker := ⟨"cache", false, none, [], [.returns (.failed .timedOut)]⟩
    let cache : Health.Checker :=
      ⟨"cache", false, none, [.setReady false, .register replacement], [.returns .passed]⟩
    let w := (new ⟨1000, 100, true, ⟨"api", "test", ⟨none, none⟩⟩, .ascending⟩ ⟨0, 0⟩).after
      [.act (.setReady true), .act (.register cache)]
    let u := (w.inquire none 50).after [.begin, .go, .go, .go, .go, .look 0]
    ∃ q, u.inquiries[w.inquiries.length]? = some q ∧
      q.aggregation.report.flags = ⟨true, false⟩ ∧
      q.aggregation.report.checks.keys = ["cache"] ∧
      q.aggregation.report.checks.get? "cache" = some ⟨"cache", true, none⟩ ∧
      u.service.flags = ⟨false, false⟩ ∧ u.service.registered? "cache" = some replacement := by
  obtain ⟨⟨q, hq, -, flags, keys, found, -⟩, -, wrote, registered, -⟩ :=
    report_is_snapshot ⟨1000, 100, true, ⟨"api", "test", ⟨none, none⟩⟩, .ascending⟩ ⟨0, 0⟩
      [.act (.setReady true), .act (.register ⟨"cache", false, none, [.setReady false,
        .register ⟨"cache", false, none, [], [.returns (.failed .timedOut)]⟩],
        [.returns .passed]⟩)] none 50 rfl rfl [.begin, .go, .go, .go, .go, .look 0]
  have entries := congrArg (Option.map (·.aggregation.entries)) hq
  have passed : some q.aggregation.entries = some [⟨"cache", 0, some .passed⟩] :=
    entries.symm.trans (by decide +kernel)
  rw [Option.some.injEq] at passed
  exact ⟨q, hq, flags.trans (by decide +kernel), keys.trans (by decide +kernel),
    (found _ _).mpr ⟨_, passed ▸ List.mem_cons_self, rfl, rfl⟩, wrote.trans (by decide +kernel),
    (registered "cache").trans rfl⟩

end World

end ServiceHealth
