import ServiceHealth.Proofs.Await

/-!
# Aggregations, awaited to their end

Looking at an aggregation takes over results and, at the deadline, gives up the runs that have none.
That changes neither the clock nor the queue, so the other jobs go their own way, and at the latest
at the deadline every checker has its outcome.

* `startRuns_eq`: the runs are the jobs after those there were, and stand at the end of the queue.
* `aggregating_calm`: what a look at aggregations may do.
* `pollEntries_seen`, `pollAggregations_seen`: what a look shows, in whatever order it is taken.
  `pollAggregations_rule`: what a look keeps.
* `aggregating_done`: **every aggregation that is awaited is over in the end**.
* `Aggregation.report_get?`, `Aggregation.report_keys`: a report has one entry per checker.
-/

namespace ServiceHealth.Service

/-! ## 1. The start of an aggregation -/

/-- The job that runs a checker, which is given by name and number. -/
def runJob (s : Service) (deadline : Nat) (x : String × Nat) : Job :=
  match s.checkers[x.2]? with
  | some e => .ofRun x.2 e.checker deadline
  | none => .ofRun x.2 (.content x.1) deadline

theorem runJob_close (s : Service) (deadline : Nat) (x : String × Nat) :
    (s.runJob deadline x).close = .verdict x.2 deadline := by
  unfold runJob
  split <;> rfl

/-- **The runs are new jobs in the order in which they are asked for, at the end of the queue.** -/
theorem startRuns_eq (deadline : Nat) (xs : List (String × Nat)) (s : Service) :
    startRuns deadline xs s =
      ((xs.zipIdx s.jobs.length).map fun p => ⟨p.1.1, p.2, none⟩,
        { s with
          jobs := s.jobs ++ xs.map (s.runJob deadline)
          queue := s.queue ++ List.range' s.jobs.length xs.length }) := by
  induction xs generalizing s with
  | nil => simp [startRuns]
  | cons x xs ih =>
    have jobs : (s.spawn (s.runJob deadline x)).runJob deadline = s.runJob deadline := rfl
    show ((⟨x.1, s.jobs.length, none⟩ : Entry) ::
      (startRuns deadline xs (s.spawn (s.runJob deadline x))).1,
      (startRuns deadline xs (s.spawn (s.runJob deadline x))).2) = _
    rw [ih, jobs]
    simp [spawn, List.range'_succ]

/-- The job at a place is that of the checker asked at this place. -/
theorem startRuns_job {deadline : Nat} {xs : List (String × Nat)} {s : Service} {k : Nat}
    {x : String × Nat} (hx : xs[k]? = some x) :
    (startRuns deadline xs s).2.jobs[s.jobs.length + k]? = some (s.runJob deadline x) := by
  rw [startRuns_eq]
  show (s.jobs ++ xs.map (s.runJob deadline))[s.jobs.length + k]? = _
  rw [List.getElem?_append_right (Nat.le_add_right _ _), Nat.add_sub_cancel_left,
    List.getElem?_map, hx]
  rfl

/-- The entry at a place is that of the checker asked at this place. -/
theorem startRuns_entry {deadline : Nat} {xs : List (String × Nat)} {s : Service} {k : Nat}
    {e : Entry} (he : (startRuns deadline xs s).1[k]? = some e) :
    ∃ x, xs[k]? = some x ∧ e = ⟨x.1, s.jobs.length + k, none⟩ ∧
      (startRuns deadline xs s).2.jobs[e.job]? = some (s.runJob deadline x) := by
  rw [startRuns_eq, List.getElem?_map, List.getElem?_zipIdx, Option.map_map] at he
  obtain ⟨x, hx, rfl⟩ := Option.map_eq_some_iff.mp he
  exact ⟨x, hx, rfl, startRuns_job hx⟩

/-! ## 2. Looks -/

theorem naps_abort (s : Service) (job : JobId) :
    load Job.naps (s.abort job) ≤ load Job.naps s := by
  cases hj : s.jobs[job]? with
  | none =>
    have same : (s.abort job).jobs = s.jobs := by
      unfold abort updateJob
      exact List.modify_eq_self (List.getElem?_eq_none_iff.mp hj)
    exact Nat.le_of_eq (load_congr same _)
  | some j =>
    refine naps_updateJob s hj _ ?_
    split
    · exact Nat.le_refl _
    · exact Nat.add_le_add_left (Nat.zero_le _) _

/-- What looking at a checker leaves alone. -/
theorem pollEntry_frame (deadline : Nat) (e : Entry) (s : Service) :
    (e.poll deadline s).2.queue = s.queue ∧
      load Job.naps (e.poll deadline s).2 ≤ load Job.naps s := by
  unfold Entry.poll
  split
  · exact ⟨rfl, Nat.le_refl _⟩
  · split
    · exact ⟨rfl, Nat.le_refl _⟩
    · split
      · exact ⟨rfl, naps_abort s e.job⟩
      · exact ⟨rfl, Nat.le_refl _⟩

theorem pollEntries_frame (deadline : Nat) (es : List Entry) (s : Service) :
    (pollEntries deadline es s).2.queue = s.queue ∧
      load Job.naps (pollEntries deadline es s).2 ≤ load Job.naps s := by
  induction es generalizing s with
  | nil => exact ⟨rfl, Nat.le_refl _⟩
  | cons e es ih =>
    obtain ⟨queue, naps⟩ := pollEntry_frame deadline e s
    obtain ⟨queue', naps'⟩ := ih (e.poll deadline s).2
    exact ⟨queue'.trans queue, Nat.le_trans naps' naps⟩

/-- **What looking at aggregations leaves alone.** -/
theorem pollAggregations_frame (as : List Aggregation) (s : Service) :
    (pollAggregations as s).2.now = s.now ∧ (pollAggregations as s).2.queue = s.queue ∧
      load Job.naps (pollAggregations as s).2 ≤ load Job.naps s ∧
      (Scheduled none s → Scheduled none (pollAggregations as s).2) ∧
      (pollAggregations as s).1.map (·.deadline) = as.map (·.deadline) := by
  induction as generalizing s with
  | nil => exact ⟨rfl, rfl, Nat.le_refl _, id, rfl⟩
  | cons a as ih =>
    obtain ⟨now, queue, naps, scheduled, deadlines⟩ := ih (a.poll s).2
    obtain ⟨queue', naps'⟩ := pollEntries_frame a.deadline a.entries s
    refine ⟨now.trans (JobsOnly.pollAggregation a s).now, queue.trans queue',
      Nat.le_trans naps naps', fun h => scheduled (pollEntries_scheduled _ _ h), ?_⟩
    exact congrArg (a.deadline :: ·) deadlines

theorem aggregating_calm : aggregating.Calm where
  now as s := (pollAggregations_frame as s).1
  queue as s := (pollAggregations_frame as s).2.1
  naps as s := (pollAggregations_frame as s).2.2.1
  scheduled as s := (pollAggregations_frame as s).2.2.2.1
  moments as s := by
    show List.Sublist ((pollAggregations as s).1.map (·.deadline)) (as.map (·.deadline))
    exact (pollAggregations_frame as s).2.2.2.2 ▸ List.Sublist.refl _

/-- A checker as a look at it shows it. -/
def Entry.seen (deadline : Nat) (s : Service) (e : Entry) : Entry :=
  { e with
    outcome := e.outcome.or
      (match s.result? e.job with
      | some r => some r.asCheck
      | none => if deadline ≤ s.now then some (.failed .timedOut) else none) }

theorem Entry.poll_seen (deadline : Nat) (e : Entry) (s : Service) :
    (e.poll deadline s).1 = e.seen deadline s := by
  obtain ⟨name, job, outcome⟩ := e
  unfold Entry.poll Entry.seen
  cases outcome with
  | some o => rfl
  | none =>
    dsimp only
    cases s.result? job with
    | some r => rfl
    | none =>
      dsimp only
      split <;> rfl

/-- What a look shows depends on the time and the results alone. -/
theorem Entry.seen_congr {s s' : Service} (now : s'.now = s.now)
    (results : ∀ i, s'.result? i = s.result? i) (deadline : Nat) :
    Entry.seen deadline s' = Entry.seen deadline s := by
  funext e
  unfold Entry.seen
  rw [now, results]

/-- Looking at checkers gives no results. -/
theorem pollEntries_result? (deadline : Nat) (es : List Entry) (s : Service) (i : JobId) :
    (pollEntries deadline es s).2.result? i = s.result? i :=
  World.pollEntries_rule (P := fun s' => s'.result? i = s.result? i) _ es
    (fun s' e _ k => (result?_abort s' e.job i).trans k) rfl

/-- Looking at a checker does not change what a look at another shows. -/
theorem Entry.seen_poll (deadline : Nat) (e : Entry) (s : Service) :
    Entry.seen deadline (e.poll deadline s).2 = Entry.seen deadline s :=
  Entry.seen_congr (JobsOnly.pollEntry deadline e s).now (pollEntries_result? deadline [e] s)
    deadline

/-- **What a look at checkers shows.** -/
theorem pollEntries_seen (deadline : Nat) (es : List Entry) (s : Service) :
    (pollEntries deadline es s).1 = es.map (·.seen deadline s) := by
  induction es generalizing s with
  | nil => rfl
  | cons e es ih => simp only [pollEntries, List.map_cons, Entry.poll_seen, ih, Entry.seen_poll]

/-- Before the deadline a look changes nothing. -/
theorem pollEntries_early {deadline : Nat} (es : List Entry) {s : Service}
    (early : s.now < deadline) : (pollEntries deadline es s).2 = s := by
  induction es with
  | nil => rfl
  | cons e es ih =>
    have here : (e.poll deadline s).2 = s := by
      unfold Entry.poll
      split
      · rfl
      · split
        · rfl
        · rw [if_neg (Nat.not_le.mpr early)]
    show (pollEntries deadline es (e.poll deadline s).2).2 = s
    rw [here]
    exact ih

/-- **What giving up a job keeps, a look at aggregations keeps.** -/
theorem pollAggregations_rule {P : Service → Prop} (abort : ∀ s job, P s → P (s.abort job))
    (as : List Aggregation) {s : Service} (h : P s) : P (pollAggregations as s).2 := by
  induction as generalizing s with
  | nil => exact h
  | cons a as ih =>
    exact ih (World.pollEntries_rule a.deadline a.entries (fun s e _ => abort s e.job) h)

theorem pollAggregations_result? (as : List Aggregation) (s : Service) (i : JobId) :
    (pollAggregations as s).2.result? i = s.result? i :=
  pollAggregations_rule (P := fun s' => s'.result? i = s.result? i)
    (fun s' job k => (result?_abort s' job i).trans k) as rfl

/-- **What a look at aggregations shows**: a look at one does not change what the next shows. -/
theorem pollAggregations_seen (as : List Aggregation) (s : Service) :
    (pollAggregations as s).1 =
      as.map fun a => { a with entries := a.entries.map (·.seen a.deadline s) } := by
  induction as generalizing s with
  | nil => rfl
  | cons a as ih =>
    have same : ∀ deadline, Entry.seen deadline (a.poll s).2 = Entry.seen deadline s :=
      Entry.seen_congr (JobsOnly.pollAggregation a s).now
        (pollEntries_result? a.deadline a.entries s)
    have here : (a.poll s).1 = { a with entries := a.entries.map (·.seen a.deadline s) } := by
      rw [← pollEntries_seen]
      rfl
    simp only [pollAggregations, List.map_cons, here, ih, same]

theorem pollAggregations_early {as : List Aggregation} {s : Service}
    (early : ∀ a ∈ as, s.now < a.deadline) : (pollAggregations as s).2 = s := by
  induction as with
  | nil => rfl
  | cons a as ih =>
    have here : (a.poll s).2 = s := pollEntries_early a.entries (early a List.mem_cons_self)
    show (pollAggregations as (a.poll s).2).2 = s
    rw [here]
    exact ih fun a' ha' => early a' (List.mem_cons_of_mem _ ha')

/-! ## 3. The end of an aggregation -/

/-- Once looked at, aggregations wait only for results before their deadlines. -/
def Awaited (as : List Aggregation) (s : Service) : Prop :=
  ∀ a ∈ as, ∀ e ∈ a.entries, e.outcome = none → s.now < a.deadline

theorem pollEntries_awaited (deadline : Nat) (es : List Entry) (s : Service) :
    ∀ e ∈ (pollEntries deadline es s).1, e.outcome = none → s.now < deadline := by
  induction es generalizing s with
  | nil => nofun
  | cons e es ih =>
    intro e' mem unset
    rcases List.mem_cons.mp mem with rfl | mem
    · revert unset
      show (e.poll deadline s).1.outcome = none → _
      unfold Entry.poll
      split
      · rename_i o ho
        intro k
        rw [ho] at k
        cases k
      · split
        · nofun
        · split
          · nofun
          · rename_i early
            exact fun _ => Nat.lt_of_not_le early
    · rw [← (JobsOnly.pollEntry deadline e s).now]
      exact ih (e.poll deadline s).2 e' mem unset

theorem pollAggregations_awaited (as : List Aggregation) (s : Service) :
    Awaited (pollAggregations as s).1 s := by
  induction as generalizing s with
  | nil => nofun
  | cons a as ih =>
    intro a' mem
    rcases List.mem_cons.mp mem with rfl | mem
    · exact pollEntries_awaited a.deadline a.entries s
    · rw [← (JobsOnly.pollAggregation a s).now]
      exact ih (a.poll s).2 a' mem

theorem pollAggregations_flags (as : List Aggregation) (s : Service) :
    (pollAggregations as s).1.map (·.flags) = as.map (·.flags) := by
  induction as generalizing s with
  | nil => rfl
  | cons a as ih => exact congrArg (a.flags :: ·) (ih (a.poll s).2)

/-- **A report has the flags of the moment at which it was asked for.** -/
theorem aggregating_flags (as : List Aggregation) {s : Service} (scheduled : Scheduled none s) :
    (await aggregating as s).1.map (·.flags) = as.map (·.flags) :=
  (await_rule aggregating_calm (P := fun as' _ => as'.map (·.flags) = as.map (·.flags))
    (Q := fun as' _ => as'.map (·.flags) = as.map (·.flags))
    (fun as' s' _ h => (pollAggregations_flags as' s').trans h) (fun _ _ _ h _ => h)
    (fun _ _ _ _ h _ _ _ => h) as s scheduled rfl).1

/-- **Every aggregation that is awaited is over in the end.** -/
theorem aggregating_done (as : List Aggregation) {s : Service} (scheduled : Scheduled none s) :
    ∀ a ∈ (await aggregating as s).1, a.isDone = true := by
  obtain ⟨awaited, -, done⟩ := await_rule aggregating_calm (P := fun _ _ => True)
    (Q := Awaited)
    (fun as s _ _ => by
      unfold Awaited
      rw [aggregating_calm.now]
      exact pollAggregations_awaited as s)
    (fun _ _ _ _ _ => trivial) (fun _ _ _ _ _ _ _ _ => trivial) as s scheduled trivial
  generalize await aggregating as s = last at *
  rcases done with done | ⟨-, never⟩
  · exact List.all_eq_true.mp done
  · intro a ha
    refine List.all_eq_true.mpr fun e he => ?_
    cases ho : e.outcome with
    | some o => rfl
    | none =>
      have early := awaited a ha e he ho
      have late : a.deadline ≤ last.2.now :=
        nextMoment?_eq_none never (.inr (List.mem_map_of_mem ha))
      omega

/-! ## 4. Reports -/

section Reports

variable {a : Aggregation}

theorem Aggregation.result_names (a : Aggregation) :
    (a.results.map fun r => (r.name, r)).map (·.1) = a.entries.map (·.name) := by
  unfold Aggregation.results
  rw [List.map_map, List.map_map]
  exact List.map_congr_left fun e _ => Health.CheckResult.name_ofOutcome _ _

/-- **A report has the names of the checkers**, in ascending order. -/
theorem Aggregation.report_keys {names : List String} (perm : (a.entries.map (·.name)).Perm names)
    (ascending : names.Pairwise Text.Before) : a.report.checks.keys = names :=
  Keyed.keys_ofList (a.result_names.symm ▸ perm) ascending

/-- **A report has under a name the outcome of the checker with that name.** -/
theorem Aggregation.report_get? (nodup : (a.entries.map (·.name)).Nodup) {name : String}
    {x : Health.CheckResult} : a.report.checks.get? name = some x ↔
      ∃ e ∈ a.entries, e.name = name ∧
        x = .ofOutcome name (e.outcome.getD (.failed .timedOut)) := by
  rw [← a.result_names] at nodup
  refine (Keyed.get?_ofList nodup).trans ?_
  unfold Aggregation.results
  rw [List.map_map, List.mem_map]
  constructor
  · rintro ⟨e, he, eq⟩
    rw [Function.comp, Prod.mk.injEq] at eq
    obtain ⟨here, rfl⟩ := eq
    rw [Health.CheckResult.name_ofOutcome] at here
    exact ⟨e, he, here, by rw [here]⟩
  · rintro ⟨e, he, rfl, rfl⟩
    exact ⟨e, he, by rw [Function.comp, Health.CheckResult.name_ofOutcome]⟩

end Reports

end ServiceHealth.Service
