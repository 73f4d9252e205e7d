import ServiceHealth.Proofs.Driver
import ServiceHealth.Proofs.Harmless
import ServiceHealth.Proofs.Verdicts

/-!
# Checks that go on at the same time

Several checks that are asked for together are several rows of runs against one deadline, one row
for each check, and each row asks every checker once, in any order. The runs of one checker differ
in nothing but their number. So where that number does not matter, all rows come out alike, whoever
else is running meanwhile and whatever became of the runs before: no outcome is kept for a later
check.

* `Checker.Constant`: all runs of a checker end in the same way. `Checker.verdict`, `reportAt`: what
  a check then reports, by nothing but the checkers and the moment.
* `rounds`, `rollCalls`, `startAggregations_eq`: several aggregations are the rounds of one row of
  runs, each in an order of its own.
* `checkMany_reports`: all reports are the one that a single check gives, after the same time.
* `Standing`, `checkMany_runs`: every checker has been run once for each of the checks.
* `checks_do_not_disturb_each_other`: **checks that go on at the same time disturb neither one
  another nor later ones**.
-/

namespace ServiceHealth

/-! ## 1. Checkers whose runs all end alike -/

namespace Health.Checker

/-- All runs of a checker end in the same way. -/
def Constant (c : Checker) : Prop := ∀ run, c.ending run = c.ending 0

theorem Constant.course {c : Checker} (h : c.Constant) (run deadline now : Nat) :
    c.course run deadline now = c.course 0 deadline now := by
  unfold Checker.course gives?
  rw [h run]

/-- The result of a checker under a name that is asked at a moment, if all its runs end alike. -/
def verdict (c : Checker) (name : String) (now deadline : Nat) : CheckResult :=
  .ofOutcome name (Service.outcomeBy deadline (c.course 0 deadline now))

end Health.Checker

namespace Service

/-- The report of the registered checkers if they are asked at a moment. Neither earlier runs nor
anybody's jobs have a part in it. -/
def reportAt (s : Service) (now deadline : Nat) : Health.Report :=
  .ofResults s.clock s.flags
    (s.roster.entries.map fun x => (s.checkerOf x).verdict x.1 now deadline)

/-- When and with what a run of a checker ends whose runs all end alike. -/
def constantCourse (s : Service) (deadline : Nat) (x : String × Nat) :
    Option (Nat × Health.Outcome) :=
  (s.checkerOf x).course 0 deadline s.now

/-- All registered checkers are such that all their runs end alike. -/
def AllConstant (s : Service) : Prop := ∀ name c, s.registered? name = some c → c.Constant

/-- The order in which the checkers are asked does not show in the report. -/
theorem reportAt_perm {s : Service} {order : List (String × Nat)}
    (perm : order.Perm s.roster.entries) (deadline : Nat) :
    Health.Report.ofResults s.clock s.flags
      (order.map fun x => (s.checkerOf x).verdict x.1 s.now deadline) =
      s.reportAt s.now deadline := by
  have names : ((s.roster.entries.map fun x => (s.checkerOf x).verdict x.1 s.now deadline).map
      fun r => (r.name, r)).map (·.1) = s.roster.keys := by
    rw [List.map_map, List.map_map]
    exact List.map_congr_left fun x _ => Health.CheckResult.name_ofOutcome _ _
  refine congrArg (Health.Report.mk s.clock s.flags) (Keyed.ofList_perm ((perm.map _).map _) ?_)
  rw [(((perm.map _).map _).map _).nodup_iff, names]
  exact s.roster.keys_nodup

theorem Unmoved.reportAt {s s' : Service} (h : Unmoved s s') (now deadline : Nat) :
    s'.reportAt now deadline = s.reportAt now deadline := by
  have checkerOf : s'.checkerOf = s.checkerOf := by
    funext x
    unfold Service.checkerOf
    rw [← List.getElem?_map, ← List.getElem?_map, h.checkers]
  unfold Service.reportAt
  rw [h.clock, h.flags, h.roster, checkerOf]

theorem Unmoved.allConstant {s s' : Service} (h : Unmoved s s') (constant : s.AllConstant) :
    s'.AllConstant := by
  intro name c hc
  rw [h.registered] at hc
  exact constant name c hc

section Constant

variable {s : Service} {x : String × Nat}

theorem Askable.constant (h : Askable s) (constant : s.AllConstant) (hx : x ∈ s.roster.entries) :
    (s.checkerOf x).Constant := by
  obtain ⟨e, he, -⟩ := h.known x hx
  refine constant x.1 _ ?_
  unfold registered? enrolled?
  rw [Keyed.get?_eq_some.mpr hx, Option.bind_some, he, checkerOf_of he]
  rfl

theorem Askable.runCourse_eq (h : Askable s) (constant : s.AllConstant)
    (hx : x ∈ s.roster.entries) (deadline : Nat) :
    s.runCourse deadline x = s.constantCourse deadline x :=
  (h.constant constant hx).course _ _ _

end Constant

/-! ## 2. Rounds -/

section Rounds

variable {α : Type} {xss : List (List α)} {start : Nat}

/-- Rounds of elements, numbered through from a number. -/
def rounds : List (List α) → Nat → List (List (α × Nat))
  | [], _ => []
  | xs :: xss, start => xs.zipIdx start :: rounds xss (start + xs.length)

theorem rounds_length : (rounds xss start).length = xss.length := by
  induction xss generalizing start with
  | nil => rfl
  | cons xs xss ih => rw [rounds, List.length_cons, ih, List.length_cons]

/-- Without their numbers the rounds are what they were. -/
theorem mem_rounds {ps : List (α × Nat)} (h : ps ∈ rounds xss start) : ps.map (·.1) ∈ xss := by
  induction xss generalizing start with
  | nil => cases h
  | cons xs xss ih =>
    rcases List.mem_cons.mp h with rfl | h
    · rw [List.zipIdx_map_fst]
      exact List.mem_cons_self
    · exact List.mem_cons_of_mem _ (ih h)

/-- **All rounds are one row**, numbered through. -/
theorem rounds_flatten : (rounds xss start).flatten = xss.flatten.zipIdx start := by
  induction xss generalizing start with
  | nil => rfl
  | cons xs xss ih =>
    rw [rounds, List.flatten_cons, ih, List.flatten_cons, List.zipIdx_append]

end Rounds

/-- The orders in which aggregations that are started one after the other ask the checkers, from
the one on that is started with so many jobs there. -/
def rollCalls (s : Service) : JobId → Nat → List (List (String × Nat))
  | _, 0 => []
  | start, count + 1 => s.setup.iteration.order start s.roster.entries ::
      rollCalls s (start + s.roster.entries.length) count

section RollCalls

variable {s : Service} {start count : Nat}

theorem rollCalls_length : (s.rollCalls start count).length = count := by
  induction count generalizing start with
  | zero => rfl
  | succ count ih => rw [rollCalls, List.length_cons, ih]

/-- Each of them asks every registered checker once. -/
theorem mem_rollCalls {order : List (String × Nat)} (h : order ∈ s.rollCalls start count) :
    order.Perm s.roster.entries := by
  induction count generalizing start with
  | zero => cases h
  | succ count ih =>
    rcases List.mem_cons.mp h with rfl | h
    · exact s.setup.iteration.perm _ _
    · exact ih h

theorem rollCalls_congr {s' : Service} (setup : s'.setup = s.setup)
    (roster : s'.roster = s.roster) : s'.rollCalls start count = s.rollCalls start count := by
  induction count generalizing start with
  | zero => rfl
  | succ count ih => rw [rollCalls, rollCalls, setup, roster, ih]

end RollCalls

/-- Runs that are asked for one after the other are asked for in one row. -/
theorem startRuns_append (deadline : Nat) (xs ys : List (String × Nat)) (s : Service) :
    (startRuns deadline ys (startRuns deadline xs s).2).2 =
      (startRuns deadline (xs ++ ys) s).2 := by
  induction xs generalizing s with
  | nil => rfl
  | cons x xs ih => exact ih _

/-- **Several aggregations are the rounds of one row of runs.** -/
theorem startAggregations_eq (deadline count : Nat) (s : Service) :
    startAggregations deadline count s =
      ((rounds (s.rollCalls s.jobs.length count) s.jobs.length).map fun ps =>
          ⟨s.clock, s.flags, deadline, ps.map fun p => ⟨p.1.1, p.2, none⟩⟩,
        (startRuns deadline (s.rollCalls s.jobs.length count).flatten s).2) := by
  induction count generalizing s with
  | zero => rfl
  | succ count ih =>
    have started := startRuns_eq deadline s.rollCall s
    have next := ih (startRuns deadline s.rollCall s).2
    have same : (startRuns deadline s.rollCall s).2.setup = s.setup ∧
        (startRuns deadline s.rollCall s).2.roster = s.roster ∧
        (startRuns deadline s.rollCall s).2.clock = s.clock ∧
        (startRuns deadline s.rollCall s).2.flags = s.flags := by
      rw [started]
      exact ⟨rfl, rfl, rfl, rfl⟩
    obtain ⟨setup, roster, clock, flags⟩ := same
    have length := s.rollCall_perm.length_eq
    have jobs : (startRuns deadline s.rollCall s).2.jobs.length =
        s.jobs.length + s.roster.entries.length := by
      rw [started, List.length_append, List.length_map, length]
    rw [rollCalls_congr setup roster, clock, flags, jobs, startRuns_append] at next
    unfold startAggregations startAggregation
    dsimp only
    rw [next, congrArg Prod.fst started, rollCalls, rounds, List.map_cons, List.flatten_cons]
    show _ = (_ :: List.map _ (rounds _ (s.jobs.length + s.rollCall.length)), _)
    rw [length]
    rfl

/-! ## 3. Reports -/

section Reports

variable {s : Service} {timeout deadline : Nat}

/-- The row of runs that several checks ask for. -/
def row (s : Service) (count : Nat) : List (String × Nat) :=
  (s.rollCalls s.jobs.length count).flatten

/-- The row has nothing but registered checkers. -/
theorem mem_row {count : Nat} {x : String × Nat} (h : x ∈ s.row count) : x ∈ s.roster.entries := by
  obtain ⟨order, called, hx⟩ := List.mem_flatten.mp h
  exact (mem_rollCalls called).mem_iff.mp hx

/-- Every registered checker is in the row, if there is a check at all. -/
theorem mem_row_succ {count : Nat} {x : String × Nat} (h : x ∈ s.roster.entries) :
    x ∈ s.row (count + 1) :=
  List.mem_flatten.mpr ⟨s.rollCall, List.mem_cons_self, s.rollCall_perm.mem_iff.mpr h⟩

theorem Askable.known_row (h : Askable s) (count : Nat) :
    ∀ x ∈ s.row count, ∃ e, s.checkers[x.2]? = some e := fun x mem =>
  (h.known x (mem_row mem)).imp fun _ k => k.1

/-- The run at a place of the row. -/
def rowRun (s : Service) (deadline count : Nat) (p : (String × Nat) × JobId) : AskedRun :=
  s.placedRun (startRuns deadline (s.row count) s).2 p

/-- The runs of the row, one list for each check. -/
def rowRuns (s : Service) (deadline count : Nat) : List (List AskedRun) :=
  (rounds (s.rollCalls s.jobs.length count) s.jobs.length).map
    (List.map (s.rowRun deadline count))

/-- The place of a run in the line of its checker does not matter. -/
theorem Askable.rowRun_course (h : Askable s) (constant : s.AllConstant) (count : Nat)
    {p : (String × Nat) × JobId} (mem : p.1 ∈ s.roster.entries) :
    (s.rowRun deadline count p).course ⟨s.now, deadline⟩ = s.constantCourse deadline p.1 :=
  (h.constant constant mem).course _ _ _

/-- **The runs of several checks can be followed from their start.** -/
theorem Askable.ahead_row (h : Askable s) (deadline count : Nat) :
    Ahead ⟨s.now, deadline⟩ (s.rowRuns deadline count) ⟨s.clock, s.flags, deadline, []⟩
      (startAggregations deadline count s).1 (startAggregations deadline count s).2 := by
  rw [startAggregations_eq]
  exact h.ahead (s.rowRun deadline count) (fun _ hp => h.placed (h.known_row count) hp)
    (fun _ => ⟨rfl, rfl⟩) _ rounds_flatten _

/-- All runs of several checks are over when the courses of the checkers are. -/
theorem Askable.allOver_row (h : Askable s) (constant : s.AllConstant) (count b : Nat) :
    AllOver ⟨s.now, deadline⟩ (s.rowRuns deadline count).flatten b ↔
      ∀ x ∈ s.row count, IsOver deadline (s.constantCourse deadline x) b := by
  have flat : (s.rowRuns deadline count).flatten =
      ((s.row count).zipIdx s.jobs.length).map (s.rowRun deadline count) := by
    unfold rowRuns
    rw [← List.map_flatten, rounds_flatten]
    rfl
  have firsts := List.zipIdx_map_fst s.jobs.length (s.row count)
  unfold AllOver
  rw [flat, List.forall_mem_map, ← firsts, List.forall_mem_map, firsts]
  refine forall₂_congr fun p hp => ?_
  have mem : p.1 ∈ s.row count := firsts ▸ List.mem_map_of_mem hp
  rw [h.rowRun_course constant count (mem_row mem)]

/-- **The report of each check is that of the checkers as they are.** -/
theorem Askable.round_report (h : Askable s) (constant : s.AllConstant) (count : Nat)
    {rs : List AskedRun} (hrs : rs ∈ s.rowRuns deadline count) {a : Aggregation}
    (gathers : Gathers ⟨s.clock, s.flags, deadline, []⟩ (Judged ⟨s.now, deadline⟩) rs a) :
    a.report = s.reportAt s.now deadline := by
  obtain ⟨ps, hps, rfl⟩ := List.mem_map.mp hrs
  have called := mem_rollCalls (mem_rounds hps)
  have results : (ps.map (s.rowRun deadline count)).map (fun ρ =>
      Health.CheckResult.ofOutcome ρ.name (outcomeBy deadline (ρ.course ⟨s.now, deadline⟩))) =
      (ps.map (·.1)).map fun x => (s.checkerOf x).verdict x.1 s.now deadline := by
    rw [List.map_map, List.map_map]
    refine List.map_congr_left fun p hp => ?_
    have mem : p.1 ∈ s.roster.entries := called.mem_iff.mp (List.mem_map_of_mem hp)
    exact congrArg (fun c => Health.CheckResult.ofOutcome p.1.1 (outcomeBy deadline c))
      (h.rowRun_course constant count mem)
  exact gathers.report.trans ((congrArg _ results).trans (reportAt_perm called deadline))

/-- **All reports are those of the checkers as they are**, and the waiting is over when all runs
are. -/
theorem checkMany_reports (h : Askable s) (constant : s.AllConstant)
    (computable : deadline? s.now timeout = some deadline) (count : Nat) :
    (s.checkMany count timeout).1 = .ok (List.replicate count (s.reportAt s.now deadline)) ∧
      (∀ x ∈ s.row count, IsOver deadline (s.constantCourse deadline x)
        (s.checkMany count timeout).2.now) ∧
      Hasty s.now (fun b => ∀ x ∈ s.row count, IsOver deadline (s.constantCourse deadline x) b)
        (s.checkMany count timeout).2.now := by
  have allOver : ∀ b, AllOver ⟨s.now, deadline⟩ (s.rowRuns deadline count).flatten b ↔ _ :=
    h.allOver_row constant count
  obtain ⟨judged, isOver, hasty⟩ := await_followed rfl (h.ahead_row deadline count)
  unfold checkMany
  rw [computable]
  dsimp only
  generalize await aggregating _ _ = last at judged isOver hasty ⊢
  refine ⟨congrArg _ (List.eq_replicate_iff.mpr ⟨?_, fun r hr => ?_⟩), (allOver _).mp isOver,
    hasty.started, fun b le k => hasty.soon b le ((allOver b).mpr k)⟩
  · have length := judged.length_eq
    unfold rowRuns at length
    rw [List.length_map, rounds_length, rollCalls_length] at length
    rw [List.length_map, ← length]
  · obtain ⟨a, ha, rfl⟩ := List.mem_map.mp hr
    obtain ⟨rs, hrs, gathers⟩ := exists_partner judged ha
    exact h.round_report constant count hrs gathers

/-- The report of a single check, and when it is over. -/
theorem check_report (h : Askable s) (constant : s.AllConstant)
    (computable : deadline? s.now timeout = some deadline) :
    (s.check timeout).1 = .ok (s.reportAt s.now deadline) ∧
      (∀ x ∈ s.roster.entries, IsOver deadline (s.constantCourse deadline x)
        (s.check timeout).2.now) ∧
      Hasty s.now (fun b => ∀ x ∈ s.roster.entries, IsOver deadline (s.constantCourse deadline x) b)
        (s.check timeout).2.now := by
  have course := fun x mem => h.runCourse_eq (x := x) constant mem deadline
  have isOver : ∀ b, (∀ x ∈ s.roster.entries, IsOver deadline (s.runCourse deadline x) b) ↔
      ∀ x ∈ s.roster.entries, IsOver deadline (s.constantCourse deadline x) b := fun b =>
    forall₂_congr fun x mem => by rw [course x mem]
  have verdicts : s.verdicts deadline s.roster.entries =
      s.roster.entries.map fun x => (s.checkerOf x).verdict x.1 s.now deadline :=
    List.map_congr_left fun x mem => congrArg (fun c => Health.CheckResult.ofOutcome x.1
      (outcomeBy deadline c)) (course x mem)
  obtain ⟨report, ended, hasty⟩ := h.checkIn_registered s.rollCall_perm computable
  rw [verdicts] at report
  exact ⟨report, (isOver _).mp ended, hasty.started,
    fun b le k => hasty.soon b le ((isOver b).mpr k)⟩

/-- What takes no longer than it must takes as long as anything else that does. -/
theorem Hasty.unique {start a b : Nat} {gone gone' : Nat → Prop} (same : ∀ m, gone m ↔ gone' m)
    (h : Hasty start gone a) (isOver : gone a) (k : Hasty start gone' b) (isOver' : gone' b) :
    a = b :=
  Nat.le_antisymm (h.soon b k.started ((same b).mpr isOver'))
    (k.soon a h.started ((same a).mp isOver))

/-- **Several checks at once take as long as a single one.** -/
theorem checkMany_now (h : Askable s) (constant : s.AllConstant)
    (computable : deadline? s.now timeout = some deadline) (count : Nat) :
    (s.checkMany (count + 1) timeout).2.now = (s.check timeout).2.now := by
  obtain ⟨-, isOver, hasty⟩ := checkMany_reports h constant computable (count + 1)
  obtain ⟨-, isOver', hasty'⟩ := check_report h constant computable
  exact hasty.unique
    (fun b => ⟨fun k x mem => k x (mem_row_succ mem), fun k x mem => k x (mem_row mem)⟩)
    isOver hasty' isOver'

end Reports

/-! ## 4. Runs -/

section Runs

variable {s : Service} {n : Nat} {L : List JobId} {as : List Aggregation}

/-- Somebody has neither an outcome nor a result yet. -/
def Unheard (as : List Aggregation) (s : Service) : Prop :=
  ∃ a ∈ as, ∃ e ∈ a.entries, e.outcome = none ∧ s.result? e.job = none

/-- What is known of the runs of a checker while aggregations are awaited: which ones will have
begun does not change, and either all of them have, or nobody has been heard yet. -/
structure Standing (n : Nat) (L : List JobId) (as : List Aggregation) (s : Service) : Prop where
  lined : Lined none s
  known : n < s.checkers.length
  line : line none s n = L
  begun : s.runsOf n = L ∨ (∀ a ∈ as, s.now < a.deadline) ∧ Unheard as s

/-- Where all runs have begun, giving up jobs takes none of them back. -/
theorem standing_abort (h : Lined none s ∧ s.runsOf n = L ∧ line none s n = L) (job : JobId) :
    Lined none (s.abort job) ∧ (s.abort job).runsOf n = L ∧ line none (s.abort job) n = L := by
  obtain ⟨lined, begun, line⟩ := h
  have runs : (s.abort job).runsOf n = L := begun
  have nobody : s.queue.filter (s.willBegin n) = [] := by
    have whole : s.runsOf n ++ [] ++ s.queue.filter (s.willBegin n) = s.runsOf n :=
      line.trans begun.symm
    rw [List.append_nil] at whole
    exact List.append_right_eq_self.mp whole
  have nobody' : s.queue.filter ((s.abort job).willBegin n) = [] := by
    refine List.filter_eq_nil_iff.mpr fun i hi begins => ?_
    refine List.filter_eq_nil_iff.mp nobody i hi ?_
    cases hj : (s.abort job).jobs[i]? with
    | none =>
      unfold willBegin at begins
      rw [hj] at begins
      cases begins
    | some j =>
      rw [willBegin_of hj] at begins
      rcases abort_getElem? hj with old | ⟨j', -, -, rfl⟩
      · rw [willBegin_of old]
        exact begins
      · cases begins
  refine ⟨lined.abort job, runs, ?_⟩
  show (s.abort job).runsOf n ++ [] ++ s.queue.filter ((s.abort job).willBegin n) = L
  rw [runs, nobody', List.append_nil, List.append_nil]

theorem standing_poll (h : Standing n L as s) :
    Standing n L (aggregating.poll as s).1 (aggregating.poll as s).2 := by
  show Standing n L (pollAggregations as s).1 (pollAggregations as s).2
  obtain ⟨lined, known, line, begun | ⟨early, a, ha, e, he, unset, unknown⟩⟩ := h
  · obtain ⟨⟨lined', begun', line'⟩, known'⟩ := pollAggregations_rule
      (P := fun s' => (Lined none s' ∧ s'.runsOf n = L ∧ Service.line none s' n = L) ∧
        n < s'.checkers.length)
      (fun s' job ⟨k, lt⟩ => ⟨standing_abort k job, lt⟩) as ⟨⟨lined, begun, line⟩, known⟩
    exact ⟨lined', known', line', .inl begun'⟩
  · rw [pollAggregations_early early, pollAggregations_seen]
    refine ⟨lined, known, line, .inr ⟨List.forall_mem_map.mpr early, _, List.mem_map_of_mem ha,
      _, List.mem_map_of_mem he, ?_, unknown⟩⟩
    have late : ¬ a.deadline ≤ s.now := Nat.not_le.mpr (early a ha)
    unfold Entry.seen
    rw [unset, unknown]
    exact if_neg late

theorem standing_settle (scheduled : Scheduled none s) (h : Standing n L as s) :
    Standing n L as s.settle := by
  obtain ⟨lined, grown, same⟩ := settle_line scheduled h.lined
  have line := (same n h.known).trans h.line
  exact ⟨lined, grown.length h.known, line,
    .inl ((line_idle (settle_queue scheduled) n).symm.trans line)⟩

theorem standing_advance (empty : s.queue = []) (h : Standing n L as s) (moment : Nat) :
    Standing n L as (s.advance moment) := by
  obtain ⟨lined, same⟩ := advance_line h.lined moment
  exact ⟨lined, h.known, (same n).trans h.line, .inl ((line_idle empty n).symm.trans h.line)⟩

/-- **When the waiting is over, all runs have begun**, in the order in which they were asked for. -/
theorem await_standing (scheduled : Scheduled none s) (h : Standing n L as s) :
    (await aggregating as s).2.runsOf n = L := by
  have done := aggregating_done as scheduled
  obtain ⟨⟨-, -, -, begun | ⟨-, a, ha, e, he, unset, -⟩⟩, -⟩ := await_rule aggregating_calm
    (P := Standing n L) (Q := Standing n L) (fun _ _ _ k => standing_poll k)
    (fun _ _ scheduled k _ => standing_settle scheduled k)
    (fun _ _ m _ k _ empty _ => standing_advance empty k m) as s scheduled h
  · exact begun
  · have set := List.all_eq_true.mp (done a ha) e he
    rw [unset] at set
    cases set

/-- The jobs that several checks start for a checker. -/
def newRuns (s : Service) (count n : Nat) : List JobId :=
  (((s.row count).zipIdx s.jobs.length).filter (·.1.2 == n)).map (·.2)

/-- **Each of the checks starts one of them.** -/
theorem newRuns_length (h : Askable s) (count : Nat) {name : String}
    (hn : s.roster.get? name = some n) : (s.newRuns count n).length = count := by
  have once : s.roster.entries.countP (·.2 == n) = 1 := by
    rw [List.countP_eq_length_filter,
      filter_key (f := (·.2)) h.distinct (Keyed.get?_eq_some.mp hn)]
    rfl
  have each : (s.rollCalls s.jobs.length count).map (List.countP (·.2 == n)) =
      List.replicate count 1 :=
    List.eq_replicate_iff.mpr ⟨by rw [List.length_map, rollCalls_length],
      List.forall_mem_map.mpr fun order called =>
        ((mem_rollCalls called).countP_eq _).trans once⟩
  have asked : (s.row count).countP (·.2 == n) = count := by
    unfold row
    rw [List.countP_flatten, each, List.sum_replicate_nat, Nat.mul_one]
  unfold newRuns
  rw [List.length_map, ← List.countP_eq_length_filter]
  rw [← List.zipIdx_map_fst s.jobs.length (s.row count), List.countP_map] at asked
  exact asked

theorem le_of_mem_newRuns {count : Nat} {i : JobId} (hi : i ∈ s.newRuns count n) :
    s.jobs.length ≤ i := by
  obtain ⟨⟨x, job⟩, hp, rfl⟩ := List.mem_map.mp hi
  exact (List.mk_mem_zipIdx_iff_le_and_getElem?_sub.mp (List.mem_of_mem_filter hp)).1

section Started

variable {timeout deadline : Nat} {name : String}

/-- When several checks have been started nobody has been heard yet. -/
theorem started_unheard (hn : s.roster.get? name = some n) (count : Nat) :
    Unheard (startAggregations deadline (count + 1) s).1
      (startRuns deadline (s.row (count + 1)) s).2 := by
  obtain ⟨k, hk⟩ :=
    List.getElem?_of_mem (s.rollCall_perm.mem_iff.mpr (Keyed.get?_eq_some.mp hn))
  have asked : ((name, n), s.jobs.length + k) ∈ s.rollCall.zipIdx s.jobs.length :=
    List.mk_add_mem_zipIdx_iff_getElem?.mpr hk
  have first : (s.row (count + 1))[k]? = some (name, n) :=
    (List.getElem?_append_left (List.getElem?_eq_some_iff.mp hk).1).trans hk
  rw [startAggregations_eq]
  refine ⟨_, List.mem_map_of_mem List.mem_cons_self, _, List.mem_map_of_mem asked, rfl, ?_⟩
  refine result?_eq_none.mpr fun j r hj ended => ?_
  rw [startRuns_job first, runJob_eq] at hj
  cases hj
  cases ended

theorem started_standing (h : Askable s) (early : s.now < deadline)
    (hn : s.roster.get? name = some n) (count : Nat) :
    Standing n (line none s n ++ s.newRuns (count + 1) n)
      (startAggregations deadline (count + 1) s).1
      (startRuns deadline (s.row (count + 1)) s).2 := by
  obtain ⟨e, he, -⟩ := h.known _ (Keyed.get?_eq_some.mp hn)
  obtain ⟨lined, lines⟩ := startRuns_line deadline (s.row (count + 1)) h.lined
  have frame : (startRuns deadline (s.row (count + 1)) s).2.checkers = s.checkers ∧
      (startRuns deadline (s.row (count + 1)) s).2.now = s.now := by
    rw [startRuns_eq]
    exact ⟨rfl, rfl⟩
  refine ⟨lined, ?_, lines n, .inr ⟨fun a ha => ?_, started_unheard hn count⟩⟩
  · rw [frame.1]
    exact (List.getElem?_eq_some_iff.mp he).1
  · rw [startAggregations_eq] at ha
    obtain ⟨ps, -, rfl⟩ := List.mem_map.mp ha
    rw [frame.2]
    exact early

/-- **Every checker has been run once for each check**, after all runs that there were. -/
theorem checkMany_runs (h : Askable s) (computable : deadline? s.now timeout = some deadline)
    (positive : 0 < timeout) (count : Nat) (hn : s.roster.get? name = some n) :
    (s.checkMany (count + 1) timeout).2.runsOf n =
      line none s n ++ s.newRuns (count + 1) n := by
  have early : s.now < deadline := by
    have moment := deadline?_eq_some computable
    omega
  have row : (startAggregations deadline (count + 1) s).2 =
      (startRuns deadline (s.row (count + 1)) s).2 := by
    rw [startAggregations_eq]
    rfl
  unfold checkMany
  rw [computable]
  dsimp only
  rw [row]
  exact await_standing (startRuns_scheduled _ _ h.scheduled) (started_standing h early hn count)

end Started

end Runs

end Service

open Service

namespace World

/-! ## 5. Checks at the same time and later -/

/-- After several checks the checkers can be asked again. -/
theorem checkMany_askable (setup : Setup) (clock : Time.Stamp) (ms : List Move)
    (free : ((new setup clock).after ms).turn = none) (count : Nat) {timeout deadline : Nat}
    (computable : deadline? ((new setup clock).after ms).service.now timeout = some deadline) :
    Askable (((new setup clock).after ms).service.checkMany count timeout).2 := by
  have askable := after_askable setup clock ms free
  obtain ⟨ns, inquiries, -, led, -⟩ := asks_led free askable.scheduled count computable
  have later := after_askable setup clock (ms ++ ns) (by rw [after_append, led]; exact free)
  rw [after_append, led] at later
  unfold checkMany
  rw [computable]
  exact later

/-- **Checks that go on at the same time disturb neither one another nor later ones.** In whatever
way a service has come about, if all runs of each registered checker end alike, any number of checks
that are asked for at once, each in an order of its own, all give the report that a single one would
have given, after the same time, and every checker has been run once for each of them, after all
runs that were there before. The report depends on nothing but the checkers, the flags and the
moment. If nobody writes the flags or registers a checker meanwhile, a check that is asked for
afterwards gives the report of the same checkers and flags at its own moment, whatever has become of
the runs of the earlier ones. -/
theorem checks_do_not_disturb_each_other (setup : Setup) (clock : Time.Stamp) (ms : List Move)
    (count timeout deadline : Nat) (free : ((new setup clock).after ms).turn = none)
    (computable : deadline? ((new setup clock).after ms).service.now timeout = some deadline)
    (constant : ((new setup clock).after ms).service.AllConstant) :
    let s := ((new setup clock).after ms).service
    let alone := s.check timeout
    let together := s.checkMany (count + 1) timeout
    (∃ r, alone.1 = .ok r ∧ together.1 = .ok (List.replicate (count + 1) r) ∧
      r = s.reportAt s.now deadline) ∧
    together.2.now = alone.2.now ∧
    (0 < timeout → ∀ name n, s.roster.get? name = some n →
      ∃ new : List JobId, new.length = count + 1 ∧ (∀ i ∈ new, s.jobs.length ≤ i) ∧
        together.2.runsOf n = line none s n ++ new) ∧
    (Harmless none s → ∀ timeout' deadline',
      deadline? together.2.now timeout' = some deadline' →
      (together.2.check timeout').1 = .ok (s.reportAt together.2.now deadline')) := by
  intro s alone together
  have askable : Askable s := after_askable setup clock ms free
  refine ⟨⟨_, (check_report askable constant computable).1,
    (checkMany_reports askable constant computable (count + 1)).1, rfl⟩,
    checkMany_now askable constant computable count, fun positive name n hn =>
      ⟨_, newRuns_length askable _ hn, fun _ => le_of_mem_newRuns,
        checkMany_runs askable computable positive count hn⟩,
    fun harmless timeout' deadline' computable' => ?_⟩
  have unmoved := (checkMany_harmless harmless (count + 1) timeout).2
  have later := checkMany_askable setup clock ms free (count + 1) computable
  rw [(check_report later (unmoved.allConstant constant) computable').1, unmoved.reportAt]

/-- A cache that answers after twenty milliseconds, a disk that panics and a peer that never
answers, asked twice at once and then once more. -/
theorem cache_disk_and_peer_checked_twice :
    let s := ((new ⟨1000, 100, true, ⟨"api", "test", ⟨none, none⟩⟩, .ascending⟩ ⟨0, 0⟩).after
      [.act (.register ⟨"cache", false, some 20, [], [.returns .passed]⟩),
        .act (.register ⟨"disk", false, none, [], [.panics (.text "gone")]⟩),
        .act (.register ⟨"peer", false, none, [], [.hangs]⟩)]).service
    (∃ r, (s.check 50).1 = .ok r ∧ (s.checkMany 2 50).1 = .ok [r, r] ∧ r = s.reportAt 0 50) ∧
      (s.checkMany 2 50).2.now = (s.check 50).2.now ∧
      ((s.checkMany 2 50).2.runsOf 2).length = 2 ∧
      ∀ later, deadline? (s.checkMany 2 50).2.now 50 = some later →
        ((s.checkMany 2 50).2.check 50).1 = .ok (s.reportAt (s.checkMany 2 50).2.now later) := by
  intro s
  have all : ∀ e ∈ s.checkers, e.checker.Constant ∧ e.checker.actions = [] :=
    List.forall_mem_cons.mpr ⟨⟨fun run => Health.Checker.ending_last .., rfl⟩,
      List.forall_mem_cons.mpr ⟨⟨fun run => Health.Checker.ending_last .., rfl⟩,
        List.forall_mem_singleton.mpr ⟨fun run => Health.Checker.ending_last .., rfl⟩⟩⟩
  have constant : s.AllConstant := by
    intro name c hc
    obtain ⟨e, he, rfl⟩ := registered?_mem hc
    exact (all e he).1
  have harmless : Harmless none s := by
    refine ⟨nofun, nofun, fun name c hc => ?_⟩
    obtain ⟨e, he, rfl⟩ := registered?_mem hc
    exact (all e he).2
  obtain ⟨reports, now, runs, later⟩ := checks_do_not_disturb_each_other
    ⟨1000, 100, true, ⟨"api", "test", ⟨none, none⟩⟩, .ascending⟩ ⟨0, 0⟩
    [.act (.register ⟨"cache", false, some 20, [], [.returns .passed]⟩),
      .act (.register ⟨"disk", false, none, [], [.panics (.text "gone")]⟩),
      .act (.register ⟨"peer", false, none, [], [.hangs]⟩)] 1 50 50 rfl rfl constant
  simp only [Nat.reduceAdd] at reports now runs later
  obtain ⟨new, length, -, begun⟩ := runs (by decide) "peer" 2 rfl
  unfold s
  refine ⟨reports, now, ?_, later harmless 50⟩
  rw [begun, List.length_append, length]
  rfl

end World

end ServiceHealth
