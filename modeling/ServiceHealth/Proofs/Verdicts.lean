import Mathlib.Data.List.Nodup
import ServiceHealth.Proofs.Followed

/-!
# Every checker is judged on its own

The runs of an aggregation are started one after the other, as the last in the line of their own
checkers, and no two of them are runs of the same one. So what each gives is decided when it is
started, by its checker and the number of runs before it, and the order in which the checkers are
asked makes no difference to the report.

* `startRuns_line`: a run that is started comes last in the line of its checker.
* `Askable.ahead`: runs that are asked for together can be followed, in whatever aggregations.
* `checkIn_results`: **the results are those of the courses of the runs**.
* `checkers_judged_alone`: every entry is that of its own checker, in whatever order all are asked.
-/

namespace ServiceHealth

namespace Service

/-! ## 1. The runs that are asked for -/

/-- A service between two turns, whose checkers can be asked. -/
structure Askable (s : Service) : Prop where
  scheduled : Scheduled none s
  lined : Lined none s
  enlisted : Enlisted s
  attested : Attested s.checkers none s

/-- The checker that is run when one is asked that is given by name and number. -/
def checkerOf (s : Service) (x : String × Nat) : Health.Checker :=
  ((s.checkers[x.2]?).map (·.checker)).getD (.content x.1)

/-- How many runs of a checker there are before the next one. -/
def runsBefore (s : Service) (n : Nat) : Nat := (line none s n).length

/-- The run of a checker as a job. -/
def askedRun (s : Service) (p : (String × Nat) × JobId) : AskedRun :=
  ⟨p.1.1, p.1.2, s.checkerOf p.1, p.2, s.runsBefore p.1.2⟩

/-- The runs of checkers that are asked in an order. -/
def askedRuns (s : Service) (order : List (String × Nat)) : List AskedRun :=
  (order.zipIdx s.jobs.length).map s.askedRun

/-- When and with what the run ends that asking a checker starts. -/
def runCourse (s : Service) (deadline : Nat) (x : String × Nat) : Option (Nat × Health.Outcome) :=
  (s.checkerOf x).course (s.runsBefore x.2) deadline s.now

section Asked

variable {s : Service} {deadline : Nat} {order : List (String × Nat)}

theorem checkerOf_of {x : String × Nat} {e : Enrolled} (he : s.checkers[x.2]? = some e) :
    s.checkerOf x = e.checker := by
  unfold checkerOf
  rw [he]
  rfl

theorem runJob_eq (s : Service) (deadline : Nat) (x : String × Nat) :
    s.runJob deadline x = .ofRun x.2 (s.checkerOf x) deadline := by
  unfold runJob checkerOf
  cases s.checkers[x.2]? <;> rfl

/-- When nobody can go on, a line consists of the runs that have begun. -/
theorem line_idle (empty : s.queue = []) (n : Nat) : line none s n = s.runsOf n := by
  unfold line
  rw [empty, List.filter_nil, List.append_nil]
  exact List.append_nil _

/-- Whoever stands in a line is a job. -/
theorem Askable.lt_of_mem_line (h : Askable s) {n : Nat} {i : JobId} (hi : i ∈ line none s n) :
    i < s.jobs.length := by
  unfold line Turn.begins at hi
  rw [List.append_nil] at hi
  rcases List.mem_append.mp hi with begun | queued
  · unfold runsOf at begun
    cases he : s.checkers[n]? with
    | none =>
      rw [he] at begun
      cases begun
    | some e =>
      rw [he] at begun
      exact h.attested.known n e he i begun
  · obtain ⟨j, hj, -⟩ := h.lined.queued i (List.mem_of_mem_filter queued)
    exact (List.getElem?_eq_some_iff.mp hj).1

/-- **A run that is started comes last in the line of its checker.** -/
theorem startRuns_line (deadline : Nat) (order : List (String × Nat)) {s : Service}
    (h : Lined none s) : Lined none (startRuns deadline order s).2 ∧
      ∀ n, line none (startRuns deadline order s).2 n =
        line none s n ++
          ((order.zipIdx s.jobs.length).filter (·.1.2 == n)).map (·.2) := by
  induction order generalizing s with
  | nil => exact ⟨h, fun n => (List.append_nil _).symm⟩
  | cons x order ih =>
    have job := s.runJob_eq deadline x
    have once : ∀ k, Step.begin k ∉ (s.runJob deadline x).todo.tail := by
      rw [job]
      exact ofRun_once _ _ _
    have ready : (s.runJob deadline x).state = .ready := by
      rw [job]
      rfl
    obtain ⟨h₁, same₁⟩ := h.spawn ready once
    obtain ⟨h₂, same₂⟩ := ih h₁
    have length : (s.spawn (s.runJob deadline x)).jobs.length = s.jobs.length + 1 := by
      show (s.jobs ++ [_]).length = _
      rw [List.length_append]
      rfl
    refine ⟨h₂, fun n => (same₂ n).trans ?_⟩
    have opening : opens n (s.runJob deadline x).todo = (x.2 == n) := by rw [job]; rfl
    rw [same₁, opening, length, List.zipIdx_cons, List.filter_cons, List.append_assoc]
    by_cases e : (x.2 == n) = true <;> simp [e]

/-- Of a list in which no key stands twice, only one element has the key of an element. -/
theorem filter_key {α β : Type} [BEq β] [LawfulBEq β] {f : α → β} {xs : List α}
    (nodup : (xs.map f).Nodup) {x : α} (hx : x ∈ xs) : xs.filter (f · == f x) = [x] := by
  induction xs with
  | nil => cases hx
  | cons y xs ih =>
    rw [List.map_cons, List.nodup_cons] at nodup
    rw [List.filter_cons]
    rcases List.mem_cons.mp hx with rfl | hx
    · have others : xs.filter (f · == f x) = [] :=
        List.filter_eq_nil_iff.mpr fun z hz k =>
          nodup.1 (List.mem_map.mpr ⟨z, hz, eq_of_beq k⟩)
      rw [if_pos (BEq.rfl), others]
    · have other : ¬(f y == f x) = true := fun k =>
        nodup.1 (List.mem_map.mpr ⟨x, hx, (eq_of_beq k).symm⟩)
      rw [if_neg other]
      exact ih nodup.2 hx

/-- The numbers of checkers that are given a job each. -/
theorem zipIdx_map_number (order : List (String × Nat)) (start : JobId) :
    (order.zipIdx start).map (·.1.2) = order.map (·.2) := by
  have firsts := congrArg (List.map Prod.snd) (List.zipIdx_map_fst start order)
  rw [List.map_map] at firsts
  exact firsts

/-- A run that is started comes after all runs of its checker that there were. -/
theorem Askable.own_line (h : Askable s) (distinct : (order.map (·.2)).Nodup)
    {p : (String × Nat) × JobId} (hp : p ∈ order.zipIdx s.jobs.length) :
    line none (startRuns deadline order s).2 p.1.2 = line none s p.1.2 ++ [p.2] := by
  rw [← zipIdx_map_number order s.jobs.length] at distinct
  rw [(startRuns_line deadline order h.lined).2, filter_key (f := (·.1.2)) distinct hp]
  rfl

theorem startRuns_scheduled (deadline : Nat) (order : List (String × Nat)) {s : Service}
    (h : Scheduled none s) : Scheduled none (startRuns deadline order s).2 := by
  induction order generalizing s with
  | nil => exact h
  | cons x order ih =>
    have fresh : Fresh (s.runJob deadline x) := by
      rw [runJob_eq]
      exact ofRun_fresh _ _ _
    exact ih (spawn_scheduled h fresh)

/-- The run of a checker as a job, with the place it has got in the line. -/
def placedRun (s s' : Service) (p : (String × Nat) × JobId) : AskedRun :=
  { s.askedRun p with place := (line none s' p.1.2).idxOf p.2 }

/-- **The run of a checker that has been asked can be followed.** -/
theorem Askable.placed (h : Askable s) (known : ∀ x ∈ order, ∃ e, s.checkers[x.2]? = some e)
    {p : (String × Nat) × JobId} (hp : p ∈ order.zipIdx s.jobs.length) :
    Followed ⟨s.now, deadline⟩ none (startRuns deadline order s).2
      (s.placedRun (startRuns deadline order s).2 p) := by
  have mem : p.2 ∈ line none (startRuns deadline order s).2 p.1.2 := by
    rw [(startRuns_line deadline order h.lined).2]
    exact List.mem_append_right _
      (List.mem_map.mpr ⟨p, List.mem_filter.mpr ⟨hp, BEq.rfl⟩, rfl⟩)
  obtain ⟨k, hk⟩ := List.getElem?_of_mem hp
  rw [List.getElem?_zipIdx] at hk
  obtain ⟨x, hx, rfl⟩ := Option.map_eq_some_iff.mp hk
  obtain ⟨e, he⟩ := known x (List.mem_of_getElem? hx)
  have frame : (startRuns deadline order s).2.now = s.now ∧
      (startRuns deadline order s).2.checkers = s.checkers := by
    rw [startRuns_eq]
    exact ⟨rfl, rfl⟩
  refine ⟨⟨_, startRuns_job hx, runJob_close _ _ _, ?_, ?_⟩, ⟨e, ?_, ?_⟩, mem, rfl⟩
  · rw [runJob_eq]
    intro i mem
    rcases List.mem_cons.mp mem with e | mem
    · cases e
    · exact awaitSignal_not_mem_work _ _ i mem
  · rw [runJob_eq, frame.1]
    exact .going rfl rfl (finish_work _ _ _)
  · rw [frame.2]
    exact he
  · exact (checkerOf_of he).symm

/-- A run whose checker is not asked a second time has the number of those before it. -/
theorem Askable.placedRun_eq (h : Askable s) (distinct : (order.map (·.2)).Nodup)
    {p : (String × Nat) × JobId} (hp : p ∈ order.zipIdx s.jobs.length) :
    s.placedRun (startRuns deadline order s).2 p = s.askedRun p := by
  have new : s.jobs.length ≤ p.2 := by
    obtain ⟨⟨name, number⟩, job⟩ := p
    exact (List.mk_mem_zipIdx_iff_le_and_getElem?_sub.mp hp).1
  have out : p.2 ∉ line none s p.1.2 := fun mem =>
    absurd (h.lt_of_mem_line mem) (Nat.not_lt.mpr new)
  have place : (line none (startRuns deadline order s).2 p.1.2).idxOf p.2 =
      s.runsBefore p.1.2 := by
    rw [h.own_line distinct hp, List.idxOf_append, if_neg out, List.idxOf_cons_self, Nat.zero_add]
    rfl
  unfold placedRun
  rw [place]
  rfl

/-- **All runs that are asked for together can be followed from their start**, in whatever
aggregations. -/
theorem Askable.ahead (h : Askable s) (run : (String × Nat) × JobId → AskedRun)
    (followed : ∀ p ∈ order.zipIdx s.jobs.length,
      Followed ⟨s.now, deadline⟩ none (startRuns deadline order s).2 (run p))
    (named : ∀ p, (run p).name = p.1.1 ∧ (run p).job = p.2)
    (pss : List (List ((String × Nat) × JobId))) (split : pss.flatten = order.zipIdx s.jobs.length)
    (a₀ : Aggregation) :
    Ahead ⟨s.now, deadline⟩ (pss.map (List.map run)) a₀
      (pss.map fun ps => { a₀ with entries := ps.map fun p => ⟨p.1.1, p.2, none⟩ })
      (startRuns deadline order s).2 := by
  have now : (startRuns deadline order s).2.now = s.now := by rw [startRuns_eq]
  have lined := (startRuns_line deadline order h.lined).1
  refine ⟨⟨startRuns_scheduled _ _ h.scheduled, lined, (fun _ ht => nomatch ht), fun ρ hρ => ?_⟩,
    ⟨Nat.le_of_eq now.symm, fun b le _ => ?_⟩, ?_⟩
  · rw [← List.map_flatten, split] at hρ
    obtain ⟨p, hp, rfl⟩ := List.mem_map.mp hρ
    exact followed p hp
  · rw [now]
    exact le
  · rw [List.forall₂_map_left_iff, List.forall₂_map_right_iff, List.forall₂_same]
    refine fun ps _ => ⟨_, rfl, ?_⟩
    rw [List.forall₂_map_left_iff, List.forall₂_map_right_iff, List.forall₂_same]
    exact fun p _ => ⟨(named p).1.symm, (named p).2.symm, fun o ho => nomatch ho⟩

/-- What the runs are for those who asked the checkers. -/
theorem askedRuns_map {α : Type} (f : String → Option (Nat × Health.Outcome) → α) (s : Service)
    (deadline : Nat) (order : List (String × Nat)) :
    (s.askedRuns order).map (fun ρ => f ρ.name (ρ.course ⟨s.now, deadline⟩)) =
      order.map fun x => f x.1 (s.runCourse deadline x) := by
  have firsts := congrArg (List.map fun x => f x.1 (s.runCourse deadline x))
    (List.zipIdx_map_fst s.jobs.length order)
  rw [List.map_map] at firsts
  unfold askedRuns
  rw [List.map_map]
  exact firsts

theorem forall_askedRuns {P : Option (Nat × Health.Outcome) → Prop} :
    (∀ ρ ∈ s.askedRuns order, P (ρ.course ⟨s.now, deadline⟩)) ↔
      ∀ x ∈ order, P (s.runCourse deadline x) := by
  have courses := askedRuns_map (fun _ c => c) s deadline order
  rw [← List.forall_mem_map (f := fun ρ : AskedRun => ρ.course ⟨s.now, deadline⟩), courses,
    List.forall_mem_map]

end Asked

/-! ## 2. The report -/

/-- The report of one aggregation, in which the checkers are asked in an order. -/
def checkIn (order : List (String × Nat)) (s : Service) (timeout : Nat) :
    Except Overflow Health.Report × Service :=
  match deadline? s.now timeout with
  | none => (.error .deadline, s)
  | some deadline =>
    let a : Aggregation := ⟨s.clock, s.flags, deadline, (startRuns deadline order s).1⟩
    let last := await aggregating [a] (startRuns deadline order s).2
    (.ok (last.1.headD a).report, last.2)

/-- A check asks the registered checkers, in the order of that moment. -/
theorem check_eq_checkIn (s : Service) (timeout : Nat) :
    s.check timeout = s.checkIn s.rollCall timeout := rfl

/-- The results of checkers by the courses of their runs. -/
def verdicts (s : Service) (deadline : Nat) (order : List (String × Nat)) :
    List Health.CheckResult :=
  order.map fun x => .ofOutcome x.1 (outcomeBy deadline (s.runCourse deadline x))

section Report

variable {s : Service} {timeout deadline : Nat} {order order' : List (String × Nat)}

/-- **The results are those of the courses, and a check is over when all runs are.** -/
theorem checkIn_results (h : Askable s) (known : ∀ x ∈ order, ∃ e, s.checkers[x.2]? = some e)
    (distinct : (order.map (·.2)).Nodup) (computable : deadline? s.now timeout = some deadline) :
    (s.checkIn order timeout).1 = .ok (.ofResults s.clock s.flags (s.verdicts deadline order)) ∧
      (∀ x ∈ order, IsOver deadline (s.runCourse deadline x) (s.checkIn order timeout).2.now) ∧
      Hasty s.now (fun b => ∀ x ∈ order, IsOver deadline (s.runCourse deadline x) b)
        (s.checkIn order timeout).2.now := by
  have followed : ∀ p ∈ order.zipIdx s.jobs.length,
      Followed ⟨s.now, deadline⟩ none (startRuns deadline order s).2 (s.askedRun p) := by
    intro p hp
    rw [← h.placedRun_eq distinct hp]
    exact h.placed known hp
  have started : (startRuns deadline order s).1 =
      (order.zipIdx s.jobs.length).map fun p => ⟨p.1.1, p.2, none⟩ := by rw [startRuns_eq]
  have ahead : Ahead ⟨s.now, deadline⟩ [s.askedRuns order] ⟨s.clock, s.flags, deadline, []⟩
      [⟨s.clock, s.flags, deadline, (startRuns deadline order s).1⟩]
      (startRuns deadline order s).2 := by
    rw [started]
    exact h.ahead s.askedRun followed (fun _ => ⟨rfl, rfl⟩) [order.zipIdx s.jobs.length]
      (List.append_nil _) _
  obtain ⟨judged, isOver, hasty⟩ := await_followed rfl ahead
  rw [List.flatten_singleton] at isOver hasty
  unfold checkIn
  rw [computable]
  dsimp only
  generalize await aggregating [_] _ = last at judged isOver hasty ⊢
  refine ⟨?_, (forall_askedRuns (P := (IsOver deadline · _))).mp isOver, hasty.started,
    fun b le k => hasty.soon b le ((forall_askedRuns (P := (IsOver deadline · b))).mpr k)⟩
  have results := askedRuns_map (fun name c => Health.CheckResult.ofOutcome name
    (outcomeBy deadline c)) s deadline order
  obtain ⟨a, as, here, -, eq⟩ := List.forall₂_cons_left_iff.mp judged
  unfold verdicts
  rw [eq, List.headD_cons, here.report, ← results]

theorem verdicts_names (s : Service) (deadline : Nat) (order : List (String × Nat)) :
    ((s.verdicts deadline order).map fun r => (r.name, r)).map (·.1) = order.map (·.1) := by
  unfold verdicts
  rw [List.map_map, List.map_map]
  exact List.map_congr_left fun x _ => Health.CheckResult.name_ofOutcome _ _

/-- What the report has under a name. -/
theorem report_get? (time : Time.Stamp) (flags : Health.Flags)
    (names : (order.map (·.1)).Nodup) {name : String} {r : Health.CheckResult} :
    (Health.Report.ofResults time flags (s.verdicts deadline order)).checks.get? name = some r ↔
      ∃ n, (name, n) ∈ order ∧
        r = .ofOutcome name (outcomeBy deadline (s.runCourse deadline (name, n))) := by
  rw [← verdicts_names s deadline] at names
  refine (Keyed.get?_ofList names).trans ?_
  unfold verdicts
  rw [List.map_map, List.mem_map]
  constructor
  · rintro ⟨⟨name', n⟩, mem, eq⟩
    rw [Function.comp, Prod.mk.injEq, Health.CheckResult.name_ofOutcome] at eq
    obtain ⟨rfl, rfl⟩ := eq
    exact ⟨n, mem, rfl⟩
  · rintro ⟨n, mem, rfl⟩
    exact ⟨(name, n), mem, by rw [Function.comp, Health.CheckResult.name_ofOutcome]⟩

/-- **The order in which the checkers are asked does not show in the report.** -/
theorem report_perm (time : Time.Stamp) (flags : Health.Flags) (perm : order.Perm order')
    (names : (order'.map (·.1)).Nodup) :
    Health.Report.ofResults time flags (s.verdicts deadline order) =
      .ofResults time flags (s.verdicts deadline order') := by
  refine congrArg (Health.Report.mk time flags) (Keyed.ofList_perm ((perm.map _).map _) ?_)
  rw [verdicts_names, (perm.map _).nodup_iff]
  exact names

theorem Askable.known (h : Askable s) : ∀ x ∈ s.roster.entries,
    ∃ e, s.checkers[x.2]? = some e ∧ e.checker.name = x.1 := fun x mem =>
  h.enlisted x.1 x.2 (Keyed.get?_eq_some.mpr mem)

/-- No two names lead to the same checker. -/
theorem Askable.distinct (h : Askable s) : (s.roster.entries.map (·.2)).Nodup := by
  refine List.Nodup.map_on (fun x hx y hy same => ?_) (.of_map _ s.roster.keys_nodup)
  obtain ⟨e, he, hname⟩ := h.known x hx
  obtain ⟨e', he', hname'⟩ := h.known y hy
  rw [same, he'] at he
  cases he
  exact Prod.ext (hname.symm.trans hname') same

/-- **The result of a check and its end**, in whatever order the registered checkers are asked. -/
theorem Askable.checkIn_registered (h : Askable s) (perm : order.Perm s.roster.entries)
    (computable : deadline? s.now timeout = some deadline) :
    (s.checkIn order timeout).1 =
        .ok (.ofResults s.clock s.flags (s.verdicts deadline s.roster.entries)) ∧
      (∀ x ∈ s.roster.entries, IsOver deadline (s.runCourse deadline x)
        (s.checkIn order timeout).2.now) ∧
      Hasty s.now (fun b => ∀ x ∈ s.roster.entries, IsOver deadline (s.runCourse deadline x) b)
        (s.checkIn order timeout).2.now := by
  have known : ∀ x ∈ order, ∃ e, s.checkers[x.2]? = some e := fun x mem =>
    (h.known x (perm.mem_iff.mp mem)).imp fun _ k => k.1
  have distinct : (order.map (·.2)).Nodup := (perm.map _).nodup_iff.mpr h.distinct
  obtain ⟨report, isOver, hasty⟩ := checkIn_results h known distinct computable
  rw [report_perm s.clock s.flags perm s.roster.keys_nodup] at report
  exact ⟨report, fun x mem => isOver x (perm.mem_iff.mpr mem), hasty.started, fun b le k =>
    hasty.soon b le fun x mem => k x (perm.mem_iff.mp mem)⟩

/-- The report of the registered checkers has their names. -/
theorem verdicts_keys (s : Service) (deadline : Nat) : (Health.Report.ofResults s.clock s.flags
    (s.verdicts deadline s.roster.entries)).checks.keys = s.checkerNames :=
  Keyed.keys_ofList (.of_eq (verdicts_names s deadline _)) s.roster.keys_ascending

/-- The result that a checker gives under a name, by when and how its run ends. -/
theorem ofOutcome_course (name : String) (c : Health.Checker) (run deadline now : Nat) :
    Health.CheckResult.ofOutcome name (outcomeBy deadline (c.course run deadline now)) =
      if afterDelay now c.delay < deadline then
        match c.ending run with
        | .returns .passed => ⟨name, true, none⟩
        | .returns (.failed e) => ⟨name, false, some e.message⟩
        | .timeLeft =>
          ⟨name, false, some (toString (deadline - afterDelay now c.delay) ++ " ms left")⟩
        | .panics _ => ⟨name, false, some "check panicked"⟩
        | .hangs => ⟨name, false, some "check timed out"⟩
      else ⟨name, false, some "check timed out"⟩ := by
  unfold Health.Checker.course Health.Checker.gives? outcomeBy
  cases c.ending run with
  | returns o =>
    dsimp only [Option.map_some]
    split <;> cases o <;> rfl
  | timeLeft =>
    dsimp only [Option.map_some]
    split <;> rfl
  | panics p =>
    dsimp only [Option.map_some]
    split <;> rfl
  | hangs =>
    dsimp only [Option.map_none]
    split <;> rfl

end Report

end Service

open Service

namespace World

/-- In every world nobody's turn, the checkers can be asked. -/
theorem after_askable (setup : Setup) (clock : Time.Stamp) (ms : List Move)
    (free : ((new setup clock).after ms).turn = none) :
    Askable ((new setup clock).after ms).service := by
  have scheduled := after_scheduled _ ms (new_scheduled setup clock)
  have lined := after_lined _ ms (new_scheduled setup clock) (new_lined setup clock)
  have attested := after_attested _ ms (new_scheduled setup clock) (new_enlisted setup clock)
    (new_attested setup clock)
  rw [free] at scheduled lined attested
  exact ⟨scheduled, lined, after_enlisted _ ms (new_enlisted setup clock), attested⟩

/-- **Every checker is judged on its own, and none is lost.** In whatever way a service has come
about and in whatever order its checkers are asked, the report has exactly one entry for every name
that is registered, and the same as in any other order. Which one it is depends on nothing but the
checker under the name, the number of its run and the moment at which it has to answer. -/
theorem checkers_judged_alone (setup : Setup) (clock : Time.Stamp) (ms : List Move)
    (timeout : Nat) (order : List (String × Nat)) {deadline : Nat}
    (free : ((new setup clock).after ms).turn = none)
    (computable : deadline? ((new setup clock).after ms).service.now timeout = some deadline)
    (perm : order.Perm ((new setup clock).after ms).service.roster.entries) :
    let s := ((new setup clock).after ms).service
    ∃ r, (s.checkIn order timeout).1 = .ok r ∧ (s.check timeout).1 = .ok r ∧
      r.checks.keys = s.checkerNames ∧
      (∀ name n e, s.roster.get? name = some n → s.checkers[n]? = some e →
        let ends := afterDelay s.now e.checker.delay
        r.checks.get? name = some (
          if ends < deadline then
            match e.checker.ending (s.runsBefore n) with
            | .returns .passed => ⟨name, true, none⟩
            | .returns (.failed error) => ⟨name, false, some error.message⟩
            | .timeLeft => ⟨name, false, some (toString (deadline - ends) ++ " ms left")⟩
            | .panics _ => ⟨name, false, some "check panicked"⟩
            | .hangs => ⟨name, false, some "check timed out"⟩
          else ⟨name, false, some "check timed out"⟩)) ∧
      ∀ name x, r.checks.get? name = some x → x.error.isSome = !x.healthy := by
  intro s
  have askable : Askable s := after_askable setup clock ms free
  have names : (s.roster.entries.map (·.1)).Nodup := s.roster.keys_nodup
  obtain ⟨asked, -⟩ := askable.checkIn_registered perm computable
  obtain ⟨checked, -⟩ := askable.checkIn_registered s.rollCall_perm computable
  refine ⟨_, asked, checked, verdicts_keys s deadline, ?_, fun name x hx => ?_⟩
  · intro name n e hn he ends
    refine (report_get? s.clock s.flags names).mpr ⟨n, Keyed.get?_eq_some.mp hn, ?_⟩
    unfold runCourse
    rw [checkerOf_of he, ofOutcome_course]
  · obtain ⟨n, -, rfl⟩ := (report_get? s.clock s.flags names).mp hx
    exact Health.CheckResult.error_ofOutcome _ _

/-- A stale cache, a disk that panics and a peer that never answers, asked the other way round than
they are listed. -/
theorem cache_disk_and_peer_judged :
    ∃ r, (((new ⟨1000, 100, true, ⟨"api", "test", ⟨none, none⟩⟩, .ascending⟩ ⟨0, 0⟩).after
        [.act (.register ⟨"cache", false, some 20, [], [.returns (.failed (.unhealthy "stale"))]⟩),
          .act (.register ⟨"disk", false, none, [], [.panics (.text "gone")]⟩),
          .act (.register ⟨"peer", false, none, [], [.hangs]⟩)]).service.checkIn
        [("peer", 2), ("disk", 1), ("cache", 0)] 50).1 = .ok r ∧
      r.checks.keys = ["cache", "disk", "peer"] ∧
      r.checks.get? "cache" = some ⟨"cache", false, some "stale"⟩ ∧
      r.checks.get? "disk" = some ⟨"disk", false, some "check panicked"⟩ ∧
      r.checks.get? "peer" = some ⟨"peer", false, some "check timed out"⟩ := by
  obtain ⟨r, asked, -, keys, entry, -⟩ :=
    checkers_judged_alone ⟨1000, 100, true, ⟨"api", "test", ⟨none, none⟩⟩, .ascending⟩ ⟨0, 0⟩
      [.act (.register ⟨"cache", false, some 20, [], [.returns (.failed (.unhealthy "stale"))]⟩),
        .act (.register ⟨"disk", false, none, [], [.panics (.text "gone")]⟩),
        .act (.register ⟨"peer", false, none, [], [.hangs]⟩)]
      50 [("peer", 2), ("disk", 1), ("cache", 0)] rfl rfl
      (List.reverse_perm [("cache", 0), ("disk", 1), ("peer", 2)])
  exact ⟨r, asked, keys, entry "cache" 0 _ rfl rfl, entry "disk" 1 _ rfl rfl,
    entry "peer" 2 _ rfl rfl⟩

end World

end ServiceHealth
