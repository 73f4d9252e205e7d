import Mathlib.Data.List.Forall2
import ServiceHealth.Proofs.Checking
import ServiceHealth.Proofs.Runs

/-!
# Runs followed to their deadline

The runs of one aggregation, or of several that are asked for together, are started at the same
moment and judged against one deadline. When and with what each of them ends is decided when it is
started: its delay and its ending are those of its checker, and the number of the run is its place
in the line. `Followed` says so of every run at every moment before the deadline, so at the end each
has the outcome that its own course gives.

* `Checker.course`: when and with what a run ends by itself.
* `step_followed`, `settle_following`, `advance_following`: neither turns nor time change what is
  still to come.
* `await_followed`: **every run gets the outcome of its own course, and the waiting is over as soon
  as the last of them has ended, or at the deadline**.
-/

namespace ServiceHealth

open Service

/-! ## 1. Courses -/

/-- When and with what a run of a checker ends that begins at a moment. -/
def Health.Checker.course (c : Health.Checker) (run deadline now : Nat) :
    Option (Nat × Health.Outcome) :=
  (c.gives? run deadline (afterDelay now c.delay)).map fun o => (afterDelay now c.delay, o)

namespace Service

/-- The outcome of a run with a course under a deadline. -/
def outcomeBy (deadline : Nat) : Option (Nat × Health.Outcome) → Health.Outcome
  | some (m, o) => if m < deadline then o else .failed .timedOut
  | none => .failed .timedOut

/-- Whether what has a course is over at a moment: it has ended, or the deadline has come. -/
def IsOver {α : Type} (deadline : Nat) (course : Option (Nat × α)) (now : Nat) : Prop :=
  deadline ≤ now ∨ ∃ m o, course = some (m, o) ∧ m ≤ now

theorem IsOver.mono {α : Type} {deadline now now' : Nat} {course : Option (Nat × α)}
    (h : IsOver deadline course now) (le : now ≤ now') : IsOver deadline course now' :=
  h.imp (Nat.le_trans · le) fun ⟨m, o, e, k⟩ => ⟨m, o, e, Nat.le_trans k le⟩

/-- No more time has passed from the start than it takes until something holds. -/
structure Hasty (start : Nat) (gone : Nat → Prop) (now : Nat) : Prop where
  started : start ≤ now
  soon : ∀ b, start ≤ b → gone b → now ≤ b

/-- A run that was asked for: the name under which it was, the number of the checker and the
checker, the job, and the number that the run has among the runs of the checker. -/
structure AskedRun where
  name : String
  number : Nat
  checker : Health.Checker
  job : JobId
  place : Nat

/-- When runs were asked for together, and by when they have to answer. -/
structure Period where
  start : Nat
  deadline : Nat

/-- The course of a run. -/
def AskedRun.course (ρ : AskedRun) (τ : Period) : Option (Nat × Health.Outcome) :=
  ρ.checker.course ρ.place τ.deadline τ.start

/-- When a run ends, if it does. -/
def AskedRun.due (ρ : AskedRun) (τ : Period) : Nat := afterDelay τ.start ρ.checker.delay

/-- What a run gives when it ends, if it does. -/
def AskedRun.verdict? (ρ : AskedRun) (τ : Period) : Option Health.Outcome :=
  ρ.checker.gives? ρ.place τ.deadline (ρ.due τ)

theorem AskedRun.course_eq (ρ : AskedRun) (τ : Period) :
    ρ.course τ = (ρ.verdict? τ).map fun o => (ρ.due τ, o) := rfl

/-! ## 2. What is still to come -/

/-- **Where the job of a run stands**: it is on its way and will be done when the run is due, it has
ended with the verdict, or it hangs because there is none. -/
inductive Prospect (ρ : AskedRun) (τ : Period) (now : Nat) (j : Job) : Prop where
  | going {m : Nat} (goes : j.state.goesOn? now = some m) (free : j.state.waits = false)
      (ends : finish j.todo m = ρ.due τ)
  | ended {r : Result} (state : j.state = .ended r) (past : ρ.due τ ≤ now)
      (early : ρ.due τ < τ.deadline) (gives : ρ.verdict? τ = some r.asCheck)
  | hung (state : j.state = .hung) (gives : ρ.verdict? τ = none)

/-- **A run is on course**: its job stands where it should, has the checker it was asked for, and
keeps its place in the line of that checker. -/
structure Followed (τ : Period) (turn : Option Turn) (s : Service) (ρ : AskedRun) : Prop where
  job : ∃ j, s.jobs[ρ.job]? = some j ∧ j.close = .verdict ρ.number τ.deadline ∧
    (∀ k, Step.awaitSignal k ∉ j.todo) ∧ Prospect ρ τ s.now j
  checker : ∃ e, s.checkers[ρ.number]? = some e ∧ e.checker = ρ.checker
  mem : ρ.job ∈ line turn s ρ.number
  place : (line turn s ρ.number).idxOf ρ.job = ρ.place

/-- The turn of a job takes as long as the job has still to take. -/
def Timed (turn : Option Turn) (s : Service) : Prop :=
  ∀ t, turn = some t → ∀ j, s.jobs[t.job]? = some j → finish t.todo s.now = finish j.todo s.now

theorem Prospect.unheld {ρ : AskedRun} {τ : Period} {now : Nat} {j : Job} (h : Prospect ρ τ now j) :
    j.state.waits = false := by
  cases h with
  | going _ free => exact free
  | ended state => rw [state]; rfl
  | hung state => rw [state]; rfl

/-- The turn of another job leaves a run alone. -/
theorem Stirred.eq_of_unheld {j j' : Job} (h : Stirred j j') (free : j.state.waits = false) :
    j' = j := by
  cases h with
  | same => rfl
  | woken held =>
    rw [free] at held
    cases held

/-- Whoever can go on is on its way. -/
theorem Prospect.of_ready {ρ : AskedRun} {τ : Period} {now : Nat} {j : Job}
    (h : Prospect ρ τ now j) (ready : j.state = .ready) : finish j.todo now = ρ.due τ := by
  cases h with
  | going goes _ ends =>
    rw [ready] at goes
    cases goes
    exact ends
  | ended state =>
    rw [ready] at state
    cases state
  | hung state =>
    rw [ready] at state
    cases state

section Turns

variable {τ : Period} {ρ : AskedRun} {t : Turn} {s : Service}

/-- At its close a run has the number that its place in the line has given it. -/
theorem Followed.number (h : Followed τ (some t) s ρ) (lined : Lined (some t) s)
    (own : t.job = ρ.job) (empty : t.todo = []) :
    ∃ e, s.checkers[ρ.number]? = some e ∧ e.checker = ρ.checker ∧
      e.runs.idxOf t.job = ρ.place := by
  obtain ⟨e, he, same⟩ := h.checker
  have runs : s.runsOf ρ.number = e.runs := by
    unfold runsOf
    rw [he]
    rfl
  have mem := h.mem
  have place := h.place
  rw [line_some (by rw [empty]; rfl)] at mem place
  have out : ρ.job ∉ s.queue.filter (s.willBegin ρ.number) := fun k =>
    lined.unseated t rfl (own ▸ List.mem_of_mem_filter k)
  unfold line Turn.begins at mem place
  rw [runs, List.append_nil] at mem place
  have begun := (List.mem_append.mp mem).resolve_right out
  rw [List.idxOf_append, if_pos begun] at place
  exact ⟨e, he, same, own ▸ place⟩

/-- A step of its own turn brings a run on its way, or to its close. -/
theorem step_prospect (scheduled : Scheduled (some t) s) (lined : Lined (some t) s)
    (timed : Timed (some t) s) (early : s.now < τ.deadline) (h : Followed τ (some t) s ρ)
    (own : t.job = ρ.job) : ∃ j, (t.step s).2.jobs[ρ.job]? = some j ∧
      j.close = .verdict ρ.number τ.deadline ∧ (∀ k, Step.awaitSignal k ∉ j.todo) ∧
      Prospect ρ τ s.now j := by
  obtain ⟨j, hj, close, deaf, prospect⟩ := h.job
  obtain ⟨j₀, hj₀, ready, seat, todo⟩ := scheduled.seated t rfl
  rw [own, hj] at hj₀
  cases hj₀
  have due : finish t.todo s.now = ρ.due τ :=
    (timed t rfl j (by rw [own]; exact hj)).trans (prospect.of_ready ready)
  rcases t.step_cases s with ⟨x, rest, -, -, eq⟩ | ⟨x, rest, state, ht, hx, eq⟩ | ⟨ht, eq⟩
  · rw [eq]
    exact ⟨j, by rw [(act_frame s t.job t.who x).1]; exact hj, close, deaf, prospect⟩
  · rw [eq, hold_getElem?, hj]
    refine ⟨_, rfl, ?_⟩
    dsimp only
    rw [if_pos own]
    have deaf' : ∀ k, Step.awaitSignal k ∉ t.todo := fun k mem => deaf k (todo.subset mem)
    rw [ht] at deaf' due
    refine ⟨seat.symm.trans close, fun k mem => deaf' k (List.mem_cons_of_mem _ mem), ?_⟩
    rcases holdUp?_cases hx with ⟨d, rfl, hd, rfl⟩ | ⟨k, rfl, -, rfl⟩
    · simp only [finish, hd, if_false] at due
      exact .going rfl rfl due
    · exact absurd List.mem_cons_self (deaf' k)
  · -- the turn has no steps left, so the run is due at this very moment
    rw [ht] at due
    change s.now = ρ.due τ at due
    obtain ⟨e, he, same, number⟩ := h.number lined own ht
    rw [eq, seat.symm.trans close]
    show ∃ j, (s.closeRun t.job ρ.number τ.deadline).jobs[ρ.job]? = some j ∧ _
    rw [own]
    rcases closeRun_cases hj he τ.deadline with ⟨r, hj', gives⟩ | ⟨hj', gives⟩
    · refine ⟨_, hj', close, fun _ => List.not_mem_nil, .ended rfl (Nat.le_of_eq due.symm)
        (due ▸ early) ?_⟩
      rw [← own, number, same, due] at gives
      exact gives
    · refine ⟨_, hj', rfl, fun _ => List.not_mem_nil, .hung rfl ?_⟩
      rw [← own, number, same, due] at gives
      exact gives

/-- **Before the deadline a step of a turn does not change what is still to come.** -/
theorem step_followed (scheduled : Scheduled (some t) s) (lined : Lined (some t) s)
    (timed : Timed (some t) s) (early : s.now < τ.deadline) (h : Followed τ (some t) s ρ) :
    Followed τ (t.step s).1 (t.step s).2 ρ := by
  obtain ⟨e, he, same⟩ := h.checker
  have line := (step_line scheduled lined).2 ρ.number (List.getElem?_eq_some_iff.mp he).1
  refine ⟨?_, ?_, by rw [line]; exact h.mem, by rw [line]; exact h.place⟩
  · rw [step_now]
    by_cases own : t.job = ρ.job
    · exact step_prospect scheduled lined timed early h own
    · obtain ⟨j, hj, close, deaf, prospect⟩ := h.job
      obtain ⟨j', hj', st⟩ := step_stirred t s hj own
      rw [st.eq_of_unheld prospect.unheld] at hj'
      exact ⟨j, hj', close, deaf, prospect⟩
  · obtain ⟨more, he'⟩ := step_grown t s _ e he
    exact ⟨_, he', same⟩

theorem begin_followed (lined : Lined none s) (h : Followed τ none s ρ) :
    Followed τ (Turn.begin s).1 (Turn.begin s).2 ρ := by
  have line := (begin_line lined).2 ρ.number
  refine ⟨?_, ?_, by rw [line]; exact h.mem, by rw [line]; exact h.place⟩
  · rw [begin_jobs, (JobsOnly.begin s).now]
    exact h.job
  · rw [(JobsOnly.begin s).checkers]
    exact h.checker

end Turns

/-! ## 3. All runs together -/

/-- **Runs that were asked for together are on course**, in a service that is scheduled and whose
queue is in order. -/
structure Following (τ : Period) (rs : List AskedRun) (turn : Option Turn) (s : Service) :
    Prop where
  scheduled : Scheduled turn s
  lined : Lined turn s
  timed : Timed turn s
  runs : ∀ ρ ∈ rs, Followed τ turn s ρ

section Following

variable {τ : Period} {rs : List AskedRun} {s : Service}

theorem begin_following (h : Following τ rs none s) :
    Following τ rs (Turn.begin s).1 (Turn.begin s).2 where
  scheduled := begin_scheduled h.scheduled
  lined := (begin_line h.lined).1
  timed := by
    intro t ht j hj
    obtain ⟨j', hj', -, -, todo⟩ := Turn.begin_eq_some ht
    rw [begin_jobs, hj'] at hj
    cases hj
    rw [todo]
  runs ρ hρ := begin_followed h.lined (h.runs ρ hρ)

theorem step_following {t : Turn} (h : Following τ rs (some t) s) (early : s.now < τ.deadline) :
    Following τ rs (t.step s).1 (t.step s).2 where
  scheduled := step_scheduled h.scheduled
  lined := (step_line h.scheduled h.lined).1
  timed _ ht' _ hj := step_timing (h.timed t rfl) ht' hj
  runs ρ hρ := step_followed h.scheduled h.lined h.timed early (h.runs ρ hρ)

/-- **Before the deadline all turns together do not change what is still to come.** -/
theorem settle_following (h : Following τ rs none s) (early : s.now < τ.deadline) :
    Following τ rs none s.settle :=
  (settleLoop_induction
    (P := fun turn s' => Following τ rs turn s' ∧ s'.now = s.now)
    (fun s' k => ⟨begin_following k.1, (JobsOnly.begin s').now.trans k.2⟩)
    (fun t s' k => ⟨step_following k.1 (by rw [k.2]; exact early), (step_now t s').trans k.2⟩)
    _ s ⟨h, rfl⟩).1

/-- When nobody can go on, a run that is on its way sleeps, at most until it is due. -/
theorem Following.asleep (h : Following τ rs none s) (empty : s.queue = []) {i : JobId} {j : Job}
    (hj : s.jobs[i]? = some j) {m : Nat} (goes : j.state.goesOn? s.now = some m)
    (free : j.state.waits = false) :
    j.state = .sleeping m ∧ s.now < m ∧ m ∈ s.sleepEnds := by
  have asleep : j.state = .sleeping m := by
    cases hs : j.state with
    | ready => exact absurd hs (h.scheduled.idle empty hj)
    | sleeping n =>
      rw [hs] at goes
      cases goes
      rfl
    | awaiting k =>
      rw [hs] at free
      cases free
    | joining b =>
      rw [hs] at free
      cases free
    | _ =>
      rw [hs] at goes
      cases goes
  exact ⟨asleep, h.scheduled.asleep _ j m hj asleep,
    mem_sleepEnds.mpr ⟨j, List.mem_of_getElem? hj, asleep⟩⟩

/-- **When nobody can go on, the next moment does not change what is still to come.** -/
theorem advance_following (h : Following τ rs none s) (empty : s.queue = []) {m : Nat}
    (later : s.now ≤ m) (next : ∀ n ∈ s.sleepEnds, s.now < n → m ≤ n) :
    Following τ rs none (s.advance m) where
  scheduled := advance_scheduled h.scheduled m
  lined := (advance_line h.lined m).1
  timed _ ht := nomatch ht
  runs ρ hρ := by
    have followed := h.runs ρ hρ
    have line := (advance_line h.lined m).2 ρ.number
    refine ⟨?_, followed.checker, by rw [line]; exact followed.mem,
      by rw [line]; exact followed.place⟩
    obtain ⟨j, hj, close, deaf, prospect⟩ := followed.job
    refine ⟨j.woken (JobState.sleepsUntil m), by rw [advance_getElem?, hj]; rfl,
      (j.woken_close _).trans close, by rw [Job.woken_todo]; exact deaf, ?_⟩
    show Prospect ρ τ m _
    cases prospect with
    | @going n goes free ends =>
      obtain ⟨asleep, lt, mem⟩ := h.asleep empty hj goes free
      have le := next n mem lt
      by_cases here : n ≤ m
      · have eq : n = m := Nat.le_antisymm here le
        have wakes : JobState.sleepsUntil m (.sleeping n) = true := decide_eq_true here
        have ready : (j.woken (JobState.sleepsUntil m)).state = .ready := by
          rw [Job.woken_state, asleep, if_pos wakes]
        refine .going (m := m) (by rw [ready]; rfl) (by rw [ready]; rfl) ?_
        rw [Job.woken_todo, ← eq]
        exact ends
      · have sleeps : JobState.sleepsUntil m (.sleeping n) = false := decide_eq_false here
        rw [Job.woken_eq_self (by rw [asleep]; exact sleeps)]
        exact .going (by rw [asleep]; rfl) free ends
    | ended state past early gives =>
      rw [Job.woken_eq_self (by rw [state]; rfl)]
      exact .ended state (Nat.le_trans past later) early gives
    | hung state gives =>
      rw [Job.woken_eq_self (by rw [state]; rfl)]
      exact .hung state gives

/-! ## 4. What a look shows -/

/-- A run that has a result is over, with the outcome of its course. -/
theorem Followed.known {turn : Option Turn} {ρ : AskedRun} (h : Followed τ turn s ρ) {r : Result}
    (hr : s.result? ρ.job = some r) :
    r.asCheck = outcomeBy τ.deadline (ρ.course τ) ∧ IsOver τ.deadline (ρ.course τ) s.now := by
  obtain ⟨j, hj, -, -, prospect⟩ := h.job
  obtain ⟨j', hj', state⟩ := result?_eq_some.mp hr
  rw [hj] at hj'
  cases hj'
  cases prospect with
  | going goes =>
    rw [state] at goes
    cases goes
  | ended state' past early gives =>
    rw [state] at state'
    cases state'
    have course : ρ.course τ = some (ρ.due τ, r.asCheck) := by rw [ρ.course_eq, gives]; rfl
    rw [course]
    exact ⟨(if_pos early).symm, .inr ⟨_, _, rfl, past⟩⟩
  | hung state' =>
    rw [state] at state'
    cases state'

/-- A run without a result at the deadline is late, and one that never ends is always. -/
theorem Following.late (h : Following τ rs none s) {ρ : AskedRun} (hρ : ρ ∈ rs)
    (hr : s.result? ρ.job = none) (past : τ.deadline ≤ s.now) :
    outcomeBy τ.deadline (ρ.course τ) = .failed .timedOut := by
  obtain ⟨j, hj, -, -, prospect⟩ := (h.runs ρ hρ).job
  rw [ρ.course_eq]
  cases prospect with
  | @going m goes _ ends =>
    have awake := JobState.le_goesOn goes fun n hn => Nat.le_of_lt (h.scheduled.asleep _ j n hj hn)
    have done := le_finish j.todo m
    cases ρ.verdict? τ with
    | none => rfl
    | some o => exact if_neg (by omega)
  | ended state => exact absurd state (result?_eq_none.mp hr j _ hj)
  | hung _ gives => rw [gives]; rfl

/-- When nobody can go on, a run that has no result and will be over at a later moment sleeps at
most until then. -/
theorem Following.next (h : Following τ rs none s) (empty : s.queue = []) {ρ : AskedRun}
    (hρ : ρ ∈ rs) (hr : s.result? ρ.job = none) {b : Nat}
    (isOver : IsOver τ.deadline (ρ.course τ) b) :
    τ.deadline ≤ b ∨ ∃ m ∈ s.sleepEnds, s.now < m ∧ m ≤ b := by
  refine isOver.imp id ?_
  rintro ⟨m, o, course, le⟩
  obtain ⟨j, hj, -, -, prospect⟩ := (h.runs ρ hρ).job
  rw [ρ.course_eq] at course
  cases prospect with
  | @going n goes free ends =>
    obtain ⟨-, lt, mem⟩ := h.asleep empty hj goes free
    have done := le_finish j.todo n
    obtain ⟨o', -, eq⟩ := Option.map_eq_some_iff.mp course
    have due : ρ.due τ = m := congrArg Prod.fst eq
    exact ⟨n, mem, lt, by omega⟩
  | ended state => exact absurd state (result?_eq_none.mp hr j _ hj)
  | hung _ gives =>
    rw [gives] at course
    cases course

/-- The entry of a run: an outcome that is there is that of the course, and the run is over. -/
structure Tells (τ : Period) (now : Nat) (ρ : AskedRun) (e : Entry) : Prop where
  name : e.name = ρ.name
  job : e.job = ρ.job
  outcome : ∀ o, e.outcome = some o →
    o = outcomeBy τ.deadline (ρ.course τ) ∧ IsOver τ.deadline (ρ.course τ) now

/-- The entry of a run once it has been looked at: without an outcome there is no result, and the
deadline has not come. -/
structure Told (τ : Period) (s : Service) (ρ : AskedRun) (e : Entry) : Prop
    extends Tells τ s.now ρ e where
  open_ : e.outcome = none → s.now < τ.deadline ∧ s.result? ρ.job = none

theorem Tells.seen (h : Following τ rs none s) {ρ : AskedRun} (hρ : ρ ∈ rs) {e : Entry}
    (k : Tells τ s.now ρ e) : Told τ s ρ (e.seen τ.deadline s) := by
  obtain ⟨name, job, outcome⟩ := e
  obtain ⟨hname, hjob, known⟩ := k
  dsimp only at hname hjob known
  subst hname hjob
  unfold Entry.seen
  cases outcome with
  | some o => exact ⟨⟨rfl, rfl, known⟩, nofun⟩
  | none =>
    dsimp only
    cases hr : s.result? ρ.job with
    | some r => exact ⟨⟨rfl, rfl, fun o ho => by cases ho; exact (h.runs ρ hρ).known hr⟩, nofun⟩
    | none =>
      by_cases past : τ.deadline ≤ s.now
      · refine ⟨⟨rfl, rfl, fun o ho => ?_⟩, fun k => ?_⟩
        · simp only [past, if_true] at ho
          cases ho
          exact ⟨(h.late hρ hr past).symm, .inl past⟩
        · simp only [past, if_true] at k
          cases k
      · refine ⟨⟨rfl, rfl, fun o ho => ?_⟩, fun _ => ⟨Nat.lt_of_not_le past, hr⟩⟩
        simp only [past, if_false] at ho
        cases ho

end Following

/-! ## 5. Awaiting the last run -/

/-- Whatever stands on the right of a pairing has a partner on the left. -/
theorem exists_partner {α β : Type} {R : α → β → Prop} {xs : List α} {ys : List β}
    (h : List.Forall₂ R xs ys) {y : β} (hy : y ∈ ys) : ∃ x ∈ xs, R x y := by
  induction h with
  | nil => cases hy
  | cons here _ ih =>
    rcases List.mem_cons.mp hy with rfl | hy
    · exact ⟨_, List.mem_cons_self, here⟩
    · obtain ⟨x, hx, k⟩ := ih hy
      exact ⟨x, List.mem_cons_of_mem _ hx, k⟩

section Awaiting

variable {τ : Period} {rss : List (List AskedRun)} {a₀ a : Aggregation} {as : List Aggregation}
  {s : Service}

/-- All runs are over at a moment. -/
def AllOver (τ : Period) (rs : List AskedRun) (now : Nat) : Prop :=
  ∀ ρ ∈ rs, IsOver τ.deadline (ρ.course τ) now

/-- An aggregation has an entry for each of some runs; for the rest it is as it was when it was
started. -/
def Gathers (a₀ : Aggregation) (R : AskedRun → Entry → Prop) (rs : List AskedRun)
    (a : Aggregation) : Prop :=
  ∃ es, a = { a₀ with entries := es } ∧ List.Forall₂ R rs es

theorem Gathers.imp {R R' : AskedRun → Entry → Prop} {rs : List AskedRun}
    (h : Gathers a₀ R rs a) (k : ∀ ρ e, R ρ e → R' ρ e) : Gathers a₀ R' rs a := by
  obtain ⟨es, is, entries⟩ := h
  exact ⟨es, is, entries.imp k⟩

/-- Aggregations that were started together, before a look: their runs are on course, no moment was
passed without need, and the entries have no more than their runs have told. -/
structure Ahead (τ : Period) (rss : List (List AskedRun)) (a₀ : Aggregation)
    (as : List Aggregation) (s : Service) : Prop where
  following : Following τ rss.flatten none s
  hasty : Hasty τ.start (AllOver τ rss.flatten) s.now
  gathers : List.Forall₂ (Gathers a₀ (Tells τ s.now)) rss as

/-- The same aggregations after a look: until the deadline the runs are on course, no moment was
passed without need, and the entries have what their runs have told by now. -/
structure Behind (τ : Period) (rss : List (List AskedRun)) (a₀ : Aggregation)
    (as : List Aggregation) (s : Service) : Prop where
  following : s.now < τ.deadline → Following τ rss.flatten none s
  hasty : Hasty τ.start (AllOver τ rss.flatten) s.now
  gathers : List.Forall₂ (Gathers a₀ (Told τ s)) rss as

theorem ahead_poll (limit : a₀.deadline = τ.deadline) (h : Ahead τ rss a₀ as s) :
    Behind τ rss a₀ (aggregating.poll as s).1 (aggregating.poll as s).2 := by
  obtain ⟨following, hasty, gathers⟩ := h
  show Behind τ rss a₀ (pollAggregations as s).1 (pollAggregations as s).2
  have now : (pollAggregations as s).2.now = s.now := aggregating_calm.now as s
  have results := pollAggregations_result? as s
  refine ⟨fun early => ?_, by rw [now]; exact hasty, ?_⟩
  · rw [now] at early
    rw [pollAggregations_early fun a ha => ?_]
    · exact following
    · obtain ⟨rs, -, es, rfl, -⟩ := exists_partner gathers ha
      exact Nat.lt_of_lt_of_eq early limit.symm
  · rw [pollAggregations_seen, List.forall₂_map_right_iff]
    refine ((List.forall₂_and_left rss as).mpr ⟨fun _ => id, gathers⟩).imp ?_
    rintro rs _ ⟨hrs, es, rfl, tells⟩
    refine ⟨_, rfl, ?_⟩
    dsimp only
    rw [limit, List.forall₂_map_right_iff]
    refine ((List.forall₂_and_left rs es).mpr ⟨fun _ => id, tells⟩).imp fun ρ e ⟨hρ, k⟩ => ?_
    have told := k.seen following (List.mem_flatten.mpr ⟨rs, hrs, hρ⟩)
    refine ⟨⟨told.name, told.job, ?_⟩, ?_⟩
    · rw [now]
      exact told.outcome
    · rw [now, results]
      exact told.open_

/-- A look that leaves something to wait for was before the deadline, and some run has no result. -/
theorem Behind.open_ (h : Behind τ rss a₀ as s) (more : aggregating.isDone as = false) :
    s.now < τ.deadline ∧ a₀.deadline ∈ aggregating.moments as ∧
      ∃ ρ ∈ rss.flatten, s.result? ρ.job = none := by
  obtain ⟨a, ha, e, he, unset⟩ : ∃ a ∈ as, ∃ e ∈ a.entries, e.outcome = none := by
    simpa [aggregating, Aggregation.isDone] using more
  obtain ⟨rs, hrs, es, rfl, told⟩ := exists_partner h.gathers ha
  obtain ⟨ρ, hρ, k⟩ := exists_partner told he
  obtain ⟨early, unknown⟩ := k.open_ unset
  exact ⟨early, List.mem_map.mpr ⟨_, ha, rfl⟩, ρ, List.mem_flatten.mpr ⟨rs, hrs, hρ⟩, unknown⟩

theorem behind_settle (h : Behind τ rss a₀ as s) (more : aggregating.isDone as = false) :
    Ahead τ rss a₀ as s.settle := by
  obtain ⟨early, -, -⟩ := h.open_ more
  refine ⟨settle_following (h.following early) early, ?_, ?_⟩
  · rw [settle_now]
    exact h.hasty
  · rw [settle_now]
    exact h.gathers.imp fun _ _ k => k.imp fun _ _ told => told.toTells

/-- **No moment passes that is not needed**: a run without a result sleeps until it is due, so as
long as there is one, nothing later comes next. -/
theorem behind_advance (limit : a₀.deadline = τ.deadline) (h : Behind τ rss a₀ as s)
    (more : aggregating.isDone as = false) (empty : s.queue = []) {m : Nat}
    (next : nextMoment? aggregating as s = some m) : Ahead τ rss a₀ as (s.advance m) := by
  obtain ⟨early, watched, ρ, hρ, unknown⟩ := h.open_ more
  obtain ⟨lt, -, sleeps, looks⟩ := nextMoment?_eq_some next
  have later : s.now ≤ m := Nat.le_of_lt lt
  have following := h.following early
  refine ⟨advance_following following empty later sleeps,
    ⟨Nat.le_trans h.hasty.started later, fun b _ isOver => ?_⟩, ?_⟩
  · rcases following.next empty hρ unknown (isOver ρ hρ) with le | ⟨n, mem, lt, le⟩
    · exact Nat.le_trans (looks τ.deadline (limit ▸ watched) early) le
    · exact Nat.le_trans (sleeps n mem lt) le
  · exact h.gathers.imp fun _ _ k => k.imp fun _ _ told => ⟨told.name, told.job, fun o ho =>
      (told.outcome o ho).imp_right fun isOver => isOver.mono later⟩

/-- The entry of a run when the waiting is over. -/
def Judged (τ : Period) (ρ : AskedRun) (e : Entry) : Prop :=
  e.name = ρ.name ∧ e.outcome = some (outcomeBy τ.deadline (ρ.course τ))

/-- **Every run gets the outcome of its own course, and the waiting is over as soon as all of them
are, or at the deadline.** -/
theorem await_followed (limit : a₀.deadline = τ.deadline) (h : Ahead τ rss a₀ as s) :
    List.Forall₂ (Gathers a₀ (Judged τ)) rss (await aggregating as s).1 ∧
      AllOver τ rss.flatten (await aggregating as s).2.now ∧
      Hasty τ.start (AllOver τ rss.flatten) (await aggregating as s).2.now := by
  have scheduled : Scheduled none s := h.following.scheduled
  have done := aggregating_done as scheduled
  obtain ⟨⟨-, hasty, gathers⟩, -⟩ :=
    await_rule aggregating_calm (P := Ahead τ rss a₀) (Q := Behind τ rss a₀)
      (fun _ _ _ k => ahead_poll limit k) (fun _ _ _ k more => behind_settle k more)
      (fun _ _ _ _ k more empty next => behind_advance limit k more empty next) as s scheduled h
  generalize await aggregating as s = last at *
  have final : List.Forall₂ (fun rs a => AllOver τ rs last.2.now ∧ Gathers a₀ (Judged τ) rs a)
      rss last.1 := by
    refine ((List.forall₂_and_left last.1 rss).mpr ⟨done, gathers.flip⟩).flip.imp ?_
    rintro rs _ ⟨isDone, es, rfl, told⟩
    have set : ∀ e ∈ es, e.outcome.isSome := List.all_eq_true.mp isDone
    have judged : List.Forall₂ (fun ρ e => IsOver τ.deadline (ρ.course τ) last.2.now ∧
        Judged τ ρ e) rs es := by
      refine ((List.forall₂_and_left es rs).mpr ⟨set, told.flip⟩).flip.imp fun ρ e ⟨isSet, k⟩ => ?_
      obtain ⟨o, ho⟩ := Option.isSome_iff_exists.mp isSet
      obtain ⟨rfl, isOver⟩ := k.outcome o ho
      exact ⟨isOver, k.name, ho⟩
    obtain ⟨isOver, entries⟩ := (List.forall₂_and_left rs es).mp judged
    exact ⟨isOver, es, rfl, entries⟩
  obtain ⟨isOver, judged⟩ := (List.forall₂_and_left rss last.1).mp final
  exact ⟨judged, fun ρ hρ => have ⟨rs, hrs, mem⟩ := List.mem_flatten.mp hρ; isOver rs hrs ρ mem,
    hasty⟩

/-- The report of an aggregation when the waiting is over. -/
theorem Gathers.report {rs : List AskedRun} (h : Gathers a₀ (Judged τ) rs a) :
    a.report = .ofResults a₀.time a₀.flags (rs.map fun ρ =>
      .ofOutcome ρ.name (outcomeBy τ.deadline (ρ.course τ))) := by
  obtain ⟨es, rfl, entries⟩ := h
  have results : (rs.map fun ρ => Health.CheckResult.ofOutcome ρ.name
      (outcomeBy τ.deadline (ρ.course τ))) =
      es.map fun e => .ofOutcome e.name (e.outcome.getD (.failed .timedOut)) := by
    rw [← List.forall₂_eq_eq_eq, List.forall₂_map_left_iff, List.forall₂_map_right_iff]
    exact entries.imp fun ρ e ⟨name, outcome⟩ => by rw [name, outcome]; rfl
  rw [results]
  rfl

end Awaiting

end Service

end ServiceHealth
