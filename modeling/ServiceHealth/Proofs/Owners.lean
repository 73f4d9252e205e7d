import Mathlib.Data.List.Nodup
import ServiceHealth.Proofs.Detached
import ServiceHealth.Proofs.Finality

/-!
# Whose runs they are

A job that runs a checker begins a run of this checker and of no other, and one aggregation waits
for it. Nothing changes that, whoever is registered under the name of the checker meanwhile: the run
goes on until its own aggregation has its outcome.

* `Owned`, `after_owned`: **every run is one of the checker whose verdict its job gives**.
* `Custody`, `after_custody`: **no run is given up for whose outcome somebody waits**.
* `Supplies`: an entry has its outcome from a checker and from no other.
* `inquire_supplies`: whoever was registered under a name when it was asked for supplies the entry.
-/

namespace ServiceHealth

namespace Service

/-! ## 1. The checker of a run -/

/-- A job begins runs of no checker but the one whose verdict it gives. -/
def Job.BeginsOwn (j : Job) : Prop := ∀ k, Step.begin k ∈ j.todo → ∃ d, j.close = .verdict k d

theorem Job.BeginsOwn.evolves {s : Service} {j j' : Job} (h : j.BeginsOwn) (e : j.Evolves s j') :
    j'.BeginsOwn := by
  intro k mem
  obtain ⟨d, close⟩ := h k (e.todo.subset mem)
  rcases e.close with same | ⟨_, _, stop, -⟩
  · exact ⟨d, same.trans close⟩
  · rw [close] at stop
    cases stop

theorem ofRun_beginsOwn (n : Nat) (c : Health.Checker) (d : Nat) : (Job.ofRun n c d).BeginsOwn := by
  intro k mem
  rcases List.mem_cons.mp mem with here | later
  · cases here
    exact ⟨d, rfl⟩
  · exact absurd later (begin_not_mem_work _ _ k)

theorem ofBody_beginsOwn (task : Nat) (t : Shutdown.Task) : (Job.ofBody task t).BeginsOwn := by
  intro k mem
  rcases List.mem_cons.mp mem with here | later
  · cases here
  · exact absurd later (ofBody_once task t k)

theorem teardown_beginsOwn (s : Service) (deadline : Nat) (m : Member) :
    (s.teardown deadline m).BeginsOwn := by
  have once := teardown_once s deadline m
  intro k mem
  cases m with
  | component c =>
    rcases List.mem_cons.mp mem with here | later
    · cases here
    · exact absurd later (once k)
  | task task => cases mem

/-- No job begins a run but its own. -/
def AllOwn (s : Service) : Prop :=
  ∀ (i : JobId) (j : Job), s.jobs[i]? = some j → j.BeginsOwn

/-- **Every run has its owner**: a job begins no run but its own, and whoever has begun a run of a
checker gives the verdict of this checker. -/
structure Owned (s : Service) : Prop where
  jobs : AllOwn s
  runs : ∀ (n : Nat), ∀ i ∈ s.runsOf n, ∃ j d, s.jobs[i]? = some j ∧ j.close = .verdict n d

theorem new_owned (setup : Setup) (clock : Time.Stamp) : Owned (.new setup clock) where
  jobs _ _ h := nomatch h
  runs _ _ h := nomatch h

/-- A run of one checker is a run of no other. -/
theorem Owned.unique {s : Service} (h : Owned s) {i : JobId} {j : Job} {n d k : Nat}
    (hj : s.jobs[i]? = some j) (close : j.close = .verdict n d) (begun : i ∈ s.runsOf k) :
    k = n := by
  obtain ⟨j', d', hj', close'⟩ := h.runs k i begun
  rw [hj] at hj'
  cases hj'
  rw [close] at close'
  cases close'
  rfl

/-- The runs that have begun when one of them begins. -/
theorem runsOf_began {s s' : Service} {k n : Nat} {job i : JobId}
    (checkers : ∀ k' : Nat, s'.checkers[k']? = (s.checkers[k']?).map fun e =>
      if k = k' then { e with runs := e.runs ++ [job] } else e)
    (hi : i ∈ s'.runsOf n) : i ∈ s.runsOf n ∨ k = n ∧ i = job := by
  unfold runsOf at hi ⊢
  rw [checkers] at hi
  cases he : s.checkers[n]? with
  | none =>
    rw [he] at hi
    cases hi
  | some e =>
    rw [he] at hi
    by_cases hk : k = n
    · rw [Option.map_some, Option.map_some, if_pos hk] at hi
      exact (List.mem_append.mp hi).imp id fun mem => ⟨hk, List.mem_singleton.mp mem⟩
    · rw [Option.map_some, Option.map_some, if_neg hk] at hi
      exact .inl hi

/-- A checker that is registered has no runs yet. -/
theorem runsOf_register (s : Service) (c : Health.Checker) (n : Nat) :
    (s.register c).runsOf n = s.runsOf n := by
  unfold runsOf register
  dsimp only
  rcases Nat.lt_trichotomy n s.checkers.length with lt | rfl | gt
  · rw [List.getElem?_append_left lt]
  · rw [List.getElem?_concat_length, List.getElem?_eq_none (Nat.le_refl _)]
    rfl
  · rw [List.getElem?_eq_none (Nat.le_of_lt gt), List.getElem?_eq_none]
    rw [List.length_append]
    exact gt

end Service

open Service

namespace World

theorem outside_allOwn {w : World} (h : AllOwn w.service) (m : Move) :
    AllOwn (w.outside m).service := by
  have woken : ∀ {s s' : Service} {p : JobState → Bool}, s'.jobs = (s.wake p).jobs →
      s.jobs = w.service.jobs → AllOwn s' := by
    intro s s' p jobs same i j hj
    rw [jobs] at hj
    obtain ⟨j', hj', rfl⟩ := woken_of hj
    exact (h i j' (same ▸ hj')).evolves (j'.evolves_woken s p)
  by_cases hb : m = .begin
  · subst hb
    intro i j hj
    exact h i j (begin_jobs w.service ▸ hj)
  refine outside_rule (P := AllOwn) hb h
    (fun _ _ q h i j hj => h i j (q.jobs ▸ hj)) (fun _ _ => h) (fun t _ i j hj => ?_)
    (fun s n c d _ h i j hj => ?_) (fun s job _ h i j hj => ?_)
    (fun k _ _ => woken (claim_frame _ k).1 rfl) (fun _ _ d i j hj => ?_)
    (fun moment _ => woken (s := { w.service with now := moment }) rfl rfl)
  · rcases spawn_getElem? hj with old | ⟨-, rfl⟩
    · exact h i j old
    · exact ofBody_beginsOwn _ t
  · rcases spawn_getElem? hj with old | ⟨-, rfl⟩
    · exact h i j old
    · exact ofRun_beginsOwn n c d
  · rcases abort_getElem? hj with old | ⟨j', old, -, rfl⟩
    · exact h i j old
    · exact h i j' old
  · rcases teardownsStarted_getElem? hj with old | ⟨m', -, -, rfl⟩
    · exact h i j old
    · exact teardown_beginsOwn _ d m'

/-- **Every move keeps what holds of all runs.** -/
theorem apply_owned {w : World} (scheduled : Scheduled w.turn w.service) (h : Owned w.service)
    (m : Move) :
    Owned (w.apply m).service := by
  have later := apply_later w m scheduled
  have kept : ∀ {n : Nat} {i : JobId}, (∃ j d, w.service.jobs[i]? = some j ∧
      j.close = .verdict n d) → ∃ j d, (w.apply m).service.jobs[i]? = some j ∧
        j.close = .verdict n d := by
    rintro n i ⟨j, d, hj, close⟩
    obtain ⟨j', hj', close'⟩ := later.runs i j n d hj close
    exact ⟨j', d, hj', close'⟩
  refine ⟨fun i j hj => ?_, fun n i hi => ?_⟩
  · rcases w.apply_cases m with ⟨-, e⟩ | ⟨t, ht, -, e⟩ | ⟨t, -, -, e⟩
    · rw [e] at hj
      exact outside_allOwn h.jobs m i j hj
    · rw [ht] at scheduled
      rw [e] at hj
      obtain ⟨j', hj', evolved⟩ := (step_evolves scheduled).jobs i j hj
      exact (h.jobs i j' hj').evolves evolved
    · rw [e] at hj
      exact h.jobs i j hj
  · refine kept ?_
    cases apply_enrolment w m with
    | same registry =>
      rw [runsOf_congr registry.checkers] at hi
      exact h.runs n i hi
    | @began t k _ seat todo _ checkers =>
      rcases runsOf_began checkers hi with old | ⟨rfl, rfl⟩
      · exact h.runs n i old
      · obtain ⟨j, hj, -, -, left⟩ := scheduled.seated t seat
        obtain ⟨d, close⟩ := h.jobs _ j hj k (left.subset (by rw [todo]; exact List.mem_cons_self))
        exact ⟨j, d, hj, close⟩
    | registered c registry =>
      rw [runsOf_congr registry.checkers, runsOf_register] at hi
      exact h.runs n i hi

theorem after_owned (w : World) (ms : List Move) (scheduled : Scheduled w.turn w.service)
    (h : Owned w.service) : Owned (w.after ms).service :=
  (after_induction (P := fun w => Scheduled w.turn w.service ∧ Owned w.service)
    (fun w m ⟨scheduled, h⟩ => ⟨apply_scheduled w m scheduled, apply_owned scheduled h m⟩)
    w ms ⟨scheduled, h⟩).2

end World

namespace Service

/-! ## 2. Runs that go on -/

/-- A job that nobody has given up. -/
def Going (s : Service) (i : JobId) : Prop := ∃ j, s.jobs[i]? = some j ∧ j.state ≠ .aborted

section Going

variable {s : Service} {i : JobId}

theorem Going.congr {s' : Service} (h : s.Going i) (same : s'.jobs[i]? = s.jobs[i]?) :
    s'.Going i := by
  unfold Going
  rw [same]
  exact h

theorem Going.lt (h : s.Going i) : i < s.jobs.length := by
  obtain ⟨j, hj, -⟩ := h
  exact (List.getElem?_eq_some_iff.mp hj).1

/-- The jobs of an aggregation that is started are new, and those before it stay as they are. -/
theorem startAggregation_going (s : Service) (deadline : Nat) :
    (∀ i, i < s.jobs.length → (s.startAggregation deadline).2.jobs[i]? = s.jobs[i]?) ∧
      ∀ e ∈ (s.startAggregation deadline).1.entries, s.jobs.length ≤ e.job ∧
        (s.startAggregation deadline).2.Going e.job := by
  constructor
  · intro i lt
    show (startRuns deadline _ s).2.jobs[i]? = _
    rw [startRuns_eq]
    exact List.getElem?_append_left lt
  · intro e mem
    obtain ⟨k, hk⟩ := List.getElem?_of_mem mem
    obtain ⟨x, -, rfl, hj⟩ := startRuns_entry hk
    refine ⟨Nat.le_add_right _ _, _, hj, ?_⟩
    unfold runJob
    split <;> nofun

/-- A look that leaves an entry without an outcome changes nothing. -/
theorem Entry.poll_open {deadline : Nat} {e : Entry} (h : (e.poll deadline s).1.outcome = none) :
    e.poll deadline s = (e, s) := by
  unfold Entry.poll at h ⊢
  split
  · rfl
  · rename_i unset
    rw [unset] at h
    dsimp only at h
    split
    · rename_i known
      rw [known] at h
      cases h
    · rename_i unknown
      rw [unknown] at h
      split
      · rename_i past
        rw [if_pos past] at h
        cases h
      · rfl

/-- A look at an entry gives up no run but its own. -/
theorem Going.poll (h : s.Going i) (deadline : Nat) {e : Entry} (other : e.job ≠ i) :
    (e.poll deadline s).2.Going i := by
  refine h.congr ?_
  unfold Entry.poll
  split
  · rfl
  · split
    · rfl
    · split
      · unfold Service.abort
        dsimp only
        rw [updateJob_getElem?]
        cases s.jobs[i]? with
        | none => rfl
        | some j => simp [other]
      · rfl

/-- **A look at an aggregation** gives up none whose outcome is still waited for. -/
theorem pollEntries_going (deadline : Nat) {es : List Entry} {s : Service}
    (once : (es.map (·.job)).Nodup) (h : ∀ e ∈ es, e.outcome = none → s.Going e.job) :
    ∀ e ∈ (pollEntries deadline es s).1, e.outcome = none →
      (pollEntries deadline es s).2.Going e.job := by
  induction es generalizing s with
  | nil => exact nofun
  | cons e es ih =>
    rw [List.map_cons, List.nodup_cons] at once
    have others : ∀ x ∈ es, x.job ≠ e.job := fun x mem same =>
      once.1 (same ▸ List.mem_map_of_mem mem)
    have parts : pollEntries deadline (e :: es) s =
        ((e.poll deadline s).1 :: (pollEntries deadline es (e.poll deadline s).2).1,
          (pollEntries deadline es (e.poll deadline s).2).2) := rfl
    rw [parts]
    intro x mem unset
    rcases List.mem_cons.mp mem with here | mem
    · rw [here] at unset
      have still := Entry.poll_open unset
      have same := pollEntries_others deadline es s others
      rw [still] at here unset ⊢
      rw [here]
      exact (h e List.mem_cons_self unset).congr same
    · exact ih once.2 (fun y hy unset' => (h y (List.mem_cons_of_mem _ hy) unset').poll deadline
        (others y hy).symm) x mem unset

end Going

end Service

namespace World

/-- The jobs of the runs that each aggregation waits for. -/
def runLists (w : World) : List (List JobId) :=
  w.inquiries.map fun q => q.aggregation.entries.map (·.job)

/-- What stands at a place of a list to which one more is added. -/
theorem of_concat {α : Type} {xs : List α} {x y : α} {i : Nat} (h : (xs ++ [x])[i]? = some y) :
    xs[i]? = some y ∨ i = xs.length ∧ y = x := by
  rw [List.getElem?_append] at h
  split at h
  · exact .inl h
  · rw [List.getElem?_singleton] at h
    split at h
    · exact .inr ⟨by omega, (Option.some.inj h).symm⟩
    · cases h

/-- What does not show in a list if an element is replaced. -/
theorem map_set_same {α β : Type} {f : α → β} {xs : List α} {i : Nat} {x y : α}
    (hx : xs[i]? = some x) (same : f y = f x) : (xs.set i y).map f = xs.map f := by
  obtain ⟨lt, rfl⟩ := List.getElem?_eq_some_iff.mp hx
  rw [List.map_set, same, ← List.getElem_map f (h := by rw [List.length_map]; exact lt),
    List.set_getElem_self]

/-- **Every run has one aggregation that waits for it**, and as long as there is no outcome nobody
has given it up. -/
structure Custody (w : World) : Prop where
  single : ∀ (i i' : Nat) (is is' : List JobId), w.runLists[i]? = some is →
    w.runLists[i']? = some is' → ∀ job ∈ is, job ∈ is' → i = i'
  once : ∀ is ∈ w.runLists, is.Nodup
  known : ∀ is ∈ w.runLists, ∀ job ∈ is, job < w.service.jobs.length
  going : ∀ q ∈ w.inquiries, ∀ e ∈ q.aggregation.entries, e.outcome = none →
    w.service.Going e.job

theorem new_custody (setup : Setup) (clock : Time.Stamp) : Custody (new setup clock) where
  single _ _ _ _ h := nomatch h
  once _ h := nomatch h
  known _ h := nomatch h
  going _ h := nomatch h

section Custody

variable {w w' : World}

/-- Whatever leaves the runs of the aggregations what they are. -/
theorem Custody.carry (h : Custody w) (lists : w'.runLists = w.runLists)
    (length : w.service.jobs.length ≤ w'.service.jobs.length)
    (going : ∀ q ∈ w'.inquiries, ∀ e ∈ q.aggregation.entries, e.outcome = none →
      w'.service.Going e.job) : Custody w' where
  single := by rw [lists]; exact h.single
  once := by rw [lists]; exact h.once
  known is mem job hj := Nat.lt_of_lt_of_le (h.known is (lists ▸ mem) job hj) length
  going := going

/-- An aggregation whose runs are new ones. -/
theorem Custody.add (h : Custody w) {q : Inquiry} {s : Service}
    (length : w.service.jobs.length ≤ s.jobs.length)
    (old : ∀ i, i < w.service.jobs.length → s.jobs[i]? = w.service.jobs[i]?)
    (once : (q.aggregation.entries.map (·.job)).Nodup)
    (new : ∀ e ∈ q.aggregation.entries, w.service.jobs.length ≤ e.job ∧ s.Going e.job) :
    Custody { w with service := s, inquiries := w.inquiries ++ [q] } := by
  have lists : runLists { w with service := s, inquiries := w.inquiries ++ [q] } =
      w.runLists ++ [q.aggregation.entries.map (·.job)] := List.map_append
  have apart : ∀ is ∈ w.runLists, ∀ job ∈ is, job ∉ q.aggregation.entries.map (·.job) := by
    intro is mem job hj k
    obtain ⟨e, he, rfl⟩ := List.mem_map.mp k
    exact absurd (new e he).1 (Nat.not_le.mpr (h.known is mem _ hj))
  refine ⟨fun i i' is is' hi hi' job mem mem' => ?_, fun is mem => ?_, fun is mem job hj => ?_,
    fun q' mem e he unset => ?_⟩
  · rw [lists] at hi hi'
    rcases of_concat hi with hi | ⟨last, rfl⟩ <;> rcases of_concat hi' with hi' | ⟨last', rfl⟩
    · exact h.single i i' is is' hi hi' job mem mem'
    · exact absurd mem' (apart is (List.mem_of_getElem? hi) job mem)
    · exact absurd mem (apart is' (List.mem_of_getElem? hi') job mem')
    · rw [last, last']
  · rw [lists] at mem
    rcases List.mem_append.mp mem with there | here
    · exact h.once is there
    · rw [List.mem_singleton.mp here]
      exact once
  · rw [lists] at mem
    rcases List.mem_append.mp mem with there | here
    · exact Nat.lt_of_lt_of_le (h.known is there job hj) length
    · rw [List.mem_singleton.mp here] at hj
      obtain ⟨e, he, rfl⟩ := List.mem_map.mp hj
      exact (new e he).2.lt
  · rcases List.mem_append.mp mem with there | here
    · have going := h.going q' there e he unset
      exact going.congr (old _ going.lt)
    · rw [List.mem_singleton.mp here] at he
      exact (new e he).2

theorem inquire_custody (h : Custody w) (request : Option Probe.Request) (timeout : Nat) :
    Custody (w.inquire request timeout) := by
  have length := outside_length w (.ask timeout)
  change _ ≤ (w.inquire none timeout).service.jobs.length at length
  unfold inquire at length ⊢
  split
  · exact h
  · rename_i deadline computable
    rw [computable] at length
    obtain ⟨old, new⟩ := startAggregation_going w.service deadline
    refine h.add length old ?_ new
    show ((w.service.startAggregation deadline).1.entries.map (·.job)).Nodup
    rw [startAggregation_jobs]
    exact List.nodup_range'

/-- **A look at an aggregation keeps the runs of all others.** -/
theorem look_custody (h : Custody w) (k : Nat) : Custody (w.look k) := by
  have length := outside_length w (.look k)
  change _ ≤ (w.look k).service.jobs.length at length
  unfold look at length ⊢
  split
  · rename_i q hq
    rw [hq] at length
    have lists : ∀ {i : Nat} {q : Inquiry}, w.inquiries[i]? = some q →
        w.runLists[i]? = some (q.aggregation.entries.map (·.job)) := by
      intro i q hi
      unfold runLists
      rw [List.getElem?_map, hi]
      rfl
    refine h.carry (map_set_same hq (pollEntries_jobs _ _ _)) length fun q' mem e he unset => ?_
    obtain ⟨i, hi⟩ := List.getElem?_of_mem mem
    by_cases own : k = i
    · subst own
      rw [List.getElem?_set_self (List.getElem?_eq_some_iff.mp hq).1] at hi
      cases hi
      exact pollEntries_going _ (h.once _ (List.mem_of_getElem? (lists hq)))
        (h.going q (List.mem_of_getElem? hq)) e he unset
    · rw [List.getElem?_set_ne own] at hi
      refine (h.going q' (List.mem_of_getElem? hi) e he unset).congr
        (pollEntries_others _ _ _ fun x hx same => ?_)
      exact own (h.single k i _ _ (lists hq) (lists hi) e.job
        (same ▸ List.mem_map_of_mem hx) (List.mem_map_of_mem he))
  · exact h

/-- Nobody but those who look at an aggregation gives up a run. -/
theorem outside_going {m : Move} (looks : ∀ k, m ≠ .look k) {i : JobId}
    (h : w.service.Going i) : (w.outside m).service.Going i := by
  by_cases answers : ∃ k, m = .answer k
  · obtain ⟨k, rfl⟩ := answers
    refine h.congr ?_
    unfold outside answer
    dsimp only
    split
    · split <;> rfl
    · rfl
  · -- whoever is waited for makes no difference to what else can happen
    have asked : ∀ request timeout, (w.inquire request timeout).service =
        (inquire { w with inquiries := [] } request timeout).service := by
      intro request timeout
      unfold inquire
      dsimp only
      split <;> rfl
    have alone : (w.outside m).service = (outside { w with inquiries := [] } m).service := by
      cases m with
      | look k => exact absurd rfl (looks k)
      | answer k => exact absurd ⟨k, rfl⟩ answers
      | ask timeout => exact asked none timeout
      | request r =>
        unfold outside receive
        dsimp only
        split
        · exact asked _ _
        · rfl
      | call =>
        unfold outside call
        dsimp only
        split <;> rfl
      | lookCall i =>
        unfold outside lookCall
        dsimp only
        split <;> rfl
      | advance moment =>
        unfold outside
        dsimp only
        split <;> rfl
      | _ => rfl
    rw [alone]
    exact (outside_spared (w := { w with inquiries := [] }) ⟨nofun, h⟩ m).2

/-- What can become of the aggregations if nobody looks at them. -/
theorem outside_aggregations {m : Move} (looks : ∀ k, m ≠ .look k) :
    (w.outside m).inquiries.map (·.aggregation) = w.inquiries.map (·.aggregation) ∨
      ∃ request timeout, w.outside m = w.inquire request timeout := by
  cases m with
  | look k => exact absurd rfl (looks k)
  | ask timeout => exact .inr ⟨none, timeout, rfl⟩
  | request r =>
    unfold outside receive
    dsimp only
    split
    · exact .inr ⟨some r, _, rfl⟩
    · exact .inl rfl
  | answer k =>
    refine .inl ?_
    unfold outside answer
    dsimp only
    split
    · rename_i hq
      split
      · exact map_set_same hq rfl
      · rfl
    · rfl
  | call =>
    refine .inl ?_
    unfold outside call
    dsimp only
    split <;> rfl
  | lookCall i =>
    refine .inl ?_
    unfold outside lookCall
    dsimp only
    split <;> rfl
  | advance moment =>
    refine .inl ?_
    unfold outside
    dsimp only
    split <;> rfl
  | _ => exact .inl rfl

theorem outside_custody (h : Custody w) (m : Move) : Custody (w.outside m) := by
  by_cases looks : ∃ k, m = .look k
  · obtain ⟨k, rfl⟩ := looks
    exact look_custody h k
  have unlooked : ∀ k, m ≠ .look k := fun k e => looks ⟨k, e⟩
  rcases outside_aggregations (w := w) unlooked with same | ⟨request, timeout, e⟩
  · have lists : (w.outside m).runLists = w.runLists := by
      have jobs := congrArg (List.map fun a : Aggregation => a.entries.map (·.job)) same
      rw [List.map_map, List.map_map] at jobs
      exact jobs
    refine h.carry lists (outside_length w m) fun q mem e he unset => ?_
    obtain ⟨q', mem', aggregation⟩ : ∃ q' ∈ w.inquiries, q'.aggregation = q.aggregation :=
      List.mem_map.mp (same ▸ List.mem_map_of_mem mem)
    exact outside_going unlooked (h.going q' mem' e (aggregation ▸ he) unset)
  · rw [e]
    exact inquire_custody h request timeout

theorem apply_custody (scheduled : Scheduled w.turn w.service) (h : Custody w) (m : Move) :
    Custody (w.apply m) := by
  rcases w.apply_cases m with ⟨-, e⟩ | ⟨t, ht, -, e⟩ | ⟨t, -, -, e⟩
  · rw [e]
    exact outside_custody h m
  · rw [ht] at scheduled
    rw [e]
    refine h.carry rfl (Nat.le_of_eq (step_evolves scheduled).length.symm)
      fun q mem e he unset => ?_
    obtain ⟨j, hj, going⟩ := h.going q mem e he unset
    exact step_unaborted scheduled hj going
  · rw [e]
    exact h

/-- **No run is given up for whose outcome somebody waits.** -/
theorem after_custody (w : World) (ms : List Move) (scheduled : Scheduled w.turn w.service)
    (h : Custody w) : Custody (w.after ms) :=
  (after_induction (P := fun w => Scheduled w.turn w.service ∧ Custody w)
    (fun w m ⟨scheduled, h⟩ => ⟨apply_scheduled w m scheduled, apply_custody scheduled h m⟩)
    w ms ⟨scheduled, h⟩).2

end Custody

end World

namespace Service

/-! ## 3. Entries -/

/-- An entry has its outcome from the checker with a number and from no other: its run is one of
this checker, nobody gives it up while there is no outcome, and the outcome is that of the run, or
there was none at the deadline. -/
structure Supplies (s : Service) (deadline n : Nat) (c : Health.Checker) (e : Entry) : Prop where
  stems : Stems s deadline n c e
  own : ∀ k, e.job ∈ s.runsOf k → k = n
  going : e.outcome = none → s.Going e.job
  gone : ∀ o, e.outcome = some o → ∃ j, s.jobs[e.job]? = some j ∧ Over deadline s.now j o

/-- **Once the run has ended, a look shows what it has given.** -/
theorem Supplies.heard {s : Service} {deadline n : Nat} {c : Health.Checker} {e : Entry}
    (h : Supplies s deadline n c e) {r : Result} (ended : s.result? e.job = some r) :
    (e.seen deadline s).outcome = some r.asCheck := by
  unfold Entry.seen
  rw [ended]
  cases ho : e.outcome with
  | none => rfl
  | some o =>
    obtain ⟨j, hj, gone⟩ := h.gone o ho
    obtain ⟨j', hj', state⟩ := result?_eq_some.mp ended
    rw [hj] at hj'
    cases hj'
    rcases gone with ⟨r', ended', rfl⟩ | ⟨aborted, -⟩
    · rw [state] at ended'
      cases ended'
      rfl
    · rw [state] at aborted
      cases aborted

end Service

namespace World

section Supplies

variable {w : World} {timeout deadline : Nat}

/-- **Whoever was registered under a name when it was asked for supplies the entry for ever**,
whatever is registered under that name later. -/
theorem inquire_supplies (vouched : ResultsVouched w) (owned : Owned w.service)
    (custody : Custody w) (sure : AllSure w) (free : w.turn = none)
    (computable : deadline? w.service.now timeout = some deadline) (request : Option Probe.Request)
    (ms : List Move) :
    ∃ q, ((w.inquire request timeout).after ms).inquiries[w.inquiries.length]? = some q ∧
      Snapshot w.service request deadline ((w.inquire request timeout).after ms).service q ∧
      ∀ e ∈ q.aggregation.entries, ∃ n c, w.service.roster.get? e.name = some n ∧
        w.service.registered? e.name = some c ∧
        Supplies ((w.inquire request timeout).after ms).service deadline n c e := by
  obtain ⟨q, hq, snapshot⟩ := inquire_snapshot vouched free computable request ms
  have scheduled := (vouched.inquire free computable request).scheduled
  have owned' : Owned (w.inquire request timeout).service := by
    have asked := apply_owned vouched.scheduled owned (.ask timeout)
    have same : w.apply (.ask timeout) = w.inquire none timeout := apply_free free _
    rw [same, inquire_eq computable] at asked
    rw [inquire_eq computable]
    exact asked
  have owned'' := after_owned _ ms scheduled owned'
  have custody' := after_custody _ ms scheduled (inquire_custody custody request timeout)
  have overs := (inquire_runs free computable request vouched sure hq).2
  refine ⟨q, hq, snapshot, fun e mem => ?_⟩
  obtain ⟨n, c, hn, hc, stems⟩ := snapshot.entries e mem
  obtain ⟨j, hj, close⟩ := stems.job
  refine ⟨n, c, hn, hc, stems, fun k begun => owned''.unique hj close begun,
    custody'.going q (List.mem_of_getElem? hq) e mem, fun o ho => ?_⟩
  rw [← snapshot.limit]
  exact (overs e mem).gone o ho

end Supplies

end World

end ServiceHealth
