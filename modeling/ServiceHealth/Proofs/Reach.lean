import ServiceHealth.Proofs.Outcomes
import ServiceHealth.Proofs.Registry

/-!
# What may come to be done

Whatever is done to the service is done from outside or stands in a script, that of a checker or of
a component. A checker may register others, with scripts of their own. So an action that no script
leads to is never done but from outside, however long the service goes on.

* `Health.Action.Leads`, `Health.OutOfReach`: which actions lead to which.
* `Unplanned`: no script leads to an action. `apply_unplanned`: no move changes that but one that
  brings such a script.
* `did_not_mem_history`: **what no script leads to is not done**, unless from outside.
-/

namespace ServiceHealth

namespace Health

/-! ## 1. Actions and scripts -/

/-- An action leads to another if it is that one, or if it registers a checker one of whose actions
leads to it. -/
inductive Action.Leads : Action Checker → Action Checker → Prop where
  | refl (a : Action Checker) : Leads a a
  | register {c : Checker} {b a : Action Checker} (mem : b ∈ c.actions) (h : Leads b a) :
      Leads (.register c) a

/-- None of some actions leads to a certain one. -/
def OutOfReach (a : Action Checker) (actions : List (Action Checker)) : Prop :=
  ∀ b ∈ actions, ¬ b.Leads a

variable {a : Action Checker} {actions : List (Action Checker)}

theorem OutOfReach.not_mem (h : OutOfReach a actions) : a ∉ actions := fun mem => h a mem (.refl a)

/-- Nor does any action of a checker that is registered by one of them. -/
theorem OutOfReach.register (h : OutOfReach a actions) {c : Checker}
    (mem : .register c ∈ actions) : OutOfReach a c.actions :=
  fun _ hb leads => h _ mem (.register hb leads)

end Health

open Health

namespace Service

/-- The actions in a script. -/
def performed (todo : List Step) : List (Action Checker) :=
  todo.filterMap fun
    | .perform a => some a
    | _ => none

theorem performed_cons (a : Action Checker) (rest : List Step) :
    performed (.perform a :: rest) = a :: performed rest := rfl

theorem performed_work (delay : Option Nat) (actions : List (Action Checker)) :
    performed (work delay actions) = actions := by
  have own : performed (actions.map Step.perform) = actions := by
    induction actions with
    | nil => rfl
    | cons a actions ih => rw [List.map_cons, performed_cons, ih]
  unfold work
  cases delay with
  | none => exact own
  | some d => exact own

theorem performed_append (xs ys : List Step) :
    performed (xs ++ ys) = performed xs ++ performed ys := List.filterMap_append

/-- What is left of a script leads to no more than the script. -/
theorem outOfReach_rest {a : Action Checker} {todo rest : List Step}
    (h : OutOfReach a (performed todo)) (left : rest <:+ todo) : OutOfReach a (performed rest) :=
  fun b mem => h b ((left.sublist.filterMap _).subset mem)

/-- No script of a job or of a component leads to an action. -/
structure Confined (a : Action Checker) (s : Service) : Prop where
  jobs : ∀ (i : JobId) (j : Job), s.jobs[i]? = some j → OutOfReach a (performed j.todo)
  members : ∀ c, .component c ∈ s.members → OutOfReach a c.actions

theorem Confined.congr {a : Action Checker} {s s' : Service} (h : Confined a s)
    (jobs : s'.jobs = s.jobs) (members : s'.members = s.members) : Confined a s' where
  jobs := by rw [jobs]; exact h.jobs
  members := by rw [members]; exact h.members

/-- **No script leads to an action**, that of a checker included. -/
structure Unplanned (a : Action Checker) (s : Service) : Prop extends confined : Confined a s where
  checkers : ∀ (n : Nat) (e : Enrolled), s.checkers[n]? = some e → OutOfReach a e.checker.actions

theorem new_unplanned (a : Action Checker) (setup : Setup) (clock : Time.Stamp) :
    Unplanned a (.new setup clock) where
  jobs _ _ h := nomatch h
  checkers _ _ h := nomatch h
  members _ h := nomatch h

/-- Neither does a teardown lead further than its component. -/
theorem Unplanned.teardown {a : Action Checker} {s : Service} (h : Unplanned a s) (deadline : Nat)
    {m : Member} (mem : m ∈ s.members) : OutOfReach a (performed (s.teardown deadline m).todo) := by
  cases m with
  | component c =>
    have same : performed (s.teardown deadline (.component c)).todo = c.actions := by
      show performed (work c.delay c.actions ++ _) = _
      rw [performed_append, performed_work]
      cases c.ending <;> exact List.append_nil _
    rw [same]
    exact h.members c mem
  | task task => nofun

end Service

open Service

/-! ## 2. Moves -/

/-- The actions that a move leaves to a checker or to a component. -/
def Move.leaves : Move → List (Action Checker)
  | .act (.register c) => c.actions
  | .addComponent c => c.actions
  | _ => []

namespace World

section Unplanned

variable {a : Action Checker} {w : World} {m : Move}

theorem outside_confined (enlisted : Enlisted w.service) (h : Unplanned a w.service)
    (leaves : OutOfReach a m.leaves) : Confined a (w.outside m).service := by
  by_cases hb : m = .begin
  · subst hb
    exact h.confined.congr (begin_jobs w.service) (JobsOnly.begin w.service).members
  refine outside_rule (P := Confined a) hb h.confined (fun _ _ q k => k.congr q.jobs q.members)
    (fun c e => ⟨h.jobs, fun c' mem => ?_⟩) (fun t _ => ⟨fun i j hj => ?_, fun c mem => ?_⟩)
    (fun s n c d listed k => ⟨fun i j hj => ?_, k.members⟩)
    (fun s job _ k => ⟨fun i j hj => ?_, k.members⟩)
    (fun k _ _ => ⟨fun i j hj => ?_, fun c mem => ?_⟩)
    (fun _ _ d => ⟨fun i j hj => ?_, h.members⟩) (fun moment _ => ⟨fun i j hj => ?_, h.members⟩)
  · subst e
    rcases List.mem_append.mp mem with old | new
    · exact h.members c' old
    · cases List.mem_singleton.mp new
      exact leaves
  · rcases spawn_getElem? hj with old | ⟨-, rfl⟩
    · exact h.jobs i j old
    · have none : performed (Job.ofBody w.service.tasks.length t).todo = [] := by
        unfold Job.ofBody
        cases t.waits <;> cases t.delay <;> cases t.ending <;> rfl
      rw [none]
      nofun
  · rcases List.mem_append.mp mem with old | new
    · exact h.members c old
    · cases List.mem_singleton.mp new
  · -- whoever is registered is one of the checkers, whose scripts do not lead there
    rcases spawn_getElem? hj with old | ⟨-, rfl⟩
    · exact k.jobs i j old
    · obtain ⟨⟨name, mem⟩, known⟩ := listed
      obtain ⟨e, he, -⟩ := enlisted name n (Keyed.get?_eq_some.mpr mem)
      rw [known e he]
      show OutOfReach a (performed (work e.checker.delay e.checker.actions))
      rw [performed_work]
      exact h.checkers n e he
  · rcases abort_getElem? hj with old | ⟨j', old, -, rfl⟩
    · exact k.jobs i j old
    · exact k.jobs i j' old
  · rw [(claim_frame _ k).1] at hj
    obtain ⟨j', old, rfl⟩ := woken_of hj
    rw [Job.woken_todo]
    exact h.jobs i j' old
  · rw [((JobsOnly.fire _ _).trans (.claim _ k)).members] at mem
    exact h.members c mem
  · rcases teardownsStarted_getElem? hj with old | ⟨m', -, here, rfl⟩
    · exact h.jobs i j old
    · exact h.teardown d (List.mem_of_getElem? here)
  · obtain ⟨j', old, rfl⟩ := woken_of hj
    rw [Job.woken_todo]
    exact h.jobs i j' old

/-- Whoever has its turn does nothing that leads there. -/
theorem Unplanned.turn (h : Unplanned a w.service) (scheduled : Scheduled w.turn w.service)
    {t : Turn} (ht : w.turn = some t) : OutOfReach a (performed t.todo) := by
  obtain ⟨j, hj, -, -, left⟩ := scheduled.seated t ht
  exact outOfReach_rest (h.jobs _ j hj) left

/-- **No move changes that no script leads to an action** but one that brings such a script. -/
theorem apply_unplanned (scheduled : Scheduled w.turn w.service) (enlisted : Enlisted w.service)
    (h : Unplanned a w.service) (leaves : OutOfReach a m.leaves) :
    Unplanned a (w.apply m).service := by
  have registers : ∀ c, .did (.register c) ∈ w.happenings m → OutOfReach a c.actions := by
    intro c mem
    cases observed_of_mem mem with
    | acted => exact leaves
    | performed ht todo =>
      refine (Unplanned.turn h scheduled ht).register ?_
      rw [todo]
      exact List.mem_cons_self
  have checkers : ∀ (n : Nat) (e : Enrolled), (w.apply m).service.checkers[n]? = some e →
      OutOfReach a e.checker.actions := by
    intro n e he
    cases apply_enrolment w m with
    | same registry => exact h.checkers n e (registry.checkers ▸ he)
    | began _ _ _ checkers =>
      rw [checkers] at he
      obtain ⟨e', he', rfl⟩ := Option.map_eq_some_iff.mp he
      split <;> exact h.checkers n e' he'
    | registered c registry said =>
      rw [registry.checkers] at he
      rcases List.mem_append.mp (List.mem_of_getElem? he) with old | new
      · obtain ⟨k, hk⟩ := List.getElem?_of_mem old
        exact h.checkers k e hk
      · rw [List.mem_singleton.mp new]
        exact registers c (by rw [said]; exact List.mem_cons_self)
  rcases w.apply_cases m with ⟨-, e⟩ | ⟨t, ht, -, e⟩ | ⟨t, -, -, e⟩
  · have confined := outside_confined enlisted h leaves
    rw [e] at checkers ⊢
    exact ⟨confined, checkers⟩
  · rw [ht] at scheduled
    rw [e] at checkers ⊢
    refine ⟨⟨fun i j hj => ?_, fun c mem => ?_⟩, checkers⟩
    · obtain ⟨j', hj', evolved⟩ := (step_evolves scheduled).jobs i j hj
      exact outOfReach_rest (h.jobs i j' hj') evolved.todo
    · exact h.members c (step_members t w.service ▸ mem)
  · rw [e]
    exact h

theorem after_unplanned {ms : List Move} (scheduled : Scheduled w.turn w.service)
    (enlisted : Enlisted w.service) (h : Unplanned a w.service)
    (leaves : ∀ m ∈ ms, OutOfReach a m.leaves) : Unplanned a (w.after ms).service := by
  induction ms generalizing w with
  | nil => exact h
  | cons m ms ih =>
    exact ih (apply_scheduled w m scheduled) ((apply_enrolment w m).enlisted enlisted)
      (apply_unplanned scheduled enlisted h (leaves m List.mem_cons_self))
      fun m' mem => leaves m' (List.mem_cons_of_mem _ mem)

/-- **What no script leads to is not done**, unless from outside. -/
theorem did_not_mem_history {ms : List Move} (scheduled : Scheduled w.turn w.service)
    (enlisted : Enlisted w.service) (h : Unplanned a w.service)
    (leaves : ∀ m ∈ ms, OutOfReach a m.leaves) (never : .act a ∉ ms) :
    .did a ∉ w.history ms := by
  intro mem
  obtain ⟨before, m, later, rfl, here⟩ := mem_history mem
  have unplanned : Unplanned a (w.after before).service :=
    after_unplanned scheduled enlisted h fun m' mem' => leaves m' (List.mem_append_left _ mem')
  cases observed_of_mem here with
  | acted => exact never (List.mem_append_right _ List.mem_cons_self)
  | performed ht todo =>
    refine (Unplanned.turn unplanned (after_scheduled w before scheduled) ht).not_mem ?_
    rw [todo]
    exact List.mem_cons_self

end Unplanned

end World

end ServiceHealth
