import ServiceHealth.Proofs.World

/-!
# Who is registered

A name stands for the checker that was last registered under it. Checkers that were replaced stay
in the list of all checkers under their numbers, so a run that has been started goes on with the
checker it was started for; all that happens to a checker is that runs of it begin.

* `apply_enrolment`: what a move can do to the registry.
* `Enlisted`: every name leads to a checker with that name, in every world.
* `after_registered`: **under a name stands what the history has registered last**.
-/

namespace ServiceHealth

namespace Service

/-! ## 1. Names and numbers -/

/-- The checker under a name, with its runs. -/
def enrolled? (s : Service) (name : String) : Option Enrolled :=
  (s.roster.get? name).bind (s.checkers[·]?)

/-- The checker that is registered under a name. -/
def registered? (s : Service) (name : String) : Option Health.Checker :=
  (s.enrolled? name).map (·.checker)

/-- Every name leads to a checker, which has that name. -/
def Enlisted (s : Service) : Prop :=
  ∀ name n, s.roster.get? name = some n →
    ∃ e, s.checkers[n]? = some e ∧ e.checker.name = name

theorem new_enlisted (setup : Setup) (clock : Time.Stamp) : Enlisted (.new setup clock) :=
  fun _ _ h => nomatch h

theorem Enlisted.enrolled {s : Service} (h : Enlisted s) {name : String} {n : Nat}
    (hn : s.roster.get? name = some n) :
    ∃ e, s.checkers[n]? = some e ∧ s.enrolled? name = some e ∧ e.checker.name = name := by
  obtain ⟨e, he, hname⟩ := h name n hn
  exact ⟨e, he, by rw [enrolled?, hn, Option.bind_some, he], hname⟩

/-- **The names are those under which somebody is registered.** -/
theorem Enlisted.mem_names {s : Service} (h : Enlisted s) {name : String} :
    name ∈ s.checkerNames ↔ ∃ c, s.registered? name = some c := by
  unfold checkerNames
  rw [Keyed.mem_keys]
  constructor
  · rintro ⟨n, hn⟩
    obtain ⟨e, -, he, -⟩ := h.enrolled hn
    exact ⟨e.checker, by rw [registered?, he]; rfl⟩
  · rintro ⟨c, hc⟩
    obtain ⟨e, he, -⟩ := Option.map_eq_some_iff.mp hc
    obtain ⟨n, hn, -⟩ := Option.bind_eq_some_iff.mp he
    exact ⟨n, hn⟩

/-- The second state has the registry of the first. -/
structure SameRegistry (s s' : Service) : Prop where
  roster : s'.roster = s.roster
  checkers : s'.checkers = s.checkers

theorem SameRegistry.refl (s : Service) : SameRegistry s s := ⟨rfl, rfl⟩

theorem JobsOnly.registry {s s' : Service} (h : JobsOnly s s') : SameRegistry s s' :=
  ⟨h.roster, h.checkers⟩

/-! ## 2. What becomes of checkers -/

/-- Every checker of the first state is there in the second, under the same number, and the runs
that have begun in between come after those that had begun before. -/
def Grown (s s' : Service) : Prop :=
  ∀ (n : Nat) (e : Enrolled), s.checkers[n]? = some e →
    ∃ more : List JobId, s'.checkers[n]? = some ⟨e.checker, e.runs ++ more⟩

theorem Grown.refl (s : Service) : Grown s s :=
  fun _ _ he => ⟨[], by rw [List.append_nil]; exact he⟩

theorem Grown.trans {s s' s'' : Service} (h : Grown s s') (k : Grown s' s'') : Grown s s'' := by
  intro n e he
  obtain ⟨more, h⟩ := h n e he
  obtain ⟨later, k⟩ := k n _ h
  exact ⟨more ++ later, by rw [k, List.append_assoc]⟩

theorem SameRegistry.grown {s s' : Service} (h : SameRegistry s s') : Grown s s' := by
  intro n e he
  rw [h.checkers]
  exact Grown.refl s n e he

theorem grown_register (s : Service) (c : Health.Checker) : Grown s (s.register c) := by
  intro n e he
  refine ⟨[], ?_⟩
  show (s.checkers ++ [_])[n]? = _
  rw [List.getElem?_append_left (List.getElem?_eq_some_iff.mp he).1, he, List.append_nil]

theorem Enlisted.congr {s s' : Service} (h : Enlisted s) (same : SameRegistry s s') :
    Enlisted s' := by
  unfold Enlisted
  rw [same.roster, same.checkers]
  exact h

/-- What a registration leaves under a name. -/
theorem Enlisted.register {s : Service} (h : Enlisted s) (c : Health.Checker) :
    Enlisted (s.register c) ∧ ∀ name, (s.register c).enrolled? name =
      if name = c.name then some ⟨c, []⟩ else s.enrolled? name := by
  have added : (s.register c).checkers[s.checkers.length]? = some ⟨c, []⟩ :=
    List.getElem?_concat_length
  have found : ∀ name, (s.register c).roster.get? name =
      if name = c.name then some s.checkers.length else s.roster.get? name :=
    Keyed.get?_insert s.roster c.name s.checkers.length
  have old : ∀ {name n}, s.roster.get? name = some n →
      (s.register c).checkers[n]? = s.checkers[n]? := by
    intro name n hn
    obtain ⟨e, he, -⟩ := h name n hn
    exact List.getElem?_append_left (List.getElem?_eq_some_iff.mp he).1
  refine ⟨fun name n hn => ?_, fun name => ?_⟩
  · rw [found] at hn
    split at hn
    · rename_i e
      cases hn
      exact ⟨_, added, e.symm⟩
    · rw [old hn]
      exact h name n hn
  · unfold enrolled?
    rw [found]
    split
    · rw [Option.bind_some, added]
    · cases hn : s.roster.get? name with
      | none => rfl
      | some n => exact old hn

/-- A checker of which a run begins. -/
theorem beginRun_checkers (s : Service) (job : JobId) (who : String) (n k : Nat) :
    (s.beginRun job who n).checkers[k]? = (s.checkers[k]?).map fun e =>
      if n = k then { e with runs := e.runs ++ [job] } else e := by
  have modified : (s.beginRun job who n).checkers =
      s.checkers.modify n fun e => { e with runs := e.runs ++ [job] } := by
    unfold beginRun
    dsimp only
    split
    · split <;> rfl
    · rfl
  rw [modified, List.getElem?_modify]
  rfl

theorem beginRun_roster (s : Service) (job : JobId) (who : String) (n : Nat) :
    (s.beginRun job who n).roster = s.roster := by
  unfold beginRun
  dsimp only
  split
  · split <;> rfl
  · rfl

end Service

open Service

/-! ## 3. What a move can do -/

namespace World

/-- **What a move can do to the registry**: nothing, a run begins, or a checker is registered. -/
inductive Enrolment (turn : Option Turn) (s s' : Service) (hs : List Happening) : Prop where
  | same (registry : SameRegistry s s') (silent : ∀ c, .did (.register c) ∉ hs)
  | began {t : Turn} {n : Nat} {rest : List Step} (seat : turn = some t)
      (todo : t.todo = .begin n :: rest) (roster : s'.roster = s.roster)
      (checkers : ∀ k : Nat, s'.checkers[k]? = (s.checkers[k]?).map fun e =>
        if n = k then { e with runs := e.runs ++ [t.job] } else e)
      (silent : ∀ c, .did (.register c) ∉ hs)
  | registered (c : Health.Checker) (registry : SameRegistry (s.register c) s')
      (said : hs = [.did (.register c)])

theorem inquire_registry (w : World) (request : Option Probe.Request) (timeout : Nat) :
    SameRegistry w.service (w.inquire request timeout).service := by
  unfold inquire
  split
  · exact .refl _
  · exact (JobsOnly.startAggregation _ _).registry

/-- Nothing that happens outside a turn changes the registry but an action. -/
theorem outside_registry (w : World) (m : Move) (hm : ∀ a, m ≠ .act a) :
    SameRegistry w.service (w.outside m).service := by
  cases m with
  | act a => exact absurd rfl (hm a)
  | addTask t => exact ⟨rfl, rfl⟩
  | request r =>
    unfold outside receive
    dsimp only
    split
    · exact inquire_registry w _ _
    · rename_i hr
      rcases respond_frame w.service r fun ⟨b, hb⟩ => hr b hb with e | e <;> rw [e] <;>
        exact ⟨rfl, rfl⟩
  | ask timeout => exact inquire_registry w _ _
  | look i =>
    unfold outside look
    dsimp only
    split
    · exact (JobsOnly.pollAggregation _ _).registry
    · exact .refl _
  | answer i =>
    unfold outside answer
    dsimp only
    split
    · split <;> exact ⟨rfl, rfl⟩
    · exact .refl _
  | stop task giveUp => exact ((JobsOnly.fire _ _).trans (.claim _ task)).registry
  | call =>
    show SameRegistry w.service w.call.service
    rcases call_cases w with ⟨-, e, -⟩ | ⟨-, -, e, -⟩ | ⟨d, -, -, e, -⟩ <;> rw [e]
    · exact ⟨rfl, rfl⟩
    · exact ⟨rfl, rfl⟩
    · obtain ⟨_, _, _, polled⟩ :=
        poll_frame (.collecting (w.service.opening d)) (w.service.teardownsStarted d)
      dsimp only
      rw [polled]
      exact ⟨rfl, rfl⟩
  | lookCall i =>
    unfold outside lookCall
    dsimp only
    split
    · rename_i c _
      obtain ⟨_, _, _, polled⟩ := poll_frame c w.service
      rw [polled]
      exact ⟨rfl, rfl⟩
    · exact .refl _
  | begin => exact (JobsOnly.begin w.service).registry
  | advance moment =>
    unfold outside
    dsimp only
    split <;> exact ⟨rfl, rfl⟩
  | _ => exact ⟨rfl, rfl⟩

/-- What an action does to the registry. -/
theorem performAction_enrolment (turn : Option Turn) (s : Service)
    (a : Health.Action Health.Checker) : Enrolment turn s (s.performAction a) [.did a] := by
  cases a with
  | register c => exact .registered c (.refl _) rfl
  | _ => exact .same ⟨rfl, rfl⟩ (by simp)

/-- What a step of a turn does to the registry. -/
theorem step_enrolment (t : Turn) (s : Service) :
    Enrolment (some t) s (t.step s).2 (t.happenings s) := by
  rcases t.step_cases s with ⟨x, rest, ht, -, e⟩ | ⟨x, rest, state, ht, hx, e⟩ | ⟨ht, e⟩
  · rw [e]
    unfold Turn.happenings
    rw [ht]
    cases x with
    | begin n =>
      exact .began rfl ht (beginRun_roster s t.job t.who n) (beginRun_checkers s t.job t.who n)
        (by simp)
    | perform a => exact performAction_enrolment _ s a
    | noteStop d => exact .same ⟨rfl, rfl⟩ (by simp)
    | _ => exact .same ⟨rfl, rfl⟩ (by simp)
  · rw [e]
    refine .same ⟨rfl, rfl⟩ ?_
    unfold Turn.happenings
    rw [ht]
    rcases holdUp?_cases hx with ⟨d, rfl, -, -⟩ | ⟨k, rfl, -, -⟩ <;> simp
  · rw [e]
    refine .same (closed_closeJob s t.job t.close).jobsOnly.registry ?_
    unfold Turn.happenings
    rw [ht]
    cases t.close <;> simp

theorem apply_enrolment (w : World) (m : Move) :
    Enrolment w.turn w.service (w.apply m).service (w.happenings m) := by
  cases ht : w.turn with
  | none =>
    rw [apply_free ht]
    by_cases hm : ∃ a, m = .act a
    · obtain ⟨a, rfl⟩ := hm
      have said : w.happenings (.act a) = [.did a] := by
        unfold happenings
        rw [ht]
        rfl
      rw [said]
      exact performAction_enrolment _ w.service a
    · refine .same (outside_registry w m fun a e => hm ⟨a, e⟩) fun c mem => ?_
      cases observed_of_mem mem with
      | acted => exact hm ⟨_, rfl⟩
      | performed ht' =>
        rw [ht] at ht'
        cases ht'
  | some t =>
    unfold apply happenings
    rw [ht]
    dsimp only
    split
    · exact step_enrolment t w.service
    · exact .same (.refl _) (by simp)

/-! ## 4. The registry of every world -/

section Enrolment

variable {turn : Option Turn} {s s' : Service} {hs : List Happening}

theorem Enrolment.grown (h : Enrolment turn s s' hs) : Grown s s' := by
  cases h with
  | same registry => exact registry.grown
  | @began t n _ _ _ _ checkers =>
    intro k e he
    rw [checkers, he]
    by_cases hn : n = k
    · exact ⟨[t.job], by simp [hn]⟩
    · exact ⟨[], by simp [hn]⟩
  | registered c registry => exact (grown_register s c).trans registry.grown

theorem Enrolment.enlisted (h : Enrolment turn s s' hs) (enlisted : Enlisted s) : Enlisted s' := by
  cases h with
  | same registry => exact enlisted.congr registry
  | began _ _ roster checkers =>
    intro name k hk
    rw [roster] at hk
    obtain ⟨e, he, hname⟩ := enlisted name k hk
    rw [checkers, he]
    refine ⟨_, rfl, ?_⟩
    split <;> exact hname
  | registered c registry => exact (enlisted.register c).1.congr registry

end Enrolment

/-- **In every world each name leads to a checker with that name.** -/
theorem after_enlisted (w : World) (ms : List Move) (h : Enlisted w.service) :
    Enlisted (w.after ms).service :=
  after_induction (P := fun w => Enlisted w.service)
    (fun w m h => (apply_enrolment w m).enlisted h) w ms h

/-- Who is registered under a name after a happening. -/
def enlists (name : String) (r : Option Health.Checker) : Happening → Option Health.Checker
  | .did (.register c) => if name = c.name then some c else r
  | _ => r

theorem foldl_enlists_silent (name : String) (hs : List Happening) (r : Option Health.Checker)
    (silent : ∀ c, .did (.register c) ∉ hs) : hs.foldl (enlists name) r = r := by
  induction hs with
  | nil => rfl
  | cons h hs ih =>
    have here : enlists name r h = r := by
      unfold enlists
      split
      · exact absurd List.mem_cons_self (silent _)
      · rfl
    rw [List.foldl_cons, here]
    exact ih fun c mem => silent c (List.mem_cons_of_mem _ mem)

theorem Enrolment.registered? {turn : Option Turn} {s s' : Service} {hs : List Happening}
    (h : Enrolment turn s s' hs) (enlisted : Enlisted s) (name : String) :
    s'.registered? name = hs.foldl (enlists name) (s.registered? name) := by
  cases h with
  | same registry silent =>
    rw [foldl_enlists_silent name hs _ silent]
    unfold Service.registered? enrolled?
    rw [registry.roster, registry.checkers]
  | @began _ n _ _ _ roster checkers silent =>
    rw [foldl_enlists_silent name hs _ silent]
    unfold Service.registered? enrolled?
    rw [roster]
    cases s.roster.get? name with
    | none => rfl
    | some k =>
      rw [Option.bind_some, Option.bind_some, checkers, Option.map_map]
      congr 1
      funext e
      by_cases hn : n = k <;> simp [hn]
  | registered c registry said =>
    have found := (enlisted.register c).2 name
    unfold Service.registered?
    have same : s'.enrolled? name = (s.register c).enrolled? name := by
      unfold enrolled?
      rw [registry.roster, registry.checkers]
    rw [same, found, said]
    show Option.map _ _ = if name = c.name then some c else _
    split <;> rfl

/-- **Under a name stands what the history has registered last.** -/
theorem after_registered (w : World) (ms : List Move) (h : Enlisted w.service) (name : String) :
    (w.after ms).service.registered? name =
      (w.history ms).foldl (enlists name) (w.service.registered? name) := by
  induction ms generalizing w with
  | nil => rfl
  | cons m ms ih =>
    rw [after_cons, history_cons, List.foldl_append, ih _ ((apply_enrolment w m).enlisted h),
      (apply_enrolment w m).registered? h]

end World

end ServiceHealth
