import Mathlib.Data.List.Basic
import ServiceHealth.Proofs.Owners
import ServiceHealth.Proofs.Scraped
import ServiceHealth.Proofs.Together
import ServiceHealth.Service.Listing

/-!
# The registry as a map

A name stands for the checker that was last registered under it. Whoever has registered it, a job or
someone from outside, and whatever was going on, the list of the names, the description of the
registry and the next report agree on the names and on their order. A checker that is replaced is
not asked again, but the aggregation that waits for its run goes on waiting for it.

* `Listing.read?_describe`: the description of a registry gives back its names and its flags.
* `LastUnder`, `registered_iff`: **whoever is registered under a name is the last one who was**.
* `jobsFor`, `checkIn_runs`: a check runs those that it asks, and nobody else.
* `Answers`, `checkIn_answers`: whoever is registered answers for its name, in whatever order.
* `last_registration_wins`: **the names, the description, the next report and the aggregations that
  are going on, after any history**.
-/

namespace ServiceHealth

namespace Service

namespace Listing

/-! ## 1. The description -/

/-- The characters of a list from its first name on, without the opening quote. -/
def listed (name : String) (more : List String) : List Char :=
  Text.Quoted.body name.toList ++
    '"' :: more.flatMap fun n => ',' :: ' ' :: Text.Quoted.encode n.toList

/-- Names with commas between them. -/
theorem intercalate_names (name : String) (more : List String) :
    [',', ' '].intercalate ((name :: more).map fun n => Text.Quoted.encode n.toList) =
      '"' :: listed name more := by
  induction more generalizing name with
  | nil => simp [listed, Text.Quoted.encode]
  | cons n more ih =>
    have next := ih n
    rw [List.map_cons] at next
    rw [List.map_cons, List.map_cons, List.intercalate_cons_cons, next]
    simp [listed, Text.Quoted.encode]

/-- **The names of a list are read back**, whatever they are. -/
theorem quotedNames?_listed (name : String) (more : List String) {fuel : Nat}
    (enough : more.length < fuel) (rest : List Char) :
    quotedNames? fuel (listed name more ++ ']' :: rest) = some (name :: more, rest) := by
  induction more generalizing name fuel with
  | nil =>
    obtain ⟨fuel, rfl⟩ : ∃ k, fuel = k + 1 := ⟨fuel - 1, by omega⟩
    have scanned := Text.Quoted.scan_body name.toList (']' :: rest)
    unfold listed quotedNames?
    rw [List.flatMap_nil, List.append_assoc, List.singleton_append, scanned]
    simp only [String.ofList_toList]
  | cons n more ih =>
    obtain ⟨fuel, rfl⟩ : ∃ k, fuel = k + 1 := ⟨fuel - 1, by omega⟩
    have scanned := Text.Quoted.scan_body name.toList
      (',' :: ' ' :: '"' :: (listed n more ++ ']' :: rest))
    have parts : listed name (n :: more) ++ ']' :: rest = Text.Quoted.body name.toList ++
        '"' :: ',' :: ' ' :: '"' :: (listed n more ++ ']' :: rest) := by
      simp [listed, Text.Quoted.encode]
    have next := ih n (Nat.lt_of_succ_lt_succ enough)
    rw [quotedNames?, parts, scanned]
    simp only [next, String.ofList_toList, Option.map_some]

/-- Every name has a quote of its own. -/
theorem length_le_listed (name : String) (more : List String) :
    more.length < (listed name more).length := by
  induction more with
  | nil => simp [listed]
  | cons n more ih =>
    simp only [listed, List.length_append, List.length_cons, List.flatMap_cons] at ih ⊢
    omega

theorem names?_intercalate (names : List String) (rest : List Char) :
    names? ([',', ' '].intercalate (names.map fun n => Text.Quoted.encode n.toList) ++
      ']' :: rest) = some (names, rest) := by
  cases names with
  | nil => rfl
  | cons name more =>
    rw [intercalate_names]
    refine quotedNames?_listed name more ?_ rest
    have quotes := length_le_listed name more
    show more.length < (listed name more ++ ']' :: rest).length
    rw [List.length_append]
    omega

/-- A truth value is read up to the character after it. -/
theorem flag?_boolChars (b : Bool) {stop : Char} (other : stop ∉ Log.boolChars b)
    (rest : List Char) : flag? stop (Log.boolChars b ++ stop :: rest) = some (b, rest) := by
  have inside : ∀ c ∈ Log.boolChars b, (c != stop) = true := fun c mem =>
    bne_iff_ne.mpr fun e => other (e ▸ mem)
  have parts := Log.run_end inside (c := stop) (by simp) rest
  unfold flag?
  rw [parts.1, parts.2]
  dsimp only
  rw [Log.truth?_boolChars]
  rfl

/-- **The description of a registry gives back its names and its flags.** -/
theorem read?_describe (s : Service) : read? s.describe = some ⟨s.checkerNames, s.flags⟩ := by
  have word : ∀ b : Bool, (toString b).toList = Log.boolChars b := by decide
  have names := names?_intercalate s.checkerNames
    (", ready: ".toList ++ (Log.boolChars s.flags.ready ++ ',' ::
      (" shutting_down: ".toList ++ (Log.boolChars s.flags.shuttingDown ++ [' ', '\x7d']))))
  have chars : s.describe.toList = "HealthRegistry \x7b checkers: [".toList ++
      ([',', ' '].intercalate (s.checkerNames.map fun n => Text.Quoted.encode n.toList) ++ ']' ::
        (", ready: ".toList ++ (Log.boolChars s.flags.ready ++ ',' ::
          (" shutting_down: ".toList ++
            (Log.boolChars s.flags.shuttingDown ++ [' ', '\x7d']))))) := by
    have quoted : (s.checkerNames.map Text.quote).map String.toList =
        s.checkerNames.map fun n => Text.Quoted.encode n.toList := by
      rw [List.map_map]
      exact List.map_congr_left fun n _ => Text.toList_quote n
    unfold describe
    simp only [String.toList_append, String.toList_intercalate, quoted, word, List.append_assoc]
    rfl
  unfold read?
  rw [chars, Exposition.dropStart?_append]
  simp only [Option.bind_eq_bind, Option.bind_some, names, Exposition.dropStart?_append]
  rw [flag?_boolChars _ (by cases s.flags.ready <;> decide)]
  simp only [Option.bind_some, Exposition.dropStart?_append]
  rw [flag?_boolChars _ (by cases s.flags.shuttingDown <;> decide)]
  rfl

/-- The description of a registry with two checkers, one of which has a quote in its name. -/
example : read? ("HealthRegistry \x7b checkers: [\"a\\\"b\", \"disk\"], " ++
    "ready: true, shutting_down: false \x7d") = some ⟨["a\"b", "disk"], true, false⟩ := by
  decide +kernel

end Listing

end Service

open Service

namespace World

/-! ## 2. The last registration -/

/-- A checker is the last one that was registered under a name. -/
def LastUnder (name : String) (c : Health.Checker) (hs : List Happening) : Prop :=
  c.name = name ∧ ∃ earlier later, hs = earlier ++ .did (.register c) :: later ∧
    ∀ c', .did (.register c') ∈ later → c'.name ≠ name

section Last

variable {name : String} {c : Health.Checker} {hs : List Happening}

/-- What is registered under other names changes nothing. -/
theorem foldl_enlists_others (others : ∀ c', .did (.register c') ∈ hs → c'.name ≠ name)
    (r : Option Health.Checker) : hs.foldl (enlists name) r = r := by
  induction hs with
  | nil => rfl
  | cons h hs ih =>
    have here : enlists name r h = r := by
      unfold enlists
      split
      · rename_i c
        exact if_neg fun e => others c List.mem_cons_self e.symm
      · rfl
    rw [List.foldl_cons, here]
    exact ih fun c mem => others c (List.mem_cons_of_mem _ mem)

theorem LastUnder.foldl_enlists (h : LastUnder name c hs) (r : Option Health.Checker) :
    hs.foldl (enlists name) r = some c := by
  obtain ⟨rfl, earlier, later, rfl, others⟩ := h
  rw [List.foldl_append, List.foldl_cons, foldl_enlists_others others]
  exact if_pos rfl

/-- Somebody was registered last under a name, or nobody was registered under it. -/
theorem exists_last_or_others (name : String) (hs : List Happening) :
    (∃ c, LastUnder name c hs) ∨ ∀ c, .did (.register c) ∈ hs → c.name ≠ name := by
  induction hs with
  | nil => exact .inr nofun
  | cons x hs ih =>
    rcases ih with ⟨c, named, earlier, later, rfl, last⟩ | others
    · exact .inl ⟨c, named, x :: earlier, later, rfl, last⟩
    by_cases own : ∃ c, x = .did (.register c) ∧ c.name = name
    · obtain ⟨c, rfl, named⟩ := own
      exact .inl ⟨c, named, [], hs, rfl, others⟩
    · refine .inr fun c mem named => ?_
      rcases List.mem_cons.mp mem with rfl | mem
      · exact own ⟨c, rfl, named⟩
      · exact others c mem named

/-- **Under a name stands whoever was registered last.** -/
theorem foldl_enlists_iff : hs.foldl (enlists name) none = some c ↔ LastUnder name c hs := by
  refine ⟨fun h => ?_, fun last => last.foldl_enlists none⟩
  rcases exists_last_or_others name hs with ⟨c', last⟩ | others
  · rw [last.foldl_enlists none] at h
    cases h
    exact last
  · rw [foldl_enlists_others others] at h
    cases h

/-- **A name has a last checker exactly if one was registered under it.** -/
theorem exists_last_iff :
    (∃ c, LastUnder name c hs) ↔ ∃ c, .did (.register c) ∈ hs ∧ c.name = name := by
  constructor
  · rintro ⟨c, named, earlier, later, rfl, -⟩
    exact ⟨c, List.mem_append_right _ List.mem_cons_self, named⟩
  · rintro ⟨c, mem, named⟩
    exact (exists_last_or_others name hs).resolve_right fun others => others c mem named

end Last

/-- **Whoever is registered in a world is the last one whom its history has registered.** -/
theorem registered_iff (setup : Setup) (clock : Time.Stamp) (ms : List Move) {name : String}
    {c : Health.Checker} :
    ((new setup clock).after ms).service.registered? name = some c ↔
      LastUnder name c ((new setup clock).history ms) := by
  rw [after_registered _ ms (new_enlisted setup clock)]
  exact foldl_enlists_iff

end World

namespace Service

/-! ## 3. The runs of a check -/

/-- The jobs of a check that run a checker. -/
def jobsFor (s : Service) (order : List (String × Nat)) (n : Nat) : List JobId :=
  ((order.zipIdx s.jobs.length).filter (·.1.2 == n)).map (·.2)

/-- The aggregation that a check starts. -/
def asked (s : Service) (order : List (String × Nat)) (deadline : Nat) : Aggregation :=
  ⟨s.clock, s.flags, deadline, (startRuns deadline order s).1⟩

section Runs

variable {s : Service} {order : List (String × Nat)} {x : String × Nat} {n timeout deadline : Nat}

/-- Whoever is asked once has a new job. -/
theorem jobsFor_of_mem (distinct : (order.map (·.2)).Nodup) (hx : x ∈ order) :
    ∃ job, s.jobs.length ≤ job ∧ s.jobsFor order x.2 = [job] := by
  obtain ⟨k, hk⟩ := List.getElem?_of_mem hx
  have hp : (x, s.jobs.length + k) ∈ order.zipIdx s.jobs.length :=
    List.mk_add_mem_zipIdx_iff_getElem?.mpr hk
  rw [← zipIdx_map_number order s.jobs.length] at distinct
  have own := filter_key (f := fun p : (String × Nat) × JobId => p.1.2) distinct hp
  refine ⟨s.jobs.length + k, Nat.le_add_right _ _, ?_⟩
  unfold jobsFor
  rw [own]
  rfl

/-- Whoever is not asked has no new job. -/
theorem jobsFor_others (out : ∀ x ∈ order, x.2 ≠ n) : s.jobsFor order n = [] := by
  unfold jobsFor
  rw [List.map_eq_nil_iff, List.filter_eq_nil_iff]
  intro p hp same
  have mem : p.1 ∈ order := by
    rw [← List.zipIdx_map_fst s.jobs.length order]
    exact List.mem_map_of_mem hp
  exact out p.1 mem (eq_of_beq same)

/-- A run that has only been started has given nothing. -/
theorem asked_unknown {e : Entry} (he : e ∈ (startRuns deadline order s).1) :
    e.outcome = none ∧ (startRuns deadline order s).2.result? e.job = none := by
  obtain ⟨k, hk⟩ := List.getElem?_of_mem he
  obtain ⟨x, -, rfl, hj⟩ := startRuns_entry hk
  refine ⟨rfl, result?_eq_none.mpr fun j r hj' ended => ?_⟩
  rw [hj, runJob_eq] at hj'
  cases hj'
  cases ended

/-- A check of which nobody has been heard yet. -/
theorem asked_standing (h : Askable s) (early : s.now < deadline) (hx : x ∈ order)
    (known : n < s.checkers.length) :
    Standing n (line none s n ++ s.jobsFor order n) [s.asked order deadline]
      (startRuns deadline order s).2 := by
  obtain ⟨lined, lines⟩ := startRuns_line deadline order h.lined
  have frame : (startRuns deadline order s).2.checkers = s.checkers ∧
      (startRuns deadline order s).2.now = s.now := by
    rw [startRuns_eq]
    exact ⟨rfl, rfl⟩
  have somebody : (startRuns deadline order s).1 ≠ [] := by
    rw [startRuns_eq]
    simpa using List.ne_nil_of_mem hx
  obtain ⟨e, he⟩ := List.exists_mem_of_ne_nil _ somebody
  refine ⟨lined, frame.1 ▸ known, lines n, .inr ⟨fun a ha => ?_, _, List.mem_singleton_self _, e,
    he, asked_unknown he⟩⟩
  rw [List.mem_singleton.mp ha, frame.2]
  exact early

/-- **The runs of a checker after a check** with time to answer: those that there were, and then
those that the check has started. -/
theorem checkIn_runs (h : Askable s) (computable : deadline? s.now timeout = some deadline)
    (positive : 0 < timeout) (hx : x ∈ order) (known : n < s.checkers.length) :
    (s.checkIn order timeout).2.runsOf n = line none s n ++ s.jobsFor order n := by
  have early : s.now < deadline := by
    have moment := deadline?_eq_some computable
    omega
  unfold checkIn
  rw [computable]
  exact await_standing (startRuns_scheduled _ _ h.scheduled) (asked_standing h early hx known)

/-- **A check without any time to answer begins no run.** -/
theorem checkIn_at_once (computable : deadline? s.now 0 = some deadline) :
    (s.checkIn order 0).2.runsOf n = s.runsOf n := by
  have moment : deadline = s.now := deadline?_eq_some computable
  have now : (startRuns deadline order s).2.now = s.now := by rw [startRuns_eq]
  have done : aggregating.isDone (aggregating.poll [s.asked order deadline]
      (startRuns deadline order s).2).1 = true := by
    show List.all (pollAggregations _ _).1 _ = true
    rw [pollAggregations_seen]
    refine List.all_eq_true.mpr fun a ha => ?_
    rw [List.map_singleton, List.mem_singleton] at ha
    subst ha
    refine List.all_eq_true.mpr (List.forall_mem_map.mpr fun e he => ?_)
    obtain ⟨unset, unknown⟩ := asked_unknown he
    have late : (s.asked order deadline).deadline ≤ (startRuns deadline order s).2.now := by
      rw [now, ← moment]
      exact Nat.le_refl _
    unfold Entry.seen
    rw [unset, unknown]
    dsimp only
    rw [if_pos late]
    rfl
  have began : (pollAggregations [s.asked order deadline] (startRuns deadline order s).2).2.runsOf n
      = (startRuns deadline order s).2.runsOf n :=
    pollAggregations_rule (P := fun s' => s'.runsOf n = (startRuns deadline order s).2.runsOf n)
      (fun _ _ k => k) _ rfl
  have started : (startRuns deadline order s).2.runsOf n = s.runsOf n := by rw [startRuns_eq]; rfl
  unfold checkIn
  rw [computable]
  show (await aggregating [s.asked order deadline] _).2.runsOf n = _
  rw [await_done done]
  exact began.trans started

end Runs

/-! ## 4. Who answers a check -/

/-- **A checker answers a check**: the one with a number, and no other of its name. Its entry in the
report is what its next run gives. If there is time to answer this run has begun, after all those
that there were before, and otherwise none has. Nobody else of this name runs for the check. -/
structure Answers (s : Service) (timeout deadline n : Nat) (c : Health.Checker) (r : Health.Report)
    (s' : Service) : Prop where
  checker : (s.checkers[n]?).map (·.checker) = some c
  entry : r.checks.get? c.name = some
    (.ofOutcome c.name (outcomeBy deadline (c.course (s.runsBefore n) deadline s.now)))
  begun : 0 < timeout → ∃ job, s.jobs.length ≤ job ∧ s'.runsOf n = line none s n ++ [job]
  late : timeout = 0 → s'.runsOf n = s.runsOf n
  others : ∀ (k : Nat) (e : Enrolled), s.checkers[k]? = some e → e.checker.name = c.name → k ≠ n →
    ∀ i ∈ s'.runsOf k, i < s.jobs.length

section Answers

variable {s : Service} {order : List (String × Nat)} {timeout deadline : Nat}

/-- Only one checker of each name is asked. -/
theorem Askable.asked_alone (h : Askable s) {name : String} {n k : Nat} {e : Enrolled}
    (hn : s.roster.get? name = some n) (he : s.checkers[k]? = some e)
    (named : e.checker.name = name) (other : k ≠ n) : ∀ x ∈ s.roster.entries, x.2 ≠ k := by
  rintro ⟨name', k'⟩ hx rfl
  obtain ⟨e', he', named'⟩ := h.known _ hx
  rw [he] at he'
  cases he'
  rw [named] at named'
  subst named'
  rw [Keyed.get?_eq_some.mpr hx] at hn
  cases hn
  exact other rfl

/-- A checker that a check does not ask begins no new run. -/
theorem checkIn_unasked (h : Askable s) (computable : deadline? s.now timeout = some deadline)
    {x : String × Nat} (hx : x ∈ order) {k : Nat} (known : k < s.checkers.length)
    (out : ∀ x ∈ order, x.2 ≠ k) : ∀ i ∈ (s.checkIn order timeout).2.runsOf k,
      i < s.jobs.length := by
  intro i hi
  rcases Nat.eq_zero_or_pos timeout with rfl | positive
  · rw [checkIn_at_once computable] at hi
    exact h.lt_of_mem_line (List.mem_append_left _ (List.mem_append_left _ hi))
  · rw [checkIn_runs h computable positive hx known, jobsFor_others out, List.append_nil] at hi
    exact h.lt_of_mem_line hi

/-- **Whoever is registered answers a check**, in whatever order all are asked. -/
theorem checkIn_answers (h : Askable s) (computable : deadline? s.now timeout = some deadline)
    (perm : order.Perm s.roster.entries) :
    ∃ r, (s.checkIn order timeout).1 = .ok r ∧ r.checks.keys = s.checkerNames ∧
      ∀ name n e, s.roster.get? name = some n → s.checkers[n]? = some e →
        Answers s timeout deadline n e.checker r (s.checkIn order timeout).2 := by
  have names : (s.roster.entries.map (·.1)).Nodup := s.roster.keys_nodup
  have distinct : (order.map (·.2)).Nodup := (perm.map _).nodup_iff.mpr h.distinct
  obtain ⟨report, -⟩ := h.checkIn_registered perm computable
  refine ⟨_, report, verdicts_keys s deadline, fun name n e hn he => ?_⟩
  obtain ⟨e', he', named⟩ := h.enlisted name n hn
  rw [he] at he'
  cases he'
  have mem : (name, n) ∈ order := perm.mem_iff.mpr (Keyed.get?_eq_some.mp hn)
  have known : ∀ {k : Nat} {e : Enrolled}, s.checkers[k]? = some e → k < s.checkers.length :=
    fun he => (List.getElem?_eq_some_iff.mp he).1
  refine ⟨by rw [he]; rfl, ?_, fun positive => ?_, ?_, fun k e' he' same other => ?_⟩
  · refine (report_get? s.clock s.flags names).mpr ⟨n, named ▸ Keyed.get?_eq_some.mp hn, ?_⟩
    unfold runCourse
    rw [checkerOf_of he]
  · obtain ⟨job, new, own⟩ := jobsFor_of_mem (s := s) distinct mem
    exact ⟨job, new, own ▸ checkIn_runs h computable positive mem (known he)⟩
  · rintro rfl
    exact checkIn_at_once computable
  · exact checkIn_unasked h computable mem (known he') fun x hx =>
      h.asked_alone hn he' (same.trans named) other x (perm.mem_iff.mp hx)

end Answers

end Service

open Service

namespace World

/-! ## 5. The registry -/

/-- **A registry is a map from names to checkers, and the last one that is registered wins.**
Whatever has happened to a service, the names of the registry ascend strictly in byte order and are
those under which a checker has ever been registered, and the description of the registry has the
same names in the same order. A check that is asked for then reports exactly these names in this
order, and each name is answered for by the checker that was registered last under it and by no
other, in whatever order all of them are asked. Whatever happens meanwhile and later, also to the
registry itself, each entry of an aggregation is supplied by the checker that was the last one under
its name when the aggregation was asked for: its run is given up only at the deadline, and once it
has ended a look shows what it has given. -/
theorem last_registration_wins (setup : Setup) (clock : Time.Stamp) (before : List Move) :
    let w := (new setup clock).after before
    let s := w.service
    let told := (new setup clock).history before
    s.checkerNames.Pairwise Text.Before ∧
    (∀ name, name ∈ s.checkerNames ↔ ∃ c, .did (.register c) ∈ told ∧ c.name = name) ∧
    Listing.read? s.describe = some ⟨s.checkerNames, s.flags⟩ ∧
    (w.turn = none → ∀ timeout deadline, deadline? s.now timeout = some deadline →
      (∀ order, order.Perm s.roster.entries → ∃ r, (s.checkIn order timeout).1 = .ok r ∧
        r.checks.keys = s.checkerNames ∧
        ∀ name c, LastUnder name c told → ∃ n, s.roster.get? name = some n ∧
          Answers s timeout deadline n c r (s.checkIn order timeout).2) ∧
      ∀ request later, ∃ q : Inquiry,
        let u := (w.inquire request timeout).after later
        u.inquiries[w.inquiries.length]? = some q ∧
          (q.aggregation.entries.map (·.name)).Perm s.checkerNames ∧
          q.aggregation.report.checks.keys = s.checkerNames ∧
          ∀ e ∈ q.aggregation.entries,
            q.aggregation.report.checks.get? e.name =
              some (.ofOutcome e.name (e.outcome.getD (.failed .timedOut))) ∧
            (∃ n c, s.roster.get? e.name = some n ∧ LastUnder e.name c told ∧
              Supplies u.service deadline n c e) ∧
            ∀ r, u.service.result? e.job = some r →
              (e.seen deadline u.service).outcome = some r.asCheck) := by
  intro w s told
  have vouched : ResultsVouched w := after_resultsVouched setup clock before
  have last : ∀ {name c}, s.registered? name = some c ↔ LastUnder name c told :=
    registered_iff setup clock before
  refine ⟨s.roster.keys_ascending, fun name => ?_, Listing.read?_describe s,
    fun free timeout deadline computable => ⟨fun order perm => ?_, fun request later => ?_⟩⟩
  · exact vouched.enlisted.mem_names.trans ((exists_congr fun _ => last).trans exists_last_iff)
  · have askable : Askable s := after_askable setup clock before free
    obtain ⟨r, report, names, answers⟩ := checkIn_answers askable computable perm
    refine ⟨r, report, names, fun name c hc => ?_⟩
    obtain ⟨e, found, rfl⟩ := Option.map_eq_some_iff.mp (last.mpr hc)
    obtain ⟨n, hn, he⟩ := Option.bind_eq_some_iff.mp found
    exact ⟨n, hn, answers name n e hn he⟩
  · have scheduled := new_scheduled setup clock
    have owned : Owned s := after_owned _ before scheduled (new_owned setup clock)
    have custody : Custody w := after_custody _ before scheduled (new_custody setup clock)
    have sure : AllSure w := after_sure scheduled nofun before
    obtain ⟨q, hq, snapshot, supplies⟩ :=
      inquire_supplies vouched owned custody sure free computable request later
    obtain ⟨-, -, keys, found⟩ := snapshot.report
    refine ⟨q, hq, snapshot.names, keys, fun e mem => ?_⟩
    obtain ⟨n, c, hn, hc, supplied⟩ := supplies e mem
    exact ⟨(found _ _).mpr ⟨e, mem, rfl, rfl⟩, ⟨n, c, hn, last.mp hc, supplied⟩,
      fun _ => supplied.heard⟩

/-- A cache that takes twenty milliseconds is replaced while it is asked: the check that is asked
for next has the entry of the other cache, and the one that is going on that of the first. -/
theorem cache_replaced_while_asked :
    let other : Health.Checker := ⟨"cache", false, none, [], [.returns (.failed .timedOut)]⟩
    let cache : Health.Checker := ⟨"cache", false, some 20, [], [.returns .passed]⟩
    let start := new ⟨1000, 100, true, ⟨"api", "test", ⟨none, none⟩⟩, .ascending⟩ ⟨0, 0⟩
    let before := [.act (.register cache)]
    let replaced := [.begin, .go, .go, .act (.register other)]
    let s := (start.after (before ++ .ask 50 :: replaced)).service
    let u := ((start.after before).inquire none 50).after
      (replaced ++ [.advance 20, .begin, .go, .go, .look 0])
    (∃ r, (s.check 50).1 = .ok r ∧ r.checks.keys = ["cache"] ∧
      r.checks.get? "cache" = some ⟨"cache", false, some "check timed out"⟩ ∧
      (∀ i ∈ (s.check 50).2.runsOf 0, i < 1) ∧
      ∃ job, 1 ≤ job ∧ (s.check 50).2.runsOf 1 = [job]) ∧
    ∃ q, u.inquiries[0]? = some q ∧
      q.aggregation.report.checks.get? "cache" = some ⟨"cache", true, none⟩ ∧
      ∃ e ∈ q.aggregation.entries, e.name = "cache" ∧ Supplies u.service 50 0 cache e := by
  intro other cache start before replaced s u
  obtain ⟨-, -, -, next⟩ := last_registration_wins
    ⟨1000, 100, true, ⟨"api", "test", ⟨none, none⟩⟩, .ascending⟩ ⟨0, 0⟩
    (before ++ .ask 50 :: replaced)
  obtain ⟨now, -⟩ := next rfl 50 50 rfl
  obtain ⟨r, report, keys, answers⟩ := now s.rollCall s.rollCall_perm
  obtain ⟨n, hn, answer⟩ := answers "cache" other ((registered_iff _ _ _).mp rfl)
  have second : s.roster.get? "cache" = some 1 := by decide +kernel
  obtain rfl : 1 = n := Option.some.inj (second.symm.trans hn)
  -- what the next check finds is evaluated piece by piece
  have length : s.jobs.length = 1 := by decide +kernel
  have nobody : line none s 1 = [] := by decide +kernel
  have oldest : (s.checkers[0]?).map (·.checker.name) = some "cache" := by decide +kernel
  obtain ⟨e, he, named⟩ := Option.map_eq_some_iff.mp oldest
  have others := answer.others 0 e he named nofun
  obtain ⟨job, new, begun⟩ := answer.begun (by decide)
  rw [length] at others new
  obtain ⟨-, -, -, earlier⟩ :=
    last_registration_wins ⟨1000, 100, true, ⟨"api", "test", ⟨none, none⟩⟩, .ascending⟩ ⟨0, 0⟩
      before
  obtain ⟨-, always⟩ := earlier rfl 50 50 rfl
  obtain ⟨q, hq, -, -, supplied⟩ := always none
    (replaced ++ [.advance 20, .begin, .go, .go, .look 0])
  have entries := congrArg (Option.map (·.aggregation.entries)) hq
  have known : some q.aggregation.entries = some [⟨"cache", 0, some .passed⟩] :=
    entries.symm.trans (by decide +kernel)
  rw [Option.some.injEq] at known
  have mem : (⟨"cache", 0, some .passed⟩ : Entry) ∈ q.aggregation.entries := by
    rw [known]
    exact List.mem_cons_self
  obtain ⟨entry, ⟨n, c, hn, hc, supplies⟩, -⟩ := supplied _ mem
  cases hn
  cases ((registered_iff _ _ _).mpr hc).symm.trans rfl
  rw [check_eq_checkIn]
  exact ⟨⟨r, report, keys.trans (by decide +kernel), answer.entry.trans (by decide +kernel), others,
    job, new, begun.trans (congrArg (· ++ [job]) nobody)⟩, q, hq, entry, _, mem, rfl, supplies⟩

end World

end ServiceHealth
