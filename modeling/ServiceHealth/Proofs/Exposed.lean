import ServiceHealth.Service.Checks

/-!
# What an exposition shows

A sample is shown under the name of its family. Of the six families four are gauges with one sample
each, and the two families of counters have one sample for each name that was ever counted.

* `Exposition.Among`: a sample is among those of some families, and what that means for each kind.
* `shows_iff`: **what the metrics show**. `shows_failures`, `shows_healthy`, `shows_ready`,
  `shows_outcomes`, `shows_shuttingDown`: the same under each name.
* `respond_metrics`: a request for the metrics is answered by what they show.
-/

namespace ServiceHealth

namespace Exposition

/-- A sample is among those of some families, under a name. -/
def Among (fs : List Family) (name : String) (x : Sample) : Prop :=
  ∃ f ∈ fs, f.name = name ∧ x ∈ f.samples

/-- A sample tells the count of a name. -/
def Counts (label : String) (t : Keyed Nat) (x : Sample) : Prop :=
  ∃ name n, t.get? name = some n ∧ x = ⟨some (label, name), countText n⟩

/-- The text of a truth value in a gauge. -/
def digit (on : Bool) : String := if on then "1" else "0"

theorem digit_inj {a b : Bool} (h : digit a = digit b) : a = b := by
  cases a <;> cases b <;> first | rfl | exact absurd h (by decide)

section Among

variable {name : String} {x : Sample}

theorem among_cons {f : Family} {fs : List Family} :
    Among (f :: fs) name x ↔ (f.name = name ∧ x ∈ f.samples) ∨ Among fs name x := by
  unfold Among
  simp only [List.mem_cons, or_and_right, exists_or, exists_eq_left]

theorem among_append {fs gs : List Family} :
    Among (fs ++ gs) name x ↔ Among fs name x ∨ Among gs name x := by
  unfold Among
  simp only [List.mem_append, or_and_right, exists_or]

theorem not_among_nil : ¬ Among [] name x := fun ⟨_, mem, _⟩ => nomatch mem

theorem mem_gauge {own help value : String} :
    ((gauge own help value).name = name ∧ x ∈ (gauge own help value).samples) ↔
      name = own ∧ x = ⟨none, value⟩ :=
  and_congr eq_comm List.mem_singleton

/-- **Counters have a sample for each name that was counted.** -/
theorem among_counters {own help label : String} {t : Keyed Nat} :
    Among (counters own help label t) name x ↔ name = own ∧ Counts label t x := by
  unfold Among counters
  split
  · rename_i empty
    have empty := List.isEmpty_iff.mp empty
    refine ⟨fun ⟨_, mem, _⟩ => (nomatch mem), fun ⟨_, c, n, found, _⟩ => ?_⟩
    rw [Keyed.get?_eq_some, empty] at found
    cases found
  · constructor
    · rintro ⟨f, mem, rfl, sample⟩
      rw [List.mem_singleton.mp mem] at sample ⊢
      obtain ⟨⟨c, n⟩, entry, rfl⟩ := List.mem_map.mp sample
      exact ⟨rfl, c, n, Keyed.get?_eq_some.mpr entry, rfl⟩
    · rintro ⟨rfl, c, n, found, rfl⟩
      exact ⟨_, List.mem_singleton.mpr rfl, rfl,
        List.mem_map.mpr ⟨(c, n), Keyed.get?_eq_some.mp found, rfl⟩⟩

end Among

end Exposition

namespace Metrics

open Exposition

/-- The metrics show a sample under a name. -/
def Shows (m : Metrics) (name : String) (x : Sample) : Prop := Among m.families name x

/-- **What the metrics show.** -/
theorem shows_iff {m : Metrics} {name : String} {x : Sample} : m.Shows name x ↔
    (name = "tunnel_certificate_expiry_timestamp" ∧ x = ⟨none, m.certificateExpiry.text⟩) ∨
    (name = "tunnel_health_check_failures_total" ∧ Counts "checker" m.failures x) ∨
    (name = "tunnel_health_status" ∧ x = ⟨none, digit m.healthy⟩) ∨
    (name = "tunnel_ready" ∧ x = ⟨none, digit m.flags.ready⟩) ∨
    (name = "tunnel_shutdown_outcomes_total" ∧ Counts "outcome" m.outcomes x) ∨
    (name = "tunnel_shutting_down" ∧ x = ⟨none, digit m.flags.shuttingDown⟩) := by
  unfold Shows families switch
  rw [among_cons, among_append, among_cons, among_cons, among_append, among_cons, mem_gauge,
    mem_gauge, mem_gauge, mem_gauge, among_counters, among_counters, or_iff_left not_among_nil]
  rfl

section Shows

variable {m : Metrics} {x : Sample}

theorem shows_failures :
    m.Shows "tunnel_health_check_failures_total" x ↔ Counts "checker" m.failures x := by
  rw [shows_iff]
  simp

theorem shows_healthy : m.Shows "tunnel_health_status" x ↔ x = ⟨none, digit m.healthy⟩ := by
  rw [shows_iff]
  simp

theorem shows_ready : m.Shows "tunnel_ready" x ↔ x = ⟨none, digit m.flags.ready⟩ := by
  rw [shows_iff]
  simp

theorem shows_outcomes :
    m.Shows "tunnel_shutdown_outcomes_total" x ↔ Counts "outcome" m.outcomes x := by
  rw [shows_iff]
  simp

theorem shows_shuttingDown :
    m.Shows "tunnel_shutting_down" x ↔ x = ⟨none, digit m.flags.shuttingDown⟩ := by
  rw [shows_iff]
  simp

end Shows

end Metrics

namespace Service

/-- **A request for the metrics is answered by what they show**, and changes nothing. -/
theorem respond_metrics (s : Service) {r : Probe.Request} {withBody : Bool}
    (target : r.target = .route .metrics withBody) :
    s.respond r =
      (.ok ((Probe.exposed (Exposition.render s.metrics.families)).sent withBody), s) := by
  unfold respond
  rw [target]
  rfl

end Service

end ServiceHealth
