import ServiceHealth.Proofs.Documents

/-!
# What a report keeps of its results

A report is folded from a list of results in which a name may stand several times, with any status
and any error. It keeps the last result of every name, and its other views, the status and the list
of the checks that have failed, follow what was kept and not what was given.

* `last_iff`: which result of a name is the last.
* `mem_failing`, `failing_eq`: which names are listed as failed.
* `ofResults_perm`: **the order of results with different names does not show**.
* `results_folded`: all views of a report agree.
-/

namespace ServiceHealth.Health

/-- **The last result of a name** is one of that name, and none comes after it. -/
theorem last_iff {results : List CheckResult} {name : String} {x : CheckResult} :
    (results.filter (·.name = name)).getLast? = some x ↔ x.name = name ∧
      ∃ before after, results = before ++ x :: after ∧ ∀ y ∈ after, y.name ≠ name := by
  rw [List.getLast?_filter, List.find?_eq_some_iff_append]
  simp only [decide_eq_true_eq, Bool.not_eq_true', decide_eq_false_iff_not]
  refine and_congr_right fun _ => ⟨?_, ?_⟩
  · rintro ⟨after, before, split, others⟩
    refine ⟨before.reverse, after.reverse, ?_, fun y hy => others y (List.mem_reverse.mp hy)⟩
    rw [← List.reverse_reverse results, split]
    simp
  · rintro ⟨before, after, rfl, others⟩
    exact ⟨after.reverse, before.reverse, by simp, fun y hy => others y (List.mem_reverse.mp hy)⟩

namespace Report

/-- Whether a check of a report has failed. -/
def hasFailed (r : Report) (check : String) : Bool :=
  (r.checks.get? check).any fun result => !result.healthy

theorem mem_failing {r : Report} {check : String} :
    check ∈ r.failing ↔ r.hasFailed check = true := by
  unfold failing failures hasFailed
  rw [Option.any_eq_true]
  constructor
  · intro mem
    obtain ⟨⟨name, result⟩, entry, rfl⟩ := List.mem_map.mp mem
    obtain ⟨entry, failed⟩ := List.mem_filter.mp entry
    exact ⟨result, Keyed.get?_eq_some.mpr entry, failed⟩
  · rintro ⟨result, found, failed⟩
    exact List.mem_map.mpr
      ⟨(check, result), List.mem_filter.mpr ⟨Keyed.get?_eq_some.mp found, failed⟩, rfl⟩

/-- **The failed checks are listed by the names of their own results**, if these are their keys. -/
theorem failing_eq {r : Report} (named : r.IsNamed) :
    r.failing = (r.checks.values.filter fun x => !x.healthy).map (·.name) := by
  unfold failing failures Keyed.values
  rw [List.filter_map, List.map_map]
  refine List.map_congr_left fun e mem => ?_
  exact (named e.1 e.2 (Keyed.get?_eq_some.mpr (List.mem_filter.mp mem).1)).symm

/-- **The order of results with different names does not show in the report.** -/
theorem ofResults_perm (time : Time.Stamp) (flags : Flags) {results results' : List CheckResult}
    (perm : results.Perm results') (distinct : (results.map (·.name)).Nodup) :
    ofResults time flags results = ofResults time flags results' := by
  refine congrArg (Report.mk time flags) (Keyed.ofList_perm (perm.map _) ?_)
  rw [List.map_map]
  exact distinct

/-- **All views of a report agree**, whatever results it was given. Its table has every name that
was given, once and in byte order, with the last result of that name; it is healthy if and only if
every result that it keeps is, and if and only if no check is listed as failed; listed are the names
of the results that it keeps and that are not healthy, in byte order and none twice. Of results with
different names the order does not matter. -/
theorem results_folded (time : Time.Stamp) (flags : Flags) (results : List CheckResult) :
    let r := ofResults time flags results
    (r.checks.keys.Pairwise Text.Before ∧ r.checks.keys.Nodup) ∧
    (∀ name, name ∈ r.checks.keys ↔ ∃ x ∈ results, x.name = name) ∧
    (∀ name x, r.checks.get? name = some x ↔ x.name = name ∧
      ∃ before after, results = before ++ x :: after ∧ ∀ y ∈ after, y.name ≠ name) ∧
    (r.isHealthy = true ↔ ∀ name x, r.checks.get? name = some x → x.healthy = true) ∧
    (r.isHealthy = true ↔ r.failing = []) ∧
    (ofResults time flags []).isHealthy = true ∧
    (r.failing.Pairwise Text.Before ∧ r.failing.Nodup) ∧
    (∀ name, name ∈ r.failing ↔ ∃ x, r.checks.get? name = some x ∧ x.healthy = false) ∧
    r.failing = (r.checks.values.filter fun x => !x.healthy).map (·.name) ∧
    ∀ results', results.Perm results' → (results.map (·.name)).Nodup →
      ofResults time flags results' = r := by
  intro r
  have kept : ∀ name x, r.checks.get? name = some x ↔ x.name = name ∧
      ∃ before after, results = before ++ x :: after ∧ ∀ y ∈ after, y.name ≠ name :=
    fun name x => by rw [get?_ofResults, last_iff]
  refine ⟨⟨r.checks.keys_ascending, r.checks.keys_nodup⟩, fun name => ?_, kept,
    isHealthy_iff_get? r, isHealthy_iff r, rfl,
    ⟨failing_ascending r, r.failing_ascending.imp fun lt => lt.ne⟩, fun name => ?_,
    failing_eq (isNamed_ofResults time flags results),
    fun results' perm distinct => (ofResults_perm time flags perm distinct).symm⟩
  · rw [Keyed.mem_keys]
    constructor
    · rintro ⟨x, found⟩
      obtain ⟨named, before, after, rfl, -⟩ := (kept name x).mp found
      exact ⟨x, by simp, named⟩
    · rintro ⟨x, mem, named⟩
      have given : x ∈ results.filter (·.name = name) :=
        List.mem_filter.mpr ⟨mem, decide_eq_true named⟩
      exact ⟨_, (get?_ofResults time flags results name).trans
        (List.getLast?_eq_some_getLast (List.ne_nil_of_mem given))⟩
  · rw [mem_failing]
    unfold hasFailed
    simp only [Option.any_eq_true, Bool.not_eq_true']

/-- A cache that is stale first and then in order, with a disk in between that has failed; and a
disk and a cache with the same results, given either way round. -/
theorem stale_cache_recovers :
    (ofResults ⟨0, 0⟩ ⟨true, false⟩ [⟨"cache", false, some "stale"⟩, ⟨"disk", false, none⟩,
        ⟨"cache", true, none⟩]).failing = ["disk"] ∧
      ofResults ⟨0, 0⟩ ⟨true, false⟩ [⟨"disk", false, none⟩, ⟨"cache", true, none⟩] =
        ofResults ⟨0, 0⟩ ⟨true, false⟩ [⟨"cache", true, none⟩, ⟨"disk", false, none⟩] := by
  obtain ⟨-, -, -, -, -, -, -, -, listed, -⟩ := results_folded ⟨0, 0⟩ ⟨true, false⟩
    [⟨"cache", false, some "stale"⟩, ⟨"disk", false, none⟩, ⟨"cache", true, none⟩]
  obtain ⟨-, -, -, -, -, -, -, -, -, perm⟩ := results_folded ⟨0, 0⟩ ⟨true, false⟩
    [⟨"cache", true, none⟩, ⟨"disk", false, none⟩]
  exact ⟨listed.trans rfl, perm _ (.swap _ _ []) (by decide)⟩

end Report

end ServiceHealth.Health
