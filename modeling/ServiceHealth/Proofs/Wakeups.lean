import ServiceHealth.Proofs.Broadcast

/-!
# Signals tell, and waits wake

Whatever is done to a shutdown channel in whatever order, all signals read the same, which is
whether the controller has fired; and every wait is over at the moment at which the controller fires
or goes for the first time, or at once if that has already happened. The channel as it is run, with
waits in one piece, is the same as the channel in detail.

* `apply_lends`: a signal is lent only to a wait that has not ended.
* `apply_alone`: **what a wait does concerns its own signal only**.
* `Faithful`, `faithful`: what holds after any moves.
* `carry`, `carries`: **every step of a channel, move by move**.
* `signals_tell_and_waits_wake`: **no signal is lost and none invented**.
-/

namespace ServiceHealth.Shutdown

namespace Broadcast

variable {W : Watch}

/-! ## 1. Borrowed signals -/

/-- **Who has a signal that is lent**: a wait that has not ended and will give it back. -/
def Lends (b : Broadcast W) : Prop := ∀ i : Nat, b.signals[i]? = some .lent →
  ∃ (k : Nat) (w : Wait W), b.waits[k]? = some w ∧ w.signal = i ∧ w.keeps = true ∧
    w.stage.isRunning = true

theorem put_lends {b : Broadcast W} (lends : Lends b) {k : Nat} {w w' : Wait W}
    (found : b.waits[k]? = some w) (signal : w'.signal = w.signal) (keeps : w'.keeps = w.keeps) :
    Lends (b.put k w') := by
  have inside : k < b.waits.length := (List.getElem?_eq_some_iff.mp found).1
  intro i lent
  have before : b.signals[i]? = some .lent := by
    unfold put at lent
    dsimp only at lent
    split at lent
    · rw [List.getElem?_set] at lent
      split at lent
      · split at lent <;> cases lent
      · exact lent
    · exact lent
  obtain ⟨k₀, w₀, found₀, rfl, keeps₀, running₀⟩ := lends i before
  by_cases same : k = k₀
  · subst same
    obtain rfl : w = w₀ := Option.some.inj (found.symm.trans found₀)
    refine ⟨k, w', List.getElem?_set_self inside, signal, keeps.trans keeps₀, ?_⟩
    -- had it ended, the signal would have been given back
    cases running : w'.stage.isRunning with
    | true => rfl
    | false =>
      have back : (b.put k w').signals[w.signal]? = some (.here w'.receiver) := by
        unfold put
        rw [if_pos (by rw [keeps, keeps₀, running]; rfl), signal]
        exact List.getElem?_set_self (List.getElem?_eq_some_iff.mp before).1
      rw [back] at lent
      cases lent
  · exact ⟨k₀, w₀, (List.getElem?_set_ne same).trans found₀, rfl, keeps₀, running₀⟩

theorem speak_lends {b : Broadcast W} (lends : Lends b) (s : W.Shared) : Lends (b.speak s) := by
  intro i lent
  obtain ⟨k, w, found, signal, keeps, running⟩ := lends i lent
  refine ⟨k, w.wake, ?_, signal, keeps, (Stage.isRunning_woken _).trans running⟩
  show (b.waits.map Wait.wake)[k]? = _
  rw [List.getElem?_map, found]
  rfl

theorem apply_lends {b : Broadcast W} (lends : Lends b) (m : Move) : Lends (b.apply m) := by
  have does := b.apply_does m
  generalize b.apply m = b' at does ⊢
  cases does with
  | nothing | passes => exact lends
  | fires | leaves => exact speak_lends lends _
  | made h x free =>
    intro i lent
    by_cases old : i < b.signals.length
    · exact lends i ((List.getElem?_append_left old).symm.trans lent)
    · exact absurd (List.mem_singleton.mp (List.mem_of_getElem?
        ((List.getElem?_append_right (Nat.le_of_not_lt old)).symm.trans lent))).symm free
  | @dropped i n here =>
    intro j lent
    change (b.signals.set i .gone)[j]? = _ at lent
    rw [List.getElem?_set] at lent
    split at lent
    · split at lent <;> cases lent
    · exact lends j lent
  | @begins m i n keeps h here =>
    intro j lent
    change (b.signals.set i (if keeps then .lent else .gone))[j]? = _ at lent
    rw [List.getElem?_set] at lent
    split at lent
    · rename_i same
      subst same
      cases keeps with
      | true => exact ⟨b.waits.length, _, List.getElem?_concat_length, rfl, rfl, rfl⟩
      | false => split at lent <;> cases lent
    · obtain ⟨k, w, found, rest⟩ := lends j lent
      exact ⟨k, w, (List.getElem?_append_left (List.getElem?_eq_some_iff.mp found).1).trans found,
        rest⟩
  | goes found =>
    obtain ⟨-, signal, keeps⟩ := Wait.go_frame b.shared b.now _
    exact put_lends lends found signal keeps
  | givesUp found => exact put_lends lends found rfl rfl

theorem after_lends {b : Broadcast W} (lends : Lends b) (ms : List Move) : Lends (b.after ms) := by
  induction ms generalizing b with
  | nil => exact lends
  | cons m ms ih => exact ih (apply_lends lends m)

theorem new_lends (W : Watch) : Lends (new W) := by
  intro i lent
  rcases i with _ | i <;> cases lent

/-- The signal of a wait that begins, goes on or is given up. -/
def own? (b : Broadcast W) : Move → Option Nat
  | .wait i | .receive i => some i
  | .go k | .giveUp k => (b.waits[k]?).map (·.signal)
  | _ => none

theorem put_alone {b : Broadcast W} {k i : Nat} {w w' : Wait W} (found : b.waits[k]? = some w)
    (own : (b.waits[k]?).map (·.signal) = some i) (signal : w'.signal = w.signal) {j : Nat}
    (other : j ≠ i) : (b.put k w').signals[j]? = b.signals[j]? := by
  rw [found] at own
  cases own
  unfold put
  dsimp only
  split
  · rw [signal]
    exact List.getElem?_set_ne other.symm
  · rfl

/-- **What a wait does concerns its own signal only**: the others read what they have read, and all
the other waits stay as they are. -/
theorem apply_alone {b : Broadcast W} {m : Move} {i : Nat} (own : b.own? m = some i) :
    (∀ j ≠ i, (b.apply m).reading? j = b.reading? j) ∧
    ∀ k w, m ≠ .go k → m ≠ .giveUp k → b.waits[k]? = some w → (b.apply m).waits[k]? = some w := by
  refine ⟨fun j other => ?_, fun k w notGo notGiveUp found => ?_⟩
  · have shared : (b.apply m).shared = b.shared := by
      rw [apply_shared]
      split
      · cases m <;> first | rfl | cases own
      · rfl
    have signal : (b.apply m).signals[j]? = b.signals[j]? := by
      have does := b.apply_does m
      generalize b.apply m = b' at does ⊢
      cases does with
      | nothing | passes => rfl
      | fires | leaves => cases own
      | made h => rcases h with rfl | ⟨i, rfl⟩ <;> cases own
      | dropped => cases own
      | @begins m i' n keeps h here =>
        obtain rfl : i' = i := by cases keeps <;> subst h <;> exact Option.some.inj own
        exact List.getElem?_set_ne other.symm
      | goes found => exact put_alone found own (Wait.go_frame _ _ _).2.1 other
      | @givesUp k w found =>
        have signal : (w.giveUp b.now).signal = w.signal := rfl
        exact put_alone found own signal other
    unfold reading?
    rw [signal, shared]
  · obtain ⟨w', found', h⟩ := apply_wait found m
    rcases h with ⟨rfl, -⟩ | ⟨-, rfl | rfl⟩ | ⟨-, e, -⟩ | ⟨-, e⟩
    · exact found'
    · cases own
    · cases own
    · exact absurd e notGo
    · exact absurd e notGiveUp

/-- **Who goes takes nothing away from the others.** -/
theorem apply_gone {b : Broadcast W} {m : Move} {i : Nat}
    (goes : m = .abandon ∨ ∃ j ≠ i, m = .drop j) : (b.apply m).reading? i = b.reading? i := by
  have value : W.value (b.apply m).shared = W.value b.shared := by
    rw [apply_shared]
    rcases goes with rfl | ⟨j, -, rfl⟩
    · dsimp only
      split
      · exact W.value_close _
      · rfl
    · exact congrArg _ (ite_self _)
  have signal : (b.apply m).signals[i]? = b.signals[i]? := by
    rcases goes with rfl | ⟨j, other, rfl⟩
    · unfold apply
      dsimp only
      split <;> rfl
    · unfold apply
      dsimp only
      split
      · exact List.getElem?_set_ne other
      · rfl
  unfold reading?
  rw [signal, value]

/-! ## 2. Every order of events -/

/-- **What holds after any moves**, whoever makes them and in whatever order. A signal reads whether
the controller has fired (`reads`); what has been set stays set, for all signals (`lasts`), also
after the controller or another signal has gone (`gone`). A wait is over at the moment of the event,
or when it has begun if that was later (`ended`); as long as it has not ended no time has passed
since then (`pending`); after the event it needs two steps of its own, whatever happens in between
(`wakes`); and where no wait can go on, so that time can pass, a wait that has not ended has no
event (`rests`). A signal is lent to a wait that has not ended (`lends`), and what a wait does
changes neither what another signal reads nor another wait (`alone`). -/
structure Faithful (W : Watch) (ms : List Move) : Prop where
  reads : ∀ i x, ((new W).after ms).reading? i = some x →
    (x = true ↔ .fire ∈ ms.takeWhile (· ≠ .abandon))
  lasts : ∀ i j x more, ((new W).after ms).reading? i = some true →
    ((new W).after (ms ++ more)).reading? j = some x → x = true
  gone : ∀ i m, (m = .abandon ∨ ∃ j ≠ i, m = .drop j) →
    (((new W).after ms).apply m).reading? i = ((new W).after ms).reading? i
  ended : ∀ (k : Nat) (w : Wait W) t, ((new W).after ms).waits[k]? = some w →
    w.stage = .finished t → ∃ e, (new W).event? ms = some e ∧ t = max w.started e
  pending : ∀ (k : Nat) (w : Wait W) e, ((new W).after ms).waits[k]? = some w →
    w.stage.isRunning = true → (new W).event? ms = some e →
    ((new W).after ms).now = max w.started e
  wakes : ∀ (k : Nat) (w : Wait W) more, ((new W).after ms).waits[k]? = some w →
    w.stage.isRunning = true → (new W).event? ms ≠ none → .giveUp k ∉ more →
    2 ≤ more.count (.go k) → ∃ w', ((new W).after (ms ++ more)).waits[k]? = some w' ∧
      w'.stage = .finished ((new W).after ms).now
  rests : ∀ (k : Nat) (w : Wait W), ((new W).after ms).isResting = true →
    ((new W).after ms).waits[k]? = some w → w.stage.isRunning = true → (new W).event? ms = none
  lends : Lends ((new W).after ms)
  alone : ∀ m i, ((new W).after ms).own? m = some i →
    (∀ j ≠ i, (((new W).after ms).apply m).reading? j = ((new W).after ms).reading? j) ∧
    ∀ (k : Nat) (w : Wait W), m ≠ .go k → m ≠ .giveUp k →
      ((new W).after ms).waits[k]? = some w → (((new W).after ms).apply m).waits[k]? = some w

theorem reading?_eq {b : Broadcast W} {i : Nat} {x : Bool} (h : b.reading? i = some x) :
    x = W.value b.shared := by
  unfold reading? at h
  split at h <;> cases h
  rfl

/-- The event is the first one, so what comes later does not change its moment. -/
theorem event?_append (b : Broadcast W) (ms ms' : List Move) :
    b.event? (ms ++ ms') = (b.event? ms).or ((b.after ms).event? ms') := by
  induction ms generalizing b with
  | nil => rfl
  | cons m ms ih =>
    show (b.heard? m).or ((b.apply m).event? (ms ++ ms')) = _
    rw [ih, ← Option.or_assoc]
    rfl

theorem run_kept (W : Watch) (ms : List Move) :
    Kept ((new W).after ms) ((new W).event? ms) := by
  have kept := after_kept (new_kept W) ms
  rw [Option.none_or] at kept
  exact kept

theorem faithful (W : Watch) (ms : List Move) : Faithful W ms := by
  have kept := run_kept W ms
  have value : W.value ((new W).after ms).shared = true ↔
      .fire ∈ ms.takeWhile (· ≠ .abandon) := by
    have unset : W.value (new W).shared = false := W.value_make false
    have controlled : (new W).isControlled = true := by
      show (!W.closed (W.make false)) = true
      rw [W.closed_make]
      rfl
    rw [after_value, unset, controlled]
    exact ⟨fun h => h.elim nofun (·.2), fun h => .inr ⟨rfl, h⟩⟩
  have fits {k : Nat} {w : Wait W} (found : ((new W).after ms).waits[k]? = some w) :=
    kept.waits w (List.mem_of_getElem? found)
  refine {
    reads := fun i x h => by rw [reading?_eq h]; exact value
    lasts := fun i j x more h h' => ?_
    gone := fun i m goes => apply_gone goes
    ended := fun k w t found stage => (fits found).finished t stage
    pending := fun k w e found running event => (fits found).running running e event
    wakes := fun k w more found running event patient enough => ?_
    rests := fun k w resting found running =>
      (fits found).asleep (resting_asleep resting (List.mem_of_getElem? found) running)
    lends := after_lends (new_lends W) ms
    alone := fun m i own => apply_alone own }
  · rw [reading?_eq h', after_append, after_value]
    exact .inl (reading?_eq h).symm
  · obtain ⟨e, he⟩ := Option.ne_none_iff_exists'.mp event
    have spoken : ((new W).after ms).hasSpoken = true := by
      rw [← kept.told, he]
      rfl
    obtain ⟨w', t, found', started, stage⟩ :=
      after_wakes kept spoken found running patient enough
    rw [← after_append] at found'
    obtain ⟨e', he', moment⟩ :=
      ((run_kept W (ms ++ more)).waits w' (List.mem_of_getElem? found')).finished t stage
    rw [event?_append, he] at he'
    cases he'
    rw [(fits found).running running e he, ← started, ← moment]
    exact ⟨w', found', stage⟩

/-! ## 3. The steps of a channel, move by move -/

/-- The steps of a wait, as many as it needs until it is over or sleeps. -/
def goes (k : Nat) : List Move := List.replicate 2 (.go k)

/-- Whether a wait has not ended. -/
def isWaiting (b : Broadcast W) (k : Nat) : Bool := (b.waits[k]?).any (·.stage.isRunning)

/-- Somebody waits until a limit is reached. -/
def patiently (b : Broadcast W) (begins : Move) (limit : Nat) : List Move :=
  let k := b.waits.length
  let begun := begins :: goes k
  if (b.after begun).isWaiting k then begun ++ [.advance (b.now + limit), .giveUp k] else begun

/-- What the controller does last in a step. -/
def speaks (abandons : Bool) : Move := if abandons then .abandon else .fire

/-- **A step of a channel, move by move.** Who waits while the controller does something is given up
when the limit is reached, if that is before. -/
def carry (b : Broadcast W) : Channel.Step → List Move
  | .fire => [.fire]
  | .abandon => [.abandon]
  | .subscribe => [.subscribe]
  | .copy i => [.copy i]
  | .drop i => [.drop i]
  | .wait i limit => if (b.reading? i).isSome then b.patiently (.wait i) limit else []
  | .receive i limit => if (b.reading? i).isSome then b.patiently (.receive i) limit else []
  | .waitDuring i limit after abandons =>
    let k := b.waits.length
    let begun := .wait i :: goes k
    if (b.reading? i).isSome then
      if (b.after begun).isWaiting k then
        if after < limit ∨ after = 0 then
          begun ++ ([.advance (b.now + after), speaks abandons] ++ goes k)
        else begun ++ ([.advance (b.now + limit), .giveUp k] ++
          [.advance (b.now + after), speaks abandons])
      else begun ++ [.advance (b.now + after), speaks abandons]
    else []

/-- What a step gives, told by what has become of the wait that has begun in it, if one has. -/
def answer (b b' : Broadcast W) : Channel.Step → Channel.Answer
  | .fire => if b.isControlled then .done else .noController
  | .abandon | .drop _ => .done
  | .subscribe => if b.isControlled then .made b.signals.length else .noController
  | .copy _ => .made b.signals.length
  | .wait _ _ | .receive _ _ =>
    match (b'.waits[b.waits.length]?).map Wait.stage with
    | some (.finished _) => .waited true
    | some _ => .waited false
    | none => .noSignal
  | .waitDuring _ _ _ _ =>
    match (b'.waits[b.waits.length]?).map Wait.stage with
    | some (.finished t) => .timed true (t - b.now)
    | some (.givenUp t) => .timed false (t - b.now)
    | _ => .noSignal

/-- **A channel in detail where nothing is under way, and the same channel.** -/
structure Mirrors (b : Broadcast W) (c : Channel) : Prop where
  fired : W.value b.shared = c.fired
  controlled : b.isControlled = c.controlled
  signals : b.signals.map Signal.isHere = c.signals
  returned : .lent ∉ b.signals
  ended : ∀ w ∈ b.waits, w.stage.isRunning = false

theorem new_mirrors (W : Watch) : Mirrors (new W) Channel.new where
  fired := W.value_make false
  controlled := by
    show (!W.closed (W.make false)) = true
    rw [W.closed_make]
    rfl
  signals := rfl
  returned lent := by cases List.mem_singleton.mp lent
  ended := nofun

/-- A channel in which one more wait has begun. -/
def joined (b : Broadcast W) (w : Wait W) : Broadcast W :=
  { b with
    signals := b.signals.set w.signal
      (if w.keeps then if w.stage.isRunning then .lent else .here w.receiver else .gone)
    waits := b.waits ++ [w] }

theorem joined_wait (b : Broadcast W) (w : Wait W) :
    (b.joined w).waits[b.waits.length]? = some w := List.getElem?_concat_length

/-- Something happens to the wait that was the last to begin. -/
theorem joined_update (b : Broadcast W) {w : Wait W} {f : Wait W → Wait W}
    (signal : (f w).signal = w.signal) (keeps : (f w).keeps = w.keeps) :
    (b.joined w).update b.waits.length f = b.joined (if w.stage.isRunning then f w else w) := by
  unfold update
  rw [joined_wait]
  dsimp only
  split
  · rename_i running
    unfold put joined
    rw [List.set_append_right _ _ (Nat.le_refl _), Nat.sub_self, signal, keeps, running]
    cases w.keeps <;> cases (f w).stage.isRunning <;> simp [List.set_set]
  · rfl

theorem joined_go (b : Broadcast W) (w : Wait W) : (b.joined w).apply (.go b.waits.length) =
    b.joined (if w.stage.isRunning then w.go b.shared b.now else w) :=
  joined_update b (Wait.go_frame _ _ w).2.1 (Wait.go_frame _ _ w).2.2

theorem joined_giveUp (b : Broadcast W) {w : Wait W} (running : w.stage.isRunning = true) :
    (b.joined w).apply (.giveUp b.waits.length) = b.joined (w.giveUp b.now) :=
  (joined_update b rfl rfl).trans (by rw [if_pos running]; rfl)

/-- Time passes while nobody can go on. -/
theorem joined_advance (b : Broadcast W) (ended : ∀ w ∈ b.waits, w.stage.isRunning = false)
    {w : Wait W} (ready : w.stage.isReady = false) (duration : Nat) :
    (b.joined w).apply (.advance (b.now + duration)) =
      { b with now := b.now + duration }.joined w := by
  have resting : (b.joined w).isResting = true := by
    refine List.all_eq_true.mpr fun w' hw' => ?_
    rcases List.mem_append.mp hw' with old | fresh
    · rw [Stage.isReady_of_done (ended w' old)]
      rfl
    · rw [List.mem_singleton.mp fresh, ready]
      rfl
  unfold apply
  dsimp only
  rw [resting, if_pos (by simp [joined])]
  rfl

/-- The controller speaks, and wakes the wait that was the last to begin. -/
theorem joined_speak (b : Broadcast W) (w : Wait W) (s : W.Shared) :
    (b.joined w).speak s = (b.speak s).joined w.wake := by
  unfold speak joined Wait.wake
  dsimp only
  rw [List.map_append, Stage.isRunning_woken]
  rfl

theorem apply_speaks {b : Broadcast W} (controlled : b.isControlled = true) (abandons : Bool) :
    b.apply (speaks abandons) =
      b.speak (if abandons then W.close b.shared else W.send true b.shared) := by
  cases abandons <;> exact if_pos controlled

/-- A signal that is there is waited for. -/
theorem wait_joined {b : Broadcast W} {i : Nat} {r : W.Receiver}
    (here : b.signals[i]? = some (.here r)) :
    b.apply (.wait i) = b.joined ⟨i, true, r, b.now, .checking⟩ := by
  unfold apply
  dsimp only
  rw [here]
  rfl

theorem receive_joined {b : Broadcast W} {i : Nat} {r : W.Receiver}
    (here : b.signals[i]? = some (.here r)) :
    b.apply (.receive i) = b.joined ⟨i, false, r, b.now, .checking⟩ := by
  unfold apply
  dsimp only
  rw [here]
  rfl

/-- What becomes of a wait in two steps. -/
def twoSteps (s : W.Shared) (now : Nat) (w : Wait W) : Wait W :=
  let next w := if w.stage.isRunning then Wait.go s now w else w
  next (next w)

theorem joined_goes (b : Broadcast W) (w : Wait W) :
    (b.joined w).after (goes b.waits.length) = b.joined (twoSteps b.shared b.now w) := by
  simp only [goes, List.replicate, after]
  rw [joined_go, joined_go]
  rfl

/-- **A wait that begins**: it is over at once if the controller has fired or is gone, and otherwise
it sleeps. -/
theorem twoSteps_begun {b : Broadcast W} {event : Option Nat} (kept : Kept b event) {i : Nat}
    {r : W.Receiver} (here : .here r ∈ b.signals) (keeps : Bool) :
    twoSteps b.shared b.now ⟨i, keeps, r, b.now, .checking⟩ =
      ⟨i, keeps, r, b.now, if b.hasSpoken then .finished b.now else .asleep⟩ := by
  have unset := (kept.signals r here).2
  unfold hasSpoken twoSteps Wait.go
  cases value : W.value b.shared with
  | true => rfl
  | false => simp [unset value, Stage.isRunning]

/-- **A wait that is woken** is over at once. -/
theorem twoSteps_woken {b : Broadcast W} {event : Option Nat} (kept : Kept b event)
    (unspoken : b.hasSpoken = false) {r : W.Receiver} (here : .here r ∈ b.signals)
    (abandons : Bool) (i now started : Nat) (keeps : Bool) :
    ∃ r', twoSteps (if abandons then W.close b.shared else W.send true b.shared) now
        ⟨i, keeps, r, started, .asking⟩ = ⟨i, keeps, r', started, .finished now⟩ := by
  obtain ⟨belongs, unset⟩ := kept.signals r here
  have value : W.value b.shared = false := (Bool.or_eq_false_iff.mp unspoken).1
  cases abandons with
  | true =>
    have old : W.unseen (W.close b.shared) r = false := (W.unseen_close _ r).trans (unset value)
    refine ⟨r, ?_⟩
    unfold twoSteps Wait.go
    simp [old, W.closed_close, Stage.isRunning]
  | false =>
    have fresh : W.unseen (W.send true b.shared) r = true := W.unseen_send _ _ r belongs
    refine ⟨W.mark (W.send true b.shared) r, ?_⟩
    unfold twoSteps Wait.go
    simp [fresh, W.value_send, Stage.isRunning]

namespace Mirrors

variable {b : Broadcast W} {c : Channel}

theorem hasSpoken (mirrors : Mirrors b c) : b.hasSpoken = c.isOver := by
  have controlled := mirrors.controlled
  unfold isControlled at controlled
  unfold Broadcast.hasSpoken Channel.isOver
  rw [mirrors.fired, ← controlled, Bool.not_not]

theorem length (mirrors : Mirrors b c) : b.signals.length = c.signals.length := by
  rw [← mirrors.signals, List.length_map]

theorem has (mirrors : Mirrors b c) (i : Nat) : c.has i = (b.reading? i).isSome := by
  unfold Channel.has reading?
  rw [← mirrors.signals, List.getElem?_map]
  cases b.signals[i]? with
  | none => rfl
  | some x => cases x <;> rfl

/-- **All signals read the same in both.** -/
theorem reading (mirrors : Mirrors b c) (i : Nat) : b.reading? i = c.isShutdown? i := by
  unfold Channel.isShutdown?
  rw [mirrors.has, ← mirrors.fired]
  unfold reading?
  split <;> rfl

theorem later (mirrors : Mirrors b c) (moment : Nat) : Mirrors { b with now := moment } c :=
  ⟨mirrors.fired, mirrors.controlled, mirrors.signals, mirrors.returned, mirrors.ended⟩

theorem set (mirrors : Mirrors b c) (i : Nat) {x : Signal W} (free : x ≠ .lent) :
    (b.signals.set i x).map Signal.isHere = c.signals.set i x.isHere ∧
      .lent ∉ b.signals.set i x := by
  refine ⟨by rw [List.map_set, mirrors.signals], fun lent => ?_⟩
  rcases List.mem_or_eq_of_mem_set lent with old | e
  · exact mirrors.returned old
  · exact free e.symm

/-- A wait that has ended is one more that is over. -/
theorem joined (mirrors : Mirrors b c) {w : Wait W} (ended : w.stage.isRunning = false)
    {r : W.Receiver} (here : b.signals[w.signal]? = some (.here r)) :
    Mirrors (b.joined w) (if w.keeps then c else c.dropSignal w.signal) := by
  have waits : ∀ w' ∈ b.waits ++ [w], w'.stage.isRunning = false := fun w' hw' => by
    rcases List.mem_append.mp hw' with old | fresh
    · exact mirrors.ended w' old
    · rw [List.mem_singleton.mp fresh]
      exact ended
  unfold Broadcast.joined
  rw [ended]
  cases w.keeps with
  | true =>
    obtain ⟨signals, returned⟩ := mirrors.set w.signal (x := .here w.receiver) nofun
    refine ⟨mirrors.fired, mirrors.controlled, signals.trans ?_, returned, waits⟩
    have there : c.signals[w.signal]? = some true := by
      rw [← mirrors.signals, List.getElem?_map, here]
      rfl
    obtain ⟨inside, e⟩ := List.getElem?_eq_some_iff.mp there
    have same := List.set_getElem_self inside
    rw [e] at same
    exact same
  | false =>
    obtain ⟨signals, returned⟩ := mirrors.set w.signal (x := .gone) nofun
    exact ⟨mirrors.fired, mirrors.controlled, signals, returned, waits⟩

/-- **The controller speaks** where nothing is under way. -/
theorem afterwards (mirrors : Mirrors b c) (abandons : Bool) :
    Mirrors (b.apply (speaks abandons)) (if abandons then c.abandon else c.fire) ∧
    (b.apply (speaks abandons)).signals = b.signals ∧
    (b.apply (speaks abandons)).waits = b.waits ∧ (b.apply (speaks abandons)).now = b.now := by
  have silent : b.waits.map Wait.wake = b.waits := by
    rw [List.map_congr_left fun w hw => Wait.wake_of_done (mirrors.ended w hw), List.map_id']
  have still : ∀ w ∈ b.waits.map Wait.wake, w.stage.isRunning = false := by
    rw [silent]
    exact mirrors.ended
  obtain ⟨fired, controlled, signals, returned, ended⟩ := mirrors
  obtain ⟨f, k, ss⟩ := c
  dsimp only at fired controlled signals
  cases k with
  | true =>
    rw [apply_speaks controlled]
    unfold isControlled at controlled
    cases abandons with
    | true =>
      have closed : (!W.closed (W.close b.shared)) = false := by
        rw [W.closed_close]
        rfl
      exact ⟨⟨(W.value_close _).trans fired, closed, signals, returned, still⟩, rfl, silent, rfl⟩
    | false =>
      have set : W.value (W.send true b.shared) = (f || true) :=
        (W.value_send _ _).trans (Bool.or_true f).symm
      have there : (!W.closed (W.send true b.shared)) = true := by rwa [W.closed_send]
      exact ⟨⟨set, there, signals, returned, still⟩, rfl, silent, rfl⟩
  | false =>
    have idle : b.apply (speaks abandons) = b := by
      have gone : ¬ b.isControlled = true := by rw [controlled]; nofun
      cases abandons <;> exact if_neg gone
    rw [idle]
    have unset : W.value b.shared = (f || false) := fired.trans (Bool.or_false f).symm
    cases abandons with
    | true => exact ⟨⟨fired, controlled, signals, returned, ended⟩, rfl, rfl, rfl⟩
    | false => exact ⟨⟨unset, controlled, signals, returned, ended⟩, rfl, rfl, rfl⟩

end Mirrors

section Carrying

variable {b : Broadcast W} {event : Option Nat} {i : Nat} {r : W.Receiver}

/-- A wait has begun, and has gone on as far as it can. -/
theorem begun_joined (kept : Kept b event) (here : b.signals[i]? = some (.here r)) {m : Move}
    {keeps : Bool} (begins : b.apply m = b.joined ⟨i, keeps, r, b.now, .checking⟩) :
    b.after (m :: goes b.waits.length) = b.joined ⟨i, keeps, r, b.now,
      if b.hasSpoken then .finished b.now else .asleep⟩ := by
  rw [after, begins, joined_goes, twoSteps_begun kept (List.mem_of_getElem? here) keeps]

theorem begun_waiting (kept : Kept b event) (here : b.signals[i]? = some (.here r)) {m : Move}
    {keeps : Bool} (begins : b.apply m = b.joined ⟨i, keeps, r, b.now, .checking⟩) :
    (b.after (m :: goes b.waits.length)).isWaiting b.waits.length = !b.hasSpoken := by
  unfold isWaiting
  rw [begun_joined kept here begins, joined_wait]
  cases b.hasSpoken <;> rfl

/-- A wait sleeps, and is given up when some time has passed. -/
theorem asleep_givenUp (ended : ∀ w ∈ b.waits, w.stage.isRunning = false) (keeps : Bool)
    (limit : Nat) :
    (b.joined ⟨i, keeps, r, b.now, .asleep⟩).after
        [.advance (b.now + limit), .giveUp b.waits.length] =
      { b with now := b.now + limit }.joined ⟨i, keeps, r, b.now, .givenUp (b.now + limit)⟩ := by
  rw [after, after, after, joined_advance b ended rfl]
  exact joined_giveUp { b with now := b.now + limit } rfl

/-- **Who waits patiently** is done at once if the controller has fired or is gone, and otherwise
gives up when the limit is reached. -/
theorem patiently_joined (kept : Kept b event)
    (ended : ∀ w ∈ b.waits, w.stage.isRunning = false) (here : b.signals[i]? = some (.here r))
    {m : Move} {keeps : Bool} (begins : b.apply m = b.joined ⟨i, keeps, r, b.now, .checking⟩)
    (limit : Nat) : b.after (b.patiently m limit) =
      if b.hasSpoken then b.joined ⟨i, keeps, r, b.now, .finished b.now⟩
      else { b with now := b.now + limit }.joined
        ⟨i, keeps, r, b.now, .givenUp (b.now + limit)⟩ := by
  have joined := begun_joined kept here begins
  unfold patiently
  dsimp only
  rw [begun_waiting kept here begins]
  cases spoken : b.hasSpoken with
  | true =>
    rw [spoken] at joined
    exact joined
  | false =>
    rw [spoken] at joined
    rw [Bool.not_false, if_pos rfl, if_neg Bool.false_ne_true, after_append, joined]
    exact asleep_givenUp ended keeps limit

end Carrying

/-- **What a step of a channel does, move by move**: the same to the channel, with the same answer
and in the same time. -/
structure Carries (b : Broadcast W) (c : Channel) (s : Channel.Step) : Prop where
  channel : Mirrors (b.after (b.carry s)) (c.step s).channel
  answer : b.answer (b.after (b.carry s)) s = (c.step s).answer
  duration : (b.after (b.carry s)).now = b.now + (c.step s).duration

/-- **How a step with a wait ends**: nothing is under way, and it is known how the wait has
ended. -/
structure Waited (b b' : Broadcast W) (c : Channel) (stage : Stage) (moment : Nat) : Prop where
  channel : Mirrors b' c
  stage : (b'.waits[b.waits.length]?).map Wait.stage = some stage
  moment : b'.now = moment

/-- A wait that has ended. -/
theorem waited_joined {b b₁ : Broadcast W} {c : Channel} (mirrors : Mirrors b₁ c)
    (length : b₁.waits.length = b.waits.length) {w : Wait W} (ended : w.stage.isRunning = false)
    {r : W.Receiver} (here : b₁.signals[w.signal]? = some (.here r)) :
    Waited b (b₁.joined w) (if w.keeps then c else c.dropSignal w.signal) w.stage b₁.now := by
  refine ⟨mirrors.joined ended here, ?_, rfl⟩
  rw [← length, joined_wait]
  rfl

section Waiting

variable {b : Broadcast W} {c : Channel} {event : Option Nat} (mirrors : Mirrors b c) {i : Nat}
  {r : W.Receiver} (here : b.signals[i]? = some (.here r))

include mirrors here

/-- A wait has ended, and some time later the controller speaks. -/
theorem waited_speaks {stage : Stage} (ended : stage.isRunning = false) (started moment : Nat)
    (abandons : Bool) :
    Waited b
      (({ b with now := moment }.joined ⟨i, true, r, started, stage⟩).apply (speaks abandons))
      (if abandons then c.abandon else c.fire) stage moment := by
  have waited := waited_joined (b := b) (mirrors.later moment) rfl
    (w := ⟨i, true, r, started, stage⟩) ended here
  obtain ⟨channel, -, waits, now⟩ := waited.channel.afterwards abandons
  exact ⟨channel, by rw [waits]; exact waited.stage, now⟩

theorem carry_patiently (kept : Kept b event) {m : Move} {keeps : Bool}
    (begins : b.apply m = b.joined ⟨i, keeps, r, b.now, .checking⟩) (limit : Nat) :
    Waited b (b.after (b.patiently m limit)) (if keeps then c else c.dropSignal i)
      (if c.isOver then .finished b.now else .givenUp (b.now + limit))
      (b.now + if c.isOver then 0 else limit) := by
  rw [patiently_joined kept mirrors.ended here begins, mirrors.hasSpoken]
  cases c.isOver with
  | true => exact waited_joined (w := ⟨i, keeps, r, b.now, .finished b.now⟩) mirrors rfl rfl here
  | false =>
    exact waited_joined (b := b) (w := ⟨i, keeps, r, b.now, .givenUp (b.now + limit)⟩)
      (mirrors.later (b.now + limit)) rfl rfl here

end Waiting

/-- The controller speaks while a wait sleeps, and the wait goes on. -/
theorem speaks_woken {b : Broadcast W} {c : Channel} {event : Option Nat} (mirrors : Mirrors b c)
    (kept : Kept b event) {i : Nat} {r : W.Receiver} (here : b.signals[i]? = some (.here r))
    (unspoken : b.hasSpoken = false) (moment : Nat) (abandons : Bool) :
    ∃ r', (({ b with now := moment }.joined ⟨i, true, r, b.now, .asleep⟩).apply
        (speaks abandons)).after (goes b.waits.length) =
      ({ b with now := moment }.apply (speaks abandons)).joined
        ⟨i, true, r', b.now, .finished moment⟩ := by
  have controlled : b.isControlled = true := by
    rw [isControlled, (Bool.or_eq_false_iff.mp unspoken).2]
    rfl
  obtain ⟨r', woken⟩ := twoSteps_woken kept unspoken (List.mem_of_getElem? here) abandons i moment
    b.now true
  obtain ⟨-, -, waits, -⟩ := (mirrors.later moment).afterwards abandons
  rw [apply_speaks (b := { b with now := moment }) controlled] at waits ⊢
  refine ⟨r', ?_⟩
  have spoke := (apply_speaks (b := { b with now := moment }.joined ⟨i, true, r, b.now, .asleep⟩)
    controlled abandons).trans (joined_speak _ _ _)
  have gone := joined_goes ({ b with now := moment }.speak
    (if abandons then W.close b.shared else W.send true b.shared)) ⟨i, true, r, b.now, .asking⟩
  rw [waits] at gone
  rw [spoke]
  exact gone.trans (congrArg _ woken)

/-- **A wait is woken** by the controller, and is over at that moment. -/
theorem waited_woken {b : Broadcast W} {c : Channel} {event : Option Nat} (mirrors : Mirrors b c)
    (kept : Kept b event) {i : Nat} {r : W.Receiver} (here : b.signals[i]? = some (.here r))
    (unspoken : c.isOver = false) (moment : Nat) (abandons : Bool) :
    Waited b ((({ b with now := moment }.joined ⟨i, true, r, b.now, .asleep⟩).apply
        (speaks abandons)).after (goes b.waits.length))
      (if abandons then c.abandon else c.fire) (.finished moment) moment := by
  obtain ⟨channel, signals, waits, now⟩ := (mirrors.later moment).afterwards abandons
  obtain ⟨r', woken⟩ :=
    speaks_woken mirrors kept here (mirrors.hasSpoken.trans unspoken) moment abandons
  have waited := waited_joined (b := b) channel (congrArg List.length waits)
    (w := ⟨i, true, r', b.now, .finished moment⟩) rfl (r := r) (by rw [signals]; exact here)
  rw [now, ← woken] at waited
  exact waited

/-- **Whoever waits while the controller speaks**: the wait is over at once, or at the moment at
which the controller speaks, or it is given up before. -/
theorem carry_during {b : Broadcast W} {c : Channel} {event : Option Nat} (mirrors : Mirrors b c)
    {i : Nat} {r : W.Receiver} (here : b.signals[i]? = some (.here r)) (kept : Kept b event)
    (limit after : Nat) (abandons : Bool) :
    Waited b (b.after (b.carry (.waitDuring i limit after abandons)))
      (if abandons then c.abandon else c.fire)
      (if (c.waitUntil limit after).1 then .finished (b.now + (c.waitUntil limit after).2)
        else .givenUp (b.now + (c.waitUntil limit after).2))
      (b.now + max (c.waitUntil limit after).2 after) := by
  have begins := wait_joined here
  have joined := begun_joined kept here begins
  have waiting := begun_waiting kept here begins
  have there : (b.reading? i).isSome = true := by
    unfold reading?
    rw [here]
    rfl
  rw [mirrors.hasSpoken] at joined waiting
  unfold carry Channel.waitUntil
  dsimp only
  rw [if_pos there, waiting]
  cases spoken : c.isOver with
  | true =>
    rw [spoken] at joined
    rw [Bool.not_true, if_neg Bool.false_ne_true, if_pos rfl, if_pos rfl, Nat.zero_max,
      after_append, joined, if_pos rfl, Broadcast.after, Broadcast.after,
      joined_advance b mirrors.ended rfl]
    exact waited_speaks mirrors here rfl b.now _ abandons
  | false =>
    rw [spoken] at joined
    rw [Bool.not_false, if_pos rfl, if_neg Bool.false_ne_true]
    rw [if_neg Bool.false_ne_true] at joined
    by_cases inTime : after < limit ∨ after = 0
    · rw [if_pos inTime, if_pos inTime, if_pos rfl, Nat.max_self, after_append, joined,
        after_append, Broadcast.after, Broadcast.after, Broadcast.after,
        joined_advance b mirrors.ended rfl]
      exact waited_woken mirrors kept here spoken (b.now + after) abandons
    · rw [if_neg inTime, if_neg inTime, if_neg Bool.false_ne_true, after_append, joined,
        after_append, asleep_givenUp mirrors.ended]
      have later : limit ≤ after := Nat.le_of_not_lt fun lt => inTime (.inl lt)
      have sum : b.now + limit + (after - limit) = b.now + after := by omega
      have passes := joined_advance { b with now := b.now + limit } mirrors.ended
        (w := ⟨i, true, r, b.now, .givenUp (b.now + limit)⟩) rfl (after - limit)
      rw [sum] at passes
      rw [Nat.max_eq_right later, Broadcast.after, Broadcast.after, Broadcast.after, passes]
      exact waited_speaks mirrors here rfl b.now _ abandons

theorem Carries.of {b b' : Broadcast W} {c : Channel} {s : Channel.Step} {r : Channel.Reply}
    (step : c.step s = r) (carried : b.after (b.carry s) = b') (channel : Mirrors b' r.channel)
    (answer : b.answer b' s = r.answer) (duration : b'.now = b.now + r.duration) :
    Carries b c s := by
  subst step carried
  exact ⟨channel, answer, duration⟩

theorem Mirrors.made {b : Broadcast W} {c : Channel} (mirrors : Mirrors b c) {x : Signal W}
    (free : x ≠ .lent) : Mirrors { b with signals := b.signals ++ [x] }
      { c with signals := c.signals ++ [x.isHere] } := by
  refine ⟨mirrors.fired, mirrors.controlled, ?_, fun lent => ?_, mirrors.ended⟩
  · dsimp only
    rw [List.map_append, mirrors.signals]
    rfl
  · rcases List.mem_append.mp lent with old | fresh
    · exact mirrors.returned old
    · exact free (List.mem_singleton.mp fresh).symm

/-- A signal that is gone cannot go again. -/
theorem dropSignal_gone {c : Channel} {i : Nat} (gone : c.has i = false) : c.dropSignal i = c := by
  refine congrArg (fun signals => { c with signals }) ?_
  by_cases inside : i < c.signals.length
  · have away : c.signals[i] = false := by
      unfold Channel.has at gone
      rw [List.getElem?_eq_getElem inside] at gone
      exact gone
    have same := List.set_getElem_self inside
    rw [away] at same
    exact same
  · exact List.set_eq_of_length_le (Nat.le_of_not_lt inside)

theorem Mirrors.dropped {b : Broadcast W} {c : Channel} (mirrors : Mirrors b c) (i : Nat) :
    Mirrors (b.apply (.drop i)) (c.dropSignal i) ∧ (b.apply (.drop i)).now = b.now := by
  unfold apply
  dsimp only
  split
  · obtain ⟨signals, returned⟩ := mirrors.set i (x := .gone) nofun
    exact ⟨⟨mirrors.fired, mirrors.controlled, signals, returned, mirrors.ended⟩, rfl⟩
  · rename_i away
    have gone : c.has i = false := by
      rw [mirrors.has]
      unfold reading?
      split
      · exact absurd ‹_› (away _)
      · rfl
    rw [dropSignal_gone gone]
    exact ⟨mirrors, rfl⟩

section Steps

variable {b : Broadcast W} {c : Channel} (mirrors : Mirrors b c)

include mirrors

theorem carries_fire : Carries b c .fire := by
  obtain ⟨channel, -, -, now⟩ := mirrors.afterwards false
  by_cases controlled : c.controlled = true
  · have there : b.isControlled = true := mirrors.controlled.trans controlled
    exact .of (if_pos controlled) rfl channel (if_pos there) now
  · have gone : ¬ b.isControlled = true := by rwa [mirrors.controlled]
    exact .of (if_neg controlled) (if_neg gone) mirrors (if_neg gone) rfl

theorem carries_subscribe : Carries b c .subscribe := by
  by_cases controlled : c.controlled = true
  · have there : b.isControlled = true := mirrors.controlled.trans controlled
    exact .of (if_pos controlled) (if_pos there) (mirrors.made (x := .here _) nofun)
      ((if_pos there).trans (congrArg _ mirrors.length)) rfl
  · have gone : ¬ b.isControlled = true := by rwa [mirrors.controlled]
    exact .of (if_neg controlled) (if_neg gone) mirrors (if_neg gone) rfl

theorem carries_copy (i : Nat) : Carries b c (.copy i) := by
  have made : ∀ x : Signal W, x ≠ .lent → c.has i = x.isHere →
      b.after (b.carry (.copy i)) = { b with signals := b.signals ++ [x] } →
      Carries b c (.copy i) := by
    intro x free has carried
    refine .of rfl carried ?_ (congrArg _ mirrors.length) rfl
    show Mirrors _ { c with signals := c.signals ++ [c.has i] }
    rw [has]
    exact mirrors.made free
  have applied : b.after (b.carry (.copy i)) = b.apply (.copy i) := rfl
  have has := mirrors.has i
  unfold apply at applied
  unfold reading? at has
  dsimp only at applied
  cases found : b.signals[i]? with
  | none =>
    rw [found] at applied has
    exact made .gone nofun has applied
  | some x =>
    rw [found] at applied has
    cases x with
    | here r => exact made (.here r) nofun has applied
    | lent => exact absurd (List.mem_of_getElem? found) mirrors.returned
    | gone => exact made .gone nofun has applied

/-- A signal that is gone cannot be waited for. -/
theorem carries_nothing {s : Channel.Step} (step : c.step s = ⟨.noSignal, 0, c⟩)
    (carried : b.carry s = []) (answer : b.answer b s = .noSignal) : Carries b c s :=
  .of step (by rw [carried]; rfl) mirrors answer rfl

end Steps

/-- **Every step of a channel, move by move.** -/
theorem carries {b : Broadcast W} {c : Channel} {event : Option Nat} (kept : Kept b event)
    (mirrors : Mirrors b c) (s : Channel.Step) : Carries b c s := by
  have signal : ∀ i, (c.has i = false ∧ b.reading? i = none) ∨
      (c.has i = true ∧ (b.reading? i).isSome = true ∧ ∃ r, b.signals[i]? = some (.here r)) := by
    intro i
    rw [mirrors.has]
    unfold reading?
    split
    · exact .inr ⟨rfl, rfl, _, ‹_›⟩
    · exact .inl ⟨rfl, rfl⟩
  cases s with
  | fire => exact carries_fire mirrors
  | abandon =>
    obtain ⟨channel, -, -, now⟩ := mirrors.afterwards true
    exact .of rfl rfl channel rfl now
  | subscribe => exact carries_subscribe mirrors
  | copy i => exact carries_copy mirrors i
  | drop i =>
    obtain ⟨channel, now⟩ := mirrors.dropped i
    exact .of rfl rfl channel rfl now
  | wait i limit =>
    rcases signal i with ⟨gone, unread⟩ | ⟨has, read, r, here⟩
    · exact carries_nothing mirrors (if_neg (by rw [gone]; nofun))
        (if_neg (by rw [unread]; nofun)) (by simp [answer])
    · obtain ⟨channel, stage, moment⟩ :=
        carry_patiently mirrors here kept (wait_joined here) limit
      refine .of (if_pos has) (congrArg b.after (if_pos read)) channel ?_ moment
      unfold answer
      dsimp only
      rw [stage]
      cases c.isOver <;> rfl
  | receive i limit =>
    rcases signal i with ⟨gone, unread⟩ | ⟨has, read, r, here⟩
    · exact carries_nothing mirrors (if_neg (by rw [gone]; nofun))
        (if_neg (by rw [unread]; nofun)) (by simp [answer])
    · obtain ⟨channel, stage, moment⟩ :=
        carry_patiently mirrors here kept (receive_joined here) limit
      refine .of (if_pos has) (congrArg b.after (if_pos read)) channel ?_ moment
      unfold answer
      dsimp only
      rw [stage]
      cases c.isOver <;> rfl
  | waitDuring i limit after abandons =>
    rcases signal i with ⟨gone, unread⟩ | ⟨has, read, r, here⟩
    · exact carries_nothing mirrors (if_neg (by rw [gone]; nofun))
        (if_neg (by rw [unread]; nofun)) (by simp [answer])
    · obtain ⟨channel, stage, moment⟩ := carry_during mirrors here kept limit after abandons
      refine .of (r := ⟨.timed (c.waitUntil limit after).1 (c.waitUntil limit after).2, _, _⟩)
        (if_pos has) rfl channel ?_ moment
      unfold answer
      dsimp only
      rw [stage]
      cases (c.waitUntil limit after).1 <;> simp

/-- Every list of steps of a channel, move by move. -/
def carryAll (b : Broadcast W) : List Channel.Step → List Move
  | [] => []
  | s :: ss => b.carry s ++ (b.after (b.carry s)).carryAll ss

end Broadcast

/-- A channel after steps. -/
def Channel.after (c : Channel) : List Channel.Step → Channel
  | [] => c
  | s :: ss => (c.step s).channel.after ss

namespace Broadcast

theorem carryAll_mirrors {b : Broadcast W} {c : Channel} {event : Option Nat} (kept : Kept b event)
    (mirrors : Mirrors b c) (ss : List Channel.Step) :
    Mirrors (b.after (b.carryAll ss)) (c.after ss) := by
  induction ss generalizing b c event with
  | nil => exact mirrors
  | cons s ss ih =>
    rw [carryAll, after_append]
    exact ih (after_kept kept _) (carries kept mirrors s).channel

end Broadcast

/-- **No signal is lost, and none invented.** Whatever is done to a channel in whatever order, by
its controller, its signals and their waits, all signals read whether the controller has fired; a
wait is over at the moment at which the controller fires or goes for the first time, or at once if
it has begun later; and nobody's wait concerns anybody else. The steps of a channel are such moves:
they read the same, give the same answers and take the same time. -/
theorem signals_tell_and_waits_wake (W : Watch) :
    (∀ ms, Broadcast.Faithful W ms) ∧
    ∀ (ss : List Channel.Step) (s : Channel.Step),
      let b := (Broadcast.new W).after ((Broadcast.new W).carryAll ss)
      let c := Channel.new.after ss
      (∀ i, b.reading? i = c.isShutdown? i) ∧ b.Carries c s := by
  refine ⟨Broadcast.faithful W, fun ss s => ?_⟩
  have mirrors :=
    Broadcast.carryAll_mirrors (Broadcast.new_kept W) (Broadcast.new_mirrors W) ss
  have kept := Broadcast.run_kept W ((Broadcast.new W).carryAll ss)
  exact ⟨mirrors.reading, Broadcast.carries kept mirrors s⟩

/-- A copy of a copy is waited for and sleeps. After 50 milliseconds the controller fires, makes one
more signal, which reads the same, and goes; and the wait is over at that moment, although others
come in between. -/
theorem copy_of_copy_wakes :
    let ms : List Broadcast.Move := [.copy 0, .copy 1, .wait 2, .go 0, .go 0, .advance 50, .fire,
      .subscribe, .abandon]
    .fire ∈ ms.takeWhile (· ≠ .abandon) ∧
    ∃ w, ((Broadcast.new .counting).after (ms ++ [.go 0, .receive 3, .go 1, .drop 0,
      .go 0])).waits[0]? = some w ∧ w.stage = .finished 50 := by
  intro ms
  have faithful := (signals_tell_and_waits_wake .counting).1 ms
  exact ⟨(faithful.reads 3 true rfl).mp rfl,
    faithful.wakes 0 ⟨2, true, (0 : Nat), 0, .asking⟩ _ rfl rfl nofun (by decide) (by decide)⟩

end ServiceHealth.Shutdown
