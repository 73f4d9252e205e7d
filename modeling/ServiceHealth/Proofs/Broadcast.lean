import ServiceHealth.Shutdown.Channel

/-!
# The shutdown channel in detail

The controller of a shutdown channel sends on a channel that keeps the value sent last, and each
signal is a receiver of it. A receiver knows whether it has seen the newest value; a copy has seen
what the original has seen. A wait is a loop: it looks at the value, and if that is not set yet it
asks for a change, which gives the newest value if it is unseen, fails if the sender is gone, and
sleeps otherwise until a value is sent or the sender goes. All of this is done in single steps, and
others may do anything between two of them. Time passes only when no wait can go on.

* `Watch`: the channel underneath, with what is promised of it.
* `Broadcast.apply`, `Broadcast.after`: what one move does, and what a list of moves does;
  `apply_does`: the cases.
* `Kept`, `after_kept`: **an invariant**, relative to the moment at which the controller has fired
  or gone for the first time.
* `after_value`: when the value is set.
* `after_wakes`: **a wait that need not wait is over after two steps of its own**.
-/

namespace ServiceHealth.Shutdown

/-! ## 1. The channel underneath -/

/-- A channel that keeps the value sent last, and that is closed when its sender goes. Each receiver
that belongs to it has seen the newest value or not: one that is made has seen the value of that
moment, nobody has seen a value that has just been sent, and whoever has looked has. -/
structure Watch where
  Shared : Type
  Receiver : Type
  make : Bool → Shared
  first : Receiver
  value : Shared → Bool
  closed : Shared → Bool
  send : Bool → Shared → Shared
  close : Shared → Shared
  subscribe : Shared → Receiver
  unseen : Shared → Receiver → Bool
  mark : Shared → Receiver → Receiver
  Belongs : Shared → Receiver → Prop
  value_make : ∀ x, value (make x) = x
  value_send : ∀ x s, value (send x s) = x
  value_close : ∀ s, value (close s) = value s
  closed_make : ∀ x, closed (make x) = false
  closed_send : ∀ x s, closed (send x s) = closed s
  closed_close : ∀ s, closed (close s) = true
  unseen_first : ∀ x, unseen (make x) first = false
  unseen_subscribe : ∀ s, unseen s (subscribe s) = false
  unseen_send : ∀ x s r, Belongs s r → unseen (send x s) r = true
  unseen_close : ∀ s r, unseen (close s) r = unseen s r
  unseen_mark : ∀ s r, unseen s (mark s r) = false
  belongs_first : ∀ x, Belongs (make x) first
  belongs_subscribe : ∀ s, Belongs s (subscribe s)
  belongs_send : ∀ x s r, Belongs s r → Belongs (send x s) r
  belongs_close : ∀ s r, Belongs s r → Belongs (close s) r
  belongs_mark : ∀ s r, Belongs s (mark s r)

/-- A channel that counts what was sent, and whose receivers keep the count at which they have
looked last. -/
def Watch.counting : Watch where
  Shared := Bool × Nat × Bool
  Receiver := Nat
  make x := (x, 0, false)
  first := 0
  value s := s.1
  closed s := s.2.2
  send x s := (x, s.2.1 + 1, s.2.2)
  close s := (s.1, s.2.1, true)
  subscribe s := s.2.1
  unseen s r := r ≠ s.2.1
  mark s _ := s.2.1
  Belongs s r := r ≤ s.2.1
  value_make _ := rfl
  value_send _ _ := rfl
  value_close _ := rfl
  closed_make _ := rfl
  closed_send _ _ := rfl
  closed_close _ := rfl
  unseen_first _ := rfl
  unseen_subscribe _ := by simp
  unseen_send _ _ _ le := decide_eq_true (Nat.ne_of_lt (Nat.lt_succ_of_le le))
  unseen_close _ _ := rfl
  unseen_mark _ _ := by simp
  belongs_first _ := Nat.le_refl 0
  belongs_subscribe _ := Nat.le_refl _
  belongs_send _ _ _ le := Nat.le_succ_of_le le
  belongs_close _ _ le := le
  belongs_mark _ _ := Nat.le_refl _

/-! ## 2. Waits -/

/-- Where a wait stands: it is about to look at the value or to ask for a change, it sleeps until
there is one, or it was over or given up at a moment. -/
inductive Stage where
  | checking
  | asking
  | asleep
  | finished (moment : Nat)
  | givenUp (moment : Nat)
  deriving DecidableEq, Repr

namespace Stage

/-- Whether a wait is neither over nor given up. -/
def isRunning : Stage → Bool
  | finished _ | givenUp _ => false
  | _ => true

/-- Whether a wait can go on. -/
def isReady : Stage → Bool
  | checking | asking => true
  | _ => false

theorem isReady_of_done {s : Stage} (done : s.isRunning = false) : s.isReady = false := by
  cases s <;> first | rfl | cases done

theorem eq_asleep {s : Stage} (running : s.isRunning = true) (ready : s.isReady = false) :
    s = asleep := by
  cases s with
  | asleep => rfl
  | checking | asking => cases ready
  | finished | givenUp => cases running

/-- Where a wait stands once it is woken. -/
def woken : Stage → Stage
  | asleep => asking
  | s => s

theorem isRunning_woken (s : Stage) : s.woken.isRunning = s.isRunning := by
  cases s <;> rfl

/-- How many steps a wait has left that need not wait, by whether the value is set. -/
def left (value : Bool) : Stage → Nat
  | checking => if value then 1 else 2
  | asking | asleep => if value then 2 else 1
  | finished _ | givenUp _ => 0

theorem left_le (value : Bool) (s : Stage) : s.left value ≤ 2 := by
  cases s <;> cases value <;> simp [left]

theorem left_eq_zero {value : Bool} {s : Stage} : s.left value = 0 ↔ s.isRunning = false := by
  cases s <;> cases value <;> simp [left, isRunning]

theorem left_woken (value : Bool) (s : Stage) : s.woken.left value = s.left value := by
  cases s <;> rfl

end Stage

/-- A wait, with the number of the signal that it has borrowed or taken along and whether it gives
it back, when it has begun, and where it stands. -/
structure Wait (W : Watch) where
  signal : Nat
  keeps : Bool
  receiver : W.Receiver
  started : Nat
  stage : Stage

namespace Wait

variable {W : Watch}

/-- The next step of a wait. Whoever asks for a change gets the newest value if it is unseen, is
told if the sender is gone, and sleeps otherwise. -/
def go (s : W.Shared) (now : Nat) (w : Wait W) : Wait W :=
  match w.stage with
  | .checking => { w with stage := if W.value s then .finished now else .asking }
  | .asking =>
    if W.unseen s w.receiver then { w with receiver := W.mark s w.receiver, stage := .checking }
    else { w with stage := if W.closed s then .finished now else .asleep }
  | _ => w

/-- A wait is woken if it sleeps. -/
def wake (w : Wait W) : Wait W := { w with stage := w.stage.woken }

/-- A wait is given up. -/
def giveUp (now : Nat) (w : Wait W) : Wait W := { w with stage := .givenUp now }

theorem wake_of_done {w : Wait W} (done : w.stage.isRunning = false) : w.wake = w := by
  obtain ⟨signal, keeps, receiver, started, stage⟩ := w
  cases stage <;> first | rfl | cases done

/-- A step of a wait changes neither when it has begun nor what becomes of its signal. -/
theorem go_frame (s : W.Shared) (now : Nat) (w : Wait W) : (w.go s now).started = w.started ∧
    (w.go s now).signal = w.signal ∧ (w.go s now).keeps = w.keeps := by
  unfold go
  split
  · exact ⟨rfl, rfl, rfl⟩
  · split <;> exact ⟨rfl, rfl, rfl⟩
  · exact ⟨rfl, rfl, rfl⟩

theorem go_givenUp {s : W.Shared} {now t : Nat} {w : Wait W}
    (running : w.stage.isRunning = true) : (w.go s now).stage ≠ .givenUp t := by
  obtain ⟨signal, keeps, receiver, started, stage⟩ := w
  unfold go
  cases stage with
  | checking =>
    dsimp only
    split <;> nofun
  | asking =>
    dsimp only
    split
    · nofun
    · dsimp only
      split <;> nofun
  | asleep => nofun
  | finished | givenUp => cases running

end Wait

/-! ## 3. Moves -/

/-- One of the signals of a channel: it is there, a wait has borrowed it, or it is gone, perhaps
with a wait. -/
inductive Signal (W : Watch) where
  | here (receiver : W.Receiver)
  | lent
  | gone

/-- Whether a signal is there. -/
def Signal.isHere {W : Watch} : Signal W → Bool
  | here _ => true
  | _ => false

/-- A channel with everything that is under way: the moment, and the signals made and the waits
begun so far, the first one first. -/
structure Broadcast (W : Watch) where
  shared : W.Shared
  now : Nat
  signals : List (Signal W)
  waits : List (Wait W)

namespace Broadcast

/-- What can happen. The controller fires, goes or makes a signal; a signal is copied or goes; a
wait begins, which borrows a signal (`wait`) or takes it along (`receive`), does its next step or is
given up; time passes. -/
inductive Move where
  | fire
  | abandon
  | subscribe
  | copy (signal : Nat)
  | drop (signal : Nat)
  | wait (signal : Nat)
  | receive (signal : Nat)
  | go (wait : Nat)
  | giveUp (wait : Nat)
  | advance (moment : Nat)
  deriving DecidableEq, Repr

variable {W : Watch}

/-- A channel with its controller and one signal. -/
def new (W : Watch) : Broadcast W := ⟨W.make false, 0, [.here W.first], []⟩

/-- Whether the controller is there. -/
def isControlled (b : Broadcast W) : Bool := !W.closed b.shared

/-- Whether the controller has fired or is gone. -/
def hasSpoken (b : Broadcast W) : Bool := W.value b.shared || W.closed b.shared

/-- What a signal reads, if it is there. -/
def reading? (b : Broadcast W) (signal : Nat) : Option Bool :=
  match b.signals[signal]? with
  | some (.here _) => some (W.value b.shared)
  | _ => none

/-- Whether no wait can go on. -/
def isResting (b : Broadcast W) : Bool := b.waits.all fun w => !w.stage.isReady

/-- The controller speaks, and wakes all who sleep. -/
def speak (b : Broadcast W) (s : W.Shared) : Broadcast W :=
  { b with shared := s, waits := b.waits.map Wait.wake }

/-- A wait begins. -/
def begin (b : Broadcast W) (signal : Nat) (r : W.Receiver) (keeps : Bool) : Broadcast W :=
  { b with
    signals := b.signals.set signal (if keeps then .lent else .gone)
    waits := b.waits ++ [⟨signal, keeps, r, b.now, .checking⟩] }

/-- A wait changes; when it has ended it gives its signal back. -/
def put (b : Broadcast W) (wait : Nat) (w : Wait W) : Broadcast W :=
  { b with
    signals := if w.keeps && !w.stage.isRunning then b.signals.set w.signal (.here w.receiver)
      else b.signals
    waits := b.waits.set wait w }

/-- A wait that has not ended changes. -/
def update (b : Broadcast W) (wait : Nat) (f : Wait W → Wait W) : Broadcast W :=
  match b.waits[wait]? with
  | some w => if w.stage.isRunning then b.put wait (f w) else b
  | none => b

/-- What a move does. A signal that is lent can neither be copied nor go nor be waited for, and the
controller can do nothing once it is gone. -/
def apply (b : Broadcast W) : Move → Broadcast W
  | .fire => if b.isControlled then b.speak (W.send true b.shared) else b
  | .abandon => if b.isControlled then b.speak (W.close b.shared) else b
  | .subscribe =>
    if b.isControlled then { b with signals := b.signals ++ [.here (W.subscribe b.shared)] } else b
  | .copy i =>
    match b.signals[i]? with
    | some .lent => b
    | r => { b with signals := b.signals ++ [r.getD .gone] }
  | .drop i =>
    match b.signals[i]? with
    | some (.here _) => { b with signals := b.signals.set i .gone }
    | _ => b
  | .wait i =>
    match b.signals[i]? with
    | some (.here r) => b.begin i r true
    | _ => b
  | .receive i =>
    match b.signals[i]? with
    | some (.here r) => b.begin i r false
    | _ => b
  | .go k => b.update k (·.go b.shared b.now)
  | .giveUp k => b.update k (·.giveUp b.now)
  | .advance moment => if b.isResting && b.now ≤ moment then { b with now := moment } else b

/-- What moves do, one after the other. -/
def after (b : Broadcast W) : List Move → Broadcast W
  | [] => b
  | m :: ms => (b.apply m).after ms

theorem after_append (b : Broadcast W) (ms ms' : List Move) :
    b.after (ms ++ ms') = (b.after ms).after ms' := by
  induction ms generalizing b with
  | nil => rfl
  | cons m ms ih => exact ih _

/-- The moment, if the controller fires or goes. -/
def heard? (b : Broadcast W) (m : Move) : Option Nat :=
  if m = .fire ∨ m = .abandon then some b.now else none

/-- The moment at which the controller has fired or gone for the first time. -/
def event? (b : Broadcast W) : List Move → Option Nat
  | [] => none
  | m :: ms => (b.heard? m).or ((b.apply m).event? ms)

theorem update_cases (b : Broadcast W) (k : Nat) (f : Wait W → Wait W) :
    (b.update k f = b ∧ ∀ w, b.waits[k]? = some w → w.stage.isRunning = false) ∨
      ∃ w, b.waits[k]? = some w ∧ w.stage.isRunning = true ∧ b.update k f = b.put k (f w) := by
  unfold update
  cases hw : b.waits[k]? with
  | none => exact .inl ⟨rfl, nofun⟩
  | some w =>
    dsimp only
    split
    · exact .inr ⟨w, rfl, ‹_›, rfl⟩
    · refine .inl ⟨rfl, fun w' e => ?_⟩
      cases e
      exact Bool.eq_false_iff.mpr ‹_›

/-- Where no wait can go on, those that have not ended sleep. -/
theorem resting_asleep {b : Broadcast W} (resting : b.isResting = true) {w : Wait W}
    (hw : w ∈ b.waits) (running : w.stage.isRunning = true) : w.stage = .asleep :=
  Stage.eq_asleep running ((Bool.not_eq_true' _).mp (List.all_eq_true.mp resting w hw))

/-- What a move can do. -/
inductive Does (b : Broadcast W) : Move → Broadcast W → Prop where
  | nothing {m : Move} (spoken : m = .fire ∨ m = .abandon → b.isControlled = false)
    (ended : ∀ k, m = .go k ∨ m = .giveUp k → ∀ w, b.waits[k]? = some w →
      w.stage.isRunning = false) : Does b m b
  | fires (controlled : b.isControlled = true) : Does b .fire (b.speak (W.send true b.shared))
  | leaves (controlled : b.isControlled = true) : Does b .abandon (b.speak (W.close b.shared))
  | made {m : Move} (h : m = .subscribe ∨ ∃ i, m = .copy i) (x : Signal W) (free : x ≠ .lent)
    (belongs : ∀ r, x = .here r → r = W.subscribe b.shared ∨ .here r ∈ b.signals) :
    Does b m { b with signals := b.signals ++ [x] }
  | dropped {i : Nat} {r : W.Receiver} (here : b.signals[i]? = some (.here r)) :
    Does b (.drop i) { b with signals := b.signals.set i .gone }
  | begins {m : Move} {i : Nat} {r : W.Receiver} {keeps : Bool}
    (h : m = if keeps then .wait i else .receive i) (here : b.signals[i]? = some (.here r)) :
    Does b m (b.begin i r keeps)
  | goes {k : Nat} {w : Wait W} (found : b.waits[k]? = some w)
    (running : w.stage.isRunning = true) : Does b (.go k) (b.put k (w.go b.shared b.now))
  | givesUp {k : Nat} {w : Wait W} (found : b.waits[k]? = some w)
    (running : w.stage.isRunning = true) : Does b (.giveUp k) (b.put k (w.giveUp b.now))
  | passes {moment : Nat} (resting : b.isResting = true) (later : b.now ≤ moment) :
    Does b (.advance moment) { b with now := moment }

/-- **What a move does.** -/
theorem apply_does (b : Broadcast W) (m : Move) : Does b m (b.apply m) := by
  cases m with
  | fire =>
    unfold apply
    dsimp only
    split
    · exact .fires ‹_›
    · exact .nothing (fun _ => Bool.eq_false_iff.mpr ‹_›) nofun
  | abandon =>
    unfold apply
    dsimp only
    split
    · exact .leaves ‹_›
    · exact .nothing (fun _ => Bool.eq_false_iff.mpr ‹_›) nofun
  | subscribe =>
    unfold apply
    dsimp only
    split
    · refine .made (.inl rfl) _ nofun fun r e => .inl ?_
      cases e
      rfl
    · exact .nothing nofun nofun
  | copy i =>
    unfold apply
    dsimp only
    cases found : b.signals[i]? with
    | none => exact .made (.inr ⟨i, rfl⟩) .gone nofun nofun
    | some x =>
      cases x with
      | here r =>
        refine .made (.inr ⟨i, rfl⟩) (.here r) nofun fun _ e => .inr ?_
        rw [← e]
        exact List.mem_of_getElem? found
      | lent => exact .nothing nofun nofun
      | gone => exact .made (.inr ⟨i, rfl⟩) .gone nofun nofun
  | drop i =>
    unfold apply
    dsimp only
    split
    · exact .dropped ‹_›
    · exact .nothing nofun nofun
  | wait i =>
    unfold apply
    dsimp only
    split
    · exact .begins rfl ‹_›
    · exact .nothing nofun nofun
  | receive i =>
    unfold apply
    dsimp only
    split
    · exact .begins rfl ‹_›
    · exact .nothing nofun nofun
  | go k =>
    show Does b (.go k) (b.update k (·.go b.shared b.now))
    rcases b.update_cases k (·.go b.shared b.now) with ⟨e, ended⟩ | ⟨w, found, running, e⟩
    all_goals rw [e]
    · refine .nothing nofun fun _ h => ?_
      rcases h with h | h <;> cases h
      exact ended
    · exact .goes found running
  | giveUp k =>
    show Does b (.giveUp k) (b.update k (·.giveUp b.now))
    rcases b.update_cases k (·.giveUp b.now) with ⟨e, ended⟩ | ⟨w, found, running, e⟩
    all_goals rw [e]
    · refine .nothing nofun fun _ h => ?_
      rcases h with h | h <;> cases h
      exact ended
    · exact .givesUp found running
  | advance moment =>
    unfold apply
    dsimp only
    split
    · rename_i h
      obtain ⟨resting, later⟩ := (Bool.and_eq_true _ _).mp h
      exact .passes resting (of_decide_eq_true later)
    · exact .nothing nofun nofun

/-- **What a move does to the channel underneath.** -/
theorem apply_shared (b : Broadcast W) (m : Move) : (b.apply m).shared =
    if b.isControlled then
      match m with
      | .fire => W.send true b.shared
      | .abandon => W.close b.shared
      | _ => b.shared
    else b.shared := by
  have does := b.apply_does m
  generalize b.apply m = b' at does ⊢
  cases does with
  | nothing h => cases m <;> simp_all
  | fires controlled | leaves controlled => exact (if_pos controlled).symm
  | made h => rcases h with rfl | ⟨i, rfl⟩ <;> exact (ite_self _).symm
  | @begins m i r keeps h => cases keeps <;> subst h <;> exact (ite_self _).symm
  | _ => exact (ite_self _).symm

/-- **A value that can no longer change**: once the controller has fired or is gone, it stays. -/
theorem apply_spoken {b : Broadcast W} (spoken : b.hasSpoken = true) (m : Move) :
    (b.apply m).hasSpoken = true ∧ W.value (b.apply m).shared = W.value b.shared := by
  unfold hasSpoken at spoken ⊢
  rw [apply_shared]
  cases controlled : b.isControlled with
  | false => exact ⟨spoken, rfl⟩
  | true =>
    have set : W.value b.shared = true := by
      unfold isControlled at controlled
      simpa [(Bool.not_eq_true' _).mp controlled] using spoken
    cases m with
    | fire => simp [W.value_send, set]
    | abandon => simp [W.value_close, W.closed_close]
    | _ => exact ⟨spoken, rfl⟩

/-- **When the value is set**: if the controller has fired before it has gone. -/
theorem after_value (b : Broadcast W) (ms : List Move) : W.value (b.after ms).shared = true ↔
    W.value b.shared = true ∨
      (b.isControlled = true ∧ .fire ∈ ms.takeWhile (· ≠ .abandon)) := by
  induction ms generalizing b with
  | nil => simp [after]
  | cons m ms ih =>
    unfold isControlled at ih ⊢
    rw [after, ih, apply_shared]
    unfold isControlled
    by_cases gone : W.closed b.shared = true
    · simp [gone]
    · cases m <;>
        simp [gone, W.value_send, W.value_close, W.closed_send, W.closed_close]

/-! ## 4. The invariant -/

/-- **A wait fits the moment of the event**: it is over at this moment, or at its start if that was
later; as long as it has not ended no time has passed since then; and it sleeps only if there was no
event. Its receiver belongs to the channel and has nothing new to see as long as the value is not
set; whoever has found the value not set has not seen it since. -/
structure Fits (s : W.Shared) (now : Nat) (event : Option Nat) (w : Wait W) : Prop where
  begun : w.started ≤ now
  belongs : W.Belongs s w.receiver
  unset : W.value s = false → W.unseen s w.receiver = false
  asking : w.stage = .asking → W.value s = true → W.unseen s w.receiver = true
  finished : ∀ t, w.stage = .finished t → ∃ e, event = some e ∧ t = max w.started e
  running : w.stage.isRunning = true → ∀ e, event = some e → now = max w.started e
  asleep : w.stage = .asleep → event = none

/-- **What is kept**, relative to the moment of the event: there was one, and it is past, if the
controller has fired or is gone; all signals belong to the channel and have nothing new to see as
long as the value is not set; all waits fit. -/
structure Kept (b : Broadcast W) (event : Option Nat) : Prop where
  told : event.isSome = b.hasSpoken
  past : ∀ e, event = some e → e ≤ b.now
  signals : ∀ r, .here r ∈ b.signals →
    W.Belongs b.shared r ∧ (W.value b.shared = false → W.unseen b.shared r = false)
  waits : ∀ w ∈ b.waits, Fits b.shared b.now event w

theorem new_kept (W : Watch) : Kept (new W) none where
  told := by
    unfold hasSpoken new
    rw [W.value_make, W.closed_make]
    rfl
  past := nofun
  signals r h := by
    obtain ⟨⟩ := List.mem_singleton.mp h
    exact ⟨W.belongs_first _, fun _ => W.unseen_first _⟩
  waits := nofun

/-- There was no event as long as the controller is there and has not fired. -/
theorem Kept.unspoken {b : Broadcast W} {event : Option Nat} (kept : Kept b event) :
    event = none ↔ b.hasSpoken = false := by
  rw [← kept.told]
  cases event <;> simp

/-- A wait whose signal is there begins. -/
theorem begin_kept {b : Broadcast W} {event : Option Nat} (kept : Kept b event) {i : Nat}
    {r : W.Receiver} (here : b.signals[i]? = some (.here r)) (keeps : Bool) :
    Kept (b.begin i r keeps) event where
  told := kept.told
  past := kept.past
  signals r' h := by
    rcases List.mem_or_eq_of_mem_set h with old | e
    · exact kept.signals r' old
    · cases keeps <;> cases e
  waits w hw := by
    rcases List.mem_append.mp hw with old | fresh
    · exact kept.waits w old
    · obtain rfl := List.mem_singleton.mp fresh
      obtain ⟨belongs, unset⟩ := kept.signals r (List.mem_of_getElem? here)
      exact {
        begun := Nat.le_refl _
        belongs
        unset
        asking := nofun
        finished := nofun
        running := fun _ e he => (Nat.max_eq_left (kept.past e he)).symm
        asleep := nofun }

theorem put_kept {b : Broadcast W} {event : Option Nat} (kept : Kept b event) (k : Nat) {w : Wait W}
    (fits : Fits b.shared b.now event w) : Kept (b.put k w) event where
  told := kept.told
  past := kept.past
  signals r h := by
    unfold put at h
    dsimp only at h
    split at h
    · rcases List.mem_or_eq_of_mem_set h with old | e
      · exact kept.signals r old
      · cases e
        exact ⟨fits.belongs, fits.unset⟩
    · exact kept.signals r h
  waits w' hw := by
    rcases List.mem_or_eq_of_mem_set hw with old | rfl
    · exact kept.waits w' old
    · exact fits

/-- **The next step of a wait.** It is over only if there was an event, since it sees the value set
or the controller gone; and it sleeps only if there was none, since a value that was set after it
has looked would be new to it. -/
theorem go_fits {b : Broadcast W} {event : Option Nat} (kept : Kept b event) {w : Wait W}
    (fits : Fits b.shared b.now event w) (running : w.stage.isRunning = true) :
    Fits b.shared b.now event (w.go b.shared b.now) := by
  obtain ⟨begun, belongs, unset, asking, -, since, asleep⟩ := fits
  have now := since running
  have finished : b.hasSpoken = true → ∃ e, event = some e ∧ b.now = max w.started e := by
    intro spoken
    obtain ⟨e, he⟩ := Option.isSome_iff_exists.mp (kept.told.trans spoken)
    exact ⟨e, he, now e he⟩
  obtain ⟨signal, keeps, r, started, stage⟩ := w
  dsimp only at begun belongs unset asking finished now asleep
  unfold Wait.go
  cases stage with
  | checking =>
    dsimp only
    cases value : W.value b.shared with
    | true =>
      refine ⟨begun, belongs, unset, nofun, ?_, nofun, nofun⟩
      rintro _ ⟨⟩
      exact finished (by rw [hasSpoken, value]; rfl)
    | false =>
      exact ⟨begun, belongs, unset, fun _ set => (by rw [value] at set; cases set), nofun,
        fun _ => now, nofun⟩
  | asking =>
    dsimp only
    by_cases fresh : W.unseen b.shared r = true
    · rw [if_pos fresh]
      exact ⟨begun, W.belongs_mark _ _, fun _ => W.unseen_mark _ _, nofun, nofun, fun _ => now,
        nofun⟩
    · rw [if_neg fresh]
      have value : W.value b.shared = false :=
        Bool.eq_false_iff.mpr fun set => fresh (asking rfl set)
      cases closed : W.closed b.shared with
      | true =>
        refine ⟨begun, belongs, unset, nofun, ?_, nofun, nofun⟩
        rintro _ ⟨⟩
        exact finished (by rw [hasSpoken, closed]; exact Bool.or_true _)
      | false =>
        have unspoken : event = none := kept.unspoken.mpr (by rw [hasSpoken, value, closed]; rfl)
        exact ⟨begun, belongs, unset, nofun, nofun, fun _ => now, fun _ => unspoken⟩
  | asleep => exact ⟨begun, belongs, unset, nofun, nofun, fun _ => now, asleep⟩
  | finished | givenUp => cases running

theorem giveUp_fits {s : W.Shared} {now : Nat} {event : Option Nat} {w : Wait W}
    (fits : Fits s now event w) : Fits s now event (w.giveUp now) :=
  ⟨fits.begun, fits.belongs, fits.unset, nofun, nofun, nofun, nofun⟩

/-- **The controller speaks**, and nobody sleeps on. What it has sent is new to all. -/
theorem speak_kept {b : Broadcast W} {event : Option Nat} (kept : Kept b event) {s : W.Shared}
    (h : s = W.send true b.shared ∨ s = W.close b.shared) :
    Kept (b.speak s) (event.or (some b.now)) := by
  have belongs : ∀ r, W.Belongs b.shared r → W.Belongs s r := by
    rcases h with rfl | rfl
    · exact W.belongs_send _ _
    · exact W.belongs_close _
  have unset : ∀ r, (W.value b.shared = false → W.unseen b.shared r = false) →
      W.value s = false → W.unseen s r = false := by
    rcases h with rfl | rfl
    · rw [W.value_send]
      exact fun _ _ => nofun
    · rw [W.value_close]
      exact fun r known value => (W.unseen_close _ r).trans (known value)
  have asking : ∀ r, W.Belongs b.shared r →
      (W.value b.shared = true → W.unseen b.shared r = true) → W.value s = true →
      W.unseen s r = true := by
    rcases h with rfl | rfl
    · exact fun r mine _ _ => W.unseen_send _ _ r mine
    · rw [W.value_close]
      exact fun r _ known value => (W.unseen_close _ r).trans (known value)
  refine ⟨?_, fun e he => ?_, fun r hr => ?_, fun w' hw' => ?_⟩
  · have spoken : (b.speak s).hasSpoken = true := by
      show (W.value s || W.closed s) = true
      rcases h with rfl | rfl
      · rw [W.value_send]
        rfl
      · rw [W.closed_close]
        exact Bool.or_true _
    rw [Option.isSome_or, Option.isSome_some, Bool.or_true, spoken]
  · cases event with
    | none =>
      cases he
      exact Nat.le_refl _
    | some t => exact kept.past e he
  · obtain ⟨mine, known⟩ := kept.signals r hr
    exact ⟨belongs r mine, unset r known⟩
  · obtain ⟨w, hw, rfl⟩ := List.mem_map.mp hw'
    have fits := kept.waits w hw
    obtain ⟨signal, keeps, r, started, stage⟩ := w
    refine ⟨fits.begun, belongs r fits.belongs, unset r fits.unset, fun h => ?_, fun t h => ?_,
      fun h e he => ?_, fun h => ?_⟩
    · refine asking r fits.belongs fun value => ?_
      cases stage with
      | asking => exact fits.asking rfl value
      | asleep =>
        -- nobody was asleep while the value was set
        have unspoken := kept.unspoken.mp (fits.asleep rfl)
        rw [hasSpoken, value] at unspoken
        cases unspoken
      | _ => cases h
    · obtain ⟨e, he, moment⟩ := fits.finished t (by cases stage <;> first | exact h | cases h)
      exact ⟨e, by rw [he]; rfl, moment⟩
    · cases event with
      | none =>
        cases he
        exact (Nat.max_eq_right fits.begun).symm
      | some t => exact fits.running (by cases stage <;> first | rfl | cases h) e he
    · cases stage <;> cases h

/-- **What every move keeps.** -/
theorem apply_kept {b : Broadcast W} {event : Option Nat} (kept : Kept b event) (m : Move) :
    Kept (b.apply m) (event.or (b.heard? m)) := by
  have does := b.apply_does m
  generalize b.apply m = b' at does ⊢
  have unheard : ∀ {m : Move}, ¬ (m = .fire ∨ m = .abandon) → event.or (b.heard? m) = event :=
    fun h => by rw [heard?, if_neg h, Option.or_none]
  cases does with
  | @nothing m h =>
    by_cases speaks : m = .fire ∨ m = .abandon
    · have closed : W.closed b.shared = true := (Bool.not_eq_false' _).mp (h speaks)
      have spoken : event.isSome = true := by
        rw [kept.told, hasSpoken, closed]
        exact Bool.or_true _
      obtain ⟨e, rfl⟩ := Option.isSome_iff_exists.mp spoken
      exact kept
    · rw [unheard speaks]
      exact kept
  | fires => exact speak_kept kept (.inl rfl)
  | leaves => exact speak_kept kept (.inr rfl)
  | made h x free belongs =>
    rw [unheard (by rcases h with rfl | ⟨i, rfl⟩ <;> nofun)]
    refine ⟨kept.told, kept.past, fun r hr => ?_, kept.waits⟩
    rcases List.mem_append.mp hr with old | fresh
    · exact kept.signals r old
    · rcases belongs r (List.mem_singleton.mp fresh).symm with rfl | old
      · exact ⟨W.belongs_subscribe _, fun _ => W.unseen_subscribe _⟩
      · exact kept.signals r old
  | dropped =>
    rw [unheard (by nofun)]
    refine ⟨kept.told, kept.past, fun r hr => ?_, kept.waits⟩
    rcases List.mem_or_eq_of_mem_set hr with old | e
    · exact kept.signals r old
    · cases e
  | @begins m i r keeps h here =>
    rw [unheard (by cases keeps <;> subst h <;> nofun)]
    exact begin_kept kept here keeps
  | goes found running =>
    rw [unheard (by nofun)]
    exact put_kept kept _ (go_fits kept (kept.waits _ (List.mem_of_getElem? found)) running)
  | givesUp found =>
    rw [unheard (by nofun)]
    exact put_kept kept _ (giveUp_fits (kept.waits _ (List.mem_of_getElem? found)))
  | passes resting later =>
    rw [unheard (by nofun)]
    refine ⟨kept.told, fun e he => Nat.le_trans (kept.past e he) later, kept.signals,
      fun w hw => ?_⟩
    have fits := kept.waits w hw
    refine ⟨Nat.le_trans fits.begun later, fits.belongs, fits.unset, fits.asking, fits.finished,
      fun running e he => ?_, fits.asleep⟩
    -- whoever has not ended sleeps, and so there was no event
    rw [fits.asleep (resting_asleep resting hw running)] at he
    cases he

/-- **What a run keeps.** -/
theorem after_kept {b : Broadcast W} {event : Option Nat} (kept : Kept b event) (ms : List Move) :
    Kept (b.after ms) (event.or (b.event? ms)) := by
  induction ms generalizing b event with
  | nil =>
    rw [event?, Option.or_none]
    exact kept
  | cons m ms ih =>
    have rest := ih (apply_kept kept m)
    rw [Option.or_assoc] at rest
    exact rest

/-! ## 5. The progress of a wait -/

/-- **What a move does to a wait.** -/
theorem apply_wait {b : Broadcast W} {k : Nat} {w : Wait W} (found : b.waits[k]? = some w)
    (m : Move) : ∃ w', (b.apply m).waits[k]? = some w' ∧
      ((w' = w ∧ (m = .go k → w.stage.isRunning = false)) ∨
        (w' = w.wake ∧ (m = .fire ∨ m = .abandon)) ∨
        (w' = w.go b.shared b.now ∧ m = .go k ∧ w.stage.isRunning = true) ∨
        (w' = w.giveUp b.now ∧ m = .giveUp k)) := by
  have does := b.apply_does m
  generalize b.apply m = b' at does ⊢
  have woken : (b.waits.map Wait.wake)[k]? = some w.wake := by
    rw [List.getElem?_map, found]
    rfl
  have put : ∀ k' w', (b.put k' w').waits[k]? = if k' = k then some w' else some w := by
    intro k' w'
    show (b.waits.set k' w')[k]? = _
    rw [List.getElem?_set]
    split
    · rename_i same
      rw [same, if_pos (List.getElem?_eq_some_iff.mp found).1]
    · exact found
  cases does with
  | nothing _ ended => exact ⟨w, found, .inl ⟨rfl, fun e => ended k (.inl e) w found⟩⟩
  | fires => exact ⟨w.wake, woken, .inr (.inl ⟨rfl, .inl rfl⟩)⟩
  | leaves => exact ⟨w.wake, woken, .inr (.inl ⟨rfl, .inr rfl⟩)⟩
  | made h => exact ⟨w, found, .inl ⟨rfl, by rcases h with rfl | ⟨i, rfl⟩ <;> nofun⟩⟩
  | dropped => exact ⟨w, found, .inl ⟨rfl, nofun⟩⟩
  | @begins m i r keeps h here =>
    refine ⟨w, ?_, .inl ⟨rfl, by cases keeps <;> subst h <;> nofun⟩⟩
    exact (List.getElem?_append_left (List.getElem?_eq_some_iff.mp found).1).trans found
  | @goes k' w' found' running =>
    rw [put]
    split
    · rename_i same
      subst same
      obtain rfl : w = w' := Option.some.inj (found.symm.trans found')
      exact ⟨_, rfl, .inr (.inr (.inl ⟨rfl, rfl, running⟩))⟩
    · rename_i other
      exact ⟨w, rfl, .inl ⟨rfl, fun e => by cases e; exact absurd rfl other⟩⟩
  | @givesUp k' w' found' =>
    rw [put]
    split
    · rename_i same
      subst same
      obtain rfl : w = w' := Option.some.inj (found.symm.trans found')
      exact ⟨_, rfl, .inr (.inr (.inr ⟨rfl, rfl⟩))⟩
    · exact ⟨w, rfl, .inl ⟨rfl, nofun⟩⟩
  | passes => exact ⟨w, found, .inl ⟨rfl, nofun⟩⟩

/-- **Each step brings a wait nearer to its end**, once the controller has fired or is gone. -/
theorem go_left {b : Broadcast W} {event : Option Nat} (kept : Kept b event)
    (spoken : b.hasSpoken = true) {w : Wait W} (fits : Fits b.shared b.now event w)
    (running : w.stage.isRunning = true) :
    (w.go b.shared b.now).stage.left (W.value b.shared) + 1 ≤
      w.stage.left (W.value b.shared) := by
  obtain ⟨-, -, unset, asking, -, -, asleep⟩ := fits
  obtain ⟨signal, keeps, r, started, stage⟩ := w
  dsimp only at unset asking asleep
  unfold Wait.go
  cases stage with
  | checking => cases W.value b.shared <;> simp [Stage.left]
  | asking =>
    cases value : W.value b.shared with
    | true => simp [Stage.left, asking rfl value]
    | false =>
      have closed : W.closed b.shared = true := by
        rw [hasSpoken, value] at spoken
        exact spoken
      simp [Stage.left, unset value, closed]
  | asleep =>
    rw [kept.unspoken.mp (asleep rfl)] at spoken
    cases spoken
  | finished | givenUp => cases running

/-- **A wait that need not wait**: every move leaves it where it is or brings it nearer to its end,
and its own steps always do, unless it is given up. -/
theorem apply_left {b : Broadcast W} {event : Option Nat} (kept : Kept b event)
    (spoken : b.hasSpoken = true) {k : Nat} {w : Wait W} (found : b.waits[k]? = some w)
    (stays : ∀ t, w.stage ≠ .givenUp t) {m : Move} (patient : m ≠ .giveUp k) :
    ∃ w', (b.apply m).waits[k]? = some w' ∧ w'.started = w.started ∧
      (∀ t, w'.stage ≠ .givenUp t) ∧ w'.stage.left (W.value b.shared) ≤
        w.stage.left (W.value b.shared) - if m = .go k then 1 else 0 := by
  obtain ⟨w', found', h⟩ := apply_wait found m
  refine ⟨w', found', ?_⟩
  rcases h with ⟨rfl, ended⟩ | ⟨rfl, speaks⟩ | ⟨rfl, rfl, running⟩ | ⟨-, e⟩
  · refine ⟨rfl, stays, ?_⟩
    split
    · rename_i own
      exact Nat.le_trans (Nat.le_of_eq (Stage.left_eq_zero.mpr (ended own))) (Nat.zero_le _)
    · exact Nat.le_refl _
  · have stays' : ∀ t, w.stage.woken ≠ .givenUp t := by
      cases stage : w.stage with
      | givenUp t => exact absurd stage (stays t)
      | _ => nofun
    refine ⟨rfl, stays', ?_⟩
    rw [if_neg (by rcases speaks with rfl | rfl <;> nofun)]
    exact Nat.le_of_eq (Stage.left_woken _ _)
  · refine ⟨(w.go_frame _ _).1, fun t => Wait.go_givenUp running, ?_⟩
    rw [if_pos rfl]
    exact Nat.le_sub_one_of_lt
      (go_left kept spoken (kept.waits w (List.mem_of_getElem? found)) running)
  · exact absurd e patient

theorem after_left {b : Broadcast W} {event : Option Nat} (kept : Kept b event)
    (spoken : b.hasSpoken = true) {k : Nat} {w : Wait W} (found : b.waits[k]? = some w)
    (stays : ∀ t, w.stage ≠ .givenUp t) {ms : List Move} (patient : .giveUp k ∉ ms) :
    ∃ w', (b.after ms).waits[k]? = some w' ∧ w'.started = w.started ∧
      (∀ t, w'.stage ≠ .givenUp t) ∧ w'.stage.left (W.value b.shared) ≤
        w.stage.left (W.value b.shared) - ms.count (.go k) := by
  induction ms generalizing b event w with
  | nil => exact ⟨w, found, rfl, stays, Nat.le_refl _⟩
  | cons m ms ih =>
    obtain ⟨w₁, found₁, started₁, stays₁, left₁⟩ := apply_left kept spoken found stays
      (m := m) fun e => patient (e ▸ List.mem_cons_self)
    obtain ⟨spoken₁, value⟩ := apply_spoken spoken m
    obtain ⟨w', found', started', stays', left'⟩ := ih (apply_kept kept m) spoken₁ found₁ stays₁
      fun h => patient (List.mem_cons_of_mem _ h)
    refine ⟨w', found', started'.trans started₁, stays', ?_⟩
    rw [value] at left'
    rw [List.count_cons]
    simp only [beq_iff_eq]
    omega

/-- **A wait that need not wait is over after two steps of its own**, whatever happens in between,
unless it is given up. -/
theorem after_wakes {b : Broadcast W} {event : Option Nat} (kept : Kept b event)
    (spoken : b.hasSpoken = true) {k : Nat} {w : Wait W} (found : b.waits[k]? = some w)
    (running : w.stage.isRunning = true) {ms : List Move} (patient : .giveUp k ∉ ms)
    (enough : 2 ≤ ms.count (.go k)) :
    ∃ w' t, (b.after ms).waits[k]? = some w' ∧ w'.started = w.started ∧
      w'.stage = .finished t := by
  have stays : ∀ t, w.stage ≠ .givenUp t := fun t e => by rw [e] at running; cases running
  obtain ⟨w', found', started', stays', left'⟩ := after_left kept spoken found stays patient
  have few := Stage.left_le (W.value b.shared) w.stage
  have ended := Stage.left_eq_zero.mp (show w'.stage.left (W.value b.shared) = 0 by omega)
  refine ⟨w', ?_⟩
  cases stage : w'.stage with
  | finished t => exact ⟨t, found', started', rfl⟩
  | givenUp t => exact absurd stage (stays' t)
  | _ => rw [stage] at ended; cases ended

end Broadcast

end ServiceHealth.Shutdown
