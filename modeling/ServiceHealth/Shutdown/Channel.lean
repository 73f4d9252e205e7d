/-!
# The shutdown channel

A channel has one controller and any number of signals. The controller fires at most once that
matters; a signal reads true exactly from then on, whether it was there before or not. Waiting for
a signal is over when the controller has fired or is gone; a wait has a limit after which it is
given up.
-/

namespace ServiceHealth.Shutdown

/-! ## 1. States -/

/-- The state of a channel: whether the controller has fired, whether it is there, and which of the
signals made so far are, the first one first. -/
structure Channel where
  fired : Bool
  controlled : Bool
  signals : List Bool
  deriving DecidableEq, Repr

namespace Channel

/-- A channel with its controller and one signal. -/
def new : Channel := ⟨false, true, [true]⟩

/-- Whether a signal is there. -/
def has (c : Channel) (signal : Nat) : Bool := (c.signals[signal]?).getD false

/-- What a signal reads, if it is there. -/
def isShutdown? (c : Channel) (signal : Nat) : Option Bool :=
  if c.has signal then some c.fired else none

/-- What all signals read. -/
def readings (c : Channel) : List (Option Bool) :=
  c.signals.map fun live => if live then some c.fired else none

/-- Whether a wait is over at once. -/
def isOver (c : Channel) : Bool := c.fired || !c.controlled

/-- The channel after the controller has fired, if it is there. -/
def fire (c : Channel) : Channel := { c with fired := c.fired || c.controlled }

/-- The channel without its controller. -/
def abandon (c : Channel) : Channel := { c with controlled := false }

/-- The channel without a signal. -/
def dropSignal (c : Channel) (signal : Nat) : Channel :=
  { c with signals := c.signals.set signal false }

/-! ## 2. Steps -/

/-- What is done to a channel. Times are in milliseconds. The controller fires, goes or makes a
signal; a signal is copied or goes; a signal is waited for, at most for `limit`, and goes with the
wait (`receive`) or stays (`wait`); or it is waited for while the controller fires, or goes, after
some time. -/
inductive Step where
  | fire
  | abandon
  | subscribe
  | copy (signal : Nat)
  | drop (signal : Nat)
  | wait (signal limit : Nat)
  | receive (signal limit : Nat)
  | waitDuring (signal limit after : Nat) (abandons : Bool)
  deriving DecidableEq, Repr

/-- What a step gives. A new signal has a number; a wait tells whether it was over within its limit,
and one during which something happens also after how long. -/
inductive Answer where
  | done
  | noController
  | noSignal
  | made (signal : Nat)
  | waited (ended : Bool)
  | timed (ended : Bool) (after : Nat)
  deriving DecidableEq, Repr

/-- A step's answer, how long it took, and the channel after it. -/
structure Reply where
  answer : Answer
  duration : Nat
  channel : Channel
  deriving DecidableEq, Repr

/-- Whether a wait that starts now is over within its limit, and after how long it ends, when the
controller does something after `after`. -/
def waitUntil (c : Channel) (limit after : Nat) : Bool × Nat :=
  if c.isOver then (true, 0)
  else if after < limit ∨ after = 0 then (true, after)
  else (false, limit)

/-- What a step does. -/
def step (c : Channel) : Step → Reply
  | .fire => if c.controlled then ⟨.done, 0, c.fire⟩ else ⟨.noController, 0, c⟩
  | .abandon => ⟨.done, 0, c.abandon⟩
  | .subscribe =>
    if c.controlled then
      ⟨.made c.signals.length, 0, { c with signals := c.signals ++ [true] }⟩
    else ⟨.noController, 0, c⟩
  | .copy signal =>
    ⟨.made c.signals.length, 0, { c with signals := c.signals ++ [c.has signal] }⟩
  | .drop signal => ⟨.done, 0, c.dropSignal signal⟩
  | .wait signal limit =>
    if c.has signal then ⟨.waited c.isOver, if c.isOver then 0 else limit, c⟩
    else ⟨.noSignal, 0, c⟩
  | .receive signal limit =>
    if c.has signal then
      ⟨.waited c.isOver, if c.isOver then 0 else limit, c.dropSignal signal⟩
    else ⟨.noSignal, 0, c⟩
  | .waitDuring signal limit after abandons =>
    if c.has signal then
      let (ended, moment) := c.waitUntil limit after
      ⟨.timed ended moment, max moment after, if abandons then c.abandon else c.fire⟩
    else ⟨.noSignal, 0, c⟩

end Channel

end ServiceHealth.Shutdown
