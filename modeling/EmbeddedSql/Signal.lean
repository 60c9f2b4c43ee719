/-
**Cancellation.**

A scan that may take long asks a signal again and again whether it should stop.  The answers may
change at any time, so the signal is a sequence of answers and the scan keeps count of its
questions.

* `Signal` — the answers by the number of the question;
* `Watched` — a computation that may be cancelled;
* `Signal.poll` — one question;
* `Signal.silent`, `Signal.after` — never, and after a number of questions.
-/

set_option relaxedAutoImplicit false
set_option autoImplicit false

namespace EmbeddedSql

/-- Whether to stop, by the number of questions asked before. -/
abbrev Signal := Nat → Bool

/-- A computation that counts its questions and gives up when an answer is yes. -/
abbrev Watched := StateT Nat Option

namespace Signal

/-- One question. -/
def poll (s : Signal) : Watched Unit :=
  fun asked => if s asked then none else some ((), asked + 1)

/-- The signal that never stops anything. -/
def silent : Signal := fun _ => false

/-- The signal that stops everything after `n` questions. -/
def after (n : Nat) : Signal := fun asked => n ≤ asked

@[simp] theorem run_poll_silent (asked : Nat) :
    (poll silent).run asked = some ((), asked + 1) := rfl

theorem run_poll_after (n asked : Nat) :
    (poll (after n)).run asked = if n ≤ asked then none else some ((), asked + 1) := by
  simp [poll, after, StateT.run]

end Signal

end EmbeddedSql
