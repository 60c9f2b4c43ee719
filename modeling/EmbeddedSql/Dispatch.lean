/-
**Distribution of document events.**

Several listeners react to the same events.  They are told in the order they subscribed, a listener
that fails does not keep the others from being told, and one that leaves while an event is
distributed is still told of it.

* `Dispatch` — the subscribed listeners;
* `Dispatch.register`, `Dispatch.unregister`, `Dispatch.clear` — subscribing and leaving;
* `Dispatch.serve` — taking the events of a server;
* `Reaction`, `Dispatch.distribute` — who is told of an event, and who leaves.
-/

set_option relaxedAutoImplicit false
set_option autoImplicit false

namespace EmbeddedSql

/-- What a listener does when it is told of an event. -/
inductive Reaction where
  | done
  | failed
  /-- The listener unsubscribes. -/
  | left
  deriving Repr, DecidableEq

/-- Subscribed listeners in the order they subscribed. -/
structure Dispatch (α : Type) where
  members : List α := []
  /-- Whether the events of a server arrive. -/
  serving : Bool := false
  deriving Repr

namespace Dispatch

variable {α : Type} [DecidableEq α]

/-- What cannot be subscribed or served. -/
inductive Error where
  | noListener
  | noServer
  deriving Repr, DecidableEq

/-- The wording of a refusal. -/
def Error.message : Error → String
  | .noListener => "Handler cannot be None"
  | .noServer => "Server cannot be None"

/-- The number of listeners. -/
def size (d : Dispatch α) : Nat :=
  d.members.length

/-- Subscribes a listener, once. -/
def insert (d : Dispatch α) (a : α) : Dispatch α :=
  if a ∈ d.members then d else { d with members := d.members ++ [a] }

theorem mem_insert (d : Dispatch α) (a b : α) :
    b ∈ (d.insert a).members ↔ b ∈ d.members ∨ b = a := by
  unfold insert
  split
  · next h => exact ⟨Or.inl, fun hb => hb.elim id fun e => e ▸ h⟩
  · simp

/-- No listener is subscribed twice. -/
theorem nodup_insert (d : Dispatch α) (a : α) (h : d.members.Nodup) :
    (d.insert a).members.Nodup := by
  unfold insert
  split
  · exact h
  · next ha =>
    refine List.nodup_append.2 ⟨h, List.pairwise_singleton _ a, fun x hx y hy hxy => ha ?_⟩
    rwa [← List.mem_singleton.1 hy, ← hxy]

/-- Subscribes a listener if there is one. -/
def register (d : Dispatch α) : Option α → Except Error (Dispatch α)
  | none => .error .noListener
  | some a => .ok (d.insert a)

/-- Removes a listener. -/
def erase (d : Dispatch α) (a : α) : Dispatch α :=
  { d with members := d.members.erase a }

/-- Removes a listener, and tells whether it was subscribed. -/
def unregister (d : Dispatch α) : Option α → Bool × Dispatch α
  | none => (false, d)
  | some a => (d.members.contains a, d.erase a)

/-- Removes all listeners. -/
def clear (d : Dispatch α) : Dispatch α :=
  { d with members := [] }

/-- Takes the events of a server if there is one. -/
def serve (d : Dispatch α) (server : Bool) : Except Error (Dispatch α) :=
  if server then .ok { d with serving := true } else .error .noServer

/-- The events of a server and the words for them among listeners. -/
def events : List (String × String) :=
  [("textDocument/didOpen", "handle_document_open"),
   ("textDocument/didChange", "handle_document_change"),
   ("textDocument/didClose", "handle_document_close")]

/-- The events that arrive. -/
def features (d : Dispatch α) : List String :=
  if d.serving then events.map Prod.fst else []

/-- Tells all listeners that react to an event, in order, and removes those that leave. -/
def distribute (d : Dispatch α) (react : α → Option Reaction) : List α × Dispatch α :=
  let told := d.members.filter fun a => (react a).isSome
  (told, (told.filter fun a => react a = some .left).foldl erase d)

/-- Tells the listeners of an event of a server, if its events arrive. -/
def fire (d : Dispatch α) (feature : String) (react : String → α → Option Reaction) :
    List α × Dispatch α :=
  match if d.serving then events.lookup feature else none with
  | some event => d.distribute (react event)
  | none => ([], d)

end Dispatch

end EmbeddedSql
