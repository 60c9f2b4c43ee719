/-
**Open documents.**

* `Workspace` — the buffers of the documents that are open;
* `Workspace.get?`, `Workspace.put`, `Workspace.remove` — reading, opening and closing;
* `Workspace.change` — edits of an open document.
-/

import EmbeddedSql.Buffer

set_option relaxedAutoImplicit false
set_option autoImplicit false

namespace EmbeddedSql

/-- The buffers of the open documents. -/
structure Workspace where
  buffers : List Buffer := []
  deriving Repr, DecidableEq

namespace Workspace

/-- The buffer of an open document. -/
def get? (w : Workspace) (uri : String) : Option Buffer :=
  w.buffers.find? (·.uri = uri)

/-- Closes a document. -/
def remove (w : Workspace) (uri : String) : Workspace :=
  ⟨w.buffers.filter (·.uri ≠ uri)⟩

/-- Opens a document; an open one of the same name is replaced. -/
def put (w : Workspace) (b : Buffer) : Workspace :=
  ⟨b :: (w.remove b.uri).buffers⟩

/-- Closing a document leaves the others. -/
theorem get?_remove (w : Workspace) (uri other : String) :
    (w.remove uri).get? other = if other = uri then none else w.get? other := by
  simp only [remove, get?, List.find?_filter]
  split
  · next h => simp [h]
  · next h =>
    congr 1
    funext b
    by_cases hb : b.uri = other <;> simp [hb, h]

/-- Opening a document leaves the others. -/
theorem get?_put (w : Workspace) (b : Buffer) (other : String) :
    (w.put b).get? other = if other = b.uri then some b else w.get? other := by
  by_cases ho : other = b.uri
  · simp [put, get?, ho]
  · have hr := get?_remove w b.uri other
    simp only [get?] at hr
    simp [put, get?, hr, ho, Ne.symm ho]

/-- Edits an open document, which gets a new version.  A document that is not open cannot be
edited. -/
def change (w : Workspace) (uri : String) (version : Option Int)
    (changes : List Buffer.Change) : Option Workspace :=
  (w.get? uri).map fun b => w.put { changes.foldl Buffer.change b with version := version }

end Workspace

end EmbeddedSql
