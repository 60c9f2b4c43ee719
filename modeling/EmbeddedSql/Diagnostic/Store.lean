/-
**Diagnostics of open documents.**

* `DiagnosticStore` — the diagnostics of each document with the version they belong to;
* `DiagnosticStore.refresh` — new diagnostics for a buffer;
* `DiagnosticStore.get`, `DiagnosticStore.forget` — reading and dropping them.
-/

import EmbeddedSql.Diagnostic
import EmbeddedSql.Named
import EmbeddedSql.Region.Store

set_option relaxedAutoImplicit false
set_option autoImplicit false

namespace EmbeddedSql

/-- The diagnostics of a version of each document. -/
structure DiagnosticStore where
  entries : Named (Int × List Diagnostic) := []

namespace DiagnosticStore

/-- The diagnostics of a document with their version; version zero when there are none. -/
def get (s : DiagnosticStore) (uri : String) : Int × List Diagnostic :=
  (s.entries.get? uri).getD (0, [])

/-- Drops the diagnostics of a document. -/
def forget (s : DiagnosticStore) (uri : String) : DiagnosticStore :=
  ⟨s.entries.erase uri⟩

/-- Stores the diagnostics of a version of a document. -/
def insert (s : DiagnosticStore) (uri : String) (version : Int) (ds : List Diagnostic) :
    DiagnosticStore :=
  ⟨s.entries.insert uri (version, ds)⟩

/-- Dropping a document leaves the others. -/
theorem get_forget (s : DiagnosticStore) (uri other : String) :
    (s.forget uri).get other = if other = uri then (0, []) else s.get other := by
  simp only [forget, get, Named.get?_erase]
  split <;> rfl

/-- Storing the diagnostics of a document leaves those of the others. -/
theorem get_insert (s : DiagnosticStore) (uri other : String) (version : Int)
    (ds : List Diagnostic) :
    (s.insert uri version ds).get other = if other = uri then (version, ds) else s.get other := by
  simp only [insert, get, Named.get?_insert]
  split <;> rfl

/-- The diagnostics of a buffer at a time.  Other languages than R have none, and neither has
anything while the checks are switched off. -/
def diagnose (depths : Depths) (options : DiagnosticOptions) (regions : RegionStore)
    (database : Option Database) (now : Real) (b : Buffer) :
    List Diagnostic × RegionStore × Option Database :=
  if !options.enabled || !b.isR then ([], regions, database)
  else
    let (found, regions) := regions.regions now b.document
    if options.askDatabase then
      let (ds, database) := Diagnostic.ofRegions depths b database found
      (ds, regions, database)
    else ((Diagnostic.ofRegions depths b none found).1, regions, database)

/-- Stores new diagnostics for a buffer at a time. -/
def refresh (s : DiagnosticStore) (depths : Depths) (options : DiagnosticOptions)
    (regions : RegionStore) (database : Option Database) (now : Real) (b : Buffer) :
    DiagnosticStore × RegionStore × Option Database :=
  let (ds, regions, database) := diagnose depths options regions database now b
  (s.insert b.uri b.versionNumber ds, regions, database)

end DiagnosticStore

end EmbeddedSql
