/-
**Regions of open documents.**

Every feature that needs all regions of a document asks the store, so that a version of a document
is scanned once.

* `RegionStore` — detection settings and the cached scans;
* `RegionStore.ofDetection` — an empty store, if the settings admit of one;
* `RegionStore.lookup` — the regions of a document, scanned if need be;
* `RegionStore.configure` — other settings;
* `RegionStore.forget`, `RegionStore.clear` — dropping what is cached.
-/

import EmbeddedSql.Cache
import EmbeddedSql.Region

set_option relaxedAutoImplicit false
set_option autoImplicit false

namespace EmbeddedSql

/-- The scans of open documents under some settings. -/
structure RegionStore where
  detection : Detection
  cache : Cache (List Region)

namespace RegionStore

/-- An empty store. -/
def ofDetection (d : Detection) : Except Cache.Error RegionStore :=
  (Cache.ofMilliseconds d.limits.cacheLifetime).map (⟨d, ·⟩)

/-- The regions of a document at a reading of the clock, with the number of questions the signal was
asked; none when the scan was cancelled.  A finished scan is stored. -/
def lookup (s : RegionStore) (signal : Signal) (now : Real) (doc : Document) :
    Option (List Region × Nat) × RegionStore :=
  match s.cache.find doc.uri doc.version now with
  | (some regions, cache) => (some (regions, 0), { s with cache := cache })
  | (none, cache) =>
    match (Region.survey signal s.detection doc).run 0 with
    | none => (none, { s with cache := cache })
    | some ((regions, _), asked) =>
      (some (regions, asked),
        { s with cache := cache.insert doc.uri doc.version regions now })

/-- The regions of a document at a time, when nothing cancels the scan. -/
def regions (s : RegionStore) (now : Real) (doc : Document) : List Region × RegionStore :=
  let (found, s) := s.lookup .silent now doc
  ((found.map Prod.fst).getD [], s)

/-- Drops the scan of a document. -/
def forget (s : RegionStore) (uri : String) : RegionStore :=
  { s with cache := s.cache.erase uri }

/-- Changes the settings and drops all scans.  The settings come first: when there is no cache for
the new ones, the old cache stays with all scans of the old ones. -/
def configure (s : RegionStore) (d : Detection) : Except Cache.Error Unit × RegionStore :=
  match ofDetection d with
  | .ok s => (.ok (), s)
  | .error e => (.error e, { s with detection := d })

/-- Drops all scans. -/
def clear (s : RegionStore) : RegionStore :=
  { s with cache := s.cache.clear }

end RegionStore

end EmbeddedSql
