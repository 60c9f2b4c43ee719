/-
**A cache with one entry per document.**

An entry is found when the version is the same and the entry is younger than the lifetime of the
cache.  Looking up an entry that is stale or too old removes it.

* `Cache` — the entries with their lifetime;
* `Cache.Error`, `Cache.ofMilliseconds` — a new cache, or why there is none;
* `Cache.find` — a lookup, with the cache it leaves behind;
* `Cache.insert`, `Cache.erase`, `Cache.clear` — writing and removing;
* `Cache.expired` — the age test.
-/

import EmbeddedSql.Named
import EmbeddedSql.Value.Real

set_option relaxedAutoImplicit false
set_option autoImplicit false

namespace EmbeddedSql

/-- What was stored for one version of a document, and when. -/
structure CacheEntry (α : Type) where
  version : Int
  content : α
  /-- What the clock read when it was stored, in seconds. -/
  stored : Real
  deriving Repr

/-- Entries by the name of their document. -/
structure Cache (α : Type) where
  /-- How long an entry lives, in seconds. -/
  lifetime : Binary
  entries : Named (CacheEntry α) := []
  deriving Repr

namespace Cache

variable {α : Type}

/-- Why there is no cache. -/
inductive Error where
  /-- A lifetime that is too long for double precision. -/
  | longLifetime
  deriving Repr, DecidableEq

/-- The wording of an error. -/
def Error.message : Error → String
  | .longLifetime => "int too large to convert to float"

/-- The word for the kind of an error. -/
def Error.kind : Error → String
  | .longLifetime => "OverflowError"

/-- Milliseconds as seconds in double precision. -/
def seconds (ms : Int) : Except Error Binary :=
  match Real.ofInt ms, (Real.ofInt ms).scale 1 1000 with
  | .finite _, .finite t => .ok t
  | _, _ => .error .longLifetime

/-- An empty cache with a lifetime in milliseconds. -/
def ofMilliseconds (ms : Int) : Except Error (Cache α) :=
  (seconds ms).map fun t => { lifetime := t }

/-- Whether an entry is too old: its lifetime is no longer than the time between two readings of the
clock. -/
def expired (lifetime : Binary) (stored now : Real) : Bool :=
  (Real.finite lifetime).le (now.sub stored)

/-- The number of entries. -/
def size (c : Cache α) : Nat :=
  c.entries.length

/-- The entry of a document, whatever its version and age. -/
def get? (c : Cache α) (uri : String) : Option (CacheEntry α) :=
  c.entries.get? uri

/-- Removes the entry of a document. -/
def erase (c : Cache α) (uri : String) : Cache α :=
  { c with entries := c.entries.erase uri }

/-- Stores content for a version of a document at a time; an older entry is replaced. -/
def insert (c : Cache α) (uri : String) (version : Int) (content : α) (now : Real) :
    Cache α :=
  { c with entries := c.entries.insert uri ⟨version, content, now⟩ }

/-- Looks up a version of a document at a time.  An entry that does not serve is removed. -/
def find (c : Cache α) (uri : String) (version : Int) (now : Real) : Option α × Cache α :=
  match c.get? uri with
  | none => (none, c)
  | some e =>
    if e.version ≠ version || expired c.lifetime e.stored now then (none, c.erase uri)
    else (some e.content, c)

/-- Removes all entries. -/
def clear (c : Cache α) : Cache α :=
  { c with entries := [] }

/-- Removing the entry of a document leaves those of the others. -/
theorem get?_erase (c : Cache α) (uri other : String) :
    (c.erase uri).get? other = if other = uri then none else c.get? other :=
  Named.get?_erase c.entries uri other

/-- Storing content for a document leaves the entries of the others. -/
theorem get?_insert (c : Cache α) (uri other : String) (version : Int) (content : α)
    (now : Real) :
    (c.insert uri version content now).get? other =
      if other = uri then some ⟨version, content, now⟩ else c.get? other :=
  Named.get?_insert c.entries uri other ⟨version, content, now⟩

@[simp] theorem get?_clear (c : Cache α) (uri : String) : c.clear.get? uri = none := rfl

@[simp] theorem size_clear (c : Cache α) : c.clear.size = 0 := rfl

end Cache

end EmbeddedSql
