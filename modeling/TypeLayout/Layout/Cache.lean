import TypeLayout.Layout.Host
/-! Stored layouts. A cache keeps the first layout offered for a key and counts how often a key was
found or missed; a desk is a cache that may be switched off, with a journal. -/

namespace TypeLayout

structure CacheStats where
  entries : Nat
  hits : Nat
  misses : Nat
deriving DecidableEq, Repr

structure Cache where
  stored : List (LayoutKey × Layout) := []
  hits : Nat := 0
  misses : Nat := 0

namespace Cache

def get? (c : Cache) (key : LayoutKey) : Option Layout := c.stored.lookup key

def fetch (c : Cache) (key : LayoutKey) : Option Layout × Cache :=
  match c.get? key with
  | some l => (some l, { c with hits := c.hits + 1 })
  | none => (none, { c with misses := c.misses + 1 })

/-- The layout already stored for a key wins. -/
def insert (c : Cache) (key : LayoutKey) (l : Layout) : Layout × Cache :=
  match c.get? key with
  | some stored => (stored, c)
  | none => (l, { c with stored := c.stored ++ [(key, l)] })

def clear (c : Cache) : Cache := { c with stored := [] }

def size (c : Cache) : Nat := c.stored.length

def stats (c : Cache) : CacheStats := ⟨c.size, c.hits, c.misses⟩

theorem get?_insert_self (c : Cache) (key : LayoutKey) (l : Layout) :
    (c.insert key l).2.get? key = some (c.insert key l).1 := by
  unfold insert
  split
  next h => exact h
  next h =>
    simp only [get?, List.lookup_append] at h ⊢
    simp [h]

end Cache

structure Desk where
  cache : Cache := {}
  caching : Bool := true
  journal : Array Log.Entry := #[]

namespace Desk

def fetch (d : Desk) (key : LayoutKey) : Option Layout × Desk :=
  if d.caching then
    let (found, cache) := d.cache.fetch key
    (found, { d with cache := cache })
  else (none, d)

def store (d : Desk) (key : LayoutKey) (l : Layout) : Layout × Desk :=
  if d.caching then
    let (kept, cache) := d.cache.insert key l
    (kept, { d with cache := cache })
  else (l, d)

def log (d : Desk) (e : Log.Entry) : Desk := { d with journal := d.journal.push e }

end Desk

/-- A failed computation keeps what it stored and logged. -/
abbrev DeskM := ExceptT LayoutError (StateM Desk)

instance : LayoutHost DeskM where
  fetch key := ExceptT.lift fun d => d.fetch key
  store key l := ExceptT.lift fun d => d.store key l
  note e := ExceptT.lift fun d => ((), d.log e.entry)

def DeskM.runOn {α : Type} (x : DeskM α) (d : Desk) : Except LayoutError α × Desk :=
  (ExceptT.run x).run d

end TypeLayout
