/- Readings from outside: a clock or a source of chance is an endless sequence, and an
   instrument remembers how many of its terms it has used. -/
namespace VirtualInstrument

structure Feed (α : Type) where
  nth : Nat → α
  used : Nat

namespace Feed

variable {α : Type}

def next (feed : Feed α) : α × Feed α := (feed.nth feed.used, { feed with used := feed.used + 1 })

def constant (a : α) : Feed α := ⟨fun _ => a, 0⟩

def cycle (default : α) (terms : List α) : Feed α :=
  ⟨fun n => terms.getD (n % terms.length) default, 0⟩

def thenLast (default : α) (terms : List α) : Feed α :=
  ⟨fun n => terms.getD (min n (terms.length - 1)) default, 0⟩

end Feed

/-- What an instrument draws on: chance, never below zero and always below one, and the clock. -/
structure Sources where
  chance : Feed Float
  clock : Feed Float

namespace Sources

def draw (sources : Sources) : Float × Sources :=
  let (x, chance) := sources.chance.next
  (x, { sources with chance })

def time (sources : Sources) : Float × Sources :=
  let (x, clock) := sources.clock.next
  (x, { sources with clock })

end Sources

end VirtualInstrument
