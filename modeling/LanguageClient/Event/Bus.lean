import LanguageClient.Event.Basic

/-!
The queue of events between a session and whoever consumes them. Events come out in the order in
which they went in. A full queue refuses new events; closing a full one costs its oldest event.
-/

namespace LanguageClient

structure Bus where
  /-- How much it holds; zero or less is no limit. -/
  capacity : Int
  /-- Events, then nothing for the end. -/
  queue : List (Option Event)
  closed : Bool
deriving DecidableEq, Repr, Inhabited

namespace Bus

def ofCapacity (capacity : Int) : Bus := ⟨capacity, [], false⟩

def size (b : Bus) : Nat := b.queue.length

def isFull (b : Bus) : Bool := 0 < b.capacity && b.capacity ≤ b.queue.length

def put (e : Option Event) (b : Bus) : Bus := { b with queue := b.queue ++ [e] }

/-- Whether an event published now is kept. -/
def accepts (b : Bus) : Bool := !b.closed && !b.isFull

def publish (e : Event) (b : Bus) : Bus := if b.accepts then b.put (some e) else b

/-- Marks the end, after the events that are still queued. -/
def close (b : Bus) : Bus :=
  if b.closed then b
  else
    let b := { b with closed := true }
    if b.isFull then { b with queue := b.queue.drop 1 ++ [none] } else b.put none

/-- The next event or the end, if there is one. -/
def take? (b : Bus) : Option (Option Event × Bus) :=
  match b.queue with
  | [] => none
  | e :: rest => some (e, { b with queue := rest })

/-- How a consumer that wants a number of events comes to rest. -/
inductive Rest where
  | enough
  | ended
  | waiting
deriving DecidableEq, Repr

/-- Takes up to `count` events. -/
def consume : (count : Nat) → Bus → List Event × Rest × Bus
  | 0, b => ([], .enough, b)
  | count + 1, b => match b.take? with
    | none => ([], .waiting, b)
    | some (none, b) => ([], .ended, b)
    | some (some e, b) =>
      let (got, rest, b) := consume count b
      (e :: got, rest, b)

theorem publish_closed {b : Bus} (h : b.closed = true) (e : Event) : b.publish e = b := by
  simp [publish, accepts, h]

theorem close_closed {b : Bus} (h : b.closed = true) : b.close = b := by
  simp [close, h]

theorem closed_close (b : Bus) : b.close.closed = true := by
  by_cases h : b.closed = true
  · simp [close, h]
  · simp only [close, h, Bool.false_eq_true, ↓reduceIte]
    split <;> rfl

theorem size_publish_le (b : Bus) (e : Event) : (b.publish e).size ≤ b.size + 1 := by
  simp only [publish]
  split <;> simp [put, size]

theorem take?_put_nil {b : Bus} (h : b.queue = []) (e : Option Event) :
    (b.put e).take? = some (e, b) := by
  cases b
  simp_all [put, take?]

end Bus
end LanguageClient
