import DocQuery.Journal.Record
/-!
# Capturing the trace

One thread's buffer of trace lines. Enabling gives a guard and starts an empty buffer; dropping any
guard ends the buffering. Draining takes the lines that were buffered since.
-/
namespace DocQuery

structure Capture where
  /-- The lines, oldest first, while buffering is on. -/
  buffer : Option (List String) := none
  /-- The guards that live, newest first. -/
  guards : List Nat := []
  next : Nat := 0
  deriving Repr

namespace Capture

def enable (c : Capture) : Capture :=
  { buffer := some [], guards := c.next :: c.guards, next := c.next + 1 }

/-- Drops a guard; one that is not alive cannot be dropped. -/
def drop (c : Capture) (guard : Nat) : Capture :=
  if c.guards.contains guard then
    { c with buffer := none, guards := c.guards.erase guard }
  else c

def record (c : Capture) (line : String) : Capture :=
  { c with buffer := c.buffer.map (· ++ [line]) }

/-- Buffers the trace lines among the records that this thread emitted. -/
def hear (c : Capture) (records : List Record) : Capture :=
  (records.filter (·.target == traceTarget)).foldl (fun c r => c.record r.message) c

/-- The lines buffered since the last drain, and the buffer without them. -/
def drain (c : Capture) : List String × Capture :=
  (c.buffer.getD [], { c with buffer := c.buffer.map fun _ => [] })

/-- What can happen to a thread and around it. -/
inductive Event where
  | enable
  | drop (guard : Nat)
  | record (line : String)
  /-- Work of this thread that emitted the records. -/
  | work (records : List Record)
  | drain
  /-- Work of another thread. -/
  | elsewhere (records : List Record)

/-- One event, with the lines that it gives if it is a drain. -/
def step (c : Capture) : Event → Option (List String) × Capture
  | .enable => (none, c.enable)
  | .drop guard => (none, c.drop guard)
  | .record line => (none, c.record line)
  | .work records => (none, c.hear records)
  | .drain =>
    let (lines, c) := c.drain
    (some lines, c)
  | .elsewhere _ => (none, c)

/-- The answers of a sequence of events, and the capture after it. -/
def run (c : Capture) : List Event → List (Option (List String)) × Capture
  | [] => ([], c)
  | e :: rest =>
    let (answer, c) := c.step e
    let (answers, c) := c.run rest
    (answer :: answers, c)

end Capture
end DocQuery
