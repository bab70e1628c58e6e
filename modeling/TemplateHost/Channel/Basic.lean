import TemplateHost.Table

/-!
# Channels of pass outcomes

A channel announces how each pass ended. Listeners are called in the order in which they were
registered, some of them only once. A wait ends with the next announcement that finishes after the
wait began, unless it is cancelled before.
-/
namespace TemplateHost

structure Registration (α : Type) where
  listener : α
  once : Bool

inductive WaitResult (ε : Type) where
  | ended (error : Option ε)
  | cancelled

/-- A wait begins when the event loop first runs it, and notices its end when the loop runs it
again. -/
inductive Wait (ε : Type) where
  | starting
  | waiting
  | settled (error : Option ε)
  | finished (result : WaitResult ε)

namespace Wait
variable {ε : Type}

def settle (error : Option ε) : Wait ε → Wait ε
  | .waiting => .settled error
  | w => w

def cancel : Wait ε → Wait ε
  | .finished r => .finished r
  | _ => .finished .cancelled

/-- What the loop makes of a wait when it runs until nothing is left to do. -/
def turn : Wait ε → Wait ε
  | .starting => .waiting
  | .settled error => .finished (.ended error)
  | w => w

def result? : Wait ε → Option (WaitResult ε)
  | .finished r => some r
  | _ => none

end Wait

structure Channel (α ε : Type) where
  registrations : List (Registration α)
  waits : Table String (Wait ε)

namespace Channel
variable {α ε : Type}

def empty : Channel α ε := ⟨[], .empty⟩

def on (c : Channel α ε) (listener : α) : Channel α ε :=
  { c with registrations := c.registrations ++ [⟨listener, false⟩] }

def once (c : Channel α ε) (listener : α) : Channel α ε :=
  { c with registrations := c.registrations ++ [⟨listener, true⟩] }

def off [DecidableEq α] (c : Channel α ε) (listener : α) : Channel α ε :=
  { c with registrations := c.registrations.filter fun r => r.listener ≠ listener }

def listeners (c : Channel α ε) : List α := c.registrations.map (·.listener)

/-- An announcement takes the single registrations with it before it calls anyone. -/
def beginEmit (c : Channel α ε) : Channel α ε :=
  { c with registrations := c.registrations.filter fun r => !r.once }

def mapWaits (c : Channel α ε) (f : Wait ε → Wait ε) : Channel α ε :=
  { c with waits := ⟨c.waits.entries.map fun e => (e.1, f e.2)⟩ }

/-- After its calls an announcement ends the waits that have begun. -/
def endEmit (c : Channel α ε) (error : Option ε) : Channel α ε := c.mapWaits (Wait.settle error)

def wait (c : Channel α ε) (id : String) : Channel α ε :=
  { c with waits := c.waits.set id .starting }

def cancel (c : Channel α ε) (id : String) : Channel α ε :=
  match c.waits.get? id with
  | some w => { c with waits := c.waits.set id w.cancel }
  | none => c

def turn (c : Channel α ε) : Channel α ε := c.mapWaits Wait.turn

def results (c : Channel α ε) : List (String × WaitResult ε) :=
  c.waits.entries.filterMap fun e => e.2.result?.map fun r => (e.1, r)

def forget (c : Channel α ε) : Channel α ε :=
  { c with waits := ⟨c.waits.entries.filter fun e => e.2.result?.isNone⟩ }

theorem registrations_beginEmit (c : Channel α ε) (r : Registration α) :
    r ∈ c.beginEmit.registrations ↔ r ∈ c.registrations ∧ r.once = false := by
  simp [beginEmit]

theorem not_mem_listeners_off [DecidableEq α] (c : Channel α ε) (listener : α) :
    listener ∉ (c.off listener).listeners := by
  simp [off, listeners]

end Channel

end TemplateHost
