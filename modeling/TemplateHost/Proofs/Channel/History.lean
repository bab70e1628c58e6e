import Mathlib.Data.List.Basic
import TemplateHost.Channel.Script

/-!
# Histories of channels

A history keeps what was done with a channel, in order. Announcements and registrations are named by
their positions in it, so that it tells two registrations of one listener apart, and the calls of
two announcements. The listeners may act in any way, and in another way at every call; between any
two steps the event loop may run some of the waits.
-/
namespace TemplateHost.Channel
variable {α ε : Type}

/-- What an announcement has to do: to call a listener for one of its registrations, and at last to
end the waits. -/
inductive Duty (α ε : Type) where
  | call (emission registration : Nat) (listener : α) (error : Option ε)
  | complete (emission : Nat) (error : Option ε)

namespace Duty

def emission : Duty α ε → Nat
  | .call e _ _ _ => e
  | .complete e _ => e

def item : Duty α ε → Item α ε
  | .call _ _ l error => .call l error
  | .complete _ error => .endEmit error

def registration? : Duty α ε → Option Nat
  | .call _ r _ _ => some r
  | .complete _ _ => none

def call? : Duty α ε → Option (α × Option ε)
  | .call _ _ l error => some (l, error)
  | .complete _ _ => none

end Duty

inductive Event (α ε : Type) where
  | registered (x : Registration α)
  | removed (listener : α)
  | emitted (error : Option ε)
  | did (d : Duty α ε)
  | waited (id : String)
  | cancelled (id : String)
  | turned (ids : List String)
  | failed
  | aborted

abbrev History (α ε : Type) := List (Event α ε)

namespace Event

def registration? : Event α ε → Option (Registration α)
  | .registered x => some x
  | _ => none

def duty? : Event α ε → Option (Duty α ε)
  | .did d => some d
  | _ => none

def ends [DecidableEq α] (x : Registration α) : Event α ε → Bool
  | .removed l => x.listener = l
  | .emitted _ => x.once
  | _ => false

end Event

def Action.event : Action α ε → Event α ε
  | .on l => .registered ⟨l, false⟩
  | .once l => .registered ⟨l, true⟩
  | .off l => .removed l
  | .emit error => .emitted error
  | .wait id => .waited id
  | .cancel id => .cancelled id
  | .fail => .failed
  | .abort => .aborted

namespace History

def calls (h : History α ε) : List (α × Option ε) :=
  (h.filterMap Event.duty?).filterMap Duty.call?

theorem calls_concat (h : History α ε) (e : Event α ε) :
    calls (h ++ [e]) = h.calls ++ (e.duty?.bind Duty.call?).toList := by
  unfold calls
  rw [List.filterMap_append, List.filterMap_append]
  cases hd : e.duty? with
  | none => simp [hd]
  | some d => cases hc : d.call? <;> simp [hd, hc]

def done (h : History α ε) (e : Nat) : List (Duty α ε) :=
  (h.filterMap Event.duty?).filter fun d => d.emission = e

variable [DecidableEq α]

def keeps (h : History α ε) (x : Registration α) : Bool := h.all fun e => !e.ends x

/-- The registrations that nothing has taken away, with their names, in order. -/
def standing (h : History α ε) : List (Nat × Registration α) :=
  (List.range h.length).filterMap fun r =>
    ((h[r]?.bind Event.registration?).filter (keeps (h.drop (r + 1)))).map (r, ·)

def duties (h : History α ε) (e : Nat) (error : Option ε) : List (Duty α ε) :=
  h.standing.map (fun x => .call e x.1 x.2.listener error) ++ [.complete e error]

theorem mem_standing {h : History α ε} {r : Nat} {x : Registration α} :
    (r, x) ∈ h.standing ↔ h[r]? = some (.registered x) ∧ keeps (h.drop (r + 1)) x = true := by
  unfold standing
  simp only [List.mem_filterMap, List.mem_range, Option.map_eq_some_iff, Option.filter_eq_some_iff,
    Option.bind_eq_some_iff, Prod.mk.injEq]
  constructor
  · rintro ⟨i, hi, y, ⟨⟨e, he, hy⟩, hkept⟩, rfl, rfl⟩
    cases e with
    | registered z =>
      obtain rfl := Option.some.inj hy
      exact ⟨he, hkept⟩
    | removed | emitted | did | waited | cancelled | turned | failed | aborted => cases hy
  · rintro ⟨hr, hkept⟩
    exact ⟨r, (List.getElem?_eq_some_iff.mp hr).1, x, ⟨⟨_, hr, rfl⟩, hkept⟩, rfl, rfl⟩

theorem keeps_concat (h : History α ε) (e : Event α ε) (x : Registration α) :
    keeps (h ++ [e]) x = (keeps h x && !e.ends x) := by
  simp [keeps]

theorem standing_concat (h : History α ε) (e : Event α ε) :
    (h ++ [e]).standing =
      h.standing.filter (fun x => !e.ends x.2) ++
        (e.registration?.map (h.length, ·)).toList := by
  unfold standing
  rw [List.length_append, List.length_singleton, List.range_succ, List.filterMap_append]
  congr 1
  · rw [List.filter_filterMap]
    refine List.filterMap_congr fun r hr => ?_
    rw [List.mem_range] at hr
    rw [List.getElem?_append_left hr, List.drop_append_of_le_length hr]
    cases h[r]?.bind Event.registration? with
    | none => rfl
    | some x =>
      cases hkept : keeps (h.drop (r + 1)) x <;> cases hends : e.ends x <;>
        simp [Option.filter, keeps_concat, hkept, hends]
  · have hnone : (h ++ [e]).drop (h.length + 1) = [] := List.drop_of_length_le (by simp)
    cases hx : e.registration? <;> simp [hnone, hx, keeps]

theorem standing_sorted (h : History α ε) : h.standing.Pairwise fun x y => x.1 < y.1 := by
  refine List.Pairwise.filterMap _ ?_ List.pairwise_lt_range
  intro i j hij x hx y hy
  obtain ⟨-, -, rfl⟩ := Option.map_eq_some_iff.mp hx
  obtain ⟨-, -, rfl⟩ := Option.map_eq_some_iff.mp hy
  exact hij

end History

def turnOf (c : Channel α ε) (ids : List String) : Channel α ε :=
  { c with waits := ⟨c.waits.entries.map fun e => (e.1, if e.1 ∈ ids then e.2.turn else e.2)⟩ }

theorem turnOf_keys (c : Channel α ε) : c.turnOf c.waits.keys = c.turn := by
  refine congrArg (fun l => { c with waits := ⟨l⟩ }) (List.map_congr_left fun e he => ?_)
  have hkey : e.1 ∈ c.waits.keys := List.mem_map_of_mem he
  rw [if_pos hkey]

/-- What stands on the agenda: an action, or a duty of an announcement. -/
inductive Task (α ε : Type) where
  | act (a : Action α ε)
  | due (d : Duty α ε)

namespace Task

/-- The item that it is once the names are left out. -/
def item : Task α ε → Item α ε
  | .act a => .act a
  | .due d => d.item

def event : Task α ε → Event α ε
  | .act a => a.event
  | .due d => .did d

def duty? : Task α ε → Option (Duty α ε)
  | .act _ => none
  | .due d => some d

theorem duty?_event (x : Task α ε) : x.event.duty? = x.duty? := by
  cases x with
  | act a => cases a <;> rfl
  | due d => rfl

variable [DecidableEq α]

/-- What stands on the agenda after a task, if `h` came before it and `rest` stood behind it. -/
def next (script : α → List (Action α ε)) (h : History α ε) (rest : List (Task α ε)) :
    Task α ε → List (Task α ε)
  | .act (.emit error) => (h.duties h.length error).map .due ++ rest
  | .act .fail => rest.dropWhile fun x => isAction x.item
  | .act .abort => []
  | .act _ => rest
  | .due (.call _ _ l _) => (script l).map .act ++ rest
  | .due (.complete _ _) => rest

end Task

/-- A channel at work, with what has happened and what is left to do. -/
structure Trace (α ε : Type) where
  history : History α ε
  session : Session α ε
  agenda : List (Task α ε)

namespace Trace

def start : Trace α ε := ⟨[], ⟨.empty, [], 0, 0⟩, []⟩

def record (t : Trace α ε) : List (Duty α ε) :=
  t.history.filterMap Event.duty? ++ t.agenda.filterMap Task.duty?

theorem record_eq_of_agenda {t : Trace α ε} {x : Task α ε} {rest : List (Task α ε)}
    (ht : t.agenda = x :: rest) :
    t.record = t.history.filterMap Event.duty? ++ x.duty?.toList ++
      rest.filterMap Task.duty? := by
  rw [record, ht, List.append_assoc]
  cases hx : x.duty? with
  | none => rw [List.filterMap_cons_none hx]; rfl
  | some d => rw [List.filterMap_cons_some hx]; rfl

variable [DecidableEq α]

def step (t : Trace α ε) (script : α → List (Action α ε)) (x : Task α ε)
    (rest : List (Task α ε)) : Trace α ε :=
  ⟨t.history ++ [x.event], (Channel.step script t.session (rest.map Task.item) x.item).1,
    x.next script t.history rest⟩

def turn (t : Trace α ε) (ids : List String) : Trace α ε :=
  { t with
    history := t.history ++ [.turned ids]
    session := { t.session with channel := t.session.channel.turnOf ids } }

end Trace

/-- A run from a new channel. When nothing is left to do, the next action comes from outside. -/
inductive Run [DecidableEq α] : Trace α ε → Prop where
  | start : Run .start
  | act {t : Trace α ε} (hr : Run t) (ht : t.agenda = []) (a : Action α ε) :
      Run { t with agenda := [.act a] }
  | step {t : Trace α ε} {x : Task α ε} {rest : List (Task α ε)} (hr : Run t)
      (ht : t.agenda = x :: rest) (script : α → List (Action α ε)) : Run (t.step script x rest)
  | turn {t : Trace α ε} (hr : Run t) (ids : List String) : Run (t.turn ids)

end TemplateHost.Channel
