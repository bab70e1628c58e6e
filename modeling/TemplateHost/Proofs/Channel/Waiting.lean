import TemplateHost.Proofs.Channel.History

/-!
# Waits

What becomes of a wait depends on the events that concern it and on nothing else: the loop runs it,
it is cancelled, or an announcement completes.
-/
namespace TemplateHost.Channel
variable {α ε : Type}

namespace Event

def affect (id : String) (w : Wait ε) : Event α ε → Wait ε
  | .did (.complete _ error) => w.settle error
  | .cancelled i => if i = id then w.cancel else w
  | .turned ids => if id ∈ ids then w.turn else w
  | _ => w

def status (id : String) (w : Option (Wait ε)) : Event α ε → Option (Wait ε)
  | .waited i => if i = id then some .starting else w
  | e => w.map fun w => e.affect id w

def turns (id : String) : Event α ε → Bool
  | .turned ids => id ∈ ids
  | _ => false

end Event

namespace History

def status (h : History α ε) (id : String) : Option (Wait ε) := h.foldl (Event.status id) none

def runs (h : History α ε) (id : String) : Bool := h.any (Event.turns id)

/-- No announcement has completed since the loop first ran a wait. -/
def Unresolved (h : History α ε) (id : String) : Prop :=
  ∀ before e after, h = before ++ e :: after → e.turns id = true →
    ∀ emission error, .did (.complete emission error) ∉ after

end History

section Table

theorem find_map_value {ν : Type} (f : String → ν → ν) (id : String) (l : List (String × ν)) :
    Table.find id (l.map fun e => (e.1, f e.1 e.2)) = (Table.find id l).map (f id) := by
  induction l with
  | nil => rfl
  | cons e l ih =>
    by_cases he : e.1 = id
    · simp [Table.find, he]
    · simp [Table.find, he, ih]

theorem get?_endEmit (c : Channel α ε) (error : Option ε) (id : String) :
    (c.endEmit error).waits.get? id = (c.waits.get? id).map (Wait.settle error) :=
  find_map_value (fun _ => Wait.settle error) id _

theorem get?_turnOf (c : Channel α ε) (ids : List String) (id : String) :
    (c.turnOf ids).waits.get? id =
      (c.waits.get? id).map fun w => if id ∈ ids then w.turn else w :=
  find_map_value (fun i (w : Wait ε) => if i ∈ ids then w.turn else w) id _

theorem get?_cancel (c : Channel α ε) (i id : String) :
    (c.cancel i).waits.get? id =
      (c.waits.get? id).map fun w => if i = id then w.cancel else w := by
  unfold cancel
  cases hi : c.waits.get? i with
  | none =>
    by_cases h : i = id
    · subst i
      simp [hi]
    · simp [h]
  | some w =>
    by_cases h : i = id
    · subst i
      simp [hi]
    · simp [h, Table.get?_set_ne c.waits (Ne.symm h)]

end Table

theorem get?_step [DecidableEq α] (script : α → List (Action α ε)) (s : Session α ε)
    (agenda : List (Item α ε)) (x : Task α ε) (id : String) :
    (step script s agenda x.item).1.channel.waits.get? id =
      x.event.status id (s.channel.waits.get? id) := by
  have hid (w : Option (Wait ε)) : w = w.map fun w => w := Option.map_id'.symm
  cases x with
  | act a =>
    cases a with
    | wait i =>
      by_cases h : i = id
      · subst i
        simp [Task.item, step, perform, wait, Task.event, Action.event, Event.status]
      · simp [Task.item, step, perform, wait, Task.event, Action.event, Event.status, h,
          Table.get?_set_ne s.channel.waits (Ne.symm h)]
    | cancel i => exact get?_cancel s.channel i id
    | on | once | off | emit | fail | abort => exact hid _
  | due d =>
    cases d with
    | call => exact hid _
    | complete e error => exact get?_endEmit s.channel error id

theorem Run.get?_eq [DecidableEq α] {t : Trace α ε} (run : Run t) (id : String) :
    t.session.channel.waits.get? id = t.history.status id := by
  induction run with
  | start => rfl
  | act _ _ _ ih => exact ih
  | @step t x rest _ _ script ih =>
    change (Channel.step script t.session _ x.item).1.channel.waits.get? id =
      (t.history ++ [x.event]).foldl (Event.status id) none
    rw [get?_step, ih, List.foldl_append]
    rfl
  | @turn t _ ids ih =>
    change (t.session.channel.turnOf ids).waits.get? id =
      (t.history ++ [Event.turned ids]).foldl (Event.status id) none
    rw [get?_turnOf, ih, List.foldl_append]
    rfl

section Account
variable {id : String}

theorem status_of_waited {before after : History α ε} (hnew : .waited id ∉ after) :
    History.status (before ++ .waited id :: after) id =
      some (after.foldl (Event.affect id) .starting) := by
  have hmap (w : Wait ε) :
      after.foldl (Event.status id) (some w) = some (after.foldl (Event.affect id) w) := by
    induction after generalizing w with
    | nil => rfl
    | cons e after ih =>
      obtain ⟨he, hnew⟩ := not_or.mp (List.mem_cons.not.mp hnew)
      rw [List.foldl_cons, List.foldl_cons, ← ih hnew]
      congr 1
      cases e with
      | waited i =>
        refine if_neg ?_
        rintro rfl
        exact he rfl
      | registered | removed | emitted | did | cancelled | turned | failed | aborted => rfl
  unfold History.status
  rw [List.foldl_append, List.foldl_cons, Event.status, if_pos rfl, hmap]

theorem foldl_finished (h : History α ε) (r : WaitResult ε) :
    h.foldl (Event.affect id) (.finished r) = .finished r := by
  induction h with
  | nil => rfl
  | cons e h ih =>
    rw [List.foldl_cons]
    convert ih using 2
    cases e with
    | cancelled i => exact ite_self _
    | turned ids => exact ite_self _
    | did d => cases d <;> rfl
    | registered | removed | emitted | waited | failed | aborted => rfl

/-- A wait that has been ended notices it when the loop runs it. -/
theorem foldl_settled {h : History α ε} (hc : .cancelled id ∉ h) (error : Option ε) :
    h.foldl (Event.affect id) (.settled error) =
      if h.runs id then .finished (.ended error) else .settled error := by
  induction h with
  | nil => rfl
  | cons e h ih =>
    obtain ⟨he, hc⟩ := not_or.mp (List.mem_cons.not.mp hc)
    have ih := ih hc
    cases e with
    | cancelled i =>
      have hi : i ≠ id := by
        rintro rfl
        exact he rfl
      simpa [Event.affect, hi, History.runs, Event.turns] using ih
    | turned ids =>
      by_cases hid : id ∈ ids
      · simp [Event.affect, hid, Wait.turn, foldl_finished, History.runs, Event.turns]
      · simpa [Event.affect, hid, History.runs, Event.turns] using ih
    | did d => cases d <;> exact ih
    | registered | removed | emitted | waited | failed | aborted => exact ih

/-- A wait that has begun waits on while no announcement completes, unless it is cancelled. -/
theorem foldl_waiting (id : String) {h : History α ε}
    (hd : ∀ e error, .did (.complete e error) ∉ h) :
    h.foldl (Event.affect id) .waiting = .waiting ∧ .cancelled id ∉ h ∨
      h.foldl (Event.affect id) .waiting = .finished .cancelled ∧ .cancelled id ∈ h := by
  induction h with
  | nil => exact .inl ⟨rfl, List.not_mem_nil⟩
  | cons e h ih =>
    have ih := ih fun e error hm => hd e error (List.mem_cons_of_mem _ hm)
    cases e with
    | cancelled i =>
      by_cases hi : i = id
      · subst i
        refine .inr ⟨?_, List.mem_cons_self⟩
        rw [List.foldl_cons, Event.affect, if_pos rfl]
        exact foldl_finished h _
      · simpa [Event.affect, hi, Ne.symm hi] using ih
    | turned ids => simpa [Event.affect, Wait.turn] using ih
    | did d =>
      cases d with
      | call => simpa [Event.affect] using ih
      | complete e error => exact absurd List.mem_cons_self (hd e error)
    | registered | removed | emitted | waited | failed | aborted => simpa [Event.affect] using ih

theorem History.Unresolved.tail {e : Event α ε} {h : History α ε}
    (hu : History.Unresolved (e :: h) id) : h.Unresolved id :=
  fun before d after heq => hu (e :: before) d after (by rw [heq]; rfl)

/-- Until an announcement completes after it began, a wait is pending, unless it is cancelled. -/
theorem foldl_starting {h : History α ε} (hu : h.Unresolved id) :
    h.foldl (Event.affect id) .starting = (if h.runs id then .waiting else .starting) ∧
        .cancelled id ∉ h ∨
      h.foldl (Event.affect id) .starting = .finished .cancelled ∧ .cancelled id ∈ h := by
  induction h with
  | nil => exact .inl ⟨rfl, List.not_mem_nil⟩
  | cons e h ih =>
    have ih := ih hu.tail
    cases e with
    | cancelled i =>
      by_cases hi : i = id
      · subst i
        refine .inr ⟨?_, List.mem_cons_self⟩
        rw [List.foldl_cons, Event.affect, if_pos rfl]
        exact foldl_finished h _
      · simpa [Event.affect, hi, Ne.symm hi, History.runs, Event.turns] using ih
    | turned ids =>
      by_cases hid : id ∈ ids
      · have hpending := foldl_waiting id (hu [] (.turned ids) h rfl (decide_eq_true hid))
        simpa [Event.affect, hid, Wait.turn, History.runs, Event.turns] using hpending
      · simpa [Event.affect, hid, History.runs, Event.turns] using ih
    | did d => cases d <;> simpa [Event.affect, Wait.settle, History.runs, Event.turns] using ih
    | registered | removed | emitted | waited | failed | aborted =>
      simpa [Event.affect, History.runs, Event.turns] using ih

end Account

/-- What has become of a wait, if `h` is what has happened since. -/
structure Awaited (c : Channel α ε) (id : String) (h : History α ε) : Prop where
  /-- Until the first announcement to complete after it began, it is pending. -/
  pending : h.Unresolved id → .cancelled id ∉ h →
    c.waits.get? id = some (if h.runs id then .waiting else .starting)
  /-- It ends as that announcement says, and with no other one. -/
  resolved (before after : History α ε) (e : Nat) (error : Option ε) :
    h = before ++ .did (.complete e error) :: after → before.Unresolved id →
      before.runs id = true → .cancelled id ∉ h →
      c.waits.get? id =
        some (if after.runs id then .finished (.ended error) else .settled error)
  /-- Cancelled before, it does not end with any. -/
  withdrawn (before after : History α ε) : h = before ++ .cancelled id :: after →
    before.Unresolved id → c.waits.get? id = some (.finished .cancelled)

theorem Run.awaited [DecidableEq α] {t : Trace α ε} (run : Run t) {before after : History α ε}
    {id : String} (heq : t.history = before ++ .waited id :: after)
    (hnew : .waited id ∉ after) : Awaited t.session.channel id after := by
  have hget : t.session.channel.waits.get? id =
      some (after.foldl (Event.affect id) .starting) := by
    rw [run.get?_eq, heq, status_of_waited hnew]
  refine ⟨fun hu hc => ?_, fun h₁ h₂ e error hsplit hu hb hc => ?_, fun h₁ h₂ hsplit hu => ?_⟩
  · rcases foldl_starting hu with ⟨hpending, -⟩ | ⟨-, hm⟩
    · rw [hget, hpending]
    · exact absurd hm hc
  · subst hsplit
    simp only [List.mem_append, List.mem_cons, reduceCtorEq, false_or, not_or] at hc
    rcases foldl_starting hu with ⟨hpending, -⟩ | ⟨-, hm⟩
    · rw [hget, List.foldl_append, hpending, if_pos hb, List.foldl_cons]
      exact congrArg some (foldl_settled hc.2 error)
    · exact absurd hm hc.1
  · subst hsplit
    have hstop : (h₁.foldl (Event.affect id) .starting).cancel =
        (.finished .cancelled : Wait ε) := by
      rcases foldl_starting hu with ⟨hpending, -⟩ | ⟨hcancelled, -⟩
      · rw [hpending]
        split <;> rfl
      · rw [hcancelled]
        rfl
    rw [hget, List.foldl_append, List.foldl_cons, Event.affect, if_pos rfl, hstop, foldl_finished]

end TemplateHost.Channel
