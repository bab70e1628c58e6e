import TemplateHost.Code.Delegates
import TemplateHost.Code.Statement
import TemplateHost.Library.Strings
import TemplateHost.Table

/-!
# Rosters of delegates

Which delegates a list of statements registers can be told from the statements alone: a roster
keeps, for each key, the priority that counts and the position of the statement that it comes from.
The two registries hold just what the roster says, once each position has been given a function.
-/
namespace TemplateHost

namespace Value

mutual

def isPlain : Value → Bool
  | .null | .bool _ | .int _ | .float _ | .str _ => true
  | .list items => arePlain items
  | .map entries => arePlainEntries entries
  | .safe _ content => isPlain content
  | .object _ => false

def arePlain : List Value → Bool
  | [] => true
  | v :: r => isPlain v && arePlain r

def arePlainEntries : List (Value × Value) → Bool
  | [] => true
  | (k, v) :: r => isPlain k && isPlain v && arePlainEntries r

end

mutual

theorem literal_of_isPlain (d d' : ObjectId → String) :
    ∀ v : Value, v.isPlain = true → v.literal d = v.literal d'
  | .null, _ | .bool _, _ | .int _, _ | .float _, _ | .str _, _ => rfl
  | .list items, h => by
    rw [literal, literal, literalItems_of_arePlain d d' items h]
  | .map entries, h => by
    rw [literal, literal, literalEntries_of_arePlainEntries d d' entries h]
  | .safe context content, h => by
    rw [literal, literal, literal_of_isPlain d d' content h]

theorem literalItems_of_arePlain (d d' : ObjectId → String) :
    ∀ items : List Value, arePlain items = true → literalItems d items = literalItems d' items
  | [], _ => rfl
  | v :: r, h => by
    obtain ⟨hv, hr⟩ := Bool.and_eq_true_iff.mp h
    rw [literalItems, literalItems, literal_of_isPlain d d' v hv,
      literalItems_of_arePlain d d' r hr]

theorem literalEntries_of_arePlainEntries (d d' : ObjectId → String) :
    ∀ entries : List (Value × Value), arePlainEntries entries = true →
      literalEntries d entries = literalEntries d' entries
  | [], _ => rfl
  | (k, v) :: r, h => by
    obtain ⟨hkv, hr⟩ := Bool.and_eq_true_iff.mp h
    obtain ⟨hk, hv⟩ := Bool.and_eq_true_iff.mp hkv
    rw [literalEntries, literalEntries, literal_of_isPlain d d' k hk,
      literal_of_isPlain d d' v hv, literalEntries_of_arePlainEntries d d' r hr]

end

theorem ne_object_of_isPlain {v : Value} (hv : v.isPlain = true) (i : ObjectId) :
    v ≠ .object i := by
  rintro rfl
  cases hv

def plainText (v : Value) : Except Fault String := Library.textOf ⟨fun _ => "", fun _ => ""⟩ v

theorem text?_of_isPlain {v : Value} (hv : v.isPlain = true) (d d' : ObjectId → String) :
    v.text? d = v.text? d' := by
  have hliteral := literal_of_isPlain d d' v hv
  cases v with
  | str s => rfl
  | safe context content => cases content <;> rfl
  | _ => exact congrArg some hliteral

theorem textOf_of_isPlain {v : Value} (hv : v.isPlain = true) (d : Describer) :
    Library.textOf d v = v.plainText := by
  unfold plainText Library.textOf
  rw [text?_of_isPlain hv d.literal]

end Value

namespace Delegates

/-- For each key the priority that counts, and the position that it comes from. -/
abbrev Roster := Table String (Value × Nat)

def keyText (id variant : String) : String := "key_" ++ id ++ ":" ++ variant

theorem find?_eq_of_get? {functions : Entries} {id variant : String} {f : Option Value}
    (h : Entries.get? (key id variant) functions = f) (hf : f ≠ some .null) :
    find? functions id variant = f := by
  unfold find?
  rw [h]
  cases f with
  | none => rfl
  | some v =>
    cases v with
    | null => exact absurd rfl hf
    | _ => rfl

namespace Roster

def priorities (r : Roster) : Entries := r.entries.map fun e => (.str e.1, e.2.1)

def functions (made : Nat → Value) (r : Roster) : Entries :=
  r.entries.map fun e => (.str e.1, made e.2.2)

def judge (r : Roster) (id variant : String) (priority : Value) : Verdict :=
  Delegates.judge ((r.get? (keyText id variant)).map (·.1)) priority

/-- The roster after one more delegate, unless it cannot be registered. -/
def enter (r : Roster) (position : Nat) (id variant : String) (priority : Value) : Option Roster :=
  match r.judge id variant priority with
  | .accepted => some (r.set (keyText id variant) (priority, position))
  | .ignored => some r
  | .tied | .incomparable => none

def next (r : Roster) (position : Nat) : Statement → Option Roster
  | .delegate id variant priority _ =>
    match variant.plainText with
    | .ok v => r.enter position id v priority
    | .error _ => none
  | _ => some r

def after (r : Roster) (position : Nat) : List Statement → Option Roster
  | [] => some r
  | x :: xs => (r.next position x).bind fun r => after r (position + 1) xs

def select? (r : Roster) (id variant : String) : Option Nat :=
  match r.get? (keyText id variant) with
  | some (_, position) => some position
  | none => if variant.isEmpty then none else (r.get? (keyText id "")).map (·.2)

/-- Whom a roster selects for an id: the delegate at a position, or the empty template. -/
def electFor (r : Roster) (id : Value) (variant : String) (allowEmpty : Value) :
    Except Fault (Option Nat) :=
  match id.plainText with
  | .error e => .error e
  | .ok i => match r.select? i variant with
    | some position => .ok (some position)
    | none => if allowEmpty.isTrue then .ok none else .error (.noDelegate i variant)

def elect (r : Roster) (id variant allowEmpty : Value) : Except Fault (Option Nat) :=
  if variant.isNull then r.electFor id "" allowEmpty
  else match variant.plainText with
    | .error e => .error e
    | .ok v => r.electFor id v allowEmpty

end Roster

section Entries
variable {α : Type} (g : α → Value) (k : String)

theorem get?_map (l : List (String × α)) :
    Entries.get? (.str k) (l.map fun e => (.str e.1, g e.2)) = (Table.find k l).map g := by
  induction l with
  | nil => rfl
  | cons e r ih =>
    rw [List.map_cons, Entries.get?, Table.find, Value.same, ih]
    by_cases hk : e.1 = k <;> simp [hk]

theorem set_map (v : α) (l : List (String × α)) :
    Entries.set (.str k) (g v) (l.map fun e => (.str e.1, g e.2)) =
      (Table.put k v l).map fun e => (.str e.1, g e.2) := by
  induction l with
  | nil => rfl
  | cons e r ih =>
    rw [List.map_cons, Entries.set, Table.put, Value.same, ih]
    by_cases hk : e.1 = k <;> simp [hk]

end Entries

namespace Roster
variable (r : Roster) (made : Nat → Value)

theorem get?_priorities (id variant : String) :
    Entries.get? (key id variant) r.priorities = (r.get? (keyText id variant)).map (·.1) :=
  get?_map (fun e : Value × Nat => e.1) _ r.entries

theorem set_priorities (id variant : String) (priority : Value) (position : Nat) :
    Entries.set (key id variant) priority r.priorities =
      priorities (r.set (keyText id variant) (priority, position)) :=
  set_map (fun e : Value × Nat => e.1) _ (priority, position) r.entries

theorem set_functions (id variant : String) (priority : Value) (position : Nat) :
    Entries.set (key id variant) (made position) (r.functions made) =
      functions made (r.set (keyText id variant) (priority, position)) :=
  set_map (fun e : Value × Nat => made e.2) _ (priority, position) r.entries

theorem get?_functions (id variant : String) :
    Entries.get? (key id variant) (r.functions made) =
      (r.get? (keyText id variant)).map fun e => made e.2 :=
  get?_map (fun e : Value × Nat => made e.2) _ r.entries

theorem find?_functions (hmade : ∀ position, made position ≠ .null) (id variant : String) :
    find? (r.functions made) id variant =
      (r.get? (keyText id variant)).map fun e => made e.2 := by
  refine find?_eq_of_get? (get?_functions r made id variant) fun hnull => ?_
  obtain ⟨e, -, he⟩ := Option.map_eq_some_iff.mp hnull
  exact hmade e.2 he

theorem select?_functions (hmade : ∀ position, made position ≠ .null) (id variant : String) :
    Delegates.select? (r.functions made) id variant = (r.select? id variant).map made := by
  unfold Delegates.select? select?
  rw [find?_functions r made hmade, find?_functions r made hmade]
  cases r.get? (keyText id variant) with
  | some e => rfl
  | none =>
    dsimp only [Option.map_none]
    by_cases hv : variant.isEmpty = true
    · rw [if_pos hv, if_pos hv]
      rfl
    · rw [if_neg hv, if_neg hv, Option.map_map]
      rfl

variable {r : Roster} {position : Nat} {xs ys : List Statement}

theorem after_cons (r : Roster) (position : Nat) (x : Statement) (xs : List Statement) :
    r.after position (x :: xs) = (r.next position x).bind fun r => r.after (position + 1) xs := rfl

theorem after_append (r : Roster) (position : Nat) (xs ys : List Statement) :
    r.after position (xs ++ ys) =
      (r.after position xs).bind fun r => r.after (position + xs.length) ys := by
  induction xs generalizing r position with
  | nil => rfl
  | cons x xs ih =>
    rw [List.cons_append, after_cons, after_cons, Option.bind_assoc]
    congr 1
    funext r
    rw [ih, List.length_cons, Nat.add_right_comm, Nat.add_assoc]

theorem mem_after {r' : Roster} (h : r.after position xs = some r') {k : String} {p : Value}
    {q : Nat} (hq : r'.get? k = some (p, q)) : (∃ p', r.get? k = some (p', q)) ∨
      ∃ i id variant priority t, q = position + i ∧
        xs[i]? = some (.delegate id variant priority t) := by
  induction xs generalizing r position with
  | nil =>
    obtain rfl := Option.some.inj h
    exact Or.inl ⟨p, hq⟩
  | cons x xs ih =>
    obtain ⟨r₁, hx, hxs⟩ := Option.bind_eq_some_iff.mp h
    rcases ih hxs with ⟨p', hold⟩ | ⟨i, id, variant, priority, t, rfl, hi⟩
    · unfold next at hx
      split at hx
      · next id variant priority t =>
        split at hx
        · next v _ =>
          unfold enter at hx
          split at hx
          · obtain rfl := Option.some.inj hx
            by_cases hk : k = keyText id v
            · rw [hk, Table.get?_set_self] at hold
              obtain ⟨rfl, rfl⟩ := Prod.mk.inj (Option.some.inj hold)
              exact Or.inr ⟨0, id, variant, _, t, rfl, rfl⟩
            · rw [Table.get?_set_ne _ hk] at hold
              exact Or.inl ⟨p', hold⟩
          · obtain rfl := Option.some.inj hx
            exact Or.inl ⟨p', hold⟩
          · cases hx
          · cases hx
        · cases hx
      · obtain rfl := Option.some.inj hx
        exact Or.inl ⟨p', hold⟩
    · exact Or.inr ⟨i + 1, id, variant, priority, t, by omega, hi⟩

theorem select?_of_electFor {id allowEmpty : Value} {v : String}
    (h : r.electFor id v allowEmpty = .ok (some position)) :
    ∃ i, r.select? i v = some position := by
  unfold electFor at h
  split at h
  · cases h
  · next i _ =>
    split at h
    · next q hq => exact ⟨i, hq.trans (Except.ok.inj h)⟩
    · split at h <;> cases h

theorem select?_of_elect {id variant allowEmpty : Value}
    (h : r.elect id variant allowEmpty = .ok (some position)) :
    ∃ i v, r.select? i v = some position := by
  unfold elect at h
  split at h
  · exact (select?_of_electFor h).imp fun i hi => ⟨"", hi⟩
  · split at h
    · cases h
    · next v _ => exact (select?_of_electFor h).imp fun i hi => ⟨v, hi⟩

theorem get?_of_select? {id variant : String} (h : r.select? id variant = some position) :
    ∃ k p, r.get? k = some (p, position) := by
  unfold select? at h
  split at h
  · next p q hget =>
    obtain rfl := Option.some.inj h
    exact ⟨_, p, hget⟩
  · split at h
    · cases h
    · obtain ⟨⟨p, q⟩, hget, rfl⟩ := Option.map_eq_some_iff.mp h
      exact ⟨_, p, hget⟩

theorem delegate_of_elect (hafter : Roster.after .empty 0 xs = some r)
    {id variant allowEmpty : Value} (h : r.elect id variant allowEmpty = .ok (some position)) :
    ∃ id variant priority t, xs[position]? = some (.delegate id variant priority t) := by
  obtain ⟨i, v, hselect⟩ := select?_of_elect h
  obtain ⟨k, p, hget⟩ := get?_of_select? hselect
  rcases mem_after hafter hget with ⟨p', hnone⟩ | ⟨j, id, variant, priority, t, rfl, hj⟩
  · cases hnone
  · rw [Nat.zero_add]
    exact ⟨id, variant, priority, t, hj⟩

end Roster

end Delegates

def Statement.isDelegate : Statement → Bool
  | .delegate .. => true
  | _ => false

namespace Delegates.Roster
variable {r r' : Roster}

/-- Rosters with the same priorities, whatever positions these come from. -/
def Alike (r r' : Roster) : Prop :=
  ∀ k, (r.get? k).map (·.1) = (r'.get? k).map (·.1)

theorem Alike.judge (h : r.Alike r') (id variant : String) (priority : Value) :
    r.judge id variant priority = r'.judge id variant priority :=
  congrArg (Delegates.judge · priority) (h _)

def Ties (r : Roster) (x : Statement) (id v : String) : Prop :=
  ∃ variant priority t, x = .delegate id variant priority t ∧ variant.plainText = .ok v ∧
    r.judge id v priority = .tied

theorem Alike.ties (h : r.Alike r') {x : Statement} {id v : String} (hx : r.Ties x id v) :
    r'.Ties x id v := by
  obtain ⟨variant, priority, t, rfl, hv, hj⟩ := hx
  exact ⟨variant, priority, t, rfl, hv, h.judge id v priority ▸ hj⟩

theorem ties_delegate_iff {id i v : String} {variant priority : Value} {t : Template} :
    r.Ties (.delegate id variant priority t) i v ↔
      i = id ∧ variant.plainText = .ok v ∧ r.judge id v priority = .tied := by
  constructor
  · rintro ⟨variant, priority, t, heq, hv, hjudge⟩
    cases heq
    exact ⟨rfl, hv, hjudge⟩
  · rintro ⟨rfl, hv, hjudge⟩
    exact ⟨variant, priority, t, rfl, hv, hjudge⟩

theorem Ties.isDelegate {x : Statement} {id v : String} (h : r.Ties x id v) :
    x.isDelegate = true := by
  obtain ⟨variant, priority, t, rfl, -⟩ := h
  rfl

theorem Ties.next {x : Statement} {id v : String} (h : r.Ties x id v) (position : Nat) :
    r.next position x = none := by
  obtain ⟨variant, priority, t, rfl, hv, hjudge⟩ := h
  unfold Roster.next enter
  dsimp only
  rw [hv]
  dsimp only
  rw [hjudge]

theorem Ties.after {xs : List Statement} {position : Nat} {x : Statement} {id v : String}
    (hx : r'.Ties x id v) (h : r.after position xs = some r') (rest : List Statement) :
    r.after position (xs ++ x :: rest) = none := by
  rw [after_append, h, Option.bind_some, after_cons, hx.next, Option.bind_none]

theorem Alike.set (h : r.Alike r') (k : String) (priority : Value) (position position' : Nat) :
    Alike (Table.set r k (priority, position)) (Table.set r' k (priority, position')) := by
  intro j
  by_cases hj : j = k
  · rw [hj, Table.get?_set_self, Table.get?_set_self]
    rfl
  · rw [Table.get?_set_ne _ hj, Table.get?_set_ne _ hj]
    exact h j

theorem Alike.next (h : r.Alike r') (position position' : Nat) {x : Statement} {r₁ : Roster}
    (hx : r.next position x = some r₁) :
    ∃ r₂, r'.next position' x = some r₂ ∧ r₁.Alike r₂ := by
  cases x with
  | delegate id variant priority t =>
    unfold Roster.next at hx ⊢
    dsimp only at hx ⊢
    cases hv : variant.plainText with
    | error e =>
      rw [hv] at hx
      cases hx
    | ok v =>
      rw [hv] at hx
      dsimp only at hx ⊢
      unfold enter at hx ⊢
      rw [← h.judge]
      cases hj : r.judge id v priority with
      | accepted =>
        rw [hj] at hx
        obtain rfl := Option.some.inj hx
        exact ⟨_, rfl, h.set _ _ _ _⟩
      | ignored =>
        rw [hj] at hx
        obtain rfl := Option.some.inj hx
        exact ⟨_, rfl, h⟩
      | tied =>
        rw [hj] at hx
        cases hx
      | incomparable =>
        rw [hj] at hx
        cases hx
  | _ =>
    obtain rfl := Option.some.inj hx
    exact ⟨_, rfl, h⟩

theorem next_of_not_isDelegate {x : Statement} (hx : x.isDelegate = false) (r : Roster)
    (position : Nat) : r.next position x = some r := by
  cases x with
  | delegate id variant priority t => cases hx
  | _ => rfl

/-- The delegates of a list by themselves come to the same priorities. -/
theorem Alike.after_filter (h : r.Alike r') (position position' : Nat) {xs : List Statement}
    {r₁ : Roster} (hxs : r.after position xs = some r₁) :
    ∃ r₂, r'.after position' (xs.filter Statement.isDelegate) = some r₂ ∧ r₁.Alike r₂ := by
  induction xs generalizing r r' position position' with
  | nil =>
    obtain rfl := Option.some.inj hxs
    exact ⟨r', rfl, h⟩
  | cons x xs ih =>
    obtain ⟨r₂, hx, hrest⟩ := Option.bind_eq_some_iff.mp hxs
    by_cases hd : x.isDelegate = true
    · obtain ⟨r₃, hx', halike⟩ := h.next position position' hx
      rw [List.filter_cons_of_pos hd, after_cons, hx']
      exact ih halike (position + 1) (position' + 1) hrest
    · rw [next_of_not_isDelegate (by simpa using hd)] at hx
      obtain rfl := Option.some.inj hx
      rw [List.filter_cons_of_neg hd]
      exact ih h (position + 1) position' hrest

end Delegates.Roster

end TemplateHost
