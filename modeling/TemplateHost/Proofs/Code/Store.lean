import TemplateHost.Code.Store

/-!
# Reading and writing stores

What a store holds after an object has been added, a global name bound or a member set.
-/
namespace TemplateHost.Store
variable {s t : Store} {k : ScopeId} {name : String}

/-- A global name is bound in its scope, if there is such a scope. -/
theorem scope_setGlobal_self (s : Store) (k : ScopeId) (name : String) (v : Value) :
    (s.setGlobal k name v).scope k = (s.scope k).set name v ∨
      (s.setGlobal k name v).scope k = s.scope k ∧ s.scope k = .empty := by
  unfold setGlobal setScope scope
  dsimp only
  rw [Array.getElem?_modify, if_pos rfl]
  cases s.scopes[k]? with
  | none => exact Or.inr ⟨rfl, rfl⟩
  | some x => exact Or.inl rfl

theorem scope_setGlobal_ne (s : Store) {j k : ScopeId} (hj : j ≠ k) (name : String) (v : Value) :
    (s.setGlobal k name v).scope j = s.scope j := by
  unfold setGlobal setScope scope
  dsimp only
  rw [Array.getElem?_modify, if_neg (Ne.symm hj)]

theorem scope_setGlobal (hk : k < s.scopes.size) (name : String) (v : Value) :
    (s.setGlobal k name v).scope k = (s.scope k).set name v := by
  unfold setGlobal setScope scope
  dsimp only
  rw [Array.getElem?_modify, if_pos rfl, Array.getElem?_eq_getElem hk]
  rfl

@[simp] theorem size_scopes_setGlobal (s : Store) (j : ScopeId) (name : String) (v : Value) :
    (s.setGlobal j name v).scopes.size = s.scopes.size := Array.size_modify

theorem lt_of_object? {i : ObjectId} {o : Object} (h : s.object? i = some o) :
    i < s.objects.size :=
  (Array.getElem?_eq_some_iff.mp h).1

theorem object?_add {i : ObjectId} {p : Object} (h : s.object? i = some p) (o : Object) :
    (s.add o).2.object? i = some p := by
  have hi := lt_of_object? h
  unfold object? add at *
  dsimp only
  rw [Array.getElem?_push_lt hi]
  rwa [Array.getElem?_eq_getElem hi] at h

theorem size_add (s : Store) (o : Object) : (s.add o).2.objects.size = s.objects.size + 1 :=
  Array.size_push _

theorem object?_add_cases {i : ObjectId} {o p : Object} (h : (s.add o).2.object? i = some p) :
    s.object? i = some p ∨ i = s.objects.size ∧ p = o := by
  have hi := lt_of_object? h
  rw [size_add] at hi
  unfold object? add at h
  dsimp only at h
  rcases Nat.lt_or_eq_of_le (Nat.le_of_lt_succ hi) with hlt | rfl
  · rw [Array.getElem?_push_lt hlt] at h
    exact Or.inl ((Array.getElem?_eq_getElem hlt).trans h)
  · rw [Array.getElem?_push_size] at h
    exact Or.inr ⟨rfl, (Option.some.inj h).symm⟩

@[simp] theorem object?_add_new (s : Store) (o : Object) :
    (s.add o).2.object? s.objects.size = some o := by
  unfold object? add
  exact Array.getElem?_push_size

def withMember (s : Store) (i : ObjectId) (name : String) (v : Value) : Store :=
  { s with objects := s.objects.modify i fun o => { o with members := o.members.set name v } }

theorem object?_withMember_self (s : Store) (i : ObjectId) (name : String) (v : Value) :
    (s.withMember i name v).object? i =
      (s.object? i).map fun o => { o with members := o.members.set name v } := by
  unfold withMember object?
  dsimp only
  rw [Array.getElem?_modify, if_pos rfl]

theorem object?_withMember_ne (s : Store) {i j : ObjectId} (hj : j ≠ i) (name : String)
    (v : Value) : (s.withMember i name v).object? j = s.object? j := by
  unfold withMember object?
  dsimp only
  rw [Array.getElem?_modify, if_neg (Ne.symm hj)]

@[simp] theorem size_withMember (s : Store) (i : ObjectId) (name : String) (v : Value) :
    (s.withMember i name v).objects.size = s.objects.size := Array.size_modify

theorem object?_withMember {i : ObjectId} {o : Object} (h : s.object? i = some o) (j : ObjectId)
    (name : String) (v : Value) : ∃ p, (s.withMember j name v).object? i = some p ∧
      p.form = o.form ∧ ∀ n, i ≠ j ∨ n ≠ name → p.members.get? n = o.members.get? n := by
  by_cases hi : i = j
  · subst i
    rw [object?_withMember_self, h]
    refine ⟨_, rfl, rfl, fun n hn => Table.get?_set_ne _ (hn.resolve_left fun h => h rfl) _⟩
  · rw [object?_withMember_ne s hi]
    exact ⟨o, h, rfl, fun _ _ => rfl⟩

theorem object?_withMember_eq_none {i : ObjectId} (h : s.object? i = none) {j : ObjectId}
    {name : String} {v : Value} : (s.withMember j name v).object? i = none := by
  by_cases hi : i = j
  · rw [← hi, object?_withMember_self, h]
    rfl
  · rw [object?_withMember_ne s hi, h]

theorem member_withMember_cases {i j : ObjectId} {n : String} {v : Value} {p : Object}
    (h : (s.withMember j name v).object? i = some p) {w : Value}
    (hw : p.members.get? n = some w) :
    w = v ∨ ∃ o, s.object? i = some o ∧ o.members.get? n = some w := by
  by_cases hi : i = j
  · subst i
    rw [object?_withMember_self] at h
    obtain ⟨o, ho, rfl⟩ := Option.map_eq_some_iff.mp h
    by_cases hn : n = name
    · subst n
      dsimp only at hw
      rw [Table.get?_set_self] at hw
      exact Or.inl (Option.some.inj hw).symm
    · dsimp only at hw
      rw [Table.get?_set_ne _ hn] at hw
      exact Or.inr ⟨o, ho, hw⟩
  · rw [object?_withMember_ne s hi] at h
    exact Or.inr ⟨p, h, hw⟩

theorem setMember_ok {v w : Value} (h : s.setMember v name w = .ok t) :
    ∃ i, v = .object i ∧ t = s.withMember i name w := by
  cases v with
  | object i => exact ⟨i, rfl, (Except.ok.inj h).symm⟩
  | _ => cases h

section Member
variable {i : ObjectId} {o : Object} {v w : Value}

theorem member_object (ho : s.object? i = some o) (name : String) :
    s.member (.object i) name = match s.member? o name with
      | some w => .ok w
      | none => .error (o.form.refusal name) := by
  cases h : s.member? o name with
  | none => simp [member, objectOf?, ho, h]
  | some w => simp [member, objectOf?, ho, h]

theorem member_eq_ok_iff :
    s.member v name = .ok w ↔ ∃ o, s.objectOf? v = some o ∧ s.member? o name = some w := by
  unfold member
  cases s.objectOf? v with
  | none => exact iff_of_false nofun nofun
  | some o =>
    dsimp only
    cases hget : s.member? o name with
    | none => simp [hget]
    | some x => simp [hget]

theorem member?_eq_some_iff : s.member? o name = some w ↔ o.members.get? name = some w ∨
    o.members.get? name = none ∧ ∃ type p, o.form.parent? = some type ∧
      s.object? type = some p ∧ p.members.get? name = some w := by
  simp [member?, own?, Option.or_eq_some_iff, Option.bind_eq_some_iff]

theorem member?_of_own (h : o.members.get? name = some w) : s.member? o name = some w :=
  member?_eq_some_iff.mpr (Or.inl h)

theorem own_of_member?_eq_none (h : s.member? o name = none) : o.members.get? name = none :=
  (Option.or_eq_none_iff.mp h).1

theorem own?_add (s : Store) (form : Form) (i : ObjectId) (name : String) :
    (s.add (.ofForm form)).2.own? i name = s.own? i name := by
  unfold own?
  cases ho : s.object? i with
  | some o => rw [object?_add ho]
  | none =>
    cases ho' : (s.add (.ofForm form)).2.object? i with
    | none => rfl
    | some p =>
      rcases object?_add_cases ho' with hold | ⟨-, rfl⟩
      · cases ho.symm.trans hold
      · rfl

theorem own?_withMember_self (ho : s.object? i = some o) (name : String) (v : Value) :
    (s.withMember i name v).own? i name = some v := by
  rw [own?, object?_withMember_self, ho]
  exact Table.get?_set_self _ _ _

theorem own?_withMember_ne (s : Store) (v : Value) {j : ObjectId} {n : String}
    (h : j ≠ i ∨ n ≠ name) : (s.withMember i name v).own? j n = s.own? j n := by
  unfold own?
  cases ho : s.object? j with
  | none => rw [object?_withMember_eq_none ho]
  | some o =>
    obtain ⟨p, hp, -, hget⟩ := object?_withMember ho i name v
    rw [hp]
    exact hget n h

theorem member?_of_missing {owner member : String}
    (h : s.member (.object i) name = .error (.missingMember owner member))
    (ho : s.object? i = some o) : s.member? o name = none := by
  rw [member_object ho] at h
  cases hget : s.member? o name with
  | none => rfl
  | some w =>
    rw [hget] at h
    cases h

end Member

def HasForm (s : Store) (i : ObjectId) (form : Form) : Prop :=
  ∃ o, s.object? i = some o ∧ o.form = form

/-- The objects of one store are in another, in the same forms. -/
def Extends (s t : Store) : Prop :=
  ∀ i o, s.object? i = some o → ∃ p, t.object? i = some p ∧ p.form = o.form

theorem Extends.refl (s : Store) : s.Extends s := fun _ o ho => ⟨o, ho, rfl⟩

theorem Extends.trans {u : Store} (h₁ : s.Extends t) (h₂ : t.Extends u) : s.Extends u := by
  intro i o ho
  obtain ⟨p, hp, hform⟩ := h₁ i o ho
  obtain ⟨q, hq, hform'⟩ := h₂ i p hp
  exact ⟨q, hq, hform'.trans hform⟩

theorem Extends.hasForm (h : s.Extends t) {i : ObjectId} {form : Form} (hi : s.HasForm i form) :
    t.HasForm i form := by
  obtain ⟨o, ho, rfl⟩ := hi
  exact h i o ho

theorem extends_add (s : Store) (o : Object) : s.Extends (s.add o).2 :=
  fun _ p hp => ⟨p, object?_add hp o, rfl⟩

theorem extends_withMember (s : Store) (i : ObjectId) (name : String) (v : Value) :
    s.Extends (s.withMember i name v) := by
  intro j o ho
  obtain ⟨p, hp, hform, -⟩ := object?_withMember ho i name v
  exact ⟨p, hp, hform⟩

theorem Extends.size (h : s.Extends t) : s.objects.size ≤ t.objects.size := by
  refine Nat.le_of_not_lt fun hsize => ?_
  obtain ⟨p, hp, -⟩ := h t.objects.size _ (Array.getElem?_eq_getElem hsize)
  exact Nat.lt_irrefl _ (lt_of_object? hp)

end TemplateHost.Store
