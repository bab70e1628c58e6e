import TemplateHost.Proofs.Code.Running
import TemplateHost.Proofs.Code.Store
import TemplateHost.Proofs.Text.Search

/-!
# Rendering retains what is bound

Templates can declare names that are missing, make objects that cannot be called and register
delegates, but they cannot bind a name anew: a global name or a member that is there stays what it
is, the registries of the delegates apart.
-/
namespace TemplateHost

def Value.isMap : Value → Bool
  | .map _ => true
  | _ => false

namespace Store
variable {s t u : Store} {k : ScopeId} {name : String}

/-- What is bound stays bound: members to what they were, global names too unless they hold maps. No
scope is made. -/
structure Keeps (s t : Store) : Prop where
  members (v : Value) (n : String) (w : Value) : s.member v n = .ok w → t.member v n = .ok w
  globals (k : ScopeId) (n : String) (v : Value) : (s.scope k).get? n = some v →
    ∃ w, (t.scope k).get? n = some w ∧ (w = v ∨ v.isMap = true ∧ w.isMap = true)
  scopes : t.scopes.size = s.scopes.size

theorem Keeps.refl (s : Store) : s.Keeps s :=
  ⟨fun _ _ _ => id, fun _ _ v hv => ⟨v, hv, Or.inl rfl⟩, rfl⟩

theorem Keeps.trans (h₁ : s.Keeps t) (h₂ : t.Keeps u) : s.Keeps u where
  members v n w hw := h₂.members v n w (h₁.members v n w hw)
  globals k n v hv := by
    obtain ⟨w, hw, heq⟩ := h₁.globals k n v hv
    obtain ⟨x, hx, heq'⟩ := h₂.globals k n w hw
    refine ⟨x, hx, ?_⟩
    rcases heq with rfl | ⟨hmap, hmap'⟩
    · exact heq'
    · rcases heq' with rfl | ⟨-, hmap''⟩
      · exact Or.inr ⟨hmap, hmap'⟩
      · exact Or.inr ⟨hmap, hmap''⟩
  scopes := h₂.scopes.trans h₁.scopes

/-- Members stay what they are where each object keeps the form and the members that it has, and
gets no member of its own that it inherits. -/
theorem members_of_kept (h : ∀ i o, s.object? i = some o → ∃ p, t.object? i = some p ∧
    p.form = o.form ∧ (∀ n w, o.members.get? n = some w → p.members.get? n = some w) ∧
    ∀ n w, s.member? o n = some w → o.members.get? n = none → p.members.get? n = none)
    (v : Value) (n : String) (w : Value) (hw : s.member v n = .ok w) : t.member v n = .ok w := by
  obtain ⟨o, ho, hmember⟩ := member_eq_ok_iff.mp hw
  cases v with
  | object i =>
    obtain ⟨p, hp, hform, hown, hnone⟩ := h i o ho
    refine member_eq_ok_iff.mpr ⟨p, hp, member?_eq_some_iff.mpr ?_⟩
    rcases member?_eq_some_iff.mp hmember with hget | ⟨hget, type, q, hparent, hq, hinherited⟩
    · exact Or.inl (hown n w hget)
    · obtain ⟨q', hq', -, hown', -⟩ := h type q hq
      exact Or.inr ⟨hnone n w hmember hget, type, q', hform ▸ hparent, hq', hown' n w hinherited⟩
  | _ => cases ho

theorem keeps_add (s : Store) (o : Object) : s.Keeps (s.add o).2 where
  members := members_of_kept fun _ p hp =>
    ⟨p, object?_add hp o, rfl, fun _ _ => id, fun _ _ _ => id⟩
  globals _ _ v hv := ⟨v, hv, Or.inl rfl⟩
  scopes := rfl

/-- A global name may be bound that was not bound before, or held a map and does so again. -/
theorem keeps_setGlobal {v : Value} (hname : ∀ w, (s.scope k).get? name = some w →
    w.isMap = true ∧ v.isMap = true) : s.Keeps (s.setGlobal k name v) where
  members _ _ _ hw := hw
  globals j n w hw := by
    by_cases hj : j = k
    · subst j
      rcases scope_setGlobal_self s k name v with hset | ⟨hsame, -⟩
      · rw [hset]
        by_cases hn : n = name
        · subst n
          rw [Table.get?_set_self]
          exact ⟨v, rfl, Or.inr (hname w hw)⟩
        · rw [Table.get?_set_ne _ hn]
          exact ⟨w, hw, Or.inl rfl⟩
      · rw [hsame]
        exact ⟨w, hw, Or.inl rfl⟩
    · rw [scope_setGlobal_ne s hj]
      exact ⟨w, hw, Or.inl rfl⟩
  scopes := size_scopes_setGlobal ..

/-- The store is as it was, or it has one more object, which has no members and cannot be called. -/
def Makes (s t : Store) : Prop :=
  t = s ∨ ∃ form : Form, form.isCallable = false ∧ t = (s.add (.ofForm form)).2

section Makes
variable (h : s.Makes t)
include h

theorem Makes.object? {i : ObjectId} {o : Object} (ho : s.object? i = some o) :
    t.object? i = some o := by
  obtain rfl | ⟨form, -, rfl⟩ := h
  · exact ho
  · exact object?_add ho _

theorem Makes.keeps : s.Keeps t := by
  obtain rfl | ⟨form, -, rfl⟩ := h
  · exact .refl _
  · exact keeps_add s _

theorem Makes.own_eq_none {i : ObjectId} {o : Object}
    (hnone : ∀ o, s.object? i = some o → s.member? o name = none) (ho : t.object? i = some o) :
    o.members.get? name = none := by
  obtain rfl | ⟨form, -, rfl⟩ := h
  · exact own_of_member?_eq_none (hnone o ho)
  · rcases object?_add_cases ho with hold | ⟨-, rfl⟩
    · exact own_of_member?_eq_none (hnone o hold)
    · rfl

theorem Makes.keeps_withMember {i : ObjectId} (v : Value)
    (hnone : ∀ o, s.object? i = some o → s.member? o name = none) :
    s.Keeps (t.withMember i name v) where
  members := by
    refine members_of_kept fun j o ho => ?_
    obtain ⟨p, hp, hform, hget⟩ := object?_withMember (h.object? ho) i name v
    have hne {n : String} {w : Value} (hw : s.member? o n = some w) : j ≠ i ∨ n ≠ name := by
      by_cases hj : j = i
      · subst j
        refine Or.inr ?_
        rintro rfl
        cases (hnone o ho).symm.trans hw
      · exact Or.inl hj
    exact ⟨p, hp, hform, fun n w hw => (hget n (hne (member?_of_own hw))).trans hw,
      fun n w hw hnot => (hget n (hne hw)).trans hnot⟩
  globals := h.keeps.globals
  scopes := h.keeps.scopes

end Makes

/-- The value is no function, and no object that is still to come. -/
def Inert (s : Store) (v : Value) : Prop :=
  ∀ i, v = .object i → ∃ o, s.object? i = some o ∧ o.form.isCallable = false

/-- A store grows by objects that cannot be called and by names without dots that were missing; a
map that a global name holds can be replaced. -/
inductive Grows (s : Store) : Store → Prop
  | start : Grows s s
  | object {t u : Store} (h : Grows s t) (hmakes : t.Makes u) : Grows s u
  | member {t u : Store} (h : Grows s t) (hmakes : t.Makes u) {i : ObjectId} {name : String}
    (hname : '.' ∉ name.toList) {v : Value} (hv : u.Inert v)
    (hnone : ∀ o, t.object? i = some o → t.member? o name = none) :
    Grows s (u.withMember i name v)
  | global {t : Store} (h : Grows s t) {k : ScopeId} {name : String} (hname : '.' ∉ name.toList)
    (hnone : (t.scope k).get? name = none) (v : Value) : Grows s (t.setGlobal k name v)
  | registry {t : Store} (h : Grows s t) {k : ScopeId} {name : String} {entries : Entries}
    (hget : (t.scope k).get? name = some (.map entries)) (entries' : Entries) :
    Grows s (t.setGlobal k name (.map entries'))

theorem Grows.trans (h₁ : s.Grows t) (h₂ : t.Grows u) : s.Grows u := by
  induction h₂ with
  | start => exact h₁
  | object _ hmakes ih => exact ih.object hmakes
  | member _ hmakes hname hv hnone ih => exact ih.member hmakes hname hv hnone
  | global _ hname hnone v ih => exact ih.global hname hnone v
  | registry _ hget entries' ih => exact ih.registry hget entries'

theorem Grows.keeps (h : s.Grows t) : s.Keeps t := by
  induction h with
  | start => exact .refl s
  | object _ hmakes ih => exact ih.trans hmakes.keeps
  | member _ hmakes _ _ hnone ih => exact ih.trans (hmakes.keeps_withMember _ hnone)
  | global _ _ hnone v ih =>
    refine ih.trans (keeps_setGlobal fun w hw => ?_)
    rw [hnone] at hw
    cases hw
  | registry _ hget entries' ih =>
    refine ih.trans (keeps_setGlobal fun w hw => ?_)
    rw [hget] at hw
    cases hw
    exact ⟨rfl, rfl⟩

end Store

namespace Run
variable {α β : Type} {k : ScopeId}

/-- Code that binds nothing anew. -/
def Retains (m : Run α) : Prop := ∀ s : Store, s.Keeps (on m s).2

def Adds (m : Run α) : Prop := ∀ s : Store, s.Grows (on m s).2

theorem Adds.retains {m : Run α} (h : Adds m) : Retains m := fun s => (h s).keeps

theorem Adds.of_eq {m : Run α} (h : ∀ s, (on m s).2 = s) : Adds m := by
  intro s
  rw [h]
  exact .start

theorem adds_pure (a : α) : Adds (pure a) := .of_eq fun _ => rfl

theorem adds_throw (f : Fault) : Adds (throw f : Run α) := .of_eq fun _ => rfl

theorem adds_get : Adds (get : Run Store) := .of_eq fun _ => rfl

theorem adds_describer : Adds describer := .of_eq fun _ => rfl

theorem adds_ofExcept (r : Except Fault α) : Adds (ofExcept r) := by
  cases r with
  | ok a => exact adds_pure a
  | error f => exact adds_throw f

theorem Adds.bind {m : Run α} {f : α → Run β} (hm : Adds m) (hf : ∀ a, Adds (f a)) :
    Adds (m >>= f) := kept_bind .trans hm hf

theorem Adds.foldlM {ι : Type} {f : α → ι → Run α} {l : List ι}
    (hf : ∀ a, ∀ x ∈ l, Adds (f a x)) (a : α) : Adds (l.foldlM f a) :=
  kept_foldlM (fun _ => .start) .trans hf a

theorem Adds.mapM {ι : Type} {f : ι → Run α} (hf : ∀ x, Adds (f x)) (l : List ι) :
    Adds (l.mapM f) := kept_mapM (fun _ => .start) .trans hf l

theorem adds_textOf (v : Value) : Adds (textOf v) :=
  adds_describer.bind fun _ => adds_ofExcept _

theorem adds_global? (name : String) : Adds (global? k name) := .of_eq fun _ => rfl

theorem adds_global (name : String) : Adds (global k name) := by
  refine (adds_global? name).bind fun r => ?_
  cases r with
  | some v => exact adds_pure v
  | none => exact adds_throw _

theorem adds_member (v : Value) (name : String) : Adds (member v name) :=
  adds_get.bind fun _ => adds_ofExcept _

theorem on_member? (v : Value) (name : String) (s : Store) :
    on (member? v name) s = (match s.member v name with
      | .ok w => .ok (some w)
      | .error (.missingMember _ _) => .ok none
      | .error f => .error f, s) := by
  unfold member?
  rw [on_bind, on_get]
  dsimp only
  cases s.member v name with
  | ok w => rfl
  | error f => cases f <;> rfl

theorem adds_member? (v : Value) (name : String) : Adds (member? v name) := by
  refine .of_eq fun s => ?_
  rw [on_member?]

theorem adds_mismatch (message : String) : Adds (mismatch message : Run α) := adds_throw _

theorem adds_notCallable (v : Value) : Adds (notCallable v : Run α) :=
  adds_describer.bind fun _ => adds_mismatch _

/-- A type makes a new object without members that cannot be called, or what it makes is no
object. -/
theorem on_construct_cases (i : ObjectId) (form : Form) (args : List Value) (s : Store) :
    (∃ r, on (construct i form args) s = (r, s) ∧ ∀ j, r ≠ .ok (.object j)) ∨
      ∃ form', form'.isCallable = false ∧ on (construct i form args) s =
        (.ok (s.add (.ofForm form')).1, (s.add (.ofForm form')).2) := by
  unfold construct
  split
  · exact Or.inr ⟨_, rfl, rfl⟩
  · exact Or.inl ⟨_, rfl, nofun⟩
  · exact Or.inl ⟨_, rfl, nofun⟩
  · exact Or.inr ⟨_, rfl, rfl⟩
  · exact Or.inl ⟨_, rfl, nofun⟩

theorem on_newNamespace_cases (k : ScopeId) (s : Store) :
    (∃ r, on (newNamespace k) s = (r, s) ∧ ∀ j, r ≠ .ok (.object j)) ∨
      ∃ form, form.isCallable = false ∧ on (newNamespace k) s =
        (.ok (s.add (.ofForm form)).1, (s.add (.ofForm form)).2) := by
  unfold newNamespace
  rw [on_bind, on_global]
  cases (s.scope k).get? "Namespace" with
  | none => exact Or.inl ⟨_, rfl, nofun⟩
  | some v =>
    dsimp only
    split
    · next i =>
      rw [on_bind, on_get]
      dsimp only
      split
      · exact on_construct_cases ..
      · exact Or.inl ⟨_, rfl, nofun⟩
    · exact Or.inl ⟨_, rfl, nofun⟩

theorem scope_newNamespace {s t : Store} {q : Except Fault Value}
    (h : on (newNamespace k) s = (q, t)) (j : ScopeId) : t.scope j = s.scope j := by
  rcases on_newNamespace_cases k s with ⟨r, hr, -⟩ | ⟨form, -, hr⟩
  · cases hr.symm.trans h
    rfl
  · cases hr.symm.trans h
    rfl

theorem adds_construct (i : ObjectId) (form : Form) (args : List Value) :
    Adds (construct i form args) := by
  intro s
  rcases on_construct_cases i form args s with ⟨r, h, -⟩ | ⟨form', hform, h⟩
  · rw [h]
    exact .start
  · rw [h]
    exact .object .start (Or.inr ⟨form', hform, rfl⟩)

theorem makes_newNamespace {s t : Store} {q : Except Fault Value}
    (h : on (newNamespace k) s = (q, t)) : s.Makes t := by
  rcases on_newNamespace_cases k s with ⟨r, hr, -⟩ | ⟨form, hform, hr⟩
  · cases hr.symm.trans h
    exact Or.inl rfl
  · cases hr.symm.trans h
    exact Or.inr ⟨form, hform, rfl⟩

theorem adds_newNamespace (k : ScopeId) : Adds (newNamespace k) :=
  fun _ => .object .start (makes_newNamespace rfl)

theorem inert_newNamespace {s t : Store} {v : Value} (h : on (newNamespace k) s = (.ok v, t)) :
    t.Inert v := by
  rcases on_newNamespace_cases k s with ⟨r, hr, hno⟩ | ⟨form, hform, hr⟩
  · cases hr.symm.trans h
    rintro i rfl
    exact absurd rfl (hno i)
  · cases hr.symm.trans h
    intro i hi
    cases hi
    exact ⟨_, s.object?_add_new _, hform⟩

/-- A member that is missing is set to a new namespace, unless making one fails or the owner takes
no members. -/
theorem on_declare_cases (k : ScopeId) (owner : Value) (name : String) (s : Store) :
    on (declare k owner name) s = (s.member owner name, s) ∨
    (∃ e t, on (newNamespace k) s = (.error e, t) ∧
      on (declare k owner name) s = (.error e, t)) ∨
    (∃ v t e, on (newNamespace k) s = (.ok v, t) ∧ t.setMember owner name v = .error e ∧
      on (declare k owner name) s = (.error e, t)) ∨
    ∃ v t i, on (newNamespace k) s = (.ok v, t) ∧ owner = .object i ∧
      (∀ o, s.object? i = some o → s.member? o name = none) ∧
      on (declare k owner name) s = on (member owner name) (t.withMember i name v) := by
  unfold declare
  rw [on_bind, on_member?]
  cases hm : s.member owner name with
  | ok w => exact Or.inl rfl
  | error f =>
    cases f with
    | missingMember o m =>
      dsimp only
      cases hnew : on (newNamespace k) s with
      | mk r t =>
        cases r with
        | error e => exact Or.inr (Or.inl ⟨e, t, rfl, on_bind_error hnew _⟩)
        | ok v =>
          rw [on_bind_ok hnew, on_bind, on_setMember]
          cases hset : t.setMember owner name v with
          | error e => exact Or.inr (Or.inr (Or.inl ⟨v, t, e, rfl, hset, rfl⟩))
          | ok u =>
            obtain ⟨i, rfl, rfl⟩ := Store.setMember_ok hset
            refine Or.inr (Or.inr (Or.inr ⟨v, t, i, rfl, rfl, fun o ho => ?_, rfl⟩))
            exact Store.member?_of_missing hm ho
    | _ => exact Or.inl rfl

/-- A top-level name that is not bound is refused, or it is bound to a new namespace, unless making
one fails. -/
theorem on_declareTop_cases (k : ScopeId) (head : String) (allowed : Bool) (s : Store) :
    (∃ v, on (declareTop k head allowed) s = (.ok v, s)) ∨
    on (declareTop k head allowed) s = (.error (.undeclaredNamespace head), s) ∨
    (∃ e t, on (newNamespace k) s = (.error e, t) ∧
      on (declareTop k head allowed) s = (.error e, t)) ∨
    ∃ v t, on (newNamespace k) s = (.ok v, t) ∧ (t.scope k).get? head = none ∧
      on (declareTop k head allowed) s = (.ok v, t.setGlobal k head v) := by
  unfold declareTop
  rw [on_bind, on_global?]
  dsimp only
  cases hget : (s.scope k).get? head with
  | some v => exact Or.inl ⟨v, rfl⟩
  | none =>
    cases allowed with
    | false => exact Or.inr (Or.inl rfl)
    | true =>
      refine Or.inr (Or.inr ?_)
      cases hnew : on (newNamespace k) s with
      | mk r t =>
        cases r with
        | error e => exact Or.inl ⟨e, t, rfl, on_bind_error hnew _⟩
        | ok v =>
          rw [← scope_newNamespace hnew] at hget
          exact Or.inr ⟨v, t, rfl, hget, on_bind_ok hnew _⟩

theorem adds_declare (owner : Value) {name : String} (hname : '.' ∉ name.toList) :
    Adds (declare k owner name) := by
  intro s
  have hgrows := adds_newNamespace k s
  rcases on_declare_cases k owner name s with
    heq | ⟨e, t, hnew, heq⟩ | ⟨v, t, e, hnew, -, heq⟩ | ⟨v, t, i, hnew, rfl, hmissing, heq⟩
  · rw [heq]
    exact .start
  · rw [hnew] at hgrows
    rw [heq]
    exact hgrows
  · rw [hnew] at hgrows
    rw [heq]
    exact hgrows
  · rw [hnew] at hgrows
    rw [heq]
    exact (Store.Grows.member .start (makes_newNamespace hnew) hname (inert_newNamespace hnew)
      hmissing).trans (adds_member _ _ _)

theorem adds_declareTop {head : String} (hhead : '.' ∉ head.toList) (allowed : Bool) :
    Adds (declareTop k head allowed) := by
  intro s
  have hgrows := adds_newNamespace k s
  rcases on_declareTop_cases k head allowed s with
    ⟨v, heq⟩ | heq | ⟨e, t, hnew, heq⟩ | ⟨v, t, hnew, hfree, heq⟩
  · rw [heq]
    exact .start
  · rw [heq]
    exact .start
  · rw [hnew] at hgrows
    rw [heq]
    exact hgrows
  · rw [hnew] at hgrows
    rw [heq]
    exact hgrows.global hhead hfree v

theorem adds_provide (name : String) (allowTop : Bool) : Adds (provide k name allowTop) := by
  have hparts := Text.dotless_dotted name
  unfold provide
  split
  · exact adds_pure _
  · next head rest hname =>
    rw [hname] at hparts
    exact (adds_declareTop (hparts head List.mem_cons_self) _).bind fun v =>
      .foldlM (fun w n hn => adds_declare w (hparts n (List.mem_cons_of_mem _ hn))) v

theorem adds_lookup (name : String) : Adds (lookup k name) := by
  unfold lookup
  split
  · exact adds_pure _
  · refine (adds_global? _).bind fun v => .foldlM (fun w n _ => ?_) _
    split
    · exact adds_pure _
    · exact (adds_member? w n).bind fun _ => adds_pure _

theorem on_registry_cases (k : ScopeId) (name use : String) (s : Store) :
    (∃ e, on (registry k name use) s = (.error e, s)) ∨
      ∃ entries, on (registry k name use) s = (.ok entries, s) ∧
        (s.scope k).get? name = some (.map entries) := by
  unfold registry
  rw [on_bind, on_global]
  cases (s.scope k).get? name with
  | none => exact Or.inl ⟨_, rfl⟩
  | some v =>
    cases v with
    | map entries => exact Or.inr ⟨entries, rfl, rfl⟩
    | _ => exact Or.inl ⟨_, rfl⟩

theorem adds_registry (name use : String) : Adds (registry k name use) := by
  refine .of_eq fun s => ?_
  rcases on_registry_cases k name use s with ⟨e, h⟩ | ⟨entries, h, -⟩
  · rw [h]
  · rw [h]

theorem adds_registry_bind {name use : String} {f : Entries → Run α}
    (hf : ∀ (entries : Entries) (s : Store), (s.scope k).get? name = some (.map entries) →
      s.Grows (on (f entries) s).2) :
    Adds (registry k name use >>= f) := by
  intro s
  rcases on_registry_cases k name use s with ⟨e, h⟩ | ⟨entries, h, hget⟩
  · rw [on_bind_error h]
    exact .start
  · rw [on_bind_ok h]
    exact hf entries s hget

theorem adds_registerDelegate (id variant priority function : Value) :
    Adds (registerDelegate k id variant priority function) := by
  unfold registerDelegate
  refine (adds_textOf _).bind fun idText => (adds_textOf _).bind fun variantText =>
    adds_registry_bind fun priorities s hget => ?_
  dsimp only
  cases Delegates.judge (Entries.get? (Delegates.key idText variantText) priorities) priority with
  | accepted =>
    rw [on_bind, on_setGlobal]
    refine (Store.Grows.start.registry hget _).trans
      (adds_registry_bind (fun functions t ht => ?_) _)
    exact .registry .start ht _
  | ignored => exact .start
  | tied => exact .start
  | incomparable => exact .start

theorem adds_textOr (variant : Value) {f : String → Run α} (hf : ∀ v, Adds (f v)) :
    Adds (if variant.isNull then f "" else textOf variant >>= f) := by
  split
  · exact hf ""
  · exact (adds_textOf variant).bind hf

theorem adds_selectDelegate (id variant allowEmpty : Value) :
    Adds (selectDelegate k id variant allowEmpty) := by
  refine adds_textOr variant fun variantText => ?_
  refine (adds_registry _ _).bind fun functions => (adds_textOf _).bind fun idText => ?_
  split
  · exact adds_pure _
  · split
    · exact adds_global _
    · exact adds_throw _

theorem adds_nameOf (v : Value) : Adds (nameOf v) := by
  unfold nameOf
  split
  · exact adds_pure _
  · exact adds_get.bind fun _ => adds_throw _

theorem adds_runRoutine (r : Routine) (args : List Value) : Adds (runRoutine r k args) := by
  unfold runRoutine
  split
  · exact adds_describer.bind fun _ => adds_ofExcept _
  · exact (adds_nameOf _).bind fun _ => adds_provide _ _
  · exact (adds_nameOf _).bind fun _ => adds_provide _ _
  · exact (adds_nameOf _).bind fun _ => adds_lookup _
  · exact (adds_textOf _).bind fun _ => (adds_textOf _).bind fun _ => adds_pure _
  · exact adds_registerDelegate _ _ _ _
  · exact adds_selectDelegate _ _ _
  · exact adds_selectDelegate _ _ _
  · exact adds_pure _
  · exact adds_pure _
  · exact adds_pure _
  · exact adds_pure _
  · exact adds_throw _

theorem adds_entry (v : Value) (name : String) : Adds (entry v name) := by
  unfold entry
  split
  · exact adds_pure _
  · exact adds_get.bind fun _ => adds_throw _

theorem adds_neededEntry (v : Value) (name : String) : Adds (neededEntry v name) := by
  unfold neededEntry
  split
  · split
    · exact adds_pure _
    · exact adds_throw _
  · exact adds_describer.bind fun _ => adds_mismatch _

theorem adds_argument (x : Input) (a : Argument) : Adds (argument x a) := by
  cases a with
  | literal v => exact adds_pure v
  | data name => exact adds_entry _ _
  | injected name => exact adds_entry _ _

theorem adds_interfaceMember (name : String) : Adds (interfaceMember k name) :=
  (adds_global _).bind fun _ => adds_member _ _

theorem adds_resolve (head : String) (rest : List String) : Adds (resolve k head rest) :=
  (adds_global head).bind fun v => .foldlM (fun w n _ => adds_member w n) v

section Call
variable {call : Value → List Value → Run Value} (hcall : ∀ f args, Adds (call f args))
include hcall

theorem adds_renderPart (x : Input) (p : Part) : Adds (renderPart call k x p) := by
  have htext (f : Value) (args : List Value) : Adds (do
      return .str (← textOf (← call f args)) : Run Value) :=
    (hcall f args).bind fun _ => (adds_textOf _).bind fun _ => adds_pure _
  cases p with
  | text s => exact adds_pure _
  | message default translations => exact adds_pure _
  | data name =>
    exact (adds_interfaceMember _).bind fun _ => (adds_entry _ _).bind fun _ => hcall _ _
  | injected name =>
    exact (adds_interfaceMember _).bind fun _ => (adds_entry _ _).bind fun _ => hcall _ _
  | needed name =>
    exact (adds_neededEntry _ _).bind fun _ => (adds_textOf _).bind fun _ => adds_pure _
  | call path =>
    unfold renderPart
    dsimp only
    split
    · exact (adds_throw _).bind fun _ => htext _ _
    · exact (adds_resolve _ _).bind fun _ => htext _ _
  | delegateCall id variant allowEmpty =>
    exact (adds_interfaceMember _).bind fun _ => (adds_argument _ _).bind fun _ =>
      (hcall _ _).bind fun _ => htext _ _
  | function name args =>
    exact (adds_interfaceMember _).bind fun _ =>
      (Adds.mapM (adds_argument x) args).bind fun _ => htext _ _
  | raise kind message => exact adds_throw _

theorem adds_render (t : Template) (data injected : Value) :
    Adds (render call k t data injected) := by
  have hjoined (outputs : List Value) : Adds (joined outputs) := by
    refine (Adds.mapM (fun v => ?_) outputs).bind fun _ => adds_pure _
    split
    · exact adds_pure _
    · exact adds_describer.bind fun _ => adds_mismatch _
  unfold render
  refine (Adds.mapM (adds_renderPart hcall _) _).bind fun outputs => ?_
  split
  · exact adds_pure _
  · exact (hjoined _).bind fun _ => adds_pure _
  · exact (adds_interfaceMember _).bind fun _ => (hjoined _).bind fun _ => hcall _ _

theorem adds_callObject (i : ObjectId) (form : Form) (args : List Value) :
    Adds (callObject call i form args) := by
  unfold callObject
  split
  · exact adds_construct _ _ _
  · exact adds_construct _ _ _
  · exact adds_construct _ _ _
  · exact adds_runRoutine _ _
  · split
    · exact adds_render hcall _ _ _
    · exact adds_render hcall _ _ _
    · exact adds_render hcall _ _ _
    · exact adds_render hcall _ _ _
    · exact adds_throw _
  · exact adds_pure _
  all_goals exact adds_notCallable _

end Call

theorem adds_invoke (depth : Nat) (f : Value) (args : List Value) :
    Adds (invoke depth f args) := by
  induction depth generalizing f args with
  | zero => exact adds_throw _
  | succ depth ih =>
    unfold invoke
    split
    · refine adds_get.bind fun s => ?_
      split
      · exact adds_callObject ih _ _ _
      · exact adds_notCallable _
    · exact adds_notCallable _

theorem adds_call (f : Value) (args : List Value) : Adds (call f args) :=
  adds_invoke maxDepth f args

end Run

end TemplateHost
