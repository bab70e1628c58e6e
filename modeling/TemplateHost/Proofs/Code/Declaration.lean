import TemplateHost.Proofs.Code.Bindings
import TemplateHost.Proofs.Context.Agreement

/-!
# Declaring namespaces

A declaration changes nothing, or adds namespaces where the rest of its name was missing. What names
stood for they stand for afterwards, and a second declaration finds what the first one made. Which
of several names can be declared, and which names stand for something in the end, does not depend on
their order.
-/
namespace TemplateHost

namespace Store
variable {s t : Store} {k : ScopeId} {type i : ObjectId} {c : Site} {n : String}
  {parts ws : List String} {allowTop : Bool}

/-- Namespaces can be made in a scope: it is there and names their type, from which they inherit
nothing, and all that the scope leads to is in the store. -/
structure Ready (k : ScopeId) (type : ObjectId) (s : Store) : Prop where
  scope : k < s.scopes.size
  named : (s.scope k).get? "Namespace" = some (.object type)
  form : s.HasForm type .namespaceType
  blank (n : String) : s.bound? k (.value (.object type)) n = none
  closed : s.Closed k
  rooted : s.Rooted

/-- All bindings and all objects are as they were. -/
structure Unchanged (s t : Store) : Prop where
  scopes : t.scopes = s.scopes
  objects (i : ObjectId) : i < s.objects.size → t.object? i = s.object? i
  bindings (k : ScopeId) (c : Site) (n : String) : t.bound? k c n = s.bound? k c n

/-- The store has got bigger by namespaces along a name, and by nothing else. -/
structure Enlarged (k : ScopeId) (type : ObjectId) (parts : List String) (s t : Store) : Prop where
  kept (c : Site) (n : String) (v : Value) : s.bound? k c n = some v → t.bound? k c n = some v
  new (c : Site) (n : String) (v : Value) : t.bound? k c n = some v →
    s.bound? k c n = some v ∨ ∃ i, v = .object i ∧ s.objects.size ≤ i
  forms : s.Extends t
  scopes : t.scopes.size = s.scopes.size
  scope (j : ScopeId) : j ≠ k → t.scope j = s.scope j
  along (i : ObjectId) : s.objects.size ≤ i → i < t.objects.size →
    t.HasForm i (.namespaceOf type) ∧ ∃ front, front <+: parts ∧
      t.trace k .scope front = (.value (.object i), []) ∧
      ∀ n v, t.bound? k (.value (.object i)) n = some v → front ++ [n] <+: parts

theorem Unchanged.refl (s : Store) : s.Unchanged s := ⟨rfl, fun _ _ => rfl, fun _ _ _ => rfl⟩

theorem unchanged_add {form : Form}
    (hform : ∀ type n, form.parent? = some type → s.own? type n = none) :
    s.Unchanged (s.add (.ofForm form)).2 where
  scopes := rfl
  objects _ hi := by
    obtain ⟨o, ho⟩ := exists_object hi
    rw [object?_add ho, ho]
  bindings _ c n := bound?_add hform c n

theorem Unchanged.trace (h : s.Unchanged t) (c : Site) (parts : List String) :
    t.trace k c parts = s.trace k c parts := trace_congr (h.bindings k) c parts

theorem Unchanged.extends (h : s.Unchanged t) : s.Extends t := by
  intro i o ho
  exact ⟨o, (h.objects i (lt_of_object? ho)).trans ho, rfl⟩

theorem Unchanged.closed (h : s.Unchanged t) (hs : s.Closed k) : t.Closed k := by
  intro c n i hi
  rw [h.bindings] at hi
  exact Nat.lt_of_lt_of_le (hs c n i hi) h.extends.size

theorem Closed.setGlobal (hs : s.Closed k) (hk : k < s.scopes.size) (n : String) {v : Value}
    (hv : s.Held (.value v)) : (s.setGlobal k n v).Closed k := by
  intro c m i hi
  by_cases hc : c = .scope ∧ m = n
  · obtain ⟨rfl, rfl⟩ := hc
    rw [bound?_setGlobal_self hk] at hi
    exact hv i (congrArg _ (Option.some.inj hi))
  · rw [bound?_setGlobal_ne hk v (not_and_or.mp hc)] at hi
    exact hs c m i hi

theorem Ready.setGlobal (hs : s.Ready k type) {n : String} (hn : n ≠ "Namespace") {v : Value}
    (hv : s.Held (.value v)) : (s.setGlobal k n v).Ready k type where
  scope := (size_scopes_setGlobal ..).symm ▸ hs.scope
  named := (bound?_setGlobal_ne (c := .scope) hs.scope v (Or.inr hn.symm)).trans hs.named
  form := hs.form
  blank := hs.blank
  closed := hs.closed.setGlobal hs.scope n hv
  rooted := hs.rooted

theorem Ready.type_lt (hs : s.Ready k type) : type < s.objects.size := by
  obtain ⟨o, ho, -⟩ := hs.form
  exact lt_of_object? ho

theorem Branch.ready (h : Branch k type c ws s t) (hs : s.Ready k type) : t.Ready k type where
  scope := h.scopes ▸ hs.scope
  named := h.kept (d := .scope) hs.named
  form := h.forms.hasForm hs.form
  blank n := (h.bound?_type n).trans (hs.blank n)
  closed := h.closed hs.closed
  rooted := h.expands.rooted hs.rooted hs.type_lt

theorem Sprout.branch (h : s.Sprout k type c n t) : Branch k type c [n] s t :=
  .cons h (.nil _ _)

/-- What is missing of a name is added where the rest of it leads. -/
theorem Branch.enlarged
    (h : Branch k type (s.trace k .scope parts).1 (s.trace k .scope parts).2 s t) :
    Enlarged k type parts s t where
  kept _ _ _ := h.kept
  new _ _ _ := h.bound?_new
  forms := h.forms
  scopes := h.scopes
  scope _ hj := h.scope hj
  along i hi hi' := by
    obtain ⟨done, hparts, hdone⟩ := exists_trace s k .scope parts
    obtain ⟨hform, front, hfront, htrace, hinside⟩ := h.along hi hi'
    have hbelow {r : List String} (hr : r <+: (s.trace k .scope parts).2) :
        done ++ r <+: parts := by
      rw [hparts]
      exact (List.prefix_append_right_inj done).mpr hr
    refine ⟨hform, done ++ front, hbelow hfront, ?_, fun n v hn => ?_⟩
    · rw [trace_append (trace_of_kept (fun _ _ _ => h.kept) hdone), htrace]
    · rw [List.append_assoc]
      exact hbelow (hinside n v hn)

/-- The store is as it was, or it has one more namespace, to which nothing leads. -/
def Idle (type : ObjectId) (s t : Store) : Prop :=
  t = s ∨ t = (s.add (.ofForm (.namespaceOf type))).2

section Ready
variable (hs : s.Ready k type) {form : Form}
include hs

/-- An object that inherits from nothing but the type of the namespaces inherits nothing. -/
theorem Ready.unchanged_add (hform : ∀ p, form.parent? = some p → p = type) :
    s.Unchanged (s.add (.ofForm form)).2 := by
  refine Store.unchanged_add fun p n hp => ?_
  obtain rfl := hform p hp
  exact (Option.or_eq_none_iff.mp ((bound?_object s k p n).symm.trans (hs.blank n))).1

theorem Ready.add (hform : ∀ p, form.parent? = some p → p = type) :
    (s.add (.ofForm form)).2.Ready k type where
  scope := hs.scope
  named := hs.named
  form := (extends_add s _).hasForm hs.form
  blank n := ((hs.unchanged_add hform).bindings k _ n).trans (hs.blank n)
  closed := (hs.unchanged_add hform).closed hs.closed
  rooted i o p ho hp := by
    rw [size_add]
    rcases object?_add_cases ho with hold | ⟨-, rfl⟩
    · exact Nat.lt_succ_of_lt (hs.rooted i o p hold hp)
    · exact hform p hp ▸ Nat.lt_succ_of_lt hs.type_lt

theorem Ready.unchanged_of_idle (h : s.Idle type t) : s.Unchanged t := by
  obtain rfl | rfl := h
  · exact .refl _
  · exact hs.unchanged_add fun p hp => (Option.some.inj hp).symm

theorem Ready.ready_of_idle (h : s.Idle type t) : t.Ready k type := by
  obtain rfl | rfl := h
  · exact hs
  · exact hs.add fun p hp => (Option.some.inj hp).symm

omit hs in
theorem Idle.expands (h : s.Idle type t) : s.Expands type t := by
  obtain rfl | rfl := h
  · exact ⟨.refl _, fun i hi hi' => absurd hi' (Nat.not_lt_of_le hi)⟩
  · refine ⟨extends_add s _, fun i hi hi' => ?_⟩
    rw [size_add] at hi'
    rw [Nat.le_antisymm (Nat.le_of_lt_succ hi') hi]
    exact ⟨_, object?_add_new s _, rfl⟩

theorem Ready.direct_of_idle (h : s.Idle type t) (hd : s.Direct k type c parts) :
    t.Direct k type c parts := by
  unfold Direct
  rwa [(hs.unchanged_of_idle h).trace, h.expands.inherited_iff]

end Ready

section Sprout
variable (hs : s.Ready k type)
include hs

theorem Ready.sprout_scope (hn : s.bound? k .scope n = none) :
    s.Sprout k type .scope n
      ((s.add (.ofForm (.namespaceOf type))).2.setGlobal k n (.object s.objects.size)) where
  takes := rfl
  apart := fun ⟨i, hi, _⟩ => Site.noConfusion hi
  free := hn
  bound := bound?_setGlobal_self hs.scope n _
  unchanged d m hdm := by
    have hk : k < (s.add (.ofForm (.namespaceOf type))).2.scopes.size := hs.scope
    rw [bound?_setGlobal_ne hk _ hdm, (hs.unchanged_of_idle (Or.inr rfl)).bindings]
  forms := extends_add s _
  new := ⟨_, object?_add_new s _, rfl⟩
  size := size_add s _
  scopes := size_scopes_setGlobal ..
  scope j hj := scope_setGlobal_ne _ hj n _

theorem Ready.sprout_member {o : Object} (ho : s.object? i = some o)
    (hform : ∀ message, o.form ≠ .guarded message)
    (hn : s.bound? k (.value (.object i)) n = none)
    (hinherited : ¬ s.Inherited type (.value (.object i))) :
    s.Sprout k type (.value (.object i)) n
      ((s.add (.ofForm (.namespaceOf type))).2.withMember i n (.object s.objects.size)) where
  takes := ⟨o, ho, hform⟩
  apart := hinherited
  free := hn
  bound := bound?_withMember_self (object?_add ho _) n _
  unchanged d m hdm := by
    have hidle : s.Idle type (s.add (.ofForm (.namespaceOf type))).2 := Or.inr rfl
    rw [bound?_withMember_ne _ hdm, (hs.unchanged_of_idle hidle).bindings]
    intro j p hp hparent
    exact hinherited (hidle.expands.inherited_iff.mp ⟨i, rfl, Or.inr ⟨j, p, hp, hparent⟩⟩)
  forms := (extends_add s _).trans (extends_withMember _ i n _)
  new := (extends_withMember _ i n _).hasForm ⟨_, object?_add_new s _, rfl⟩
  size := (size_withMember _ i n _).trans (size_add s _)
  scopes := rfl
  scope _ _ := rfl

end Sprout

end Store

namespace Run
open Store
variable {s t : Store} {k : ScopeId} {type : ObjectId} {c : Site} {n name : String}
  {parts : List String} {v w : Value} {allowTop : Bool}

/-- What declaring one part can do. -/
inductive Declares (k : ScopeId) (type : ObjectId) (allowTop : Bool) (c : Site) (n : String)
    (s : Store) : Except Fault Value × Store → Prop where
  | found {v : Value} (bound : s.bound? k c n = some v) : Declares k type allowTop c n s (.ok v, s)
  | made {t : Store} (takes : s.Takes allowTop c) (sprout : s.Sprout k type c n t) :
    Declares k type allowTop c n s (.ok (.object s.objects.size), t)
  | refused {e : Fault} {t : Store} (free : s.bound? k c n = none) (closed : ¬ s.Takes allowTop c)
    (idle : s.Idle type t) : Declares k type allowTop c n s (.error e, t)

/-- What declaring all parts of a name can do. -/
inductive Provides (k : ScopeId) (type : ObjectId) (allowTop : Bool) (c : Site)
    (parts : List String) (s : Store) : Except Fault Value × Store → Prop where
  | declared {v : Value} {t : Store} (declarable : s.Declarable k allowTop c parts)
    (branch : Branch k type (s.trace k c parts).1 (s.trace k c parts).2 s t)
    (leads : t.trace k c parts = (.value v, [])) : Provides k type allowTop c parts s (.ok v, t)
  | refused {e : Fault} {t : Store} (undeclarable : ¬ s.Declarable k allowTop c parts)
    (idle : s.Idle type t) : Provides k type allowTop c parts s (.error e, t)

section Declare

theorem refusal_of_not_guarded {form : Form} (hform : ∀ message, form ≠ .guarded message)
    (n : String) : ∃ owner, form.refusal n = .missingMember owner n := by
  cases form with
  | guarded message => exact absurd rfl (hform message)
  | _ => exact ⟨_, rfl⟩

theorem on_member (v : Value) (n : String) (s : Store) :
    on (member v n) s = (s.member v n, s) := by
  unfold member
  rw [on_bind, on_get]
  exact on_ofExcept _ s

theorem on_setMember_object (i : ObjectId) (n : String) (v : Value) (s : Store) :
    on (setMember (.object i) n v) s = (.ok (), s.withMember i n v) := on_setMember ..

theorem bound?_of_object {i : ObjectId} {o : Object} (ho : s.object? i = some o) (n : String) :
    s.bound? k (.value (.object i)) n = s.member? o n := by
  unfold bound? objectOf?
  dsimp only
  rw [ho]
  rfl

theorem dotted_ne_nil (name : String) : Text.dotted name ≠ [] := by
  rw [Text.dotted, Ne, List.map_eq_nil_iff]
  exact Text.splitAt_ne_nil _ _

variable (hs : s.Ready k type)
include hs

theorem on_newNamespace : on (newNamespace k) s =
    (.ok (.object s.objects.size), (s.add (.ofForm (.namespaceOf type))).2) := by
  obtain ⟨o, ho, hform⟩ := hs.form
  unfold newNamespace
  rw [on_bind_ok (on_global_of_some hs.named), on_bind, on_get]
  dsimp only
  rw [ho]
  dsimp only
  rw [hform]
  rfl

theorem declares_top (allowTop : Bool) (n : String) :
    Declares k type allowTop .scope n s (on (declareTop k n allowTop) s) := by
  unfold declareTop
  rw [on_bind, on_global?]
  dsimp only
  cases hn : (s.scope k).get? n with
  | some v => exact .found hn
  | none =>
    cases allowTop with
    | false => exact .refused hn nofun (Or.inl rfl)
    | true =>
      change Declares k type true .scope n s
        (on (newNamespace k >>= fun v => setGlobal k n v >>= fun _ => pure v) s)
      rw [on_bind_ok (on_newNamespace hs)]
      exact .made rfl (hs.sprout_scope hn)

theorem on_declare_missing {owner : String} (hm : s.member v n = .error (.missingMember owner n)) :
    on (declare k v n) s = on (do setMember v n (.object s.objects.size); member v n)
      (s.add (.ofForm (.namespaceOf type))).2 := by
  unfold declare
  rw [on_bind, on_member?, hm]
  dsimp only
  rw [on_bind_ok (on_newNamespace hs)]

theorem declares_missing {o : Object} (ho : s.object? i = some o)
    (hn : s.bound? k (.value (.object i)) n = none)
    (hinherited : ¬ s.Inherited type (.value (.object i))) (allowTop : Bool) :
    Declares k type allowTop (.value (.object i)) n s (on (declare k (.object i) n) s) := by
  have hmember : s.member (.object i) n = .error (o.form.refusal n) := by
    rw [member_object ho, ← bound?_of_object (k := k) ho, hn]
  by_cases hform : ∀ message, o.form ≠ .guarded message
  · obtain ⟨owner, hrefusal⟩ := refusal_of_not_guarded hform n
    have hsprout := hs.sprout_member ho hform hn hinherited
    obtain ⟨p, hp, -⟩ := hsprout.forms i o ho
    have hget := member_object hp n
    rw [← bound?_of_object (k := k) hp, hsprout.bound] at hget
    rw [on_declare_missing hs (hmember.trans (congrArg _ hrefusal)),
      on_bind_ok (on_setMember_object ..), on_member, hget]
    exact .made ⟨o, ho, hform⟩ hsprout
  · rw [not_forall] at hform
    obtain ⟨message, hform⟩ := hform
    rw [not_not] at hform
    have hrefused : on (declare k (.object i) n) s =
        (.error (.raised "ValueError" message), s) := by
      unfold declare
      rw [on_bind, on_member?, hmember, hform]
      rfl
    rw [hrefused]
    refine .refused hn ?_ (Or.inl rfl)
    rintro ⟨p, hp, hguarded⟩
    obtain rfl := Option.some.inj (ho.symm.trans hp)
    exact hguarded message hform

/-- A part that is missing is declared, unless it is missing in something that takes no members. -/
theorem declares_member (hv : s.Held (.value v)) (allowTop : Bool) (n : String)
    (hinherited : s.bound? k (.value v) n = none → ¬ s.Inherited type (.value v)) :
    Declares k type allowTop (.value v) n s (on (declare k v n) s) := by
  cases v with
  | object i =>
    obtain ⟨o, ho⟩ := exists_object (hv i rfl)
    cases hn : s.bound? k (.value (.object i)) n with
    | some w =>
      have hfound : on (declare k (.object i) n) s = (.ok w, s) := by
        unfold declare
        rw [on_bind, on_member?, member_object ho, ← bound?_of_object (k := k) ho, hn]
        rfl
      rw [hfound]
      exact .found hn
    | none => exact declares_missing hs ho hn (hinherited hn) allowTop
  | _ =>
    rw [on_declare_missing hs rfl]
    exact .refused rfl (fun ⟨_, hp, _⟩ => nomatch hp) (Or.inr rfl)

theorem Declares.provides {m : Run Value} (h : Declares k type allowTop c n s (on m s))
    (hdirect : s.Direct k type c (n :: parts))
    (hrest : ∀ v t, t.Ready k type → t.Held (.value v) → t.Direct k type (.value v) parts →
      Provides k type allowTop (.value v) parts t (on (parts.foldlM (declare k) v) t)) :
    Provides k type allowTop c (n :: parts) s
      (on (m >>= fun v => parts.foldlM (declare k) v) s) := by
  rw [on_bind]
  generalize on m s = result at h
  cases h with
  | @found v hbound =>
    have hv : s.Held (.value v) := fun i hi => hs.closed c n i (Site.value.inj hi ▸ hbound)
    have htrace := trace_cons_of_bound hbound parts
    dsimp only
    generalize hresult : on (parts.foldlM (declare k) v) s = result at *
    rw [Direct, htrace] at hdirect
    cases hresult ▸ hrest v s hs hv hdirect with
    | declared declarable branch leads =>
      refine .declared ?_ ?_ ?_
      · rwa [Declarable, htrace]
      · rwa [htrace]
      · rw [trace_cons_of_bound (branch.kept hbound), leads]
    | refused undeclarable idle =>
      refine .refused ?_ idle
      rwa [Declarable, htrace]
  | @made t takes sprout =>
    have htrace := trace_cons_of_free sprout.free parts
    have hfresh := trace_of_free sprout.bound?_new parts
    have htakes : t.Takes allowTop (.value (.object s.objects.size)) :=
      takes_of_namespace sprout.new
    dsimp only
    generalize hresult : on (parts.foldlM (declare k) (.object s.objects.size)) t = result at *
    have hnew : t.Direct k type (.value (.object s.objects.size)) parts := by
      rw [Direct, hfresh, sprout.expands.inherited_iff]
      exact Or.inr (hs.rooted.not_inherited hs.type_lt)
    cases hresult ▸ hrest _ t (sprout.branch.ready hs) htakes.held hnew with
    | declared declarable branch leads =>
      rw [hfresh] at branch
      refine .declared ?_ ?_ ?_
      · rw [Declarable, htrace]
        exact Or.inr takes
      · rw [htrace]
        exact .cons sprout branch
      · rw [trace_cons_of_bound (branch.kept sprout.bound), leads]
    | refused undeclarable _ =>
      refine absurd (Or.inr ?_) undeclarable
      rwa [hfresh]
  | refused free closed idle =>
    refine .refused ?_ idle
    rw [Declarable, trace_cons_of_free free]
    rintro (hnil | htakes)
    · cases hnil
    · exact closed htakes

omit hs in
theorem provides_foldlM (parts : List String) (hs : s.Ready k type) (hv : s.Held (.value v))
    (hdirect : s.Direct k type (.value v) parts) :
    Provides k type allowTop (.value v) parts s (on (parts.foldlM (declare k) v) s) := by
  induction parts generalizing v s with
  | nil => exact .declared (Or.inl rfl) (.nil _ _) rfl
  | cons n parts ih =>
    rw [List.foldlM_cons]
    refine (declares_member hs hv allowTop n fun hn => ?_).provides hs hdirect
      fun w t ht hw hd => ih ht hw hd
    rw [Direct, trace_cons_of_free hn] at hdirect
    exact hdirect.resolve_left (List.cons_ne_nil n parts)

theorem provides (allowTop : Bool) (hname : s.Direct k type .scope (Text.dotted name)) :
    Provides k type allowTop .scope (Text.dotted name) s (on (provide k name allowTop) s) := by
  unfold provide
  split
  · next hnil => exact absurd hnil (dotted_ne_nil name)
  · next head parts hsplit =>
    rw [hsplit] at hname ⊢
    exact (declares_top hs allowTop head).provides hs hname fun w t ht hw hd =>
      provides_foldlM parts ht hw hd

end Declare

section Support

theorem on_bindObject (k : ScopeId) (n : String) (o : Object) (s : Store) :
    on (bindObject k n o) s = (.ok (), (s.add o).2.setGlobal k n (.object s.objects.size)) := rfl

theorem held_add (s : Store) (o : Object) : (s.add o).2.Held (.value (.object s.objects.size)) := by
  intro i hi
  rw [← Value.object.inj (Site.value.inj hi), size_add]
  exact Nat.lt_succ_self _

theorem ready_bindObject (hs : s.Ready k type) (hn : n ≠ "Namespace") {form : Form}
    (hform : ∀ p, form.parent? = some p → p = type) :
    (on (bindObject k n (.ofForm form)) s).2.Ready k type := by
  rw [on_bindObject]
  exact (hs.add hform).setGlobal hn (held_add s _)

theorem ready_bindRoutines {routines : List Routine} (hs : s.Ready k type)
    (hnames : ∀ r ∈ routines, r.name ≠ "Namespace") :
    (on (bindRoutines k routines) s).2.Ready k type := by
  induction routines generalizing s with
  | nil => exact hs
  | cons r routines ih =>
    obtain ⟨hr, hroutines⟩ := List.forall_mem_cons.mp hnames
    unfold bindRoutines
    rw [on_forM_cons, on_bindObject]
    exact ih (ready_bindObject hs hr nofun) hroutines

/-- The support code makes a scope ready for declarations. -/
theorem ready_installNames (hk : k < s.scopes.size) (hs : s.Closed k) (hroots : s.Rooted) :
    (on (installNames k) s).2.Ready k s.objects.size := by
  have hscope : k < (s.add (.ofForm .namespaceType)).2.scopes.size := hk
  have hadd : s.Unchanged (s.add (.ofForm .namespaceType)).2 := unchanged_add nofun
  unfold installNames
  rw [on_bind_ok (on_bindObject ..)]
  refine ready_bindRoutines ⟨?_, ?_, ⟨_, object?_add_new s _, rfl⟩, fun n => ?_, ?_, ?_⟩
    (by decide)
  · rw [size_scopes_setGlobal]
    exact hscope
  · exact bound?_setGlobal_self hscope "Namespace" _
  · exact (hadd.bindings k _ n).trans (bound?_fresh s k n)
  · exact (hadd.closed hs).setGlobal hscope "Namespace" (held_add s _)
  · intro i o type ho hparent
    rcases object?_add_cases ho with hold | ⟨-, rfl⟩
    · exact Nat.lt_of_lt_of_le (hroots i o type hold hparent) hadd.extends.size
    · cases hparent

end Support

section Lookup
open Context

theorem member_ok_iff : s.member v n = .ok w ↔ s.bound? k (.value v) n = some w :=
  member_eq_ok_iff.trans Option.bind_eq_some_iff.symm

theorem descend_of_bound (h : s.bound? k (.value v) n = some w) : descend s v n = .ok w := by
  have hmember := member_ok_iff.mpr h
  have hnull : v.isNull = false := by
    cases v with
    | null => cases h
    | _ => rfl
  rw [descend, if_neg (by simp [hnull]), memberOrNull, hmember]

theorem bound_of_descend (h : descend s v n = .ok w) (hw : w.isNull = false) :
    s.bound? k (.value v) n = some w := by
  unfold descend memberOrNull at h
  split at h
  · obtain rfl := Except.ok.inj h
    cases hw
  · split at h
    · obtain rfl := Except.ok.inj h
      cases hw
    · exact member_ok_iff.mp h

theorem foldlM_descend_of_trace (h : s.trace k (.value v) parts = (.value w, [])) :
    parts.foldlM (descend s) v = .ok w := by
  induction parts generalizing v with
  | nil =>
    obtain rfl := Site.value.inj (Prod.mk.inj h).1
    rfl
  | cons n parts ih =>
    cases hb : s.bound? k (.value v) n with
    | none => cases (trace_cons_of_free hb parts).symm.trans h
    | some x =>
      rw [trace_cons_of_bound hb] at h
      rw [List.foldlM_cons, descend_of_bound hb]
      exact ih h

theorem trace_of_foldlM_descend (h : parts.foldlM (descend s) v = .ok w) (hw : w.isNull = false) :
    s.trace k (.value v) parts = (.value w, []) := by
  induction parts generalizing v with
  | nil =>
    obtain rfl := Except.ok.inj h
    rfl
  | cons n parts ih =>
    rw [List.foldlM_cons] at h
    cases hd : descend s v n with
    | error f =>
      rw [hd] at h
      cases h
    | ok x =>
      rw [hd] at h
      cases hnull : x.isNull with
      | true =>
        -- Nothing is found behind null.
        obtain rfl : x = .null := by
          cases x with
          | null => rfl
          | _ => cases hnull
        obtain rfl := Except.ok.inj ((foldlM_descend_null s parts).symm.trans h)
        cases hw
      | false =>
        rw [trace_cons_of_bound (bound_of_descend hd hnull)]
        exact ih h

/-- A lookup gives what the parts of its name lead to. -/
theorem on_lookup_of_trace (h : s.trace k .scope (Text.dotted name) = (.value w, [])) :
    on (lookup k name) s = (.ok w, s) := by
  obtain ⟨head, parts, hname⟩ := List.exists_cons_of_ne_nil (dotted_ne_nil name)
  rw [on_lookup hname]
  rw [hname] at h
  cases hb : s.bound? k .scope head with
  | none => cases (trace_cons_of_free hb parts).symm.trans h
  | some x =>
    have hget : (s.scope k).get? head = some x := hb
    rw [trace_cons_of_bound hb] at h
    rw [hget, Option.getD_some, foldlM_descend_of_trace h]

theorem trace_of_lookup (h : (on (lookup k name) s).1 = .ok w) (hw : w.isNull = false) :
    s.trace k .scope (Text.dotted name) = (.value w, []) := by
  obtain ⟨head, parts, hname⟩ := List.exists_cons_of_ne_nil (dotted_ne_nil name)
  rw [on_lookup hname] at h
  rw [hname]
  cases hb : (s.scope k).get? head with
  | none =>
    rw [hb, Option.getD_none, foldlM_descend_null] at h
    obtain rfl := Except.ok.inj h
    cases hw
  | some x =>
    rw [hb] at h
    have hbound : s.bound? k .scope head = some x := hb
    rw [trace_cons_of_bound hbound]
    exact trace_of_foldlM_descend h hw

end Lookup

def Resolves (k : ScopeId) (name : String) (s : Store) : Prop :=
  ∃ v, v.isNull = false ∧ (on (lookup k name) s).1 = .ok v

instance (k : ScopeId) (name : String) (s : Store) : Decidable (Resolves k name s) :=
  decidable_of_iff ((on (lookup k name) s).1.toOption.any (!·.isNull) = true) <| by
    unfold Resolves
    cases (on (lookup k name) s).1 <;> simp [Except.toOption]

def Accepts (k : ScopeId) (name : String) (s : Store) : Prop :=
  ∃ v, (on (provide k name true) s).1 = .ok v

/-- What declarations leave, one after the other; those that fail are passed over. -/
def declareAll (k : ScopeId) (names : List String) (s : Store) : Store :=
  names.foldl (fun s name => (on (provide k name true) s).2) s

section Order

theorem resolves_iff : Resolves k name s ↔ s.Leads k (Text.dotted name) := by
  refine exists_congr fun v => and_congr_right fun hv =>
    ⟨fun h => trace_of_lookup h hv, fun h => ?_⟩
  rw [on_lookup_of_trace h]

variable (hs : s.Ready k type) (hname : s.Direct k type .scope (Text.dotted name))
include hs hname

theorem accepts_iff : Accepts k name s ↔ s.Declarable k true .scope (Text.dotted name) := by
  have hprovides := provides hs true hname
  unfold Accepts
  generalize on (provide k name true) s = result at hprovides
  cases hprovides with
  | declared declarable _ _ => exact iff_of_true ⟨_, rfl⟩ declarable
  | refused undeclarable _ => exact iff_of_false nofun undeclarable

theorem declared_cases :
    (s.Declarable k true .scope (Text.dotted name) ∧ Branch k type
      (s.trace k .scope (Text.dotted name)).1 (s.trace k .scope (Text.dotted name)).2 s
      (on (provide k name true) s).2) ∨
    (¬ s.Declarable k true .scope (Text.dotted name) ∧
      s.Idle type (on (provide k name true) s).2) := by
  have hprovides := provides hs true hname
  generalize on (provide k name true) s = result at hprovides ⊢
  cases hprovides with
  | declared declarable branch _ => exact Or.inl ⟨declarable, branch⟩
  | refused undeclarable idle => exact Or.inr ⟨undeclarable, idle⟩

theorem ready_provide : (on (provide k name true) s).2.Ready k type := by
  rcases declared_cases hs hname with ⟨-, branch⟩ | ⟨-, idle⟩
  · exact branch.ready hs
  · exact hs.ready_of_idle idle

/-- A declaration leaves nothing to be declared in a type that was not there before. -/
theorem direct_provide (hd : s.Direct k type .scope parts) :
    (on (provide k name true) s).2.Direct k type .scope parts := by
  rcases declared_cases hs hname with ⟨-, branch⟩ | ⟨-, idle⟩
  · exact branch.direct hs.rooted hs.type_lt hd
  · exact hs.direct_of_idle idle hd

theorem declarable_provide (parts : List String) :
    (on (provide k name true) s).2.Declarable k true .scope parts ↔
      s.Declarable k true .scope parts := by
  rcases declared_cases hs hname with ⟨-, branch⟩ | ⟨-, idle⟩
  · exact branch.declarable_iff hs.closed parts
  · rw [Declarable, (hs.unchanged_of_idle idle).trace, takes_iff idle.expands.forms
      (held_trace hs.closed (held_scope s) parts), Declarable]

theorem leads_provide (parts : List String) :
    (on (provide k name true) s).2.Leads k parts ↔ s.Leads k parts ∨
      s.Declarable k true .scope (Text.dotted name) ∧ s.Awaits k parts (Text.dotted name) := by
  rcases declared_cases hs hname with ⟨declarable, branch⟩ | ⟨undeclarable, idle⟩
  · rw [branch.leads_iff hs.closed]
    exact or_congr_right ⟨fun h => ⟨declarable, h.2.1, h.1, h.2.2⟩,
      fun h => ⟨h.2.site, h.2.missing, h.2.ahead⟩⟩
  · rw [Leads, (hs.unchanged_of_idle idle).trace]
    exact ⟨Or.inl, fun h => h.resolve_right fun h => undeclarable h.1⟩

theorem awaits_of_provide {other : List String}
    (h : (on (provide k name true) s).2.Awaits k parts other) : s.Awaits k parts other := by
  rcases declared_cases hs hname with ⟨-, branch⟩ | ⟨-, idle⟩
  · exact branch.awaits_of hs.closed h
  · have htrace := (hs.unchanged_of_idle idle).trace (k := k)
    exact (awaits_congr (htrace ..) (htrace ..)).mp h

theorem awaits_provide {other : List String} (h : s.Awaits k parts other) :
    (on (provide k name true) s).2.Awaits k parts other ∨
      (on (provide k name true) s).2.Leads k parts := by
  rcases declared_cases hs hname with ⟨-, branch⟩ | ⟨-, idle⟩
  · exact branch.awaits hs.closed h
  · have htrace := (hs.unchanged_of_idle idle).trace (k := k)
    exact Or.inl ((awaits_congr (htrace ..) (htrace ..)).mpr h)

omit hs hname in
theorem accepts_declareAll (hs : s.Ready k type) {names : List String}
    (hnames : ∀ n ∈ names, s.Direct k type .scope (Text.dotted n))
    (hname : s.Direct k type .scope (Text.dotted name)) :
    Accepts k name (declareAll k names s) ↔ Accepts k name s := by
  induction names generalizing s with
  | nil => rfl
  | cons first names ih =>
    obtain ⟨hfirst, hnames⟩ := List.forall_mem_cons.mp hnames
    have ht := ready_provide hs hfirst
    have hname' := direct_provide hs hfirst hname
    have hrest : Accepts k name (declareAll k (first :: names) s) ↔
        Accepts k name (on (provide k first true) s).2 :=
      ih ht (fun n hn => direct_provide hs hfirst (hnames n hn)) hname'
    rw [hrest, accepts_iff ht hname', accepts_iff hs hname]
    exact declarable_provide hs hfirst _

omit hs hname in
/-- In the end those names stand for something that wait for one that can be declared. -/
theorem leads_declareAll (hs : s.Ready k type) {names : List String}
    (hnames : ∀ n ∈ names, s.Direct k type .scope (Text.dotted n)) (parts : List String) :
    (declareAll k names s).Leads k parts ↔ s.Leads k parts ∨ ∃ name ∈ names,
      s.Declarable k true .scope (Text.dotted name) ∧ s.Awaits k parts (Text.dotted name) := by
  induction names generalizing s with
  | nil => simp [declareAll]
  | cons first names ih =>
    obtain ⟨hfirst, hnames⟩ := List.forall_mem_cons.mp hnames
    have hrest := ih (ready_provide hs hfirst) fun n hn => direct_provide hs hfirst (hnames n hn)
    change (declareAll k names (on (provide k first true) s).2).Leads k parts ↔ _
    rw [hrest, leads_provide hs hfirst, List.exists_mem_cons_iff]
    constructor
    · rintro ((h | h) | ⟨name, hname, hdeclarable, hawaits⟩)
      · exact Or.inl h
      · exact Or.inr (Or.inl h)
      · exact Or.inr (Or.inr ⟨name, hname, (declarable_provide hs hfirst _).mp hdeclarable,
          awaits_of_provide hs hfirst hawaits⟩)
    · rintro (h | h | ⟨name, hname, hdeclarable, hawaits⟩)
      · exact Or.inl (Or.inl h)
      · exact Or.inl (Or.inr h)
      · -- The first declaration has made it stand for something, or it waits still.
        rcases awaits_provide hs hfirst hawaits with hawaits | hleads
        · exact Or.inr ⟨name, hname, (declarable_provide hs hfirst _).mpr hdeclarable, hawaits⟩
        · exact Or.inl ((leads_provide hs hfirst parts).mp hleads)

end Order

section Provide
variable (hs : s.Ready k type) (hname : s.Direct k type .scope (Text.dotted name))
include hs hname

theorem unchanged_of_provide_error {e : Fault}
    (h : on (provide k name allowTop) s = (.error e, t)) : s.Unchanged t := by
  cases h ▸ provides hs allowTop hname with
  | refused _ idle => exact hs.unchanged_of_idle idle

theorem provide_ok (h : on (provide k name allowTop) s = (.ok v, t)) :
    Branch k type (s.trace k .scope (Text.dotted name)).1
      (s.trace k .scope (Text.dotted name)).2 s t ∧
      t.trace k .scope (Text.dotted name) = (.value v, []) := by
  cases h ▸ provides hs allowTop hname with
  | declared _ branch leads => exact ⟨branch, leads⟩

omit hs hname in
/-- Where all of a name is bound, there is nothing to declare. -/
theorem on_provide_of_trace (hs : s.Ready k type)
    (h : s.trace k .scope (Text.dotted name) = (.value v, [])) (allowTop : Bool) :
    on (provide k name allowTop) s = (.ok v, s) := by
  have hname : s.Direct k type .scope (Text.dotted name) := by
    refine Or.inl ?_
    rw [h]
  have hprovides := provides hs allowTop hname
  generalize on (provide k name allowTop) s = result at hprovides ⊢
  cases hprovides with
  | declared declarable branch leads =>
    rw [h] at branch
    cases branch with
    | nil =>
      obtain rfl := Site.value.inj (Prod.mk.inj (h.symm.trans leads)).1
      rfl
  | refused undeclarable _ =>
    refine absurd (Or.inl ?_) undeclarable
    rw [h]

/-- **Declarations are atomic, additive, idempotent and independent of their order.** One that fails
changes nothing. One that succeeds gives what its name stands for from then on, keeps what all names
stood for, adds namespaces along its name and nothing else, and changes nothing a second time.
Whether a name can be declared does not depend on what has been declared before, and which names
stand for something after several declarations does not depend on their order. The names are those
of which nothing is missing in a type that others inherit from. -/
theorem provide_spec (allowTop : Bool) :
    (∀ e t, on (provide k name allowTop) s = (.error e, t) → s.Unchanged t) ∧
    (∀ v t, on (provide k name allowTop) s = (.ok v, t) →
      on (lookup k name) t = (.ok v, t) ∧
      (∀ other w, w.isNull = false → (on (lookup k other) s).1 = .ok w →
        on (lookup k other) t = (.ok w, t)) ∧
      Enlarged k type (Text.dotted name) s t ∧
      ∀ again, on (provide k name again) t = (.ok v, t)) ∧
    (∀ before, (∀ n ∈ before, s.Direct k type .scope (Text.dotted n)) →
      (Accepts k name (declareAll k before s) ↔ Accepts k name s)) ∧
    ∀ names names', (∀ n ∈ names, s.Direct k type .scope (Text.dotted n)) →
      (∀ n, n ∈ names ↔ n ∈ names') → ∀ other,
      Resolves k other (declareAll k names s) ↔ Resolves k other (declareAll k names' s) := by
  refine ⟨fun e t h => unchanged_of_provide_error hs hname h, fun v t h => ?_,
    fun before hbefore => accepts_declareAll hs hbefore hname,
    fun names names' hnames hsame other => ?_⟩
  · obtain ⟨branch, leads⟩ := provide_ok hs hname h
    refine ⟨on_lookup_of_trace leads, fun other w hw hother => ?_, branch.enlarged,
      on_provide_of_trace (branch.ready hs) leads⟩
    exact on_lookup_of_trace (trace_of_kept (fun _ _ _ => branch.kept) (trace_of_lookup hother hw))
  · have hnames' (n : String) (hn : n ∈ names') := hnames n ((hsame n).mpr hn)
    rw [resolves_iff, resolves_iff, leads_declareAll hs hnames, leads_declareAll hs hnames']
    simp only [hsame]

end Provide

section Sample

/-- What the support code leaves of an empty store, and a number. -/
def sampleStore : Store := (on (installNames 0) ⟨#[], #[.empty]⟩).2.setGlobal 0 "limit" (.int 3)

theorem ready_sampleStore : sampleStore.Ready 0 0 := by
  have hempty : Store.Closed ⟨#[], #[.empty]⟩ 0 := by
    intro c n i hi
    cases c with
    | scope => cases hi
    | value v => cases v <;> cases hi
  have hroots : Store.Rooted ⟨#[], #[.empty]⟩ := fun _ _ _ ho => absurd ho nofun
  exact (ready_installNames Nat.one_pos hempty hroots).setGlobal (by decide) nofun

theorem parent_sampleStore {i : ObjectId} {o : Object} (ho : sampleStore.object? i = some o) :
    o.form.parent? = none := by
  match i, Store.lt_of_object? ho with
  | 0, _ | 1, _ | 2, _ =>
    cases ho
    rfl

theorem provide_spec_sampleStore :
    (∃ v t, on (provide 0 "app.views" true) sampleStore = (.ok v, t) ∧
      on (lookup 0 "app.views") t = (.ok v, t) ∧ on (provide 0 "app.views" false) t = (.ok v, t)) ∧
    (∃ e t, on (provide 0 "limit.x" true) sampleStore = (.error e, t) ∧
      sampleStore.Unchanged t) ∧
    ∀ other, Resolves 0 other (declareAll 0 ["app.views", "limit.x", "provide.x"] sampleStore) ↔
      Resolves 0 other (declareAll 0 ["limit.x", "provide.x", "app.views"] sampleStore) := by
  have hready := ready_sampleStore
  have happ : sampleStore.trace 0 .scope (Text.dotted "app.views") = (.scope, ["app", "views"]) :=
    rfl
  have hlimit : sampleStore.trace 0 .scope (Text.dotted "limit.x") = (.value (.int 3), ["x"]) := rfl
  have hprovide : sampleStore.trace 0 .scope (Text.dotted "provide.x") =
    (.value (.object 1), ["x"]) := rfl
  have hdirect : ∀ n ∈ ["app.views", "limit.x", "provide.x"],
      sampleStore.Direct 0 0 .scope (Text.dotted n) := by
    refine List.forall_mem_cons.mpr ⟨Or.inr ?_, List.forall_mem_cons.mpr ⟨Or.inr ?_,
      List.forall_mem_singleton.mpr (Or.inr ?_)⟩⟩
    · rw [happ]
      rintro ⟨i, hi, -⟩
      cases hi
    · rw [hlimit]
      rintro ⟨i, hi, -⟩
      cases hi
    · rw [hprovide]
      rintro ⟨i, hi, heq | ⟨j, o, ho, hparent⟩⟩
      · cases hi
        cases heq
      · cases (parent_sampleStore ho).symm.trans hparent
  obtain ⟨-, hmade, -, horder⟩ := provide_spec hready (hdirect "app.views" (by simp)) true
  obtain ⟨hfailed, -⟩ := provide_spec hready (hdirect "limit.x" (by simp)) true
  have hopen : Accepts 0 "app.views" sampleStore := by
    rw [accepts_iff hready (hdirect "app.views" (by simp)), Declarable, happ]
    exact Or.inr rfl
  have hshut : ¬ Accepts 0 "limit.x" sampleStore := by
    rw [accepts_iff hready (hdirect "limit.x" (by simp)), Declarable, hlimit]
    rintro (hnil | ⟨o, ho, -⟩)
    · cases hnil
    · cases ho
  rcases hrun : on (provide 0 "app.views" true) sampleStore with ⟨q, t⟩
  rcases hrun' : on (provide 0 "limit.x" true) sampleStore with ⟨q', t'⟩
  obtain ⟨v, hv⟩ := hopen
  obtain rfl : q = .ok v := (congrArg Prod.fst hrun).symm.trans hv
  obtain ⟨hlookup, -, -, hagain⟩ := hmade v t hrun
  refine ⟨⟨v, t, rfl, hlookup, hagain false⟩, ?_,
    horder _ _ hdirect fun n => by simp [or_comm, or_left_comm]⟩
  cases q' with
  | ok w => exact absurd ⟨w, congrArg Prod.fst hrun'⟩ hshut
  | error e => exact ⟨e, t', rfl, hfailed e t' hrun'⟩

/-- The sample, with a number that all namespaces inherit. -/
def limitedStore : Store := sampleStore.withMember 0 "limit" (.int 3)

/-- Where namespaces inherit from their type, a declaration can fail after it has bound a name, and
what names stand for depends on whether they have been declared in the type before. -/
theorem provide_inherited :
    (∃ e t, on (provide 0 "foo.limit.x" true) limitedStore = (.error e, t) ∧
      ¬ Resolves 0 "foo" limitedStore ∧ Resolves 0 "foo" t) ∧
    Resolves 0 "Namespace.x.y" (declareAll 0 ["Namespace.x", "foo.x.y"] sampleStore) ∧
    ¬ Resolves 0 "Namespace.x.y" (declareAll 0 ["foo.x.y", "Namespace.x"] sampleStore) := by
  have hfails : (on (provide 0 "foo.limit.x" true) limitedStore).1.isOk = false := by
    decide +kernel
  have hbound : Resolves 0 "foo" (on (provide 0 "foo.limit.x" true) limitedStore).2 := by
    decide +kernel
  refine ⟨?_, by decide +kernel, by decide +kernel⟩
  rcases hrun : on (provide 0 "foo.limit.x" true) limitedStore with ⟨q | v, t⟩
  · rw [hrun] at hbound
    exact ⟨q, t, rfl, by decide +kernel, hbound⟩
  · rw [hrun] at hfails
    cases hfails

end Sample

end Run

end TemplateHost
