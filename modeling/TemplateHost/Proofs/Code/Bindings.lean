import Mathlib.Data.List.Infix
import TemplateHost.Proofs.Code.Store

/-!
# Where names lead

A name leads from the scope through members as far as its parts are bound. A sprout is a new
namespace bound where a part was missing, a branch is one sprout on the other. Names whose next part
is missing elsewhere lead where they led before: nothing sprouts in types, from which objects would
inherit it.
-/
namespace TemplateHost

/-- Where a name can be bound: in the scope, or as a member of a value. -/
inductive Site where
  | scope
  | value (v : Value)

namespace Store
variable {s t u : Store} {k : ScopeId} {type i : ObjectId} {c d : Site} {n m : String}
  {v w : Value} {parts other ws : List String}

def bound? (s : Store) (k : ScopeId) : Site → String → Option Value
  | .scope, n => (s.scope k).get? n
  | .value v, n => (s.objectOf? v).bind fun o => s.member? o n

/-- How far parts of a name lead: where the first missing one would be bound, and what is missing
from there on. -/
def trace (s : Store) (k : ScopeId) : Site → List String → Site × List String
  | c, [] => (c, [])
  | c, n :: r => match s.bound? k c n with
    | some v => s.trace k (.value v) r
    | none => (c, n :: r)

/-- The site is not a member of an object that is still to come. -/
def Held (s : Store) (c : Site) : Prop := ∀ i, c = .value (.object i) → i < s.objects.size

/-- No binding leads to an object that is still to come. -/
def Closed (s : Store) (k : ScopeId) : Prop :=
  ∀ c n i, s.bound? k c n = some (.object i) → i < s.objects.size

/-- Objects inherit what is bound at the site: some that there are, or namespaces of the type. -/
def Inherited (s : Store) (type : ObjectId) (c : Site) : Prop :=
  ∃ i, c = .value (.object i) ∧
    (i = type ∨ ∃ j o, s.object? j = some o ∧ o.form.parent? = some i)

/-- No type from which an object inherits is still to come. -/
def Rooted (s : Store) : Prop :=
  ∀ i o type, s.object? i = some o → o.form.parent? = some type → type < s.objects.size

/-- A missing name can be declared at the site. -/
def Takes (s : Store) (allowTop : Bool) : Site → Prop
  | .scope => allowTop = true
  | .value v => ∃ o, s.objectOf? v = some o ∧ ∀ message, o.form ≠ .guarded message

section Trace

theorem trace_cons_of_bound (h : s.bound? k c n = some v) (r : List String) :
    s.trace k c (n :: r) = s.trace k (.value v) r := by
  rw [trace, h]

theorem trace_cons_of_free (h : s.bound? k c n = none) (r : List String) :
    s.trace k c (n :: r) = (c, n :: r) := by
  rw [trace, h]

theorem trace_of_free (h : ∀ n, s.bound? k c n = none) (parts : List String) :
    s.trace k c parts = (c, parts) := by
  cases parts with
  | nil => rfl
  | cons n r => exact trace_cons_of_free (h n) r

theorem trace_append (h : s.trace k c parts = (d, [])) (r : List String) :
    s.trace k c (parts ++ r) = s.trace k d r := by
  induction parts generalizing c with
  | nil => cases h; rfl
  | cons n parts ih =>
    cases hb : s.bound? k c n with
    | none => cases (trace_cons_of_free hb parts).symm.trans h
    | some v =>
      rw [trace_cons_of_bound hb] at h
      rw [List.cons_append, trace_cons_of_bound hb]
      exact ih h

/-- The parts that are bound lead to where the others are missing. -/
theorem exists_trace (s : Store) (k : ScopeId) (c : Site) (parts : List String) :
    ∃ done, parts = done ++ (s.trace k c parts).2 ∧
      s.trace k c done = ((s.trace k c parts).1, []) := by
  induction parts generalizing c with
  | nil => exact ⟨[], rfl, rfl⟩
  | cons n parts ih =>
    cases hb : s.bound? k c n with
    | none =>
      rw [trace_cons_of_free hb]
      exact ⟨[], rfl, rfl⟩
    | some v =>
      obtain ⟨done, hparts, hdone⟩ := ih (.value v)
      rw [trace_cons_of_bound hb]
      refine ⟨n :: done, by rw [List.cons_append, ← hparts], ?_⟩
      rw [trace_cons_of_bound hb, hdone]

theorem held_trace (hs : s.Closed k) (hc : s.Held c) (parts : List String) :
    s.Held (s.trace k c parts).1 := by
  induction parts generalizing c with
  | nil => exact hc
  | cons n parts ih =>
    cases hb : s.bound? k c n with
    | none =>
      rw [trace_cons_of_free hb]
      exact hc
    | some v =>
      rw [trace_cons_of_bound hb]
      refine ih fun i hi => hs c n i ?_
      rw [hb, Site.value.inj hi]

theorem held_scope (s : Store) : s.Held .scope := nofun

theorem Closed.trace_ne (hs : s.Closed k) (parts : List String) :
    (s.trace k .scope parts).1 ≠ .value (.object s.objects.size) :=
  fun heq => Nat.lt_irrefl _ (held_trace hs (held_scope s) parts _ heq)

theorem trace_of_kept (h : ∀ c n v, s.bound? k c n = some v → t.bound? k c n = some v)
    (ht : s.trace k c parts = (d, [])) : t.trace k c parts = (d, []) := by
  induction parts generalizing c with
  | nil => exact ht
  | cons n parts ih =>
    cases hb : s.bound? k c n with
    | none => cases (trace_cons_of_free hb parts).symm.trans ht
    | some v =>
      rw [trace_cons_of_bound hb] at ht
      rw [trace_cons_of_bound (h c n v hb)]
      exact ih ht

theorem trace_congr (h : ∀ c n, t.bound? k c n = s.bound? k c n) (c : Site)
    (parts : List String) : t.trace k c parts = s.trace k c parts := by
  induction parts generalizing c with
  | nil => rfl
  | cons n parts ih =>
    unfold trace
    rw [h c n]
    cases s.bound? k c n with
    | none => rfl
    | some v => exact ih (.value v)

end Trace

section Bound

theorem exists_object (h : i < s.objects.size) : ∃ o, s.object? i = some o :=
  ⟨_, Array.getElem?_eq_getElem h⟩

theorem objectOf?_fresh (s : Store) : s.objectOf? (.object s.objects.size) = none :=
  Array.getElem?_eq_none le_rfl

theorem bound?_fresh (s : Store) (k : ScopeId) (n : String) :
    s.bound? k (.value (.object s.objects.size)) n = none := by
  rw [bound?, objectOf?_fresh]
  rfl

theorem bound?_object (s : Store) (k : ScopeId) (i : ObjectId) (n : String) :
    s.bound? k (.value (.object i)) n = (s.own? i n).or
      ((s.object? i).bind fun o => o.form.parent?.bind fun type => s.own? type n) := by
  unfold bound? objectOf? own? member?
  dsimp only
  cases s.object? i <;> rfl

/-- An object without members that inherits none binds nothing. -/
theorem bound?_add {form : Form}
    (hform : ∀ type n, form.parent? = some type → s.own? type n = none) (c : Site) (n : String) :
    (s.add (.ofForm form)).2.bound? k c n = s.bound? k c n := by
  cases c with
  | scope => rfl
  | value v =>
    cases v with
    | object i =>
      have hown (j : ObjectId) := own?_add s form j n
      rw [bound?_object, bound?_object, hown]
      cases ho : s.object? i with
      | some o =>
        rw [object?_add ho]
        simp only [Option.bind_some, hown]
      | none =>
        cases ho' : (s.add (.ofForm form)).2.object? i with
        | none => rfl
        | some o =>
          rcases object?_add_cases ho' with hold | ⟨-, rfl⟩
          · cases ho.symm.trans hold
          · simp only [Option.bind_some, hown]
            cases hparent : form.parent? with
            | none => simp [Object.ofForm, hparent]
            | some type => simp [Object.ofForm, hparent, hform type n hparent]
    | _ => rfl

theorem bound?_setGlobal_self (hk : k < s.scopes.size) (n : String) (v : Value) :
    (s.setGlobal k n v).bound? k .scope n = some v := by
  rw [bound?, scope_setGlobal hk, Table.get?_set_self]

theorem bound?_setGlobal_ne (hk : k < s.scopes.size) (v : Value)
    (h : c ≠ .scope ∨ m ≠ n) : (s.setGlobal k n v).bound? k c m = s.bound? k c m := by
  cases c with
  | scope =>
    rw [bound?, scope_setGlobal hk, Table.get?_set_ne _ (h.resolve_left fun h => h rfl)]
    rfl
  | value w => rfl

theorem bound?_withMember_self {o : Object} (ho : s.object? i = some o) (n : String) (v : Value) :
    (s.withMember i n v).bound? k (.value (.object i)) n = some v := by
  rw [bound?_object, own?_withMember_self ho]
  rfl

/-- A member that nothing inherits is a member of its owner alone. -/
theorem bound?_withMember_ne (v : Value) (h : c ≠ .value (.object i) ∨ m ≠ n)
    (hinherit : ∀ j o, s.object? j = some o → o.form.parent? ≠ some i) :
    (s.withMember i n v).bound? k c m = s.bound? k c m := by
  cases c with
  | scope => rfl
  | value w =>
    cases w with
    | object j =>
      have hj : j ≠ i ∨ m ≠ n := h.imp_left fun hne heq => hne (by rw [heq])
      rw [bound?_object, bound?_object, own?_withMember_ne s v hj]
      cases ho : s.object? j with
      | none =>
        rw [object?_withMember_eq_none ho]
        rfl
      | some o =>
        obtain ⟨p, hp, hform, -⟩ := object?_withMember ho i n v
        rw [hp]
        simp only [Option.bind_some, hform]
        cases hparent : o.form.parent? with
        | none => rfl
        | some type =>
          have htype : type ≠ i := fun heq => hinherit j o ho (heq ▸ hparent)
          simp only [Option.bind_some, own?_withMember_ne s v (Or.inl htype)]
    | _ => rfl

end Bound

/-- A new namespace is bound where nothing was, and that is all. -/
structure Sprout (k : ScopeId) (type : ObjectId) (c : Site) (n : String) (s t : Store) : Prop where
  takes : s.Takes true c
  apart : ¬ s.Inherited type c
  free : s.bound? k c n = none
  bound : t.bound? k c n = some (.object s.objects.size)
  unchanged (d : Site) (m : String) : d ≠ c ∨ m ≠ n → t.bound? k d m = s.bound? k d m
  forms : s.Extends t
  new : t.HasForm s.objects.size (.namespaceOf type)
  size : t.objects.size = s.objects.size + 1
  scopes : t.scopes.size = s.scopes.size
  scope (j : ScopeId) : j ≠ k → t.scope j = s.scope j

/-- New namespaces, each of them bound in the one before. -/
inductive Branch (k : ScopeId) (type : ObjectId) : Site → List String → Store → Store → Prop where
  | nil (c : Site) (s : Store) : Branch k type c [] s s
  | cons {c : Site} {n : String} {r : List String} {s t u : Store} (first : s.Sprout k type c n t)
    (rest : Branch k type (.value (.object s.objects.size)) r t u) : Branch k type c (n :: r) s u

def Leads (s : Store) (k : ScopeId) (parts : List String) : Prop :=
  ∃ v, v.isNull = false ∧ s.trace k .scope parts = (.value v, [])

/-- Nothing that would have to be declared for a name is to be declared where that cannot be. -/
def Declarable (s : Store) (k : ScopeId) (allowTop : Bool) (c : Site) (parts : List String) :
    Prop :=
  (s.trace k c parts).2 = [] ∨ s.Takes allowTop (s.trace k c parts).1

/-- Nothing of a name is missing in a type from which objects would inherit it. -/
def Direct (s : Store) (k : ScopeId) (type : ObjectId) (c : Site) (parts : List String) : Prop :=
  (s.trace k c parts).2 = [] ∨ ¬ s.Inherited type (s.trace k c parts).1

/-- There are the objects that there were, and namespaces of the type. -/
structure Expands (type : ObjectId) (s t : Store) : Prop where
  forms : s.Extends t
  new (i : ObjectId) : s.objects.size ≤ i → i < t.objects.size → t.HasForm i (.namespaceOf type)

section Expands
variable (h : s.Expands type t)
include h

/-- An object that inherits did so before, or it is a namespace of the type. -/
theorem Expands.parent_cases {j : ObjectId} {p : Object} (hp : t.object? j = some p)
    (hparent : p.form.parent? = some i) :
    i = type ∨ ∃ o, s.object? j = some o ∧ o.form.parent? = some i := by
  rcases Nat.lt_or_ge j s.objects.size with hj | hj
  · obtain ⟨o, ho⟩ := exists_object hj
    obtain ⟨q, hq, hform⟩ := h.forms j o ho
    obtain rfl := Option.some.inj (hp.symm.trans hq)
    exact Or.inr ⟨o, ho, hform ▸ hparent⟩
  · obtain ⟨q, hq, hform⟩ := h.new j hj (lt_of_object? hp)
    obtain rfl := Option.some.inj (hp.symm.trans hq)
    rw [hform] at hparent
    exact Or.inl (Option.some.inj hparent).symm

theorem Expands.inherited_iff : t.Inherited type c ↔ s.Inherited type c := by
  refine exists_congr fun i => and_congr_right fun _ => ⟨?_, Or.imp_right ?_⟩
  · rintro (htype | ⟨j, p, hp, hparent⟩)
    · exact Or.inl htype
    · exact (h.parent_cases hp hparent).imp_right fun ho => ⟨j, ho⟩
  · rintro ⟨j, o, ho, hparent⟩
    obtain ⟨p, hp, hform⟩ := h.forms j o ho
    exact ⟨j, p, hp, hform ▸ hparent⟩

theorem Expands.rooted (hs : s.Rooted) (htype : type < s.objects.size) : t.Rooted := by
  intro j p i hp hparent
  refine Nat.lt_of_lt_of_le ?_ h.forms.size
  rcases h.parent_cases hp hparent with rfl | ⟨o, ho, hparent⟩
  · exact htype
  · exact hs j o i ho hparent

end Expands

theorem Rooted.not_inherited (hs : s.Rooted) (htype : type < s.objects.size) :
    ¬ s.Inherited type (.value (.object s.objects.size)) := by
  rintro ⟨i, hi, hor⟩
  obtain rfl := Value.object.inj (Site.value.inj hi)
  rcases hor with heq | ⟨j, o, ho, hparent⟩
  · exact Nat.ne_of_gt htype heq
  · exact Nat.lt_irrefl _ (hs j o _ ho hparent)

/-- A name is missing, but not once the other one has been declared. -/
structure Awaits (s : Store) (k : ScopeId) (parts other : List String) : Prop where
  missing : (s.trace k .scope parts).2 ≠ []
  site : (s.trace k .scope parts).1 = (s.trace k .scope other).1
  ahead : (s.trace k .scope parts).2 <+: (s.trace k .scope other).2

section Awaits

theorem awaits_congr (hparts : t.trace k .scope parts = s.trace k .scope parts)
    (hother : t.trace k .scope other = s.trace k .scope other) :
    t.Awaits k parts other ↔ s.Awaits k parts other := by
  constructor
  · rintro ⟨missing, site, ahead⟩
    rw [hparts] at missing
    rw [hparts, hother] at site ahead
    exact ⟨missing, site, ahead⟩
  · rintro ⟨missing, site, ahead⟩
    rw [← hparts] at missing
    rw [← hparts, ← hother] at site ahead
    exact ⟨missing, site, ahead⟩

theorem awaits_cons_iff {q r : List String} (hparts : s.trace k .scope parts = (c, n :: q))
    (hother : s.trace k .scope other = (c, n :: r)) : s.Awaits k parts other ↔ q <+: r := by
  constructor
  · rintro ⟨-, -, ahead⟩
    rw [hparts, hother] at ahead
    exact (List.cons_prefix_cons.mp ahead).2
  · intro hpre
    refine ⟨?_, ?_, ?_⟩
    · rw [hparts]
      exact List.cons_ne_nil n q
    · rw [hparts, hother]
    · rw [hparts, hother]
      exact List.cons_prefix_cons.mpr ⟨rfl, hpre⟩

end Awaits

section Sprout

theorem Takes.held {allowTop : Bool} (h : s.Takes allowTop c) : s.Held c := by
  rintro i rfl
  obtain ⟨o, ho, -⟩ := h
  exact lt_of_object? ho

theorem Takes.mono {allowTop : Bool} (h : s.Takes allowTop c) (hforms : s.Extends t) :
    t.Takes allowTop c := by
  cases c with
  | scope => exact h
  | value v =>
    obtain ⟨o, ho, hform⟩ := h
    cases v with
    | object i =>
      obtain ⟨p, hp, heq⟩ := hforms i o ho
      exact ⟨p, hp, fun message => heq ▸ hform message⟩
    | _ => cases ho

theorem takes_iff {allowTop : Bool} (hforms : s.Extends t) (hc : s.Held c) :
    t.Takes allowTop c ↔ s.Takes allowTop c := by
  refine ⟨fun h => ?_, fun h => h.mono hforms⟩
  cases c with
  | scope => exact h
  | value v =>
    obtain ⟨p, hp, hform⟩ := h
    cases v with
    | object i =>
      obtain ⟨o, ho⟩ := exists_object (hc i rfl)
      obtain ⟨q, hq, heq⟩ := hforms i o ho
      obtain rfl := Option.some.inj (hq.symm.trans hp)
      exact ⟨_, ho, fun message => heq ▸ hform message⟩
    | _ => cases hp

theorem takes_of_namespace {allowTop : Bool} (h : s.HasForm i (.namespaceOf type)) :
    s.Takes allowTop (.value (.object i)) := by
  obtain ⟨o, ho, hform⟩ := h
  exact ⟨o, ho, fun message => hform ▸ nofun⟩

variable (h : s.Sprout k type c n t)
include h

theorem Sprout.site_ne : Site.value (.object s.objects.size) ≠ c :=
  fun heq => Nat.lt_irrefl _ (h.takes.held _ heq.symm)

theorem Sprout.expands : s.Expands type t where
  forms := h.forms
  new i hi hi' := by
    rw [h.size] at hi'
    rw [Nat.le_antisymm (Nat.le_of_lt_succ hi') hi]
    exact h.new

theorem Sprout.kept (hv : s.bound? k d m = some v) : t.bound? k d m = some v := by
  rw [h.unchanged d m, hv]
  by_contra hnot
  rw [not_or, not_not, not_not] at hnot
  obtain ⟨rfl, rfl⟩ := hnot
  rw [h.free] at hv
  cases hv

theorem Sprout.bound?_cases (hv : t.bound? k d m = some v) :
    s.bound? k d m = some v ∨ d = c ∧ m = n ∧ v = .object s.objects.size := by
  by_cases hdm : d = c ∧ m = n
  · obtain ⟨rfl, rfl⟩ := hdm
    exact Or.inr ⟨rfl, rfl, Option.some.inj (hv.symm.trans h.bound)⟩
  · rw [h.unchanged d m (not_and_or.mp hdm)] at hv
    exact Or.inl hv

theorem Sprout.closed (hs : s.Closed k) : t.Closed k := by
  intro d m i hi
  rw [h.size]
  rcases h.bound?_cases hi with hold | ⟨-, -, heq⟩
  · exact Nat.lt_succ_of_lt (hs d m i hold)
  · rw [Value.object.inj heq]
    exact Nat.lt_succ_self _

theorem Sprout.bound?_new (m : String) : t.bound? k (.value (.object s.objects.size)) m = none := by
  rw [h.unchanged _ m (Or.inl h.site_ne)]
  exact bound?_fresh s k m

/-- Parts lead to the new namespace if its name was the next that was missing, and where they led
before otherwise. -/
theorem Sprout.trace_cases (d : Site) (parts : List String) :
    (∃ r, s.trace k d parts = (c, n :: r) ∧
      t.trace k d parts = (.value (.object s.objects.size), r)) ∨
    t.trace k d parts = s.trace k d parts ∧ ∀ r, s.trace k d parts ≠ (c, n :: r) := by
  induction parts generalizing d with
  | nil => exact Or.inr ⟨rfl, nofun⟩
  | cons m parts ih =>
    cases hb : s.bound? k d m with
    | some v =>
      rw [trace_cons_of_bound hb, trace_cons_of_bound (h.kept hb)]
      exact ih (.value v)
    | none =>
      rw [trace_cons_of_free hb]
      by_cases hdm : d = c ∧ m = n
      · obtain ⟨rfl, rfl⟩ := hdm
        rw [trace_cons_of_bound h.bound]
        exact Or.inl ⟨parts, rfl, trace_of_free h.bound?_new parts⟩
      · rw [← h.unchanged d m (not_and_or.mp hdm)] at hb
        refine Or.inr ⟨trace_cons_of_free hb parts, fun r heq => hdm ?_⟩
        obtain ⟨hd, hr⟩ := Prod.mk.inj heq
        exact ⟨hd, (List.cons.inj hr).1⟩

theorem Sprout.leads_iff (parts : List String) :
    t.Leads k parts ↔ s.Leads k parts ∨ s.trace k .scope parts = (c, [n]) := by
  unfold Leads
  rcases h.trace_cases .scope parts with ⟨r, hs, ht⟩ | ⟨hsame, hne⟩
  · rw [hs, ht]
    constructor
    · rintro ⟨v, -, heq⟩
      rw [(Prod.mk.inj heq).2]
      exact Or.inr rfl
    · rintro (⟨v, -, heq⟩ | heq)
      · cases heq
      · obtain rfl := (List.cons.inj (Prod.mk.inj heq).2).2
        exact ⟨_, rfl, rfl⟩
  · rw [hsame]
    exact ⟨Or.inl, fun hor => hor.resolve_right (hne [])⟩

theorem Sprout.direct (hs : s.Rooted) (htype : type < s.objects.size)
    (hd : s.Direct k type .scope parts) : t.Direct k type .scope parts := by
  unfold Direct at hd ⊢
  rw [h.expands.inherited_iff]
  rcases h.trace_cases .scope parts with ⟨r, -, ht⟩ | ⟨hsame, -⟩
  · rw [ht]
    exact Or.inr (hs.not_inherited htype)
  · rwa [hsame]

variable (hs : s.Closed k)
include hs

theorem Sprout.declarable_iff (parts : List String) :
    t.Declarable k true .scope parts ↔ s.Declarable k true .scope parts := by
  unfold Declarable
  rcases h.trace_cases .scope parts with ⟨r, hs', ht⟩ | ⟨hsame, -⟩
  · rw [hs', ht]
    exact iff_of_true (Or.inr (takes_of_namespace h.new)) (Or.inr h.takes)
  · rw [hsame, takes_iff h.forms (held_trace hs (held_scope s) parts)]

theorem Sprout.awaits_of (ha : t.Awaits k parts other) : s.Awaits k parts other := by
  rcases h.trace_cases .scope parts with ⟨q, hq, hq'⟩ | ⟨hq, -⟩
  · rcases h.trace_cases .scope other with ⟨r, hr, hr'⟩ | ⟨hr, -⟩
    · have hahead := ha.ahead
      rw [hq', hr'] at hahead
      exact (awaits_cons_iff hq hr).mpr hahead
    · have hsite := ha.site
      rw [hq', hr] at hsite
      exact absurd hsite.symm (hs.trace_ne other)
  · rcases h.trace_cases .scope other with ⟨r, hr, hr'⟩ | ⟨hr, -⟩
    · have hsite := ha.site
      rw [hq, hr'] at hsite
      exact absurd hsite (hs.trace_ne parts)
    · exact (awaits_congr hq hr).mp ha

omit hs in
theorem Sprout.awaits (ha : s.Awaits k parts other) :
    t.Awaits k parts other ∨ t.Leads k parts := by
  rcases h.trace_cases .scope parts with ⟨q, hq, hq'⟩ | ⟨hq, hqne⟩
  · rcases h.trace_cases .scope other with ⟨r, hr, hr'⟩ | ⟨hr, hrne⟩
    · have hahead := (awaits_cons_iff hq hr).mp ha
      by_cases hnil : q = []
      · subst hnil
        exact Or.inr ⟨_, rfl, hq'⟩
      · refine Or.inl ⟨?_, ?_, ?_⟩
        · rwa [hq']
        · rw [hq', hr']
        · rwa [hq', hr']
    · -- The other name was missing the same part at the same site.
      obtain ⟨-, site, ahead⟩ := ha
      rw [hq] at site ahead
      obtain ⟨r, hr'⟩ := ahead
      have hother : s.trace k .scope other = (c, n :: (q ++ r)) := Prod.ext site.symm hr'.symm
      exact absurd hother (hrne _)
  · rcases h.trace_cases .scope other with ⟨r, hr, hr'⟩ | ⟨hr, -⟩
    · obtain ⟨missing, site, ahead⟩ := ha
      rw [hr] at site ahead
      obtain ⟨x, q, hx⟩ := List.exists_cons_of_ne_nil missing
      rw [hx] at ahead
      obtain ⟨rfl, -⟩ := List.cons_prefix_cons.mp ahead
      have hparts : s.trace k .scope parts = (c, x :: q) := Prod.ext site hx
      exact absurd hparts (hqne q)
    · exact Or.inl ((awaits_congr hq hr).mpr ha)

end Sprout

section Branch
variable (h : Branch k type c ws s t)
include h

theorem Branch.kept (hv : s.bound? k d m = some v) : t.bound? k d m = some v := by
  induction h with
  | nil => exact hv
  | cons first _ ih => exact ih (first.kept hv)

theorem Branch.forms : s.Extends t := by
  induction h with
  | nil => exact .refl _
  | cons first _ ih => exact first.forms.trans ih

theorem Branch.scopes : t.scopes.size = s.scopes.size := by
  induction h with
  | nil => rfl
  | cons first _ ih => exact ih.trans first.scopes

theorem Branch.scope {j : ScopeId} (hj : j ≠ k) : t.scope j = s.scope j := by
  induction h with
  | nil => rfl
  | cons first _ ih => exact ih.trans (first.scope j hj)

theorem Branch.closed (hs : s.Closed k) : t.Closed k := by
  induction h with
  | nil => exact hs
  | cons first _ ih => exact ih (first.closed hs)

theorem Branch.bound?_new (hv : t.bound? k d m = some v) :
    s.bound? k d m = some v ∨ ∃ i, v = .object i ∧ s.objects.size ≤ i := by
  induction h with
  | nil => exact Or.inl hv
  | @cons c n r s t u first _ ih =>
    rcases ih hv with hold | ⟨i, hi, hle⟩
    · rcases first.bound?_cases hold with hold | ⟨-, -, heq⟩
      · exact Or.inl hold
      · exact Or.inr ⟨_, heq, le_rfl⟩
    · rw [first.size] at hle
      exact Or.inr ⟨i, hi, Nat.le_of_succ_le hle⟩

theorem Branch.bound?_cases (hd : s.Held d) (hv : t.bound? k d m = some v) :
    s.bound? k d m = some v ∨ d = c ∧ ws.head? = some m := by
  induction h with
  | nil => exact Or.inl hv
  | @cons c n r s t u first _ ih =>
    have hd' : t.Held d := fun i hi => first.size ▸ Nat.lt_succ_of_lt (hd i hi)
    rcases ih hd' hv with hold | ⟨rfl, -⟩
    · rcases first.bound?_cases hold with hold | ⟨rfl, rfl, -⟩
      · exact Or.inl hold
      · exact Or.inr ⟨rfl, rfl⟩
    · exact absurd (hd _ rfl) (Nat.lt_irrefl _)

/-- What is new are namespaces, to each of which the beginning of the branch leads and in which only
the next name of it is bound. -/
theorem Branch.along (hi : s.objects.size ≤ i) (hi' : i < t.objects.size) :
    t.HasForm i (.namespaceOf type) ∧ ∃ front, front <+: ws ∧
      t.trace k c front = (.value (.object i), []) ∧
      ∀ m v, t.bound? k (.value (.object i)) m = some v → front ++ [m] <+: ws := by
  induction h with
  | nil => exact absurd hi' (Nat.not_lt_of_le hi)
  | @cons c n r s t u first rest ih =>
    have hbound := rest.kept first.bound
    rcases Nat.eq_or_lt_of_le hi with rfl | hlt
    · refine ⟨rest.forms.hasForm first.new, [n], ⟨r, rfl⟩, trace_cons_of_bound hbound [], ?_⟩
      intro m v hm
      have htakes : t.Takes true (.value (.object s.objects.size)) := takes_of_namespace first.new
      rcases rest.bound?_cases htakes.held hm with hold | ⟨-, hhead⟩
      · cases (first.bound?_new m).symm.trans hold
      · obtain ⟨r, rfl⟩ := List.head?_eq_some_iff.mp hhead
        exact ⟨r, rfl⟩
    · obtain ⟨hform, front, hfront, htrace, hinside⟩ := ih (first.size ▸ hlt) hi'
      refine ⟨hform, n :: front, List.cons_prefix_cons.mpr ⟨rfl, hfront⟩, ?_, fun m v hm => ?_⟩
      · rw [trace_cons_of_bound hbound, htrace]
      · exact List.cons_prefix_cons.mpr ⟨rfl, hinside m v hm⟩

theorem Branch.expands : s.Expands type t := ⟨h.forms, fun _ hi hi' => (h.along hi hi').1⟩

theorem Branch.direct (hs : s.Rooted) (htype : type < s.objects.size)
    (hd : s.Direct k type .scope parts) : t.Direct k type .scope parts := by
  induction h with
  | nil => exact hd
  | cons first _ ih =>
    exact ih (first.expands.rooted hs htype) (Nat.lt_of_lt_of_le htype first.forms.size)
      (first.direct hs htype hd)

theorem Branch.bound?_type (m : String) :
    t.bound? k (.value (.object type)) m = s.bound? k (.value (.object type)) m := by
  induction h with
  | nil => rfl
  | cons first _ ih =>
    refine ih.trans (first.unchanged _ m (Or.inl ?_))
    rintro rfl
    exact first.apart ⟨type, rfl, Or.inl rfl⟩

variable (hs : s.Closed k)
include hs

theorem Branch.declarable_iff (parts : List String) :
    t.Declarable k true .scope parts ↔ s.Declarable k true .scope parts := by
  induction h with
  | nil => rfl
  | cons first _ ih => exact (ih (first.closed hs)).trans (first.declarable_iff hs parts)

/-- A branch makes exactly those names lead to something that end on it. -/
theorem Branch.leads_iff (parts : List String) :
    t.Leads k parts ↔ s.Leads k parts ∨ (s.trace k .scope parts).1 = c ∧
      (s.trace k .scope parts).2 ≠ [] ∧ (s.trace k .scope parts).2 <+: ws := by
  induction h with
  | nil => exact ⟨Or.inl, fun hor => hor.resolve_right fun h => h.2.1 (List.prefix_nil.mp h.2.2)⟩
  | @cons c n r s t u first _ ih =>
    rw [ih (first.closed hs), first.leads_iff]
    rcases first.trace_cases .scope parts with ⟨q, hq, hq'⟩ | ⟨hq, hne⟩
    · rw [hq, hq', List.cons_prefix_cons]
      by_cases hnil : q = []
      · simp [hnil]
      · simp [hnil]
    · rw [hq]
      have hold := hs.trace_ne parts
      have hother : ¬((s.trace k .scope parts).1 = c ∧ (s.trace k .scope parts).2 ≠ [] ∧
          (s.trace k .scope parts).2 <+: n :: r) := by
        rintro ⟨hsite, hmissing, hahead⟩
        obtain ⟨x, q, hx⟩ := List.exists_cons_of_ne_nil hmissing
        rw [hx] at hahead
        obtain ⟨rfl, -⟩ := List.cons_prefix_cons.mp hahead
        exact hne q (Prod.ext hsite hx)
      simp [hold, hother, hne]

theorem Branch.awaits_of (ha : t.Awaits k parts other) : s.Awaits k parts other := by
  induction h with
  | nil => exact ha
  | cons first _ ih => exact first.awaits_of hs (ih (first.closed hs) ha)

theorem Branch.awaits (ha : s.Awaits k parts other) :
    t.Awaits k parts other ∨ t.Leads k parts := by
  induction h with
  | nil => exact Or.inl ha
  | cons first rest ih =>
    rcases first.awaits ha with ha | hleads
    · exact ih (first.closed hs) ha
    · exact Or.inr ((rest.leads_iff (first.closed hs) parts).mpr (Or.inl hleads))

end Branch

end Store

end TemplateHost
