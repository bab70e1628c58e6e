import TemplateHost.Proofs.Code.Names
import TemplateHost.Proofs.Context.Agreement
import TemplateHost.Proofs.Context.Search
import TemplateHost.Proofs.Context.Support

/-!
# Suggestions

A suggested name is put together from the names of namespaces and of a callable in the innermost of
them. A lookup takes it apart at its dots and finds its way back to that callable. It gives another
one only where a load that failed has left it in the cache.
-/
namespace TemplateHost

namespace Text.Resemblance

theorem mem_of_best {l : List Scored} {s : Scored} (h : best l = some s) : s ∈ l := by
  induction l generalizing s with
  | nil => cases h
  | cons x r ih =>
    rw [best] at h
    cases hr : best r with
    | none =>
      rw [hr] at h
      exact Option.some.inj h ▸ List.mem_cons_self
    | some t =>
      rw [hr] at h
      dsimp only at h
      split at h
      · exact Option.some.inj h ▸ List.mem_cons_of_mem _ (ih hr)
      · exact Option.some.inj h ▸ List.mem_cons_self

theorem mem_of_closest? {word hint : String} {candidates : List String}
    (h : closest? word candidates = some hint) : hint ∈ candidates := by
  obtain ⟨s, hs, rfl⟩ := Option.map_eq_some_iff.mp h
  obtain ⟨candidate, hmem, rfl⟩ := List.mem_map.mp (List.mem_filter.mp (mem_of_best hs)).1
  exact hmem

end Text.Resemblance

namespace Store
open Context
variable {s : Store} {type : ObjectId} {path hint name : String} {members : Table String Value}
  {v w : Value}

/-- What a namespace offers under a dotted name that begins with its own: a member that can be
called, or what a namespace in it offers. -/
inductive Offers (s : Store) (type : ObjectId) :
    String → Table String Value → String → Value → Prop
  | own {path : String} {members : Table String Value} {name : String} {v : Value}
    (hmem : (name, v) ∈ members.entries) (hcall : s.isCallable v = true) :
    Offers s type path members (path ++ "." ++ name) v
  | nested {path : String} {members inner : Table String Value} {name hint : String} {v w : Value}
    (hmem : (name, w) ∈ members.entries) (hinner : namespaceMembers? s type w = some inner)
    (h : Offers s type (path ++ "." ++ name) inner hint v) : Offers s type path members hint v

theorem offers_of_callableNames {depth : Nat}
    (h : hint ∈ callableNames s type depth path members) :
    ∃ v, s.Offers type path members hint v := by
  induction depth generalizing path members with
  | zero => cases h
  | succ depth ih =>
    rw [callableNames_succ] at h
    obtain ⟨⟨name, v⟩, hmem, h⟩ := List.mem_flatMap.mp h
    dsimp only at h
    split at h
    · next inner hinner =>
      obtain ⟨w, hw⟩ := ih h
      exact ⟨w, .nested hmem hinner hw⟩
    · split at h
      · next hcall =>
        obtain rfl := List.mem_singleton.mp h
        exact ⟨v, .own hmem hcall⟩
      · cases h

theorem Offers.isCallable (h : s.Offers type path members hint v) : s.isCallable v = true := by
  induction h with
  | own _ hcall => exact hcall
  | nested _ _ _ ih => exact ih

section Spelled
variable (hs : s.Spelled) (hw : namespaceMembers? s type w = some members)
include hs hw

theorem named_of_namespace : members.Named := by
  obtain ⟨i, rfl, ho⟩ := namespaceMembers?_eq_some_iff.mp hw
  exact hs.members i _ ho

theorem descend_of_mem (hmem : (name, v) ∈ members.entries) : descend s w name = .ok v := by
  have hget := (named_of_namespace hs hw).mem_entries_iff.mp hmem
  obtain ⟨i, rfl, ho⟩ := namespaceMembers?_eq_some_iff.mp hw
  have hmember : s.member (.object i) name = .ok v :=
    member_eq_ok_iff.mpr ⟨_, ho, member?_of_own hget⟩
  rw [descend, if_neg (by simp [Value.isNull]), memberOrNull, hmember]

/-- Only what cannot be called has the empty name. -/
theorem name_ne_empty (hmem : (name, v) ∈ members.entries) (hcall : s.isCallable v = true) :
    name ≠ "" := by
  rintro rfl
  have hget := (named_of_namespace hs hw).mem_entries_iff.mp hmem
  obtain ⟨i, rfl, ho⟩ := namespaceMembers?_eq_some_iff.mp hw
  obtain ⟨j, p, rfl, hp, hform⟩ := isCallable_iff.mp hcall
  obtain ⟨q, hq, hform'⟩ := hs.unnamed i _ _ ho hget j rfl
  obtain rfl := Option.some.inj (hp.symm.trans hq)
  rw [hform] at hform'
  cases hform'

end Spelled

/-- The parts of the name that are behind the namespace's own lead from it to what is offered, and
there are some. -/
theorem Offers.descend (hs : s.Spelled) (h : s.Offers type path members hint v)
    (hw : namespaceMembers? s type w = some members) : ∃ rest, rest ≠ "" ∧
      hint = path ++ "." ++ rest ∧ (Text.dotted rest).foldlM (Context.descend s) w = .ok v := by
  induction h generalizing w with
  | @own path members name v hmem hcall =>
    have hdotless := (named_of_namespace hs hw).dotless name (List.mem_map_of_mem hmem)
    refine ⟨name, name_ne_empty hs hw hmem hcall, rfl, ?_⟩
    rw [Text.dotted_of_dotless hdotless, List.foldlM_cons, descend_of_mem hs hw hmem]
    rfl
  | @nested path members inner name hint v w' hmem hinner h ih =>
    have hdotless := (named_of_namespace hs hw).dotless name (List.mem_map_of_mem hmem)
    obtain ⟨rest, -, rfl, hrest⟩ := ih hinner
    refine ⟨name ++ "." ++ rest, ?_, by simp only [String.append_assoc], ?_⟩
    · intro hempty
      have hlength := congrArg String.length hempty
      simp at hlength
    · rw [Text.dotted_append_dot, Text.dotted_of_dotless hdotless, List.singleton_append,
        List.foldlM_cons, descend_of_mem hs hw hmem]
      exact hrest

end Store

namespace Context
variable {c d : Context} {name hint missing wanted : String} {v w : Value} {loading : Bool}

/-- What a namespace of the context offers under a dotted name; the namespace that templates call
into offers nothing. -/
def Offers (c : Context) (hint : String) (v : Value) : Prop :=
  ∃ type name w members, c.namespaceType? = some type ∧ (name, w) ∈ c.scope.entries ∧
    name ≠ interfaceName ∧ namespaceMembers? c.store type w = some members ∧
    c.store.Offers type name members hint v

theorem Offers.isCallable (h : c.Offers hint v) : c.store.isCallable v = true := by
  obtain ⟨type, head, w, members, -, -, -, -, h⟩ := h
  exact h.isCallable

theorem offers_of_suggestion (h : c.suggestion? missing = some hint) : ∃ v, c.Offers hint v := by
  obtain ⟨type, htype, h⟩ := Option.bind_eq_some_iff.mp h
  obtain ⟨⟨head, w⟩, hmem, h⟩ := List.mem_flatMap.mp (Text.Resemblance.mem_of_closest? h)
  dsimp only at h
  split at h
  · cases h
  · next hhead =>
    split at h
    · next members hmembers =>
      obtain ⟨v, hv⟩ := Store.offers_of_callableNames h
      exact ⟨v, type, head, w, members, htype, hmem, hhead, hmembers, hv⟩
    · cases h

section Spelled
variable (hc : c.store.Spelled)
include hc

theorem Offers.resolve (h : c.Offers hint v) : c.resolve hint = .ok v := by
  obtain ⟨type, head, w, members, -, hmem, -, hmembers, h⟩ := h
  have hscope : c.scope.Named := hc.scopes c.globals
  have hhead := hscope.dotless head (List.mem_map_of_mem hmem)
  obtain ⟨rest, hne, rfl, hrest⟩ := h.descend hc hmembers
  have hdotted : Text.dotted (head ++ "." ++ rest) = head :: Text.dotted rest := by
    rw [Text.dotted_append_dot, Text.dotted_of_dotless hhead, List.singleton_append]
  rw [resolve_append hhead hne, lookedUp_eq hdotted, hscope.mem_entries_iff.mp hmem]
  exact hrest

theorem offers_iff_resolve (h : c.Offers hint w) : c.Offers hint v ↔ c.resolve hint = .ok v := by
  refine ⟨fun hv => hv.resolve hc, fun hv => ?_⟩
  rw [h.resolve hc] at hv
  exact Except.ok.inj hv ▸ h

theorem Offers.ne_interface (h : c.Offers hint v) (rest : String) :
    hint ≠ interfaceName ++ "." ++ rest := by
  obtain ⟨type, head, w, members, -, hmem, hne, hmembers, h⟩ := h
  have hhead := (hc.scopes c.globals).dotless head (List.mem_map_of_mem hmem)
  obtain ⟨rest', -, rfl, -⟩ := h.descend hc hmembers
  intro heq
  have hsplit := congrArg splitHead heq
  rw [splitHead_append hhead, splitHead_append (by decide)] at hsplit
  exact hne (congrArg Prod.fst hsplit)

end Spelled

/-- A suggestion comes with a name that stands for something that cannot be called. -/
theorem suggestion_of_get
    (h : c.get loading missing = .error (.unknownTemplate wanted (some hint))) :
    loading = true ∧ c.suggestion? missing = some hint ∧
      ∃ v, c.resolve missing = .ok v ∧ c.store.isCallable v = false := by
  unfold get at h
  split at h
  · next hloading =>
    refine ⟨hloading, ?_⟩
    unfold find at h
    split at h
    · cases h
    · split at h
      · cases h
      · next v hresolve =>
        split at h
        · cases h
        · next hcall =>
          obtain ⟨-, hhint⟩ := Failure.unknownTemplate.inj (Except.error.inj h)
          exact ⟨hhint, v, hresolve, by simpa using hcall⟩
  · cases h

section History
variable {support batch : List Fetched} {ops : List Operation}

/-- Names are spelled as they should be, and what is kept can be called. -/
structure Spelled (c : Context) : Prop where
  store : c.store.Spelled
  cached (n : String) (v : Value) : c.cache.get? n = some v → c.store.isCallable v = true

/-- A load of code that is spelled as it should be, or a use of what is there. -/
def Operation.IsOrdinary : Operation → Prop
  | .load support batch => ∀ x ∈ statementsOf (support ++ batch), x.IsSpelled
  | .setScope _ _ => False
  | .get _ _ => True
  | .render _ _ _ _ => True

theorem spelled_new (name : String) : (new name).Spelled := by
  have hname : '.' ∉ "__name__".toList := by decide
  have hbuiltins : '.' ∉ Run.builtinsName.toList := by decide
  refine ⟨⟨fun k => ?_, fun i o ho => ?_, fun i o v ho hv => ?_⟩, nofun⟩
  · cases k with
    | zero => exact (Table.named_empty.set hname _).set hbuiltins _
    | succ k => exact Table.named_empty
  · have hi : i < 1 := Store.lt_of_object? ho
    obtain rfl : i = 0 := Nat.lt_one_iff.mp hi
    obtain rfl := Option.some.inj ho
    exact Table.named_empty
  · have hi : i < 1 := Store.lt_of_object? ho
    obtain rfl : i = 0 := Nat.lt_one_iff.mp hi
    obtain rfl := Option.some.inj ho
    cases hv

theorem Spelled.run {α : Type} {r : ScopeId → Run α} (h : c.Spelled)
    (hr : Run.Spells (r c.globals)) : (c.run r).2.Spelled where
  store := (hr c.store).spelled h.store
  cached n v hv := Store.isCallable_of_extends (hr c.store).forms (h.cached n v hv)

theorem Spelled.load (h : c.Spelled) (hcode : ∀ x ∈ statementsOf (support ++ batch), x.IsSpelled) :
    (c.load support batch).2.Spelled := by
  refine load_induction (fun hc => hc.run Run.spells_resetRegistries) (fun f hf src hsrc d hd => ?_)
    (fun d hd => ⟨hd.store, hd.cached⟩) (fun d hd => ⟨hd.store, nofun⟩) h
  refine hd.run (r := fun k => Run.runSource k (Path.base f.path) src)
    (Run.spells_runSource (fun x hx => hcode x ?_) _)
  refine List.mem_flatMap.mpr ⟨f, hf, ?_⟩
  rw [hsrc]
  exact hx

theorem Spelled.get (h : c.Spelled) (hget : c.get loading name = .ok (v, d)) : d.Spelled := by
  rcases get_cases hget with ⟨-, rfl⟩ | ⟨-, hcall, rfl⟩
  · exact h
  · refine ⟨h.store, fun n w hw => ?_⟩
    dsimp only at hw
    by_cases hn : n = name
    · rw [hn, Table.get?_set_self] at hw
      exact Option.some.inj hw ▸ hcall
    · rw [Table.get?_set_ne _ hn] at hw
      exact h.cached n w hw

theorem Spelled.act (h : c.Spelled) {op : Operation} (hop : op.IsOrdinary) :
    (c.act op).Spelled := by
  cases op with
  | load support batch => exact h.load hop
  | setScope keep values => cases hop
  | get loading name => exact act_get_induction h fun v d hget => h.get hget
  | render loading name data injected =>
    exact act_render_induction h fun v d hget =>
      (h.get hget).run (adds_callTemplate _ _ _).spells

theorem Spelled.after (h : c.Spelled) (hops : ∀ op ∈ ops, op.IsOrdinary) :
    (c.after ops).Spelled := by
  induction ops using List.reverseRecOn with
  | nil => exact h
  | append_singleton ops op ih =>
    rw [after_concat]
    exact (ih fun x hx => hops x (List.mem_append_left _ hx)).act
      (hops op (List.mem_append_right _ List.mem_cons_self))

/-- Loads have failed in their support code only while nothing was kept. -/
def Steady (name : String) (ops : List Operation) : Prop :=
  ∀ r support batch, r ++ [.load support batch] <+: ops →
    ((new name).after r).FailsInSupport support → ((new name).after r).cache = .empty

theorem Steady.current (h : Steady name ops) : ((new name).after ops).Current := by
  induction ops using List.reverseRecOn with
  | nil => exact current_of_empty rfl
  | append_singleton ops op ih =>
    have hkeeping : (new name).Keeping := keeping_of_empty rfl
    have hbefore := ih fun r support batch hr =>
      h r support batch (hr.trans (List.prefix_append _ _))
    rw [after_concat]
    refine hbefore.act (hkeeping.after ops) ?_
    rintro support batch rfl hfails n v hcache
    rw [h ops support batch (List.prefix_refl _) hfails] at hcache
    cases hcache

/-- **Suggestions are usable.** Where no namespace is inside itself, the search for one comes to an
end. What is suggested is another name than the one that was asked for and is not reached through
the namespace that templates call into, and looking it up gives something that can be called. A
namespace offers it under that name exactly if that is what the name stands for now, and so it is
unless a load has failed in its support code and left what had been looked up before. -/
theorem suggestions_usable (name : String) {ops : List Operation}
    (hops : ∀ op ∈ ops, op.IsOrdinary) (hc : c = (new name).after ops) :
    (∀ type, c.store.Acyclic type → ∃ n names,
      (Search.step c.store type)^[n] (c.search type) = ⟨[], names⟩ ∧
        names.Perm (c.suggestible type)) ∧
    ∀ loading missing wanted hint,
      c.get loading missing = .error (.unknownTemplate wanted (some hint)) →
        hint ≠ missing ∧ (∀ rest, hint ≠ "soy." ++ rest) ∧
        ∃ v d, c.get loading hint = .ok (v, d) ∧ c.store.isCallable v = true ∧
          (c.Offers hint v ↔ c.resolve hint = .ok v) ∧ (Steady name ops → c.Offers hint v) := by
  have hspelled : c.Spelled := hc ▸ (spelled_new name).after hops
  refine ⟨fun type hacyclic => search_ends hacyclic, fun loading missing wanted hint herror => ?_⟩
  obtain ⟨rfl, hhint, x, hx, hxcall⟩ := suggestion_of_get herror
  obtain ⟨w, hw⟩ := offers_of_suggestion hhint
  have hresolve := hw.resolve hspelled.store
  have hget : ∃ v d, c.get true hint = .ok (v, d) ∧ c.store.isCallable v = true := by
    cases hcache : c.cache.get? hint with
    | some v => exact ⟨v, c, get_of_cached hcache, hspelled.cached hint v hcache⟩
    | none => exact ⟨w, _, get_of_resolve hcache hresolve hw.isCallable, hw.isCallable⟩
  obtain ⟨v, d, hget, hcall⟩ := hget
  have hiff : c.Offers hint v ↔ c.resolve hint = .ok v := offers_iff_resolve hspelled.store hw
  refine ⟨?_, fun rest => hw.ne_interface hspelled.store rest, v, d, hget, hcall, hiff, ?_⟩
  · rintro rfl
    obtain rfl := Except.ok.inj (hx.symm.trans hresolve)
    rw [hw.isCallable] at hxcall
    cases hxcall
  · exact fun hsteady => hiff.mpr ((hc ▸ hsteady.current) true hint v d hget)

end History

section Sample

/-- Support code of one's own that puts a template into a namespace and then fails. -/
def failingLibrary (text : String) : List Fetched :=
  [⟨"library.py", .ok (.holding [.support .names, .newNamespace "g",
    .template "g.t" ⟨"t", [.text text], none, none⟩, .raise "ValueError" "no"])⟩]

def lookupBetweenLibraries : List Operation :=
  [.load (failingLibrary "one") [], .get true "g.t", .load (failingLibrary "two") []]

theorem isOrdinary_failingLibrary (text : String) :
    (Operation.load (failingLibrary text) []).IsOrdinary := by
  intro x hx
  change x ∈ [.support .names, .newNamespace "g", .template "g.t" ⟨"t", [.text text], none, none⟩,
    .raise "ValueError" "no"] at hx
  simp only [List.mem_cons, List.not_mem_nil, or_false] at hx
  rcases hx with rfl | rfl | rfl | rfl
  · trivial
  · exact (by decide : "" ∉ Text.dotted "g")
  · exact (by decide : "" ∉ Text.dotted "g.t")
  · trivial

/-- The template that has been looked up is found under the suggested name, although the namespace
now holds another one. -/
theorem suggestions_usable_stale : ∃ c, c = (new "default").after lookupBetweenLibraries ∧
    c.get true "g.x" = .error (.unknownTemplate "g.x" (some "g.t")) ∧
    (∃ d, c.get true "g.t" = .ok (.object 5, d)) ∧ c.resolve "g.t" = .ok (.object 10) ∧
    ¬c.Offers "g.t" (.object 5) := by
  have hops : ∀ op ∈ lookupBetweenLibraries, op.IsOrdinary := by
    intro op hop
    simp only [lookupBetweenLibraries, List.mem_cons, List.not_mem_nil, or_false] at hop
    rcases hop with rfl | rfl | rfl
    · exact isOrdinary_failingLibrary "one"
    · trivial
    · exact isOrdinary_failingLibrary "two"
  have herror : ((new "default").after lookupBetweenLibraries).get true "g.x" =
      .error (.unknownTemplate "g.x" (some "g.t")) := rfl
  have hresolve : ((new "default").after lookupBetweenLibraries).resolve "g.t" =
      .ok (.object 10) := rfl
  obtain ⟨-, -, v, d, hget, -, hiff, -⟩ :=
    (suggestions_usable "default" hops rfl).2 true "g.x" "g.x" "g.t" herror
  obtain rfl : v = .object 5 := (Prod.mk.inj (Except.ok.inj hget)).1.symm
  refine ⟨_, rfl, herror, ⟨d, hget⟩, hresolve, fun hoffers => ?_⟩
  cases hresolve.symm.trans (hiff.mp hoffers)

end Sample

end Context

end TemplateHost
