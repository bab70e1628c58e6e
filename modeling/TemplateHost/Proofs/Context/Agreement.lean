import TemplateHost.Proofs.Context.Lookup
import TemplateHost.Proofs.Text.Search

/-!
# Looking up from outside and from inside

The host looks a template up as templates look up a name, except that it takes no notice of a dot at
the end of a name that has no other dot.
-/
namespace TemplateHost

namespace Text
variable {head : String}

theorem dotted_append_dot (a b : String) : dotted (a ++ "." ++ b) = dotted a ++ dotted b := by
  simp [dotted, splitAt_append_cons]

theorem dotted_of_dotless (hhead : '.' ∉ head.toList) : dotted head = [head] := by
  have hjoin := splitAt_join '.' (List.cons_ne_nil head []) (by simpa using hhead)
  rwa [join, String.intercalate_singleton] at hjoin

theorem dotless_or_append (name : String) :
    '.' ∉ name.toList ∨ ∃ head rest, '.' ∉ head.toList ∧ name = head ++ "." ++ rest := by
  by_cases hdot : '.' ∈ name.toList
  · obtain ⟨a, b, hname, ha⟩ := List.eq_append_cons_of_mem hdot
    refine Or.inr ⟨String.ofList a, String.ofList b, by simpa using ha, ?_⟩
    rw [← String.toList_inj, hname]
    simp
  · exact Or.inl hdot

end Text

namespace Run
open Context
variable {k : ScopeId} {s : Store}

theorem on_descend (v : Value) (part : String) (s : Store) :
    on (if v.isNull then return .null else return (← member? v part).getD .null) s =
      (descend s v part, s) := by
  unfold descend
  split
  · rfl
  · rw [on_bind, on_member?]
    unfold memberOrNull
    cases s.member v part with
    | ok w => rfl
    | error f => cases f <;> rfl

theorem on_foldlM_lookup (parts : List String) (v : Value) (s : Store) :
    on (parts.foldlM (fun v part =>
      if v.isNull then return .null else return (← member? v part).getD .null) v) s =
        (parts.foldlM (descend s) v, s) := by
  induction parts generalizing v with
  | nil => rfl
  | cons part parts ih =>
    rw [List.foldlM_cons, List.foldlM_cons, on_bind, on_descend]
    cases descend s v part with
    | ok w => exact ih w
    | error f => rfl

theorem on_lookup {name head : String} {rest : List String}
    (hname : Text.dotted name = head :: rest) (k : ScopeId) (s : Store) :
    on (lookup k name) s =
      (rest.foldlM (descend s) (((s.scope k).get? head).getD .null), s) := by
  unfold lookup
  rw [hname]
  dsimp only
  rw [on_bind, on_global?]
  exact on_foldlM_lookup _ _ _

end Run

namespace Context
variable {c : Context} {head name : String}

def lookedUp (c : Context) (name : String) : Except Fault Value :=
  (c.run fun k => Run.lookup k name).1

theorem takeWhile_dotless (hhead : '.' ∉ head.toList) (r : List Char) :
    (head.toList ++ r).takeWhile (· ≠ '.') = head.toList ++ r.takeWhile (· ≠ '.') := by
  refine List.takeWhile_append_of_pos fun a ha => decide_eq_true ?_
  rintro rfl
  exact hhead ha

theorem splitHead_of_dotless (hhead : '.' ∉ head.toList) : splitHead head = (head, "") := by
  have htake := takeWhile_dotless hhead []
  rw [List.takeWhile_nil, List.append_nil] at htake
  unfold splitHead
  dsimp only
  rw [htake, String.ofList_toList, List.drop_eq_nil_of_le (Nat.le_succ _)]

theorem splitHead_append (hhead : '.' ∉ head.toList) (rest : String) :
    splitHead (head ++ "." ++ rest) = (head, rest) := by
  have hchars : (head ++ "." ++ rest).toList = head.toList ++ '.' :: rest.toList := by simp
  have htake := takeWhile_dotless hhead ('.' :: rest.toList)
  rw [List.takeWhile_cons_of_neg (by simp), List.append_nil] at htake
  unfold splitHead
  dsimp only
  rw [hchars, htake, String.ofList_toList, List.drop_length_add_append]
  simp

theorem lookedUp_eq {rest : List String} (hname : Text.dotted name = head :: rest) :
    c.lookedUp name = rest.foldlM (descend c.store) ((c.scope.get? head).getD .null) :=
  congrArg Prod.fst (Run.on_lookup hname c.globals c.store)

theorem lookedUp_dotless (hhead : '.' ∉ head.toList) :
    c.lookedUp head = .ok ((c.scope.get? head).getD .null) :=
  lookedUp_eq (Text.dotted_of_dotless hhead)

theorem resolve_dotless (hhead : '.' ∉ head.toList) : c.resolve head = c.lookedUp head := by
  rw [lookedUp_dotless hhead, resolve, splitHead_of_dotless hhead]
  rfl

/-- Nothing is behind the dot, so there is no part to look for. -/
theorem resolve_dot (hhead : '.' ∉ head.toList) : c.resolve (head ++ ".") = c.lookedUp head := by
  have hsplit := splitHead_append hhead ""
  rw [String.append_empty] at hsplit
  rw [lookedUp_dotless hhead, resolve, hsplit]
  rfl

theorem resolve_append (hhead : '.' ∉ head.toList) {rest : String} (hrest : rest ≠ "") :
    c.resolve (head ++ "." ++ rest) = c.lookedUp (head ++ "." ++ rest) := by
  have hdotted : Text.dotted (head ++ "." ++ rest) = head :: Text.dotted rest := by
    rw [Text.dotted_append_dot, Text.dotted_of_dotless hhead, List.singleton_append]
  rw [lookedUp_eq hdotted, resolve, splitHead_append hhead]
  dsimp only
  rw [if_neg hrest]

/-- The host finds under one name the callable that code finds under another one, and no template if
code finds nothing callable. -/
structure Agrees (c : Context) (name other : String) : Prop where
  found (v : Value) : (∃ d, c.get true name = .ok (v, d)) ↔
    c.lookedUp other = .ok v ∧ c.store.isCallable v = true
  unknown : (∀ v, c.lookedUp other = .ok v → c.store.isCallable v = false) →
    ∃ hint, c.get true name = .error (.unknownTemplate name hint)

section Empty
variable (hcache : c.cache = .empty)
include hcache

theorem get_of_error {f : Fault} (h : c.resolve name = .error f) :
    c.get true name = .error (.unknownTemplate name none) := by
  rw [get, if_pos rfl, find, hcache, Table.get?_empty]
  dsimp only
  rw [h]

theorem get_of_not_callable {v : Value} (h : c.resolve name = .ok v)
    (hcallable : c.store.isCallable v = false) :
    c.get true name = .error (.unknownTemplate name (c.suggestion? name)) := by
  rw [get, if_pos rfl, find, hcache, Table.get?_empty]
  dsimp only
  rw [h]
  dsimp only
  rw [if_neg (by simp [hcallable])]

/-- What the host does depends only on what the name stands for. -/
theorem agrees_of_resolve {other : String} (hresolve : c.resolve name = c.lookedUp other) :
    c.Agrees name other := by
  cases hlooked : c.lookedUp other with
  | error f =>
    have hget := get_of_error hcache (hresolve.trans hlooked)
    refine ⟨fun v => iff_of_false ?_ (fun h => nomatch hlooked.symm.trans h.1), fun _ => ⟨_, hget⟩⟩
    rintro ⟨d, hd⟩
    cases hget.symm.trans hd
  | ok w =>
    have hw {v : Value} (hv : c.lookedUp other = .ok v) : v = w :=
      Except.ok.inj (hv.symm.trans hlooked)
    cases hcallable : c.store.isCallable w with
    | true =>
      have hget := get_of_resolve (by rw [hcache]; rfl) (hresolve.trans hlooked) hcallable
      refine ⟨fun v => ⟨?_, ?_⟩, fun hnone => ?_⟩
      · rintro ⟨d, hd⟩
        cases hget.symm.trans hd
        exact ⟨hlooked, hcallable⟩
      · rintro ⟨hv, -⟩
        obtain rfl := hw hv
        exact ⟨_, hget⟩
      · rw [hnone w hlooked] at hcallable
        cases hcallable
    | false =>
      have hget := get_of_not_callable hcache (hresolve.trans hlooked) hcallable
      refine ⟨fun v => iff_of_false ?_ ?_, fun _ => ⟨_, hget⟩⟩
      · rintro ⟨d, hd⟩
        cases hget.symm.trans hd
      · rintro ⟨hv, hv'⟩
        obtain rfl := hw hv
        rw [hcallable] at hv'
        cases hv'

/-- **The host finds what code finds.** A dot at the end of a name that has no other one is the
exception: there the host finds what the name without the dot stands for. -/
theorem get_agrees :
    (∀ name, (∀ head, '.' ∉ head.toList → name ≠ head ++ ".") → c.Agrees name name) ∧
      ∀ head, '.' ∉ head.toList → c.Agrees (head ++ ".") head := by
  refine ⟨fun name hname => agrees_of_resolve hcache ?_, fun head hhead =>
    agrees_of_resolve hcache (resolve_dot hhead)⟩
  rcases Text.dotless_or_append name with hdotless | ⟨head, rest, hhead, rfl⟩
  · exact resolve_dotless hdotless
  · refine resolve_append hhead fun hrest => ?_
    exact hname head hhead (by rw [hrest, String.append_empty])

end Empty

def greetingContext : Context :=
  ((new "default").load
    [⟨"t.py", .ok (.holding [.template "t" ⟨"t", [.text "hi"], none, none⟩])⟩] []).2

theorem get_agrees_greetingContext :
    (∃ d, greetingContext.get true "t" = .ok (.object 1, d)) ∧
      (∃ d, greetingContext.get true "t." = .ok (.object 1, d)) ∧
      greetingContext.lookedUp "t." = .ok .null ∧
      ∃ hint, greetingContext.get true "t.." = .error (.unknownTemplate "t.." hint) := by
  have hcache : greetingContext.cache = .empty := rfl
  have hbehind {x : String} (hx : x.toList.getLast? ≠ some '.' ∨ x.toList.dropLast.contains '.')
      (head : String) (hhead : '.' ∉ head.toList) : x ≠ head ++ "." := by
    rintro rfl
    simp [hhead] at hx
  obtain ⟨hsame, hdot⟩ := get_agrees hcache
  refine ⟨((hsame "t" (hbehind (by decide))).found _).mpr ⟨rfl, rfl⟩,
    ((hdot "t" (by decide)).found _).mpr ⟨rfl, rfl⟩, rfl, ?_⟩
  refine (hsame "t.." (hbehind (by decide))).unknown fun v hv => ?_
  have hnull : greetingContext.lookedUp "t.." = .ok .null := rfl
  cases hnull.symm.trans hv
  rfl

end Context

end TemplateHost
