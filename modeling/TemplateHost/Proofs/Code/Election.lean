import TemplateHost.Proofs.Code.Registries
import Mathlib.Data.List.Find
import Mathlib.Data.List.Induction
import Mathlib.Data.List.Nodup

/-!
# Electing delegates

Candidates are registered one after the other, and one that is refused is passed over. For each id
and variant the first candidate with the highest priority is the one that counts: the two registries
hold its priority and its function under one key, and no other candidate has that key, since an id
has no colon. So the outcome depends on the order of the candidates only where priorities are equal.
-/
namespace TemplateHost

namespace Delegates

/-- A function that is to be registered for an id and a variant. -/
structure Candidate where
  id : String
  variant : String
  priority : Int
  function : Value

namespace Candidate

structure Eligible (x : Candidate) : Prop where
  id : ':' ∉ x.id.toList
  function : x.function ≠ .null

def standing (xs : List Candidate) (id variant : String) : List Candidate :=
  xs.filter fun x => x.id = id ∧ x.variant = variant

/-- Whether no candidate has a higher priority than one of them. -/
def tops (xs : List Candidate) (x : Candidate) : Bool := xs.all fun y => y.priority ≤ x.priority

def highest? (xs : List Candidate) : Option Candidate := xs.find? (tops xs)

/-- The first candidate with the highest priority for an id and a variant. -/
def foremost? (xs : List Candidate) (id variant : String) : Option Candidate :=
  highest? (standing xs id variant)

/-- No two candidates for the same id and variant have the same priority. -/
def Distinct (xs : List Candidate) : Prop :=
  xs.Pairwise fun x y => x.id = y.id → x.variant = y.variant → x.priority ≠ y.priority

/-- Whether a candidate has the highest priority that there is for its id and its variant. -/
def Ties (x : Candidate) (xs : List Candidate) : Prop :=
  (foremost? xs x.id x.variant).map (·.priority) = some x.priority

instance (x : Candidate) (xs : List Candidate) : Decidable (x.Ties xs) :=
  inferInstanceAs (Decidable (_ = _))

def verdict (x : Candidate) (xs : List Candidate) : Except Fault Value :=
  if x.Ties xs then .error (.tiedDelegates x.id x.variant) else .ok .null

def outcome (xs : List Candidate) (empty : Value) (id variant : String) (allowEmpty : Value) :
    Except Fault Value :=
  match (foremost? xs id variant).or (foremost? xs id "") with
  | some x => .ok x.function
  | none => if allowEmpty.isTrue then .ok empty else .error (.noDelegate id variant)

end Candidate

open Candidate
variable {xs ys : List Candidate} {x : Candidate} {id id' v v' : String} {p f : Entries}

/-- The text before the first colon of a key tells the id. -/
theorem keyText_inj (hid : ':' ∉ id.toList) (hid' : ':' ∉ id'.toList) :
    keyText id v = keyText id' v' ↔ id = id' ∧ v = v' := by
  refine ⟨fun h => ?_, fun ⟨hi, hv⟩ => hi ▸ hv ▸ rfl⟩
  have htext : id.toList ++ ':' :: v.toList = id'.toList ++ ':' :: v'.toList := by
    have hlist := congrArg String.toList h
    simp only [keyText, String.toList_append, List.append_assoc] at hlist
    exact List.append_cancel_left hlist
  have hbefore {i w : String} (hi : ':' ∉ i.toList) :
      (i.toList ++ ':' :: w.toList).takeWhile (· ≠ ':') = i.toList := by
    have hother : ∀ a ∈ i.toList, decide (a ≠ ':') = true := fun a ha =>
      decide_eq_true fun heq => hi (heq ▸ ha)
    rw [List.takeWhile_append_of_pos hother, List.takeWhile_cons_of_neg (by simp),
      List.append_nil]
  have hsame : id.toList = id'.toList := by
    rw [← hbefore (w := v) hid, htext, hbefore hid']
  rw [hsame] at htext
  exact ⟨String.toList_inj.mp hsame,
    String.toList_inj.mp (List.cons.inj (List.append_cancel_left htext)).2⟩

theorem judge_int (m n : Int) :
    judge (some (.int m)) (.int n) =
      if m < n then .accepted else if n = m then .tied else .ignored := by
  have hless : (Value.int m).less? (.int n) = some (decide (m < n)) :=
    congrArg some (decide_eq_decide.mpr (by simp [Number.Numeric.compare?, Int.compare_eq_lt]))
  have hsame : (Value.int n).same (.int m) = decide (n = m) :=
    decide_eq_decide.mpr (by simp [Number.Numeric.compare?])
  unfold judge
  dsimp only
  rw [hless, hsame]
  by_cases h : m < n <;> simp [h]

namespace Candidate

theorem tops_iff : tops xs x = true ↔ ∀ y ∈ xs, y.priority ≤ x.priority := by
  unfold tops
  rw [List.all_eq_true]
  exact forall₂_congr fun _ _ => decide_eq_true_iff

theorem mem_of_highest? (h : highest? xs = some x) : x ∈ xs := List.mem_of_find?_eq_some h

theorem le_of_highest? (h : highest? xs = some x) {y : Candidate} (hy : y ∈ xs) :
    y.priority ≤ x.priority := tops_iff.mp (List.find?_some h) y hy

theorem highest?_concat_of_some {y : Candidate} (h : highest? xs = some y) (x : Candidate) :
    highest? (xs ++ [x]) = if y.priority < x.priority then some x else some y := by
  have hle {z : Candidate} (hz : z ∈ xs) : z.priority ≤ y.priority := le_of_highest? h hz
  unfold highest? at h ⊢
  rw [List.find?_append]
  by_cases hlt : y.priority < x.priority
  · have hnone : xs.find? (tops (xs ++ [x])) = none := by
      refine List.find?_eq_none.mpr fun z hz htops => ?_
      have hxz : x.priority ≤ z.priority := tops_iff.mp htops x (by simp)
      have hzy := hle hz
      omega
    have hlast : tops (xs ++ [x]) x = true := by
      refine tops_iff.mpr fun w hw => ?_
      rcases List.mem_append.mp hw with hw | hw
      · have hwy := hle hw
        omega
      · obtain rfl := List.mem_singleton.mp hw
        exact Int.le_refl _
    rw [hnone, if_pos hlt, Option.none_or, List.find?_cons_of_pos hlast]
  · -- the new candidate does not bear on which of the others is the highest one
    have hsame : ∀ z ∈ xs, tops (xs ++ [x]) z = tops xs z := by
      intro z hz
      refine Bool.eq_iff_iff.mpr ((tops_iff.trans ⟨fun hall w hw => ?_, fun hall w hw => ?_⟩).trans
        tops_iff.symm)
      · exact hall w (List.mem_append_left _ hw)
      · rcases List.mem_append.mp hw with hw | hw
        · exact hall w hw
        · have hyz := hall y (List.mem_of_find?_eq_some h)
          rw [List.mem_singleton.mp hw]
          omega
    rw [if_neg hlt, List.find?_congr hsame, h, Option.some_or]

theorem highest?_eq_none : highest? xs = none ↔ xs = [] := by
  refine ⟨fun h => ?_, fun h => h ▸ rfl⟩
  induction xs using List.reverseRecOn with
  | nil => rfl
  | append_singleton xs x ih =>
    cases hxs : highest? xs with
    | none =>
      rw [ih hxs] at h
      have hself : tops [x] x = true := tops_iff.mpr (by simp)
      exact absurd (List.find?_eq_none.mp h x (by simp)) (not_not.mpr hself)
    | some y =>
      rw [highest?_concat_of_some hxs] at h
      split at h <;> cases h

theorem highest?_concat (xs : List Candidate) (x : Candidate) :
    highest? (xs ++ [x]) = match highest? xs with
      | none => some x
      | some y => if y.priority < x.priority then some x else some y := by
  cases hxs : highest? xs with
  | none =>
    rw [highest?_eq_none.mp hxs]
    exact List.find?_cons_of_pos (tops_iff.mpr (by simp))
  | some y => exact highest?_concat_of_some hxs x

theorem foremost?_concat (xs : List Candidate) (x : Candidate) (id v : String) :
    foremost? (xs ++ [x]) id v =
      if x.id = id ∧ x.variant = v then
        match foremost? xs id v with
        | none => some x
        | some y => if y.priority < x.priority then some x else some y
      else foremost? xs id v := by
  have hstanding : standing (xs ++ [x]) id v =
      standing xs id v ++ if x.id = id ∧ x.variant = v then [x] else [] := by
    unfold standing
    rw [List.filter_append, List.filter_singleton, Bool.cond_decide]
  unfold foremost?
  rw [hstanding]
  by_cases h : x.id = id ∧ x.variant = v
  · rw [if_pos h, if_pos h, highest?_concat]
  · rw [if_neg h, if_neg h, List.append_nil]

theorem mem_of_foremost? (h : foremost? xs id v = some x) : x ∈ xs :=
  List.mem_of_mem_filter (mem_of_highest? h)

theorem mem_standing : x ∈ standing xs id v ↔ x ∈ xs ∧ x.id = id ∧ x.variant = v := by
  unfold standing
  rw [List.mem_filter, decide_eq_true_eq]

theorem Distinct.nodup (h : Distinct xs) (id v : String) :
    ((standing xs id v).map (·.priority)).Nodup := by
  refine List.pairwise_map.mpr ((h.filter _).imp_of_mem fun hx hy hne => ?_)
  obtain ⟨-, hxid, hxv⟩ := mem_standing.mp hx
  obtain ⟨-, hyid, hyv⟩ := mem_standing.mp hy
  exact hne (hxid.trans hyid.symm) (hxv.trans hyv.symm)

theorem highest?_of_perm (h : ys.Perm xs) (hnodup : (xs.map (·.priority)).Nodup) :
    highest? ys = highest? xs := by
  cases hx : highest? xs with
  | none =>
    rw [highest?_eq_none] at hx ⊢
    rw [hx] at h
    exact h.eq_nil
  | some x =>
    cases hy : highest? ys with
    | none =>
      rw [highest?_eq_none] at hy
      rw [hy] at h
      rw [← h.nil_eq] at hx
      cases hx
    | some y =>
      have hle : y.priority ≤ x.priority := le_of_highest? hx (h.subset (mem_of_highest? hy))
      have hge : x.priority ≤ y.priority :=
        le_of_highest? hy (h.symm.subset (mem_of_highest? hx))
      rw [List.inj_on_of_nodup_map hnodup (h.subset (mem_of_highest? hy)) (mem_of_highest? hx)
        (Int.le_antisymm hle hge)]

/-- Where no two priorities are equal, the order does not matter. -/
theorem foremost?_of_perm (h : ys.Perm xs) (hdistinct : Distinct xs) (id v : String) :
    foremost? ys id v = foremost? xs id v :=
  highest?_of_perm (h.filter _) (hdistinct.nodup id v)

end Candidate

end Delegates

namespace Run
open Delegates Delegates.Candidate
variable {s t : Store} {k : ScopeId} {xs ys : List Candidate} {x : Candidate} {p f : Entries}

def enroll (k : ScopeId) (x : Candidate) : Run Value :=
  registerDelegate k (.str x.id) (.str x.variant) (.int x.priority) x.function

def enlist (k : ScopeId) (s : Store) (xs : List Candidate) : Store :=
  xs.foldl (fun s x => (on (enroll k x) s).2) s

/-- The registries hold the foremost candidates, and the other names of the scope are as before. -/
structure Tally (k : ScopeId) (s : Store) (xs : List Candidate) (p f : Entries) (t : Store) : Prop
    where
  registries : t.Registries k p f
  priorities {id v : String} : ':' ∉ id.toList →
    Entries.get? (key id v) p = (foremost? xs id v).map fun x => .int x.priority
  functions {id v : String} : ':' ∉ id.toList →
    Entries.get? (key id v) f = (foremost? xs id v).map (·.function)
  others {n : String} : n ≠ prioritiesName → n ≠ functionsName →
    (t.scope k).get? n = (s.scope k).get? n

theorem tally_nil (hs : s.Registries k [] []) : Tally k s [] [] [] s :=
  ⟨hs, fun _ => rfl, fun _ => rfl, fun _ _ => rfl⟩

theorem Tally.keep (h : Tally k s xs p f t)
    (hsame : foremost? (xs ++ [x]) x.id x.variant = foremost? xs x.id x.variant) :
    Tally k s (xs ++ [x]) p f t := by
  have hall (id v : String) : foremost? (xs ++ [x]) id v = foremost? xs id v := by
    by_cases hfor : x.id = id ∧ x.variant = v
    · obtain ⟨rfl, rfl⟩ := hfor
      exact hsame
    · rw [foremost?_concat, if_neg hfor]
  exact ⟨h.registries, fun hid => hall _ _ ▸ h.priorities hid,
    fun hid => hall _ _ ▸ h.functions hid, h.others⟩

theorem Tally.enter (h : Tally k s xs p f t) (hx : x.Eligible)
    (hfirst : foremost? (xs ++ [x]) x.id x.variant = some x) :
    Tally k s (xs ++ [x]) (Entries.set (key x.id x.variant) (.int x.priority) p)
      (Entries.set (key x.id x.variant) x.function f)
      (t.withRegistries k (Entries.set (key x.id x.variant) (.int x.priority) p)
        (Entries.set (key x.id x.variant) x.function f)) := by
  -- the key of another pair is another key
  have hentry {id v : String} (hid : ':' ∉ id.toList) {l : Entries} {w : Value}
      {g : Candidate → Value} (hl : Entries.get? (key id v) l = (foremost? xs id v).map g)
      (hw : g x = w) : Entries.get? (key id v) (Entries.set (key x.id x.variant) w l) =
        (foremost? (xs ++ [x]) id v).map g := by
    by_cases hfor : x.id = id ∧ x.variant = v
    · obtain ⟨rfl, rfl⟩ := hfor
      rw [hfirst, Option.map_some, hw]
      exact Entries.get?_set_self _ _ _
    · rw [foremost?_concat, if_neg hfor, ← hl]
      exact Entries.get?_set_ne (fun heq => hfor ((keyText_inj hx.id hid).mp heq.symm)) _ _
  have hscope := h.registries.scope
  exact ⟨Store.registries_withRegistries hscope _ _, fun hid => hentry hid (h.priorities hid) rfl,
    fun hid => hentry hid (h.functions hid) rfl, fun hp hf =>
    (Store.get?_withRegistries hscope _ _ hp hf).trans (h.others hp hf)⟩

theorem Tally.step (h : Tally k s xs p f t) (hx : x.Eligible) :
    ∃ p' f' t', on (enroll k x) t = (x.verdict xs, t') ∧ Tally k s (xs ++ [x]) p' f' t' ∧
      (x.Ties xs → t' = t) := by
  have htext (a : String) : Library.textOf t.describer (.str a) = .ok a := rfl
  have hrun := on_registerDelegate h.registries (htext x.id) (htext x.variant) (.int x.priority)
    x.function
  have hfirst := foremost?_concat xs x x.id x.variant
  rw [if_pos ⟨rfl, rfl⟩] at hfirst
  rw [h.priorities hx.id] at hrun
  cases hbest : foremost? xs x.id x.variant with
  | none =>
    rw [hbest] at hrun hfirst
    have hnot : ¬x.Ties xs := by simp [Ties, hbest]
    rw [verdict, if_neg hnot]
    exact ⟨_, _, _, hrun, h.enter hx hfirst, fun hties => absurd hties hnot⟩
  | some y =>
    rw [hbest] at hrun hfirst
    rw [Option.map_some, judge_int] at hrun
    dsimp only at hfirst
    have hties : x.Ties xs ↔ y.priority = x.priority := by simp [Ties, hbest]
    rcases Int.lt_trichotomy y.priority x.priority with hlt | heq | hgt
    · rw [if_pos hlt] at hrun hfirst
      have hnot : ¬x.Ties xs := mt hties.mp hlt.ne
      rw [verdict, if_neg hnot]
      exact ⟨_, _, _, hrun, h.enter hx hfirst, fun hties => absurd hties hnot⟩
    · rw [if_neg heq.not_lt, if_pos heq.symm] at hrun
      rw [if_neg heq.not_lt] at hfirst
      rw [verdict, if_pos (hties.mpr heq)]
      exact ⟨p, f, t, hrun, h.keep (hfirst.trans hbest.symm), fun _ => rfl⟩
    · rw [if_neg hgt.not_gt, if_neg hgt.ne] at hrun
      rw [if_neg hgt.not_gt] at hfirst
      rw [verdict, if_neg (mt hties.mp hgt.ne')]
      exact ⟨p, f, t, hrun, h.keep (hfirst.trans hbest.symm), fun _ => rfl⟩

theorem tally_enlist (hs : s.Registries k [] []) (hxs : ∀ x ∈ xs, x.Eligible) :
    ∃ p f, Tally k s xs p f (enlist k s xs) := by
  induction xs using List.reverseRecOn with
  | nil => exact ⟨[], [], tally_nil hs⟩
  | append_singleton xs x ih =>
    obtain ⟨p, f, h⟩ := ih fun y hy => hxs y (List.mem_append_left _ hy)
    obtain ⟨p', f', t, hrun, ht, -⟩ := h.step (hxs x (by simp))
    refine ⟨p', f', ?_⟩
    unfold enlist at hrun ⊢
    rw [List.foldl_concat, hrun]
    exact ht

theorem Tally.on_select (h : Tally k s xs p f t) (hxs : ∀ x ∈ xs, x.Eligible) {empty : Value}
    (hempty : (s.scope k).get? (Routine.name .emptyTemplate) = some empty) {id : String}
    (hid : ':' ∉ id.toList) {variant : Value} {v : String}
    (hv : variantText t.describer variant = .ok v) (allowEmpty : Value) :
    on (selectDelegate k (.str id) variant allowEmpty) t =
      (outcome xs empty id v allowEmpty, t) := by
  have hfind (w : String) : find? f id w = (foremost? xs id w).map (·.function) := by
    refine find?_eq_of_get? (h.functions hid) fun hnull => ?_
    obtain ⟨x, hbest, hfunction⟩ := Option.map_eq_some_iff.mp hnull
    exact (hxs x (mem_of_foremost? hbest)).function hfunction
  have hlast : on (global k (Routine.name .emptyTemplate)) t = (.ok empty, t) := by
    rw [on_global, h.others (by decide) (by decide), hempty]
  rw [on_selectDelegate_of_text h.registries id hv, hlast]
  unfold selection outcome select?
  rw [hfind, hfind]
  cases hbest : foremost? xs id v with
  | some x => rfl
  | none =>
    by_cases hdefault : v = ""
    · subst v
      rw [hbest]
      rfl
    · rw [Option.none_or, Option.map_none]
      dsimp only
      rw [if_neg (mt String.isEmpty_iff.mp hdefault)]
      cases foremost? xs id "" <;> rfl

def elected (k : ScopeId) (s : Store) (xs : List Candidate) (id v : String) (allowEmpty : Value) :
    Except Fault Value × Store :=
  on (selectDelegate k (.str id) (.str v) allowEmpty) (enlist k s xs)

theorem elected_eq (hs : s.Registries k [] []) {empty : Value}
    (hempty : (s.scope k).get? (Routine.name .emptyTemplate) = some empty)
    (hxs : ∀ x ∈ xs, x.Eligible) {id : String} (hid : ':' ∉ id.toList) (v : String)
    (allowEmpty : Value) : elected k s xs id v allowEmpty =
      (outcome xs empty id v allowEmpty, enlist k s xs) := by
  obtain ⟨p, f, htally⟩ := tally_enlist hs hxs
  exact htally.on_select hxs hempty hid rfl allowEmpty

/-- **The foremost candidate is elected.** Candidates are registered in two empty registries. One of
them is refused just if it ties with the foremost candidate before it, and that changes nothing.
Then the foremost candidate for an id and a variant is selected, or else the one for the default
variant, or else the empty template if that is allowed. Candidates for other ids and variants do not
matter, nor does the order if no two candidates for the same id and variant have the same
priority. -/
theorem foremost_elected (hs : s.Registries k [] []) {empty : Value}
    (hempty : (s.scope k).get? (Routine.name .emptyTemplate) = some empty)
    (hxs : ∀ x ∈ xs, x.Eligible) :
    (∀ before x after, xs = before ++ x :: after →
      (on (enroll k x) (enlist k s before)).1 = x.verdict before ∧
      (x.Ties before → (on (enroll k x) (enlist k s before)).2 = enlist k s before)) ∧
    (∀ id v allowEmpty, ':' ∉ id.toList → elected k s xs id v allowEmpty =
      (outcome xs empty id v allowEmpty, enlist k s xs)) ∧
    (∀ ys id v allowEmpty, (∀ y ∈ ys, y.Eligible) → ':' ∉ id.toList →
      standing ys id v = standing xs id v → standing ys id "" = standing xs id "" →
      (elected k s ys id v allowEmpty).1 = (elected k s xs id v allowEmpty).1) ∧
    (Distinct xs → ∀ ys id v allowEmpty, ys.Perm xs → ':' ∉ id.toList →
      (elected k s ys id v allowEmpty).1 = (elected k s xs id v allowEmpty).1) := by
  -- what is selected only depends on the foremost candidates for two variants
  have hsame {ys : List Candidate} {id v : String} {allowEmpty : Value}
      (hys : ∀ y ∈ ys, y.Eligible) (hid : ':' ∉ id.toList)
      (hv : foremost? ys id v = foremost? xs id v)
      (hdefault : foremost? ys id "" = foremost? xs id "") :
      (elected k s ys id v allowEmpty).1 = (elected k s xs id v allowEmpty).1 := by
    rw [elected_eq hs hempty hys hid, elected_eq hs hempty hxs hid]
    unfold outcome
    rw [hv, hdefault]
  refine ⟨fun before x after hsplit => ?_,
    fun id v allowEmpty hid => elected_eq hs hempty hxs hid v allowEmpty,
    fun ys id v allowEmpty hys hid hv hdefault => ?_,
    fun hdistinct ys id v allowEmpty hperm hid => ?_⟩
  · have hbefore : ∀ y ∈ before, y.Eligible := fun y hy => hxs y (by simp [hsplit, hy])
    obtain ⟨p, f, htally⟩ := tally_enlist hs hbefore
    obtain ⟨p', f', t, hrun, -, hties⟩ := htally.step (hxs x (by simp [hsplit]))
    rw [hrun]
    exact ⟨rfl, hties⟩
  · exact hsame hys hid (congrArg highest? hv) (congrArg highest? hdefault)
  · exact hsame (fun y hy => hxs y (hperm.subset hy)) hid (foremost?_of_perm hperm hdistinct id v)
      (foremost?_of_perm hperm hdistinct id "")

/-- Two candidates for the default variant of an id and two for another one of its variants. -/
def ballot : List Candidate := [⟨"d", "", 0, .object 1⟩, ⟨"d", "a", 2, .object 2⟩,
  ⟨"d", "", 1, .object 3⟩, ⟨"d", "a", 1, .object 4⟩]

theorem foremost_elected_ballot : unregistered.Registries 0 [] [] ∧ (∀ x ∈ ballot, x.Eligible) ∧
    (on (enroll 0 ⟨"d", "a", 2, .object 1⟩) (enlist 0 unregistered ballot)).1 =
      .error (.tiedDelegates "d" "a") ∧
    (elected 0 unregistered ballot "d" "a" (.bool false)).1 = .ok (.object 2) ∧
    (elected 0 unregistered ballot "d" "b" (.bool false)).1 = .ok (.object 3) ∧
    (elected 0 unregistered ballot "e" "b" (.bool true)).1 = .ok (.object 0) ∧
    (elected 0 unregistered ballot.reverse "d" "a" (.bool false)).1 =
      (elected 0 unregistered ballot "d" "a" (.bool false)).1 := by
  have hs := registries_unregistered
  have hballot : ∀ x ∈ ballot, x.Eligible := by
    have hids : ∀ x ∈ ballot, ':' ∉ x.id.toList := by decide
    have hfunctions : ∀ x ∈ ballot, x.function ≠ .null := by simp [ballot]
    exact fun x hx => ⟨hids x hx, hfunctions x hx⟩
  have hnext : ∀ x ∈ ballot ++ [⟨"d", "a", 2, .object 1⟩], x.Eligible := by
    intro x hx
    rcases List.mem_append.mp hx with hx | hx
    · exact hballot x hx
    · obtain rfl := List.mem_singleton.mp hx
      exact ⟨by decide, by simp⟩
  have hempty : (unregistered.scope 0).get? (Routine.name .emptyTemplate) = some (.object 0) := rfl
  obtain ⟨hrefused, -⟩ := foremost_elected hs hempty hnext
  obtain ⟨-, hselected, -, hperm⟩ := foremost_elected hs hempty hballot
  have hdistinct : Distinct ballot := by
    unfold Distinct
    decide
  exact ⟨hs, hballot, (hrefused ballot _ [] rfl).1,
    congrArg Prod.fst (hselected _ _ _ (by decide)),
    congrArg Prod.fst (hselected _ _ _ (by decide)),
    congrArg Prod.fst (hselected _ _ _ (by decide)),
    hperm hdistinct _ _ _ _ (List.reverse_perm _) (by decide)⟩

end Run

end TemplateHost
