import Mathlib.Data.List.Basic
import Mathlib.Data.List.Induction
import Mathlib.Data.List.TakeWhile
import TemplateHost.Files.Tree
import TemplateHost.Proofs.Text.Search

/-!
# Where paths lead

A path leads to a place whether or not anything is there: its steps are names to go down by, or
double dots to go up by. Normal forms lead where their paths lead, and go up before they go down.
-/
namespace TemplateHost.Path
open Text

/-- A step that goes down. -/
structure IsName (n : String) : Prop where
  ne_empty : n ≠ ""
  ne_dot : n ≠ "."
  ne_dots : n ≠ ".."
  no_slash : '/' ∉ n.toList

instance (n : String) : Decidable (IsName n) :=
  decidable_of_iff (n ≠ "" ∧ n ≠ "." ∧ n ≠ ".." ∧ '/' ∉ n.toList)
    ⟨fun ⟨he, hd, hds, hs⟩ => ⟨he, hd, hds, hs⟩,
      fun h => ⟨h.ne_empty, h.ne_dot, h.ne_dots, h.no_slash⟩⟩

def walk (p : Place) (step : String) : Place :=
  if step = "" ∨ step = "." then p
  else if step = ".." then p.dropLast
  else p ++ [step]

def place (cwd : Place) (p : String) : Place :=
  (steps p).foldl walk (if isAbsolute p then [] else cwd)

theorem steps_append_slash (a b : String) : steps (a ++ "/" ++ b) = steps a ++ steps b := by
  simp [steps, splitAt_append_cons]

theorem steps_join {ns : List String} (hne : ns ≠ []) (hns : ∀ n ∈ ns, '/' ∉ n.toList) :
    steps (join "/" ns) = ns := splitAt_join '/' hne hns

theorem steps_of_no_slash {n : String} (hn : '/' ∉ n.toList) : steps n = [n] := by
  have hjoin := steps_join (List.cons_ne_nil n []) (by simpa using hn)
  rwa [join, String.intercalate_singleton] at hjoin

theorem no_slash_of_mem_steps {p n : String} (hn : n ∈ steps p) : '/' ∉ n.toList := by
  obtain ⟨l, hl, rfl⟩ := List.mem_map.mp hn
  rw [String.toList_ofList]
  exact not_mem_of_mem_splitAt hl

theorem IsName.pushStep {n : String} (hn : IsName n) (rooted : Bool) (done : List String) :
    pushStep rooted done n = n :: done := by
  simp [Path.pushStep, hn.ne_empty, hn.ne_dot, hn.ne_dots]

theorem IsName.walk {n : String} (hn : IsName n) (p : Place) : walk p n = p ++ [n] := by
  simp [Path.walk, hn.ne_empty, hn.ne_dot, hn.ne_dots]

theorem pushStep_climbing (k : Nat) :
    pushStep false (List.replicate k "..") ".." = List.replicate (k + 1) ".." := by
  cases k with
  | zero => rfl
  | succ k => simp [pushStep, List.replicate_succ]

/-- One more step, after steps that go up first and then down by names: there are such steps again,
and they lead where the step leads. -/
theorem pushStep_climb (rooted : Bool) {k : Nat} {ns : List String} (hns : ∀ n ∈ ns, IsName n)
    (hk : rooted = true → k = 0) {s : String} (hs : '/' ∉ s.toList) :
    ∃ j ms, (pushStep rooted (ns.reverse ++ List.replicate k "..") s).reverse =
        List.replicate j ".." ++ ms ∧ (∀ n ∈ ms, IsName n) ∧ (rooted = true → j = 0) ∧
      ∀ q : Place, (rooted = true → q = []) → (List.replicate j ".." ++ ms).foldl walk q =
        walk ((List.replicate k ".." ++ ns).foldl walk q) s := by
  by_cases hskip : s = "" ∨ s = "."
  · exact ⟨k, ns, by simp [pushStep, hskip], hns, hk, fun q _ => by simp [walk, hskip]⟩
  by_cases hup : s = ".."
  · subst s
    rcases List.eq_nil_or_concat ns with rfl | ⟨ms, n, rfl⟩
    · cases rooted with
      | true =>
        refine ⟨0, [], by simp [pushStep, hk], hns, fun _ => rfl, fun q hq => ?_⟩
        simp [hk, hq, walk]
      | false =>
        refine ⟨k + 1, [], ?_, hns, nofun, fun q _ => ?_⟩
        · rw [List.reverse_nil, List.nil_append, pushStep_climbing, List.reverse_replicate,
            List.append_nil]
        · rw [List.append_nil, List.append_nil, List.replicate_succ', List.foldl_append]
          rfl
    · rw [List.concat_eq_append] at hns ⊢
      have hn : IsName n := hns n (by simp)
      refine ⟨k, ms, by simp [pushStep, hn.ne_dots], fun m hm => ?_, hk, fun q _ => ?_⟩
      · exact hns m (List.mem_append_left _ hm)
      · rw [← List.append_assoc, List.foldl_concat, hn.walk]
        simp [walk]
  · have hname : IsName s := ⟨fun h => hskip (Or.inl h), fun h => hskip (Or.inr h), hup, hs⟩
    refine ⟨k, ns ++ [s], by simp [hname.pushStep], fun m hm => ?_, hk, fun q _ => ?_⟩
    · rcases List.mem_append.mp hm with hm | hm
      · exact hns m hm
      · rwa [List.mem_singleton.mp hm]
    · rw [← List.append_assoc, List.foldl_concat]

/-- Normal steps go up first, and from the root they only go down. They lead where the steps
lead. -/
theorem normalSteps_climb (rooted : Bool) {ss : List String} (hs : ∀ s ∈ ss, '/' ∉ s.toList) :
    ∃ k ns, normalSteps rooted ss = List.replicate k ".." ++ ns ∧ (∀ n ∈ ns, IsName n) ∧
      (rooted = true → k = 0) ∧ ∀ q : Place, (rooted = true → q = []) →
        (normalSteps rooted ss).foldl walk q = ss.foldl walk q := by
  induction ss using List.reverseRecOn with
  | nil => exact ⟨0, [], by simp [normalSteps]⟩
  | append_singleton ss s ih =>
    obtain ⟨k, ns, heq, hns, hk, hwalk⟩ := ih fun t ht => hs t (List.mem_append_left _ ht)
    obtain ⟨j, ms, hpush, hms, hj, hstep⟩ := pushStep_climb rooted hns hk (hs s (by simp))
    have hdone : ss.foldl (pushStep rooted) [] = ns.reverse ++ List.replicate k ".." := by
      rw [← List.reverse_inj, ← normalSteps, heq]
      simp
    have hnext : normalSteps rooted (ss ++ [s]) = List.replicate j ".." ++ ms := by
      rw [← hpush, ← hdone]
      simp [normalSteps]
    refine ⟨j, ms, hnext, hms, hj, fun q hq => ?_⟩
    rw [hnext, hstep q hq, ← heq, hwalk q hq, List.foldl_concat]

theorem foldl_walk_normalSteps (rooted : Bool) {q : Place} (hq : rooted = true → q = [])
    {ss : List String} (hs : ∀ s ∈ ss, '/' ∉ s.toList) :
    (normalSteps rooted ss).foldl walk q = ss.foldl walk q := by
  obtain ⟨-, -, -, -, -, hwalk⟩ := normalSteps_climb rooted hs
  exact hwalk q hq

theorem root_cases (p : String) :
    isAbsolute p = false ∧ root p = "" ∨ isAbsolute p = true ∧ (root p = "/" ∨ root p = "//") := by
  unfold isAbsolute root
  split
  · simp [*]
  · simp [*]
  · simp [*]
  · rename_i hnot
    refine Or.inl ⟨?_, rfl⟩
    cases hp : p.toList with
    | nil => rfl
    | cons c r =>
      have hc : c ≠ '/' := by
        rintro rfl
        exact hnot r hp
      simp [hc]

theorem root_of_isAbsolute {p : String} (hp : isAbsolute p = true) :
    root p = "/" ∨ root p = "//" := by
  rcases root_cases p with ⟨habs, -⟩ | ⟨-, hroot⟩
  · rw [hp] at habs
    cases habs
  · exact hroot

theorem isAbsolute_iff_root (p : String) : isAbsolute p = true ↔ root p ≠ "" := by
  rcases root_cases p with ⟨habs, hroot⟩ | ⟨habs, hroot | hroot⟩
  · simp [habs, hroot]
  · simp [habs, hroot]
  · simp [habs, hroot]

theorem isAbsolute_iff (p : String) : isAbsolute p = true ↔ ∃ r, p = "/" ++ r := by
  constructor
  · intro h
    cases hp : p.toList with
    | nil => simp [isAbsolute, hp] at h
    | cons c r =>
      obtain rfl : c = '/' := by simpa [isAbsolute, hp] using h
      exact ⟨String.ofList r, by rw [← String.toList_inj, hp]; simp⟩
  · rintro ⟨r, rfl⟩
    simp [isAbsolute]

/-- A path that goes up `k` steps, if it does not start at the root, and then down by names. -/
structure Direct (p lead : String) (k : Nat) (ns : List String) : Prop where
  eq : p = lead ++ join "/" (List.replicate k ".." ++ ns)
  start : lead = "" ∧ List.replicate k ".." ++ ns ≠ [] ∨ (lead = "/" ∨ lead = "//") ∧ k = 0
  names : ∀ n ∈ ns, IsName n

variable {p lead : String} {k : Nat} {ns : List String}

theorem climb_or_name {k : Nat} {ns : List String} (hns : ∀ n ∈ ns, IsName n) {n : String}
    (hn : n ∈ List.replicate k ".." ++ ns) : n ≠ "" ∧ '/' ∉ n.toList := by
  rcases List.mem_append.mp hn with hn | hn
  · rw [List.eq_of_mem_replicate hn]
    decide
  · exact ⟨(hns n hn).ne_empty, (hns n hn).no_slash⟩

theorem steps_join_climb {k : Nat} {ns : List String} (hns : ∀ n ∈ ns, IsName n)
    (hne : List.replicate k ".." ++ ns ≠ []) :
    steps (join "/" (List.replicate k ".." ++ ns)) = List.replicate k ".." ++ ns :=
  steps_join hne fun _ hn => (climb_or_name hns hn).2

theorem steps_slash_append (a : String) : steps ("/" ++ a) = "" :: steps a := by
  have h := steps_append_slash "" a
  rwa [String.empty_append] at h

theorem exists_steps_lead (hl : lead = "/" ∨ lead = "//") (a : String) :
    ∃ es, steps (lead ++ a) = es ++ steps a ∧ ∀ e ∈ es, e = "" := by
  rcases hl with rfl | rfl
  · exact ⟨[""], steps_slash_append a, by simp⟩
  · refine ⟨["", ""], ?_, by simp⟩
    rw [show "//" ++ a = "/" ++ ("/" ++ a) by rw [← String.append_assoc]; rfl,
      steps_slash_append, steps_slash_append]
    rfl

theorem isAbsolute_lead (hl : lead = "/" ∨ lead = "//") (a : String) :
    isAbsolute (lead ++ a) = true := by
  refine (isAbsolute_iff _).mpr ?_
  rcases hl with rfl | rfl
  · exact ⟨a, rfl⟩
  · exact ⟨"/" ++ a, by rw [← String.append_assoc]; rfl⟩

theorem relative_of_steps {a : String} (ha : "" ∉ steps a) : a ≠ "" ∧ isAbsolute a = false := by
  constructor
  · rintro rfl
    exact ha (by decide)
  · rw [Bool.eq_false_iff]
    intro habs
    obtain ⟨r, rfl⟩ := (isAbsolute_iff a).mp habs
    rw [steps_slash_append] at ha
    exact ha List.mem_cons_self

theorem Direct.steps (hp : Direct p lead k ns) :
    ∃ es, steps p = es ++ (List.replicate k ".." ++ ns) ∧ ∀ e ∈ es, e = "" := by
  have hjoin := steps_join_climb (k := k) hp.names
  rw [hp.eq]
  rcases hp.start with ⟨rfl, hne⟩ | ⟨hl, rfl⟩
  · exact ⟨[], by rw [String.empty_append, hjoin hne]; rfl, by simp⟩
  · obtain ⟨es, hes, hempty⟩ := exists_steps_lead hl (join "/" (List.replicate 0 ".." ++ ns))
    by_cases hne : List.replicate 0 ".." ++ ns = []
    · refine ⟨es ++ [""], ?_, fun e he => ?_⟩
      on_goal 2 => simpa using (List.mem_append.mp he).imp_left (hempty e)
      rw [hes, hne]
      simp [join, Path.steps, splitAt]
    · exact ⟨es, by rw [hes, hjoin hne], hempty⟩

theorem Direct.start_cases (hp : Direct p lead k ns) :
    lead = "" ∧ p ≠ "" ∧ isAbsolute p = false ∨ lead ≠ "" ∧ isAbsolute p = true := by
  rcases hp.start with ⟨rfl, hne⟩ | ⟨hl, -⟩
  · refine Or.inl ⟨rfl, relative_of_steps fun hmem => ?_⟩
    rw [hp.eq, String.empty_append, steps_join_climb hp.names hne] at hmem
    exact (climb_or_name hp.names hmem).1 rfl
  · refine Or.inr ⟨?_, hp.eq ▸ isAbsolute_lead hl _⟩
    rcases hl with rfl | rfl
    · decide
    · decide

theorem Direct.ne_empty (hp : Direct p lead k ns) : p ≠ "" := by
  rcases hp.start_cases with ⟨-, hne, -⟩ | ⟨-, habs⟩
  · exact hne
  · rintro rfl
    cases habs

theorem Direct.isAbsolute_iff (hp : Direct p lead k ns) : isAbsolute p = true ↔ lead ≠ "" := by
  rcases hp.start_cases with ⟨hlead, -, habs⟩ | ⟨hlead, habs⟩
  · simp [hlead, habs]
  · simp [hlead, habs]

theorem foldl_walk_names (q : Place) (hns : ∀ n ∈ ns, IsName n) : ns.foldl walk q = q ++ ns := by
  induction ns generalizing q with
  | nil => simp
  | cons n r ih =>
    rw [List.foldl_cons, (hns n List.mem_cons_self).walk,
      ih _ fun m hm => hns m (List.mem_cons_of_mem _ hm)]
    simp

theorem foldl_walk_climb (q : Place) (k : Nat) :
    (List.replicate k "..").foldl walk q = q.take (q.length - k) := by
  induction k generalizing q with
  | zero => simp
  | succ k ih =>
    rw [List.replicate_succ, List.foldl_cons, ih]
    simp only [walk, List.dropLast_eq_take]
    rw [if_neg (by decide), if_pos trivial, List.take_take, List.length_take]
    congr 1
    omega

theorem foldl_walk_empty (q : Place) {es : List String} (hes : ∀ e ∈ es, e = "") :
    es.foldl walk q = q := by
  induction es with
  | nil => rfl
  | cons e r ih =>
    rw [List.foldl_cons, hes e List.mem_cons_self]
    exact ih fun d hd => hes d (List.mem_cons_of_mem _ hd)

theorem Direct.place (hp : Direct p lead k ns) (cwd : Place) :
    place cwd p = (if lead = "" then cwd.take (cwd.length - k) else []) ++ ns := by
  obtain ⟨es, hes, hempty⟩ := hp.steps
  have habs := hp.isAbsolute_iff
  unfold Path.place
  rw [hes, List.foldl_append, foldl_walk_empty _ hempty, List.foldl_append, foldl_walk_climb,
    foldl_walk_names _ hp.names]
  by_cases hl : lead = ""
  · simp [hl, habs]
  · simp [hl, habs]

theorem normalize_cases (p : String) :
    (isAbsolute p = false ∧ normalize p = "." ∧ normalSteps (isAbsolute p) (steps p) = []) ∨
    ∃ k ns, Direct (normalize p) (root p) k ns ∧
      normalSteps (isAbsolute p) (steps p) = List.replicate k ".." ++ ns := by
  obtain ⟨k, ns, heq, hns, hk, -⟩ := normalSteps_climb (isAbsolute p)
    (fun s hs => no_slash_of_mem_steps (p := p) hs)
  have hnorm : normalize p = orDot (root p ++ join "/" (List.replicate k ".." ++ ns)) := by
    rw [← heq]
    rfl
  have hdirect (hne : root p ++ join "/" (List.replicate k ".." ++ ns) ≠ "")
      (hstart : root p = "" ∧ List.replicate k ".." ++ ns ≠ [] ∨
        (root p = "/" ∨ root p = "//") ∧ k = 0) :
      ∃ k ns, Direct (normalize p) (root p) k ns ∧
        normalSteps (isAbsolute p) (steps p) = List.replicate k ".." ++ ns :=
    ⟨k, ns, ⟨by rw [hnorm, orDot, if_neg hne], hstart, hns⟩, heq⟩
  rcases root_cases p with ⟨habs, hroot⟩ | ⟨habs, hroot⟩
  · by_cases hempty : List.replicate k ".." ++ ns = []
    · refine Or.inl ⟨habs, ?_, heq.trans hempty⟩
      rw [hnorm, hroot, hempty]
      rfl
    · refine Or.inr (hdirect ?_ (Or.inl ⟨hroot, hempty⟩))
      intro hjoin
      have hsteps := steps_join_climb hns hempty
      rw [hroot, String.empty_append] at hjoin
      rw [hjoin] at hsteps
      have hmem : "" ∈ List.replicate k ".." ++ ns := hsteps ▸ List.mem_singleton_self ""
      exact (climb_or_name hns hmem).1 rfl
  · refine Or.inr (hdirect ?_ (Or.inr ⟨hroot, hk habs⟩))
    rcases hroot with hroot | hroot <;> simp [hroot]

theorem direct_normalize {p : String} (hp : isAbsolute p = true) :
    ∃ k ns, Direct (normalize p) (root p) k ns := by
  rcases normalize_cases p with ⟨habs, -⟩ | ⟨k, ns, hd, -⟩
  · rw [hp] at habs
    cases habs
  · exact ⟨k, ns, hd⟩

theorem place_normalize (cwd : Place) (p : String) : place cwd (normalize p) = place cwd p := by
  have hfold := foldl_walk_normalSteps (isAbsolute p)
    (q := if isAbsolute p then [] else cwd) (fun h => by rw [h]; rfl)
    (fun s hs => no_slash_of_mem_steps (p := p) hs)
  change _ = (steps p).foldl walk _
  rw [← hfold]
  rcases normalize_cases p with ⟨habs, hdot, hempty⟩ | ⟨k, ns, hdirect, heq⟩
  · rw [hempty, hdot, habs]
    rfl
  · have hroot : (root p = "") ↔ isAbsolute p = false := by
      rcases root_cases p with ⟨habs, hroot⟩ | ⟨habs, hroot | hroot⟩ <;> simp [habs, hroot]
    rw [heq, hdirect.place, List.foldl_append, foldl_walk_climb, foldl_walk_names _ hdirect.names]
    by_cases habs : isAbsolute p = true
    · simp [habs, hroot]
    · simp [hroot.mpr (by simpa using habs), habs]

theorem join_concat_append (l : List String) (a s : String) :
    join "/" (l ++ [a ++ s]) = join "/" (l ++ [a]) ++ s := by
  unfold join
  by_cases hl : l = []
  · simp [hl]
  · rw [String.intercalate_append_of_ne_nil hl (by simp),
      String.intercalate_append_of_ne_nil hl (by simp)]
    simp [String.append_assoc]

theorem isName_append {a suffix : String} (ha : '/' ∉ a.toList) (hs : 2 < suffix.length)
    (hslash : '/' ∉ suffix.toList) : IsName (a ++ suffix) := by
  have hlen : (a ++ suffix).length = a.length + suffix.length := String.length_append ..
  refine ⟨?_, ?_, ?_, by simp [ha, hslash]⟩
  · intro h
    rw [h] at hlen
    have : "".length = 0 := rfl
    omega
  · intro h
    rw [h] at hlen
    have : ".".length = 1 := rfl
    omega
  · intro h
    rw [h] at hlen
    have : "..".length = 2 := rfl
    omega

theorem Direct.append_suffix {a suffix : String} (hp : Direct p lead k (ns ++ [a]))
    (hs : 2 < suffix.length) (hslash : '/' ∉ suffix.toList) :
    Direct (p ++ suffix) lead k (ns ++ [a ++ suffix]) := by
  have hname := isName_append (hp.names a (by simp)).no_slash hs hslash
  refine ⟨?_, by simpa using hp.start, fun n hn => ?_⟩
  · rw [← List.append_assoc, join_concat_append, List.append_assoc, ← String.append_assoc, ← hp.eq]
  · rcases List.mem_append.mp hn with hn | hn
    · exact hp.names n (List.mem_append_left _ hn)
    · rwa [List.mem_singleton.mp hn]

theorem exists_direct_suffix (p suffix : String) (hs : 2 < suffix.length)
    (hslash : '/' ∉ suffix.toList) :
    ∃ k ns, Direct (normalize p ++ suffix) (root p) k ns ∧ ns ≠ [] := by
  rcases normalize_cases p with ⟨habs, hdot, -⟩ | ⟨k, ns, hdirect, -⟩
  · have hroot : root p = "" := by
      rcases root_cases p with ⟨-, hroot⟩ | ⟨habs', -⟩
      · exact hroot
      · rw [habs] at habs'
        cases habs'
    have hname : IsName ("." ++ suffix) := isName_append (by decide) hs hslash
    refine ⟨0, ["." ++ suffix], ⟨?_, Or.inl ⟨hroot, by simp⟩, by simpa using hname⟩, by simp⟩
    simp [hdot, hroot, join]
  · induction ns using List.reverseRecOn with
    | append_singleton ns a _ =>
      exact ⟨k, ns ++ [a ++ suffix], hdirect.append_suffix hs hslash, by simp⟩
    | nil =>
      have heq := hdirect.eq
      rw [List.append_nil] at heq
      cases k with
      | zero =>
        -- Only a leading slash is left.
        have hroot : root p = "/" ∨ root p = "//" := by simpa using hdirect.start
        have hname : IsName suffix := by
          have h := isName_append (a := "") (by decide) hs hslash
          rwa [String.empty_append] at h
        refine ⟨0, [suffix], ⟨?_, Or.inr ⟨hroot, rfl⟩, by simpa using hname⟩, by simp⟩
        simp [heq, join]
      | succ k =>
        have hname : IsName (".." ++ suffix) := isName_append (by decide) hs hslash
        have hroot : root p = "" := by simpa using hdirect.start
        refine ⟨k, [".." ++ suffix], ⟨?_, Or.inl ⟨hroot, by simp⟩, by simpa using hname⟩, by simp⟩
        rw [join_concat_append, ← List.replicate_succ', heq, String.append_assoc]

/-- The first slashes of a path are those before something else. -/
theorem root_append_of_exists {r : String} (hr : ∃ c ∈ r.toList, c ≠ '/') (x : String) :
    root (r ++ x) = root r := by
  obtain ⟨b, hb, hne⟩ := hr
  unfold root
  rw [String.toList_append]
  cases hr : r.toList with
  | nil =>
    rw [hr] at hb
    cases hb
  | cons c l =>
    rw [hr] at hb
    by_cases hc : c = '/'
    · subst c
      cases l with
      | nil => exact absurd (List.mem_singleton.mp hb) hne
      | cons d l =>
        by_cases hd : d = '/'
        · subst d
          cases l with
          | nil => exact absurd (by simpa using hb) hne
          | cons e l => by_cases he : e = '/' <;> simp [he]
        · simp [hd]
    · simp [hc]

theorem ne_empty_of_isAbsolute {r : String} (hr : isAbsolute r = true) : r ≠ "" := by
  rintro rfl
  cases hr

theorem root_append {r : String} (habs : isAbsolute r = true) (hslash : endsInSlash r = false)
    (x : String) : root (r ++ x) = root r := by
  have hlist : r.toList ≠ [] := fun h => ne_empty_of_isAbsolute habs (String.toList_eq_nil_iff.mp h)
  refine root_append_of_exists ⟨r.toList.getLast hlist, List.getLast_mem hlist, fun h => ?_⟩ x
  rw [endsInSlash, List.getLast?_eq_some_getLast hlist, h] at hslash
  cases hslash

theorem isAbsolute_append {r : String} (hne : r ≠ "") (x : String) :
    isAbsolute (r ++ x) = isAbsolute r := by
  unfold isAbsolute
  rw [String.toList_append]
  cases hr : r.toList with
  | nil => exact absurd (String.toList_eq_nil_iff.mp hr) hne
  | cons c l => rfl

theorem Direct.climb_zero (hp : Direct p lead k ns) (hlead : lead ≠ "") : k = 0 := by
  rcases hp.start with ⟨h, -⟩ | ⟨-, hk⟩
  · exact absurd h hlead
  · exact hk

/-- Paths from one lead to one place are the same text. -/
theorem Direct.eq_of_place {p q lead : String} {k m : Nat} {ns ms : List String}
    (hp : Direct p lead k ns) (hq : Direct q lead m ms) (hlead : lead ≠ "")
    (hplace : Path.place [] p = Path.place [] q) : p = q := by
  rw [hp.place, hq.place, if_neg hlead, if_neg hlead, List.nil_append, List.nil_append] at hplace
  rw [hp.eq, hq.eq, hp.climb_zero hlead, hq.climb_zero hlead, hplace]

def Straight (p : String) (ns : Place) : Prop :=
  ∃ lead, (lead = "/" ∨ lead = "//") ∧ Direct p lead 0 ns

theorem Straight.eq {p : String} {ns : Place} (hp : Straight p ns) :
    (p = "/" ++ join "/" ns ∨ p = "//" ++ join "/" ns) ∧ ∀ n ∈ ns, IsName n := by
  obtain ⟨lead, hl, hd⟩ := hp
  have heq := hd.eq
  rw [List.replicate_zero, List.nil_append] at heq
  rcases hl with rfl | rfl
  · exact ⟨Or.inl heq, hd.names⟩
  · exact ⟨Or.inr heq, hd.names⟩

theorem Straight.of_eq {p lead : String} {ns : Place} (hl : lead = "/" ∨ lead = "//")
    (heq : p = lead ++ join "/" ns) (hns : ∀ n ∈ ns, IsName n) : Straight p ns :=
  ⟨lead, hl, by simpa using heq, Or.inr ⟨hl, rfl⟩, hns⟩

theorem Straight.isAbsolute {p : String} {ns : Place} (hp : Straight p ns) :
    isAbsolute p = true := by
  obtain ⟨lead, hl, hd⟩ := hp
  rw [hd.isAbsolute_iff]
  rcases hl with rfl | rfl <;> decide

theorem Straight.place {p : String} {ns : Place} (hp : Straight p ns) (cwd : Place) :
    Path.place cwd p = ns := by
  obtain ⟨lead, hl, hd⟩ := hp
  rw [hd.place]
  rcases hl with rfl | rfl <;> simp

theorem Direct.straight {q : String} (hq : Direct q (Path.root p) k ns)
    (hp : Path.isAbsolute p = true) : Straight q ns := by
  obtain rfl := hq.climb_zero ((isAbsolute_iff_root p).mp hp)
  exact ⟨Path.root p, root_of_isAbsolute hp, hq⟩

theorem straight_normalize {p : String} (hp : Path.isAbsolute p = true) :
    Straight (normalize p) (Path.place [] p) := by
  obtain ⟨k, ns, hd⟩ := direct_normalize hp
  have hs := hd.straight hp
  rwa [← place_normalize, hs.place]

theorem Direct.root (hp : Direct p lead k ns) : root p = lead := by
  have hdown : ns ≠ [] → isAbsolute (join "/" ns) = false := by
    intro hne
    have hd : Direct (join "/" ns) "" 0 ns := ⟨by simp, Or.inl ⟨rfl, by simpa using hne⟩, hp.names⟩
    rw [Bool.eq_false_iff, Ne, hd.isAbsolute_iff]
    exact fun h => h rfl
  rcases hp.start with ⟨rfl, -⟩ | ⟨hl, rfl⟩
  · rcases root_cases p with ⟨-, hroot⟩ | ⟨habs, -⟩
    · exact hroot
    · exact absurd rfl (hp.isAbsolute_iff.mp habs)
  · rw [hp.eq, List.replicate_zero, List.nil_append]
    by_cases hne : ns = []
    · rcases hl with rfl | rfl <;> simp [hne, join, Path.root]
    · have hslash := hdown hne
      unfold isAbsolute at hslash
      cases hj : (join "/" ns).toList with
      | nil => rcases hl with rfl | rfl <;> simp [Path.root, hj]
      | cons c r =>
        have hc : c ≠ '/' := by simpa [hj] using hslash
        rcases hl with rfl | rfl <;> simp [Path.root, hj, hc]

theorem normalize_normalize {p : String} (hp : Path.isAbsolute p = true) :
    normalize (normalize p) = normalize p := by
  obtain ⟨k, ns, hd⟩ := direct_normalize hp
  obtain ⟨m, ms, hd'⟩ := direct_normalize (straight_normalize hp).isAbsolute
  rw [hd.root] at hd'
  exact hd'.eq_of_place hd ((isAbsolute_iff_root p).mp hp) (place_normalize [] (normalize p))

theorem Straight.tidy {p : String} {ns : Place} (hp : Straight p ns) : Straight (tidy p) ns := by
  obtain ⟨lead, -, hd⟩ := id hp
  obtain ⟨es, hsteps, hempty⟩ := hd.steps
  have hfilter : (Path.steps p).filter (fun s => s ≠ "" ∧ s ≠ ".") = ns := by
    rw [hsteps, List.filter_append, List.filter_eq_nil_iff.mpr fun e he => by simp [hempty e he],
      List.nil_append]
    refine List.filter_eq_self.mpr fun n hn => ?_
    have hname := hp.eq.2 n hn
    simp [hname.ne_empty, hname.ne_dot]
  have hroot := root_of_isAbsolute hp.isAbsolute
  have hne : root p ++ join "/" ns ≠ "" := by rcases hroot with h | h <;> simp [h]
  refine Straight.of_eq hroot ?_ hp.eq.2
  rw [Path.tidy, hfilter, orDot, if_neg hne]

theorem exists_straight_suffix {p : String} (hp : Path.isAbsolute p = true) (suffix : String)
    (hs : 2 < suffix.length) (hslash : '/' ∉ suffix.toList) :
    ∃ ns a, Straight (normalize p ++ suffix) (ns ++ [a]) := by
  obtain ⟨k, ns, hd, hns⟩ := exists_direct_suffix p suffix hs hslash
  refine ⟨ns.dropLast, ns.getLast hns, ?_⟩
  rw [List.dropLast_concat_getLast]
  exact hd.straight hp

section Directory

theorem directory_eq (x a : String) (ha : '/' ∉ a.toList) :
    directory (x ++ "/" ++ a) =
      if x.toList.all (· = '/') then x ++ "/"
      else String.ofList (x.toList.reverse.dropWhile (· = '/')).reverse := by
  have hdrop : (x ++ "/" ++ a).toList.reverse.dropWhile (· ≠ '/') = '/' :: x.toList.reverse := by
    have hrev : (x ++ "/" ++ a).toList.reverse = a.toList.reverse ++ '/' :: x.toList.reverse := by
      simp
    rw [hrev, List.dropWhile_append_of_pos]
    · simp
    · intro c hc
      have hc' := List.mem_reverse.mp hc
      simp only [decide_eq_true_eq]
      rintro rfl
      exact ha hc'
  unfold directory
  rw [hdrop]
  by_cases hall : x.toList.all (· = '/') = true
  · rw [if_pos hall, if_pos (by simpa using hall)]
    simp
  · rw [if_neg hall, if_neg (by simpa using hall)]
    simp

theorem exists_join_concat (l : List String) (a : String) :
    ∃ x, join "/" (l ++ [a]) = x ++ a := by
  unfold join
  by_cases hl : l = []
  · exact ⟨"", by simp [hl]⟩
  · refine ⟨String.intercalate "/" l ++ "/", ?_⟩
    rw [String.intercalate_append_of_ne_nil hl (by simp), String.intercalate_singleton]

theorem getLast?_append_step {n : String} (hne : n ≠ "") (hslash : '/' ∉ n.toList) (x : String) :
    ∃ c, (x ++ n).toList.getLast? = some c ∧ c ≠ '/' := by
  have hlist : n.toList ≠ [] := fun h => hne (String.toList_eq_nil_iff.mp h)
  refine ⟨n.toList.getLast hlist, ?_, fun h => hslash (h ▸ List.getLast_mem hlist)⟩
  rw [String.toList_append, List.getLast?_append, List.getLast?_eq_some_getLast hlist]
  rfl

theorem dropWhile_append_step {n : String} (hne : n ≠ "") (hslash : '/' ∉ n.toList) (x : String) :
    String.ofList ((x ++ n).toList.reverse.dropWhile (· = '/')).reverse = x ++ n := by
  obtain ⟨c, hc, hcs⟩ := getLast?_append_step hne hslash x
  obtain ⟨r, hr⟩ := List.getLast?_eq_some_iff.mp hc
  rw [hr, List.reverse_append, List.reverse_singleton, List.singleton_append,
    List.dropWhile_cons_of_neg (by simpa using hcs), List.reverse_cons, List.reverse_reverse,
    ← hr, String.ofList_toList]

theorem directory_of_no_slash {a : String} (ha : '/' ∉ a.toList) : directory a = "" := by
  have hdrop : a.toList.reverse.dropWhile (· ≠ '/') = [] :=
    List.dropWhile_eq_nil_iff.mpr fun c hc => by
      simp only [decide_eq_true_eq]
      rintro rfl
      exact ha (List.mem_reverse.mp hc)
  unfold directory
  rw [hdrop]
  rfl

theorem directory_join {lead a : String} {ss : List String}
    (hl : lead = "" ∨ lead = "/" ∨ lead = "//") (hss : ∀ s ∈ ss, s ≠ "" ∧ '/' ∉ s.toList)
    (ha : '/' ∉ a.toList) :
    directory (lead ++ join "/" (ss ++ [a])) = lead ++ join "/" ss := by
  by_cases hnil : ss = []
  · subst ss
    have hone : join "/" ([] ++ [a]) = a := String.intercalate_singleton ..
    have hnone : join "/" [] = "" := rfl
    rw [hone, hnone, String.append_empty]
    rcases hl with rfl | rfl | rfl
    · rw [String.empty_append]
      exact directory_of_no_slash ha
    · exact directory_eq "" a ha
    · exact directory_eq "/" a ha
  · obtain ⟨i, b, rfl⟩ : ∃ i b, ss = i ++ [b] :=
      ⟨_, _, (List.dropLast_concat_getLast hnil).symm⟩
    obtain ⟨hb, hbs⟩ := hss b (by simp)
    have hp : lead ++ join "/" (i ++ [b] ++ [a]) = lead ++ join "/" (i ++ [b]) ++ "/" ++ a := by
      rw [join, String.intercalate_append_of_ne_nil hnil (by simp),
        String.intercalate_singleton]
      simp [join, String.append_assoc]
    obtain ⟨x, hx⟩ := exists_join_concat i b
    have hx' : lead ++ join "/" (i ++ [b]) = lead ++ x ++ b := by rw [hx, String.append_assoc]
    have hall : ¬ (lead ++ join "/" (i ++ [b])).toList.all (· = '/') = true := by
      obtain ⟨c, hc, hcs⟩ := getLast?_append_step hb hbs (lead ++ x)
      rw [hx', List.all_eq_true]
      intro h
      exact hcs (by simpa using h c (List.mem_of_getLast? hc))
    rw [hp, directory_eq _ a ha, if_neg hall, hx', dropWhile_append_step hb hbs, ← hx']

theorem Direct.lead_cases (hp : Direct p lead k ns) : lead = "" ∨ lead = "/" ∨ lead = "//" :=
  hp.start.imp And.left And.left

/-- The directory of a path goes up as far and lacks the last name. -/
theorem Direct.directory {a : String} (hp : Direct p lead k (ns ++ [a]))
    (hne : directory p ≠ "") : Direct (directory p) lead k ns := by
  have hnames : ∀ n ∈ ns, IsName n := fun n hn => hp.names n (List.mem_append_left _ hn)
  have hdir : Path.directory p = lead ++ join "/" (List.replicate k ".." ++ ns) := by
    rw [hp.eq, ← List.append_assoc]
    exact directory_join hp.lead_cases (fun _ => climb_or_name hnames)
      (hp.names a (by simp)).no_slash
  refine ⟨hdir, ?_, hnames⟩
  rcases hp.start with ⟨rfl, -⟩ | hstart
  · refine Or.inl ⟨rfl, fun hnil => hne ?_⟩
    rw [hdir, hnil]
    rfl
  · exact Or.inr hstart

theorem Direct.directory_climb (hp : Direct p lead k []) (hne : Path.directory p ≠ "") :
    ∃ j, Direct (Path.directory p) lead j [] := by
  have heq := hp.eq
  rw [List.append_nil] at heq
  cases k with
  | zero =>
    refine ⟨0, ?_, by simpa using hp.start, nofun⟩
    rcases hp.start with ⟨-, hnil⟩ | ⟨rfl | rfl, -⟩
    · exact absurd rfl hnil
    · rw [heq]
      decide
    · rw [heq]
      decide
  | succ j =>
    have hlead : lead = "" := by simpa using hp.start
    have hdir : Path.directory p = lead ++ join "/" (List.replicate j "..") := by
      rw [heq, List.replicate_succ']
      refine directory_join hp.lead_cases (fun s hs => ?_) (by decide)
      rw [List.eq_of_mem_replicate hs]
      decide
    refine ⟨j, by rw [List.append_nil, hdir], Or.inl ⟨hlead, fun hnil => hne ?_⟩, nofun⟩
    rw [List.append_nil] at hnil
    rw [hdir, hlead, hnil]
    rfl

theorem Direct.dropWhile (hp : Direct p lead k ns) :
    String.ofList (p.toList.reverse.dropWhile (· = '/')).reverse =
      if List.replicate k ".." ++ ns = [] then "" else p := by
  split_ifs with hnil
  · rcases hp.start with ⟨-, hne⟩ | ⟨hl, -⟩
    · exact absurd hnil hne
    · rw [hp.eq, hnil]
      rcases hl with rfl | rfl <;> decide
  · obtain ⟨i, b, hb⟩ : ∃ i b, List.replicate k ".." ++ ns = i ++ [b] :=
      ⟨_, _, (List.dropLast_concat_getLast hnil).symm⟩
    have hmem : b ∈ List.replicate k ".." ++ ns := by simp [hb]
    obtain ⟨hbne, hbs⟩ := climb_or_name hp.names hmem
    obtain ⟨x, hx⟩ := exists_join_concat i b
    rw [hp.eq, hb, hx, ← String.append_assoc, dropWhile_append_step hbne hbs]

theorem Straight.exists_append {p : String} {ns : Place} {a : String}
    (hp : Straight p (ns ++ [a])) : ∃ x, p = x ++ a := by
  obtain ⟨x, hx⟩ := exists_join_concat ns a
  rcases hp.eq.1 with h | h
  · exact ⟨"/" ++ x, by rw [h, hx, String.append_assoc]⟩
  · exact ⟨"//" ++ x, by rw [h, hx, String.append_assoc]⟩

theorem Straight.name {p : String} {ns : Place} {a : String} (hp : Straight p (ns ++ [a])) :
    IsName a := hp.eq.2 a (by simp)

theorem Straight.endsInSlash {p : String} {ns : Place} {a : String}
    (hp : Straight p (ns ++ [a])) : endsInSlash p = false := by
  obtain ⟨x, rfl⟩ := hp.exists_append
  obtain ⟨c, hc, hslash⟩ := getLast?_append_step hp.name.ne_empty hp.name.no_slash x
  unfold Path.endsInSlash
  rw [hc]
  simpa using hslash

theorem Straight.directory {p : String} {ns : Place} {a : String}
    (hp : Straight p (ns ++ [a])) : Straight (directory p) ns := by
  obtain ⟨hns, ha⟩ := List.forall_mem_append.mp hp.eq.2
  have hss : ∀ n ∈ ns, n ≠ "" ∧ '/' ∉ n.toList := fun n hn =>
    ⟨(hns n hn).ne_empty, (hns n hn).no_slash⟩
  have hslash := hp.name.no_slash
  obtain ⟨lead, hl, hd⟩ := hp
  refine .of_eq hl ?_ hns
  rw [hd.eq]
  exact directory_join (Or.inr hl) hss hslash

end Directory

theorem length_le_join {ns : List String} (hns : ∀ n ∈ ns, IsName n) :
    ns.length ≤ (join "/" ns).length := by
  induction ns with
  | nil => exact Nat.zero_le _
  | cons n r ih =>
    have hn : 0 < n.length := by
      rw [← String.length_toList]
      exact List.length_pos_iff.mpr fun h =>
        (hns n List.mem_cons_self).ne_empty (String.toList_eq_nil_iff.mp h)
    have hr := ih fun m hm => hns m (List.mem_cons_of_mem _ hm)
    unfold join at hr ⊢
    by_cases hnil : r = []
    · subst r
      rw [String.intercalate_singleton]
      exact hn
    · rw [String.intercalate_cons_of_ne_nil hnil, String.length_append, String.length_append,
        List.length_cons]
      omega

theorem Straight.length_le {p : String} {ns : Place} (hp : Straight p ns) :
    ns.length ≤ p.length := by
  have hjoin := length_le_join hp.eq.2
  rcases hp.eq.1 with rfl | rfl
  · rw [String.length_append]
    omega
  · rw [String.length_append]
    omega

end TemplateHost.Path
