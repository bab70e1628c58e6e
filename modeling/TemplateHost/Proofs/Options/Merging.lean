import TemplateHost.Proofs.Options.Containment
import TemplateHost.Proofs.Table

/-!
# Runs of merge calls

A call that names an unknown option fails and changes nothing; any other call sets the options that
it names, in whatever order it names them. After any run of calls an option holds what the last
successful call set it to, or its default. The output roots are always absolute paths in normal
form, no option holds a list, and giving the options back the values they hold changes nothing.
-/
namespace TemplateHost
open TemplateHost.Path

namespace Path
variable {p : String} {ns : Place}

/-- An absolute path in normal form. -/
def IsResolved (p : String) : Prop := ∃ ns, Straight p ns

theorem Straight.normalize (hp : Straight p ns) : normalize p = p := by
  have habs := hp.isAbsolute
  obtain ⟨lead, -, hd⟩ := hp
  obtain ⟨k, ms, hnormal⟩ := direct_normalize habs
  rw [hd.root] at hnormal
  exact hnormal.eq_of_place hd (hd.isAbsolute_iff.mp habs) (place_normalize [] p)

theorem isResolved_iff : IsResolved p ↔ isAbsolute p = true ∧ normalize p = p := by
  constructor
  · rintro ⟨ns, hp⟩
    exact ⟨hp.isAbsolute, hp.normalize⟩
  · rintro ⟨habs, hnormal⟩
    exact ⟨_, hnormal ▸ straight_normalize habs⟩

theorem isResolved_absolute {cwd : String} (hcwd : isAbsolute cwd = true) (p : String) :
    IsResolved (absolute cwd p) := ⟨_, straight_absolute hcwd p⟩

theorem IsResolved.absolute (hp : IsResolved p) (cwd : String) : absolute cwd p = p := by
  obtain ⟨habs, hnormal⟩ := isResolved_iff.mp hp
  rw [absolute_of_isAbsolute cwd habs, hnormal]

theorem IsResolved.under (hp : IsResolved p) {n : String} (hn : IsName n) :
    IsResolved (under p n) := by
  obtain ⟨ns, hp⟩ := hp
  have hname : ∀ m ∈ [n], IsName m := by simpa using hn
  have hjoin : Text.join "/" [n] = n := String.intercalate_singleton
  unfold Path.under
  rw [if_neg (by simp [hn.isAbsolute])]
  rcases List.eq_nil_or_concat ns with rfl | ⟨ms, a, rfl⟩
  · refine ⟨[n], ?_⟩
    rcases hp.eq.1 with rfl | rfl
    · exact .of_eq (Or.inl rfl) (by rw [hjoin]; rfl) hname
    · exact .of_eq (Or.inr rfl) (by rw [hjoin]; rfl) hname
  · rw [List.concat_eq_append] at hp
    rw [if_neg (by simp [ne_empty_of_isAbsolute hp.isAbsolute, hp.endsInSlash])]
    exact ⟨_, hjoin ▸ hp.append (by simp) (List.cons_ne_nil n []) hname⟩

end Path

namespace OptionName
variable {n : OptionName} {key : String}

def names : List String := all.map text

theorem nodup_names : names.Nodup := by decide

theorem ofText?_eq_some_iff : ofText? key = some n ↔ n.text = key := by
  constructor
  · intro h
    simpa using List.find?_some h
  · rintro rfl
    exact ofText?_text n

theorem ofText?_eq_none_iff : ofText? key = none ↔ key ∉ names := by
  unfold ofText? names
  simp [List.find?_eq_none]

end OptionName

namespace Options
variable {cwd key : String} {o : Options} {n : OptionName} {x y : Setting}
  {t t' : Table String Setting} {s : Surroundings}

section Call

def Known (t : Table String Setting) : Prop := ∀ key ∈ t.keys, key ∈ OptionName.names

instance (t : Table String Setting) : Decidable (Known t) :=
  inferInstanceAs (Decidable (∀ key ∈ t.keys, key ∈ OptionName.names))

theorem unknown?_eq_none_iff : unknown? t = none ↔ Known t := by
  unfold unknown? Known
  simp [List.find?_eq_none, OptionName.ofText?_eq_none_iff]

theorem merge_of_known (cwd : String) (o : Options) (ht : Known t) :
    o.merge cwd t = (.ok (), o.assignAll cwd t.entries) := by
  unfold merge
  rw [unknown?_eq_none_iff.mpr ht]

theorem merge_of_not_known (cwd : String) (o : Options) (ht : ¬Known t) :
    ∃ key ∈ t.keys, key ∉ OptionName.names ∧
      o.merge cwd t = (.error (.invalidOption key), o) := by
  cases hfirst : unknown? t with
  | none => exact absurd (unknown?_eq_none_iff.mp hfirst) ht
  | some key =>
    have hkey := List.find?_some hfirst
    rw [Option.isNone_iff_eq_none, OptionName.ofText?_eq_none_iff] at hkey
    exact ⟨key, List.mem_of_find?_eq_some hfirst, hkey, by rw [merge, hfirst]⟩

/-- What an option is set to by a value, if by anything: an output root is made absolute, unless it
is empty; elsewhere a list becomes a tuple. -/
def setTo (cwd : String) (n : OptionName) (x : Setting) : Option Setting :=
  if n.isResolved then
    match x with
    | .text p => if p = "" then none else some (.text (absolute cwd p))
    | _ => none
  else
    match x with
    | .list items => some (.tuple items)
    | _ => some x

theorem stored_eq (cwd : String) (old : Setting) (n : OptionName) (x : Setting) :
    stored cwd old n x = (setTo cwd n x).getD old := by
  unfold stored setTo
  split_ifs with hn
  · cases x with
    | text p =>
      by_cases hp : p = ""
      · simp [Setting.isTrue, hp]
      · simp [Setting.isTrue, hp]
    | _ => cases h : Setting.isTrue _ <;> rfl
  · cases x <;> rfl

theorem assignNamed_apply (cwd : String) (o : Options) (key : String) (x : Setting)
    (n : OptionName) : o.assignNamed cwd key x n =
      if key = n.text then (setTo cwd n x).getD (o n) else o n := by
  unfold assignNamed
  split_ifs with hkey
  · rw [OptionName.ofText?_eq_some_iff.mpr hkey.symm]
    exact (set_self ..).trans (stored_eq ..)
  · cases hm : OptionName.ofText? key with
    | none => rfl
    | some m =>
      refine set_ne o (fun heq => hkey ?_) _
      rw [heq, OptionName.ofText?_eq_some_iff.mp hm]

theorem assignAll_apply (cwd : String) (o : Options) {l : List (String × Setting)}
    (hl : (l.map Prod.fst).Nodup) (n : OptionName) :
    o.assignAll cwd l n = ((Table.find n.text l).bind (setTo cwd n)).getD (o n) := by
  induction l generalizing o with
  | nil => rfl
  | cons e r ih =>
    rw [List.map_cons, List.nodup_cons] at hl
    change (o.assignNamed cwd e.1 e.2).assignAll cwd r n = _
    rw [ih _ hl.2, assignNamed_apply, Table.find]
    split_ifs with hkey
    · rw [Table.find_eq_none_iff.mpr (hkey ▸ hl.1)]
      rfl
    · rfl

theorem merge_congr (cwd : String) (o : Options) (ht : Known t) (hdistinct : t.keys.Nodup)
    (hperm : t'.entries.Perm t.entries) : o.merge cwd t' = o.merge cwd t := by
  have hkeys : t'.keys.Perm t.keys := hperm.map Prod.fst
  have ht' : Known t' := fun key hkey => ht key (hkeys.subset hkey)
  have hdistinct' : t'.keys.Nodup := hkeys.nodup_iff.mpr hdistinct
  rw [merge_of_known cwd o ht, merge_of_known cwd o ht']
  refine congrArg (Prod.mk _) (funext fun n => ?_)
  rw [assignAll_apply cwd o hdistinct, assignAll_apply cwd o hdistinct',
    Table.find_of_perm hperm hdistinct']

end Call

section Runs

def isRoot : Setting → Bool
  | .null | .text _ => true
  | _ => false

/-- What one call may be given: every name once, the one of the receiver excepted, and for the
output roots a text or nothing. -/
structure Overrides where
  table : Table String Setting
  distinct : table.keys.Nodup
  receiver : "self" ∉ table.keys
  roots : ∀ e ∈ table.entries,
    e.1 = OptionName.tmpDir.text ∨ e.1 = OptionName.outputDir.text → isRoot e.2 = true

/-- What a call sets an option to, if it succeeds and names the option. -/
def Overrides.sets (cwd : String) (n : OptionName) (t : Overrides) : Option Setting :=
  if Known t.table then (t.table.get? n.text).bind (setTo cwd n) else none

def after (cwd : String) (o : Options) (t : Overrides) : Options := (o.merge cwd t.table).2

def afterAll (cwd : String) (o : Options) (calls : List Overrides) : Options :=
  calls.foldl (after cwd) o

theorem after_apply (cwd : String) (o : Options) (t : Overrides) (n : OptionName) :
    o.after cwd t n = (t.sets cwd n).getD (o n) := by
  unfold after Overrides.sets
  split_ifs with ht
  · rw [merge_of_known cwd o ht]
    exact assignAll_apply cwd o t.distinct n
  · obtain ⟨key, -, -, herror⟩ := merge_of_not_known cwd o ht
    rw [herror]
    rfl

theorem afterAll_apply (cwd : String) (o : Options) (calls : List Overrides) (n : OptionName) :
    o.afterAll cwd calls n = (calls.reverse.findSome? (Overrides.sets cwd n)).getD (o n) := by
  induction calls using List.reverseRecOn with
  | nil => rfl
  | append_singleton calls t ih =>
    rw [afterAll, List.foldl_append, List.foldl_cons, List.foldl_nil, after_apply,
      List.reverse_concat, List.findSome?_cons]
    cases t.sets cwd n with
    | some x => rfl
    | none => exact ih

theorem reached_afterAll (s : Surroundings) (calls : List Overrides) :
    Reached s (afterAll s.cwd (.initial s) calls) := by
  induction calls using List.reverseRecOn with
  | nil => exact .initial
  | append_singleton calls t ih =>
    rw [afterAll, List.foldl_append]
    exact ih.merge t.table

end Runs

section Invariants

theorem initial_isList (s : Surroundings) (n : OptionName) : (initial s n).isList = false := by
  cases n <;> rfl

theorem setTo_isList (h : setTo cwd n x = some y) : y.isList = false := by
  unfold setTo at h
  split_ifs at h
  · cases x with
    | text p =>
      dsimp only at h
      split_ifs at h
      rw [← Option.some.inj h]
      rfl
    | _ => cases h
  · cases x with
    | _ =>
      rw [← Option.some.inj h]
      rfl

theorem afterAll_isList (s : Surroundings) (calls : List Overrides) (n : OptionName) :
    (afterAll s.cwd (.initial s) calls n).isList = false := by
  rw [afterAll_apply]
  cases hlast : calls.reverse.findSome? (Overrides.sets s.cwd n) with
  | none => exact initial_isList s n
  | some y =>
    obtain ⟨t, -, ht⟩ := List.exists_of_findSome?_eq_some hlast
    unfold Overrides.sets at ht
    split_ifs at ht
    obtain ⟨x, -, hx⟩ := Option.bind_eq_some_iff.mp ht
    exact setTo_isList hx

theorem afterAll_rooted (hcwd : isAbsolute s.cwd = true) (htmp : IsResolved s.temporaryDir)
    (calls : List Overrides) : (afterAll s.cwd (.initial s) calls).Rooted IsResolved :=
  (reached_afterAll s calls).rooted_of (isResolved_absolute hcwd) (htmp.under (by decide))

def held (o : Options) : Table String Setting := ⟨OptionName.all.map fun n => (n.text, o n)⟩

theorem keys_held (o : Options) : o.held.keys = OptionName.names := by
  simp [held, Table.keys, OptionName.names]

theorem nodup_keys_held (o : Options) : o.held.keys.Nodup :=
  (keys_held o).symm ▸ OptionName.nodup_names

theorem get?_held (o : Options) (n : OptionName) : o.held.get? n.text = some (o n) :=
  Table.find_of_mem (nodup_keys_held o) (List.mem_map_of_mem (OptionName.mem_all n))

theorem merge_held (ho : ∀ n, (setTo cwd n (o n)).getD (o n) = o n) :
    o.merge cwd o.held = (.ok (), o) := by
  have hknown : Known o.held := fun key hkey => keys_held o ▸ hkey
  have hget (n : OptionName) : Table.find n.text o.held.entries = some (o n) := get?_held o n
  rw [merge_of_known cwd o hknown]
  refine congrArg (Prod.mk _) (funext fun n => ?_)
  rw [assignAll_apply cwd o (nodup_keys_held o), hget, Option.bind_some, ho]

theorem Rooted.setTo_eq (ho : o.Rooted IsResolved) (hlist : (o n).isList = false) (cwd : String) :
    (setTo cwd n (o n)).getD (o n) = o n := by
  unfold setTo
  split_ifs with hn
  · rcases ho.path n hn with hnull | ⟨p, hp, hresolved⟩
    · rw [hnull]
      rfl
    · rw [hp]
      dsimp only
      split_ifs
      · rfl
      · rw [hresolved.absolute]
        rfl
  · cases hx : o n with
    | list items =>
      rw [hx] at hlist
      cases hlist
    | _ => rfl

end Invariants

/-- What is known of the options that a run of calls leads to. -/
structure Settled (s : Surroundings) (calls : List Overrides) (o : Options) : Prop where
  refuses (t : Overrides) : ¬Known t.table → ∃ key ∈ t.table.keys, key ∉ OptionName.names ∧
    o.merge s.cwd t.table = (.error (.invalidOption key), o) ∧
    (Failure.invalidOption key).kind = "ConfigurationError"
  accepts (t : Overrides) : Known t.table → ∃ o', o.merge s.cwd t.table = (.ok (), o') ∧
    ∀ t' : Overrides, t'.table.entries.Perm t.table.entries →
      o.merge s.cwd t'.table = (.ok (), o')
  last (n : OptionName) :
    o n = (calls.reverse.findSome? (Overrides.sets s.cwd n)).getD (initial s n)
  output : o .outputDir = .null ∨ ∃ p, o .outputDir = .text p ∧ IsResolved p
  temporary : ∃ p, o .tmpDir = .text p ∧ IsResolved p
  unlisted (n : OptionName) : (o n).isList = false
  again : o.merge s.cwd o.held = (.ok (), o)

/-- **Merging is all or nothing, and the last value given counts.** -/
theorem afterAll_settled (s : Surroundings) (hcwd : isAbsolute s.cwd = true)
    (htmp : IsResolved s.temporaryDir) (calls : List Overrides) :
    Settled s calls (afterAll s.cwd (.initial s) calls) := by
  have hrooted := afterAll_rooted hcwd htmp calls
  have hlist := afterAll_isList s calls
  refine ⟨fun t ht => ?_, fun t ht => ?_, afterAll_apply s.cwd _ calls, hrooted.path .outputDir rfl,
    (hrooted.path .tmpDir rfl).resolve_left hrooted.temporary, hlist,
    merge_held fun n => hrooted.setTo_eq (hlist n) s.cwd⟩
  · obtain ⟨key, hmem, hkey, herror⟩ := merge_of_not_known s.cwd _ ht
    exact ⟨key, hmem, hkey, herror, rfl⟩
  · refine ⟨_, merge_of_known s.cwd _ ht, fun t' hperm => ?_⟩
    rw [merge_congr s.cwd _ ht t.distinct hperm]
    exact merge_of_known s.cwd _ ht

/-- A call that sets an output root and a list, one with a misspelled name, and one that gives
nothing for both roots. -/
def sampleCalls : List Overrides :=
  [{ table := ⟨[("output_dir", .text "out/../b/"), ("locales", .list [.text "es"])]⟩
     distinct := by decide
     receiver := by decide
     roots := by decide },
   { table := ⟨[("locales", .list []), ("outputDir", .text "/x"), ("unique_dir", .flag false)]⟩
     distinct := by decide
     receiver := by decide
     roots := by decide },
   { table := ⟨[("tmp_dir", .null), ("output_dir", .text "")]⟩
     distinct := by decide
     receiver := by decide
     roots := by decide }]

theorem afterAll_settled_sampleCalls :
    let s : Surroundings := ⟨"/srv", "/tmp", "/run", none⟩
    let o := afterAll s.cwd (.initial s) sampleCalls
    isAbsolute s.cwd = true ∧ IsResolved s.temporaryDir ∧ Settled s sampleCalls o ∧
      o .outputDir = .text "/srv/b" ∧ o .tmpDir = .text "/tmp/soypy" ∧
      o .locales = .tuple [.text "es"] ∧ o .uniqueDir = .flag true := by
  intro s o
  have hcwd : isAbsolute s.cwd = true := by decide
  have htmp : IsResolved s.temporaryDir := isResolved_iff.mpr ⟨by decide, by decide⟩
  refine ⟨hcwd, htmp, afterAll_settled s hcwd htmp sampleCalls, ?_, ?_, ?_, ?_⟩
  · have hset : o .outputDir = .text (absolute "/srv" "out/../b/") := rfl
    exact hset.trans (congrArg Setting.text (by decide))
  · have hset : o .tmpDir = .text (under "/tmp" "soypy") := rfl
    exact hset.trans (congrArg Setting.text (by decide))
  · rfl
  · rfl

end Options

end TemplateHost
