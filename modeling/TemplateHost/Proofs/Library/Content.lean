import TemplateHost.Proofs.Html.Escape

/-!
# Safe content

Escaping a text leaves nothing in it that HTML could take for markup, and can be undone. Content
that is declared safe is trusted as HTML, or as an address, according to the context that its kind
names.
-/
namespace TemplateHost.Library
open Html

variable (d : Describer)

theorem escapeHtml_str (s : String) :
    escapeHtml d (.str s) = .ok (.str (String.ofList (escape s.toList))) := rfl

theorem unescapeHtml_str (s : String) :
    unescapeHtml d (.str s) = .ok (.str (String.ofList (unescape s.toList))) := rfl

theorem ordainContent_str (c : Value) (k : String) :
    ordainContent d c (.str k) = (textOf d c).map fun s => .safe (.ofKind k) (.str s) := rfl

/-- **Escaped text is safe and can be read back.** No angle bracket or quotation mark is left in it,
each of its ampersands begins one of the references that escaping writes, and reading it gives the
text again. Texts are escaped piece by piece, and what has been escaped and declared to be HTML is
not escaped again. -/
theorem escapeHtml_reversible (s : String) :
    ∃ e : String, escapeHtml d (.str s) = .ok (.str e) ∧
      (∀ c ∈ e.toList, c ∉ ['<', '>', '\x22', '\x27']) ∧
      (∀ before after, e.toList = before ++ '&' :: after → ∃ r ∈ written, r <+: after) ∧
      unescapeHtml d (.str e) = .ok (.str s) ∧
      (∀ t, ∃ f : String, escapeHtml d (.str t) = .ok (.str f) ∧
        escapeHtml d (.str (s ++ t)) = .ok (.str (e ++ f))) ∧
      (ordainContent d (.str e) (.str "html") >>= escapeHtml d) = .ok (.str e) := by
  refine ⟨String.ofList (escape s.toList), escapeHtml_str d s, ?_, ?_, ?_, fun t => ?_, rfl⟩
  · intro c hc hmark
    rw [String.toList_ofList] at hc
    have hspecial : ∀ a ∈ ['<', '>', '\x22', '\x27'], a ∈ special ∧ a ≠ '&' := by simp [special]
    exact not_mem_escape (hspecial c hmark).1 (hspecial c hmark).2 s.toList hc
  · intro before after heq
    rw [String.toList_ofList] at heq
    exact exists_written_of_escape heq
  · rw [unescapeHtml_str, String.toList_ofList, unescape_escape, String.ofList_toList]
  · refine ⟨String.ofList (escape t.toList), escapeHtml_str d t, ?_⟩
    rw [escapeHtml_str, String.toList_append, escape_append, String.ofList_append]

/-- The kinds that have a context of their own which is not HTML. -/
def otherKinds : List String := ["attributes", "uri", "text"]

theorem ofKind_cases (k : String) :
    k ∈ otherKinds ∧ Safety.ofKind k ≠ .html ∨ k ∉ otherKinds ∧ Safety.ofKind k = .html := by
  unfold Safety.ofKind
  split_ifs with hattributes huri htext
  · exact .inl ⟨by simp [hattributes, otherKinds], nofun⟩
  · exact .inl ⟨by simp [huri, otherKinds], nofun⟩
  · exact .inl ⟨by simp [htext, otherKinds], nofun⟩
  · exact .inr ⟨by simp [hattributes, huri, htext, otherKinds], rfl⟩

theorem ofKind_eq_uri_iff (k : String) : Safety.ofKind k = .uri ↔ k = "uri" := by
  unfold Safety.ofKind
  split_ifs with hattributes huri htext
  · simp [hattributes]
  · simp [huri]
  · simp [huri]
  · simp [huri]

theorem escapeHtml_safe_of_ne {context : Safety} (hc : context ≠ .html) (s : String) :
    escapeHtml d (.safe context (.str s)) = escapeHtml d (.str s) := by
  cases context with
  | html => exact absurd rfl hc
  | unspecified | attributes | uri | text => rfl

theorem filterNormalizeUri_safe_of_ne {context : Safety} (hc : context ≠ .uri) (s : String) :
    filterNormalizeUri d (.safe context (.str s)) = filterNormalizeUri d (.str s) := by
  cases context with
  | uri => exact absurd rfl hc
  | unspecified | html | attributes | text => rfl

theorem ok_ofChars_eq_iff (l : List Char) (s : String) :
    (Except.ok (.str s) : Except Fault Value) = .ok (ofChars l) ↔ l = s.toList := by
  unfold ofChars
  rw [Except.ok.injEq, Value.str.injEq, ← String.toList_inj, String.toList_ofList, eq_comm]

/-- **What a kind is trusted for.** Content of a kind that has a context of its own other than HTML
is escaped like its text. Content of any other kind is emitted as HTML just as it is, which is the
same only for a text without special characters. As an address, content of any kind but that of
addresses is normalized like its text. -/
theorem ordained_trusted_iff (c : Value) (k : String) :
    (ordainContent d c (.str k) >>= escapeHtml d) =
        (if k ∈ otherKinds then (textOf d c).map .str >>= escapeHtml d
          else (textOf d c).map .str) ∧
      ((ordainContent d c (.str k) >>= escapeHtml d) = ((textOf d c).map .str >>= escapeHtml d) ↔
        k ∈ otherKinds ∨ ∀ s, textOf d c = .ok s → ∀ a ∈ s.toList, a ∉ special) ∧
      ((ordainContent d c (.str k) >>= filterNormalizeUri d) =
          ((textOf d c).map .str >>= filterNormalizeUri d) ↔
        k ≠ "uri" ∨ ∀ s, textOf d c = .ok s → Uri.filter s.toList = s.toList) := by
  rw [ordainContent_str]
  cases textOf d c with
  | error f => simp [Except.map, bind, Except.bind]
  | ok s =>
    change escapeHtml d (.safe (.ofKind k) (.str s)) =
        (if k ∈ otherKinds then escapeHtml d (.str s) else .ok (.str s)) ∧
      (escapeHtml d (.safe (.ofKind k) (.str s)) = escapeHtml d (.str s) ↔ _) ∧
      (filterNormalizeUri d (.safe (.ofKind k) (.str s)) = filterNormalizeUri d (.str s) ↔ _)
    refine ⟨?_, ?_, ?_⟩
    · rcases ofKind_cases k with ⟨hk, hcontext⟩ | ⟨hk, hcontext⟩
      · rw [if_pos hk, escapeHtml_safe_of_ne d hcontext]
      · rw [if_neg hk, hcontext]
        rfl
    · rcases ofKind_cases k with ⟨hk, hcontext⟩ | ⟨hk, hcontext⟩
      · simp only [hk, escapeHtml_safe_of_ne d hcontext, true_or]
      · rw [hcontext, escapeHtml_str]
        simp only [hk, false_or, Except.ok.injEq, forall_eq']
        rw [← escape_eq_self_iff]
        exact ok_ofChars_eq_iff _ s
    · by_cases hk : k = "uri"
      · rw [(ofKind_eq_uri_iff k).mpr hk]
        simp only [hk, ne_eq, not_true_eq_false, false_or, Except.ok.injEq, forall_eq']
        exact ok_ofChars_eq_iff _ s
      · rw [filterNormalizeUri_safe_of_ne d (fun h => hk ((ofKind_eq_uri_iff k).mp h))]
        simp only [ne_eq, hk, not_false_eq_true, true_or]

/-- A style sheet is no HTML, but has no context of its own. -/
example : (ordainContent d (.str "<b>") (.str "css") >>= escapeHtml d) = .ok (.str "<b>") := rfl

end TemplateHost.Library
