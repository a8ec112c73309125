import Lox.Proofs.Grammar.Acceptance
import Lox.Proofs.Grammar.Lookahead
import Lox.Proofs.Scanning.Partition

/-!
# The first parse error is settled where it stands

The first error of a program is not only the first to be found, it is also final: no text that has
the same tokens up to the one that the error names is a program. With two exceptions such a text
even has the same first error. The exceptions are the faults that look behind, which come after an
error in the operand behind the operator, if there is one.

Up to the token that is named, reading is the same for both texts, one declaration after the other
(`first_error_of_agree`). That the error is about *this* token and about no later one that looks
the same is known because tokens stand at different places.
-/

set_option autoImplicit false

namespace Lox

namespace Grammar

open Reply

theorem site_of_mem_declarations {finish : Lexeme} {ts : List Token} {e : ParseError}
    (h : e ∈ errors (declarations finish ts)) (hnone : e.found = none) : e.site = finish := by
  rcases namesOneOf_of_mem_declarations h with hend | ⟨t, -, he⟩
  · rw [hend]
  · rw [he] at hnone
    cases hnone

theorem isAbout_of_mem_declarations {finish : Lexeme} {ts : List Token} {e : ParseError}
    (h : e ∈ errors (declarations finish ts)) : e.IsAbout ts := by
  rcases namesOneOf_of_mem_declarations h with hend | hmem
  · exact .inl (by rw [hend])
  · exact .inr hmem

/-- A first error that is not about `behind` stands when something else follows. -/
theorem first_error_of_agree (finish' : Lexeme) (behind' : List Token) {finish : Lexeme}
    {seen behind : List Token} {e : ParseError} {es : List ParseError}
    (h : errors (declarations finish (seen ++ behind)) = e :: es) (hn : ¬ e.IsAbout behind) :
    ∃ e' es', errors (declarations finish' (seen ++ behind')) = e' :: es' ∧
      (e' = e ∨ (e.fault.LooksBehind ∧ e'.IsAbout behind')) := by
  -- By induction on the common tokens: a declaration that ends among them is one of both inputs.
  induction hlen : seen.length using Nat.strongRecOn generalizing seen with
  | _ n ih =>
    cases seen with
    | nil =>
      have hmem : e ∈ errors (declarations finish behind) := by
        rw [List.nil_append] at h
        rw [h]
        exact List.mem_cons_self
      exact absurd (isAbout_of_mem_declarations hmem) hn
    | cons t seen =>
      have halike := (determined_declarationWithin nestingLimit).alike finish finish' (t :: seen)
        behind behind'
      simp only [List.cons_append] at h halike ⊢
      generalize hreply : (declarationWithin nestingLimit).1.run finish (t :: (seen ++ behind))
        = reply at halike
      generalize hreply' : (declarationWithin nestingLimit).1.run finish' (t :: (seen ++ behind'))
        = reply' at halike
      cases halike with
      | ok s left =>
        rw [declarations_cons_of_ok hreply] at h
        rw [declarations_cons_of_ok hreply']
        have hlt := declaration.2 finish _ s _ hreply
        have hleft : left.length < n := by
          simp only [List.length_append, List.length_cons] at hlt hlen
          omega
        exact ih left.length hleft h rfl
      | error e₀ left =>
        rw [declarations_cons_of_error hreply] at h
        rw [declarations_cons_of_error hreply']
        cases h
        exact ⟨e, _, rfl, .inl rfl⟩
      | beyond hr hr' hc hc' =>
        cases reply with
        | ok s rest =>
          rw [declarations_cons_of_ok hreply] at h
          have hmem : e ∈ errors (declarations finish rest) := by
            change errors (declarations finish rest) = e :: es at h
            rw [h]
            exact List.mem_cons_self
          exact absurd ((isAbout_of_mem_declarations hmem).mono hr.subset) hn
        | error e₀ rest =>
          rw [declarations_cons_of_error hreply] at h
          cases h
          obtain ⟨e', rest', he', hd⟩ := hc e rest rfl hn
          subst he'
          rw [declarations_cons_of_error hreply']
          exact ⟨e', _, rfl, hd⟩

end Grammar

/-! ## The places that an error can name -/

/-- What an error can name in a scanned text: one of the tokens, or the end behind them. -/
def Scan.sites (s : Scan) : List (Option TokenKind × Lexeme) :=
  s.tokens.map (fun t => (some t.kind, t.lexeme)) ++ [(none, s.finish)]

/-- What the error names. -/
def ParseError.named (e : ParseError) : Option TokenKind × Lexeme := (e.found, e.site)

/-- Tokens come in the order in which they begin. -/
theorem Scan.tokens_pairwise (source : String) :
    (Scan.ofString source).tokens.Pairwise fun a b => a.lexeme.start < b.lexeme.start := by
  have hpart := scanFrom_partition .origin source.toList
  refine List.pairwise_filterMap.mpr (hpart.pairwise_start.imp ?_)
  intro a b hlt t ht t' ht'
  cases a with
  | error e => cases ht
  | token t₀ =>
    cases b with
    | error e => cases ht'
    | token t₁ =>
      cases ht
      cases ht'
      exact hlt

namespace Scan

variable {s s' : Scan} {i : Nat}

theorem sites_getElem?_of_lt (h : i < s.tokens.length) :
    s.sites[i]? = some (some s.tokens[i].kind, s.tokens[i].lexeme) := by
  simp [sites, List.getElem?_append_left, h]

theorem sites_getElem?_length : s.sites[s.tokens.length]? = some (none, s.finish) := by
  simp [sites]

/-- An index of the sites is that of a token or that of the end. -/
theorem lt_or_eq_of_sites_getElem? {site : Option TokenKind × Lexeme}
    (h : s.sites[i]? = some site) : i < s.tokens.length ∨ i = s.tokens.length := by
  obtain ⟨hlt, -⟩ := List.getElem?_eq_some_iff.mp h
  simp only [sites, List.length_append, List.length_map, List.length_cons, List.length_nil] at hlt
  omega

theorem sites_take_of_lt (h : i < s.tokens.length) :
    s.sites.take (i + 1) = (s.tokens.take (i + 1)).map fun t => (some t.kind, t.lexeme) := by
  rw [sites, List.take_append_of_le_length (by rw [List.length_map]; exact h), List.map_take]

theorem eq_of_map_site {ts ts' : List Token}
    (h : ts'.map (fun t => (some t.kind, t.lexeme)) = ts.map fun t => (some t.kind, t.lexeme)) :
    ts' = ts := by
  refine (List.map_inj_right ?_).mp h
  rintro ⟨kind, lexeme⟩ ⟨kind', lexeme'⟩ heq
  cases heq
  rfl

/-- Where the sites of two scans agree up to a token, so do the tokens. -/
theorem tokens_eq_append_of_take_sites (h : s'.sites.take (i + 1) = s.sites.take (i + 1))
    (hi : i < s.tokens.length) :
    ∃ behind', s'.tokens = s.tokens.take (i + 1) ++ behind' := by
  have hsite : s'.sites[i]? = some (some s.tokens[i].kind, s.tokens[i].lexeme) := by
    rw [← sites_getElem?_of_lt hi, ← List.getElem?_take_of_lt (Nat.lt_succ_self i), h,
      List.getElem?_take_of_lt (Nat.lt_succ_self i)]
  have hi' : i < s'.tokens.length := by
    rcases lt_or_eq_of_sites_getElem? hsite with hlt | rfl
    · exact hlt
    · rw [sites_getElem?_length] at hsite
      cases hsite
  rw [sites_take_of_lt hi, sites_take_of_lt hi'] at h
  exact ⟨s'.tokens.drop (i + 1), by rw [← eq_of_map_site h, List.take_append_drop]⟩

/-- Where they agree up to the end, the tokens and the ends are the same. -/
theorem eq_of_take_sites_end
    (h : s'.sites.take (s.tokens.length + 1) = s.sites.take (s.tokens.length + 1)) :
    s'.tokens = s.tokens ∧ s'.finish = s.finish := by
  have hsite : s'.sites[s.tokens.length]? = some (none, s.finish) := by
    rw [← sites_getElem?_length, ← List.getElem?_take_of_lt (Nat.lt_succ_self _), h,
      List.getElem?_take_of_lt (Nat.lt_succ_self _)]
  have hlen : s.tokens.length = s'.tokens.length := by
    rcases lt_or_eq_of_sites_getElem? hsite with hlt | heq
    · rw [sites_getElem?_of_lt hlt] at hsite
      cases hsite
    · exact heq
  have htake (u : Scan) (hu : s.tokens.length = u.tokens.length) :
      u.sites.take (s.tokens.length + 1) = u.sites := by
    rw [hu]
    exact List.take_of_length_le (by simp [sites])
  rw [htake s' hlen, htake s rfl] at h
  obtain ⟨htokens, hfinish⟩ := List.append_inj h (by simp [hlen])
  exact ⟨eq_of_map_site htokens, congrArg Prod.snd (List.cons.inj hfinish).1⟩

/-- Tokens with the same lexeme are the same token. -/
theorem eq_of_lexeme_eq (horder : s.tokens.Pairwise fun a b => a.lexeme.start < b.lexeme.start)
    {j : Nat} (hi : i < s.tokens.length) (hj : j < s.tokens.length)
    (h : s.tokens[j].lexeme = s.tokens[i].lexeme) : j = i := by
  have hstart := List.pairwise_iff_getElem.mp horder
  rcases Nat.lt_trichotomy j i with hlt | heq | hlt
  · have := hstart j i hj hi hlt
    rw [h] at this
    exact absurd this (Nat.lt_irrefl _)
  · exact heq
  · have := hstart i j hi hj hlt
    rw [h] at this
    exact absurd this (Nat.lt_irrefl _)

/-- A site stands at one index only. -/
theorem sites_index_unique
    (horder : s.tokens.Pairwise fun a b => a.lexeme.start < b.lexeme.start) {j : Nat}
    {site : Option TokenKind × Lexeme} (hi : s.sites[i]? = some site)
    (hj : s.sites[j]? = some site) : j = i := by
  rcases lt_or_eq_of_sites_getElem? hi with hlti | rfl <;>
    rcases lt_or_eq_of_sites_getElem? hj with hltj | rfl
  · rw [sites_getElem?_of_lt hlti] at hi
    rw [sites_getElem?_of_lt hltj, ← hi] at hj
    exact eq_of_lexeme_eq horder hlti hltj (congrArg Prod.snd (Option.some.inj hj))
  · rw [sites_getElem?_of_lt hlti] at hi
    rw [sites_getElem?_length, ← hi] at hj
    cases hj
  · rw [sites_getElem?_length] at hi
    rw [sites_getElem?_of_lt hltj, ← hi] at hj
    cases hj
  · rfl

/-- An error about one of the tokens, or about the end, names a site. -/
theorem exists_site_of_isAbout {e : ParseError} {before behind : List Token}
    (hs : s.tokens = before ++ behind) (hend : e.found = none → e.site = s.finish)
    (h : e.IsAbout behind) : ∃ j, before.length ≤ j ∧ s.sites[j]? = some e.named := by
  rcases h with hnone | ⟨t, ht, he⟩
  · refine ⟨s.tokens.length, by rw [hs, List.length_append]; omega, ?_⟩
    rw [sites_getElem?_length, ParseError.named, hnone, hend hnone]
  · obtain ⟨k, hk, rfl⟩ := List.getElem_of_mem ht
    have hlt : before.length + k < s.tokens.length := by
      rw [hs, List.length_append]
      omega
    refine ⟨before.length + k, Nat.le_add_right .., ?_⟩
    rw [sites_getElem?_of_lt hlt, he]
    simp [hs, ParseError.named, ParseError.atToken]

end Scan

/-- Whether the first error `e`, which names the site `i` of a scan, is final: every scan with the
same sites up to there has an error as well, and none before this one. -/
def Scan.SettledAt (s : Scan) (i : Nat) (e : ParseError) : Prop :=
  ∀ s' : Scan, s'.sites.take (i + 1) = s.sites.take (i + 1) →
    ∃ e' es', Program.parse s'.finish s'.tokens = .error (e' :: es') ∧
      (¬ e.fault.LooksBehind → e' = e) ∧
      (e' = e ∨ ∃ j, i < j ∧ s'.sites[j]? = some e'.named)

/-- Nothing can follow the end of the input. -/
theorem Scan.settledAt_length {s : Scan} {e : ParseError} {es : List ParseError}
    (h : Program.parse s.finish s.tokens = .error (e :: es)) : s.SettledAt s.tokens.length e := by
  intro s' hagree
  obtain ⟨htokens, hfinish⟩ := Scan.eq_of_take_sites_end hagree
  exact ⟨e, es, by rw [htokens, hfinish, h], fun _ => rfl, .inl rfl⟩

/-- An error about a token does not depend on the tokens behind it. -/
theorem Scan.settledAt_of_lt {s : Scan} {e : ParseError} {es : List ParseError} {i : Nat}
    (horder : s.tokens.Pairwise fun a b => a.lexeme.start < b.lexeme.start)
    (h : Program.parse s.finish s.tokens = .error (e :: es)) (hi : i < s.tokens.length)
    (he : e = .atToken e.fault s.tokens[i]) : s.SettledAt i e := by
  intro s' hagree
  obtain ⟨behind', htokens'⟩ := Scan.tokens_eq_append_of_take_sites hagree hi
  have hn : ¬ e.IsAbout (s.tokens.drop (i + 1)) := by
    rintro (hnone | ⟨t, ht, he'⟩)
    · rw [he] at hnone
      cases hnone
    · obtain ⟨k, hk, rfl⟩ := List.getElem_of_mem ht
      rw [List.getElem_drop] at he'
      have hlexeme := congrArg ParseError.site (he'.symm.trans he)
      have := Scan.eq_of_lexeme_eq horder hi (by rw [List.length_drop] at hk; omega) hlexeme
      omega
  have herrors := (Program.parse_eq_error_iff.mp h).1
  rw [← List.take_append_drop (i + 1) s.tokens] at herrors
  obtain ⟨e', es', herrors', hd⟩ := Grammar.first_error_of_agree s'.finish behind' herrors hn
  rw [← htokens'] at herrors'
  have hmem' : e' ∈ Grammar.errors (Grammar.declarations s'.finish s'.tokens) := by
    rw [herrors']
    exact List.mem_cons_self
  refine ⟨e', es', Program.parse_eq_error_iff.mpr ⟨herrors', List.cons_ne_nil _ _⟩, ?_, ?_⟩
  · intro hbehind
    rcases hd with heq | ⟨hlooks, -⟩
    · exact heq
    · exact absurd hlooks hbehind
  · rcases hd with heq | ⟨-, habout⟩
    · exact .inl heq
    · obtain ⟨j, hj, hsite⟩ := Scan.exists_site_of_isAbout htokens'
        (Grammar.site_of_mem_declarations hmem') habout
      rw [List.length_take, Nat.min_eq_left hi] at hj
      exact .inr ⟨j, hj, hsite⟩

/-- **The first error of a program is settled where it stands.** It names one place of the text,
and whatever is the same up to this place is wrong as well. Unless the fault is one that looks
behind, its first error is the same; and otherwise it is the same, or one further on. -/
theorem Program.first_error_settled {source : String} {errors : List ParseError}
    (h : Program.parse (Scan.ofString source).finish (Scan.ofString source).tokens
      = .error errors) :
    ∃ e es i, errors = e :: es ∧ (Scan.ofString source).sites[i]? = some e.named ∧
      (∀ j, (Scan.ofString source).sites[j]? = some e.named → j = i) ∧
      (Scan.ofString source).SettledAt i e := by
  obtain ⟨herrors, hne⟩ := Program.parse_eq_error_iff.mp h
  obtain ⟨e, es, rfl⟩ := List.exists_cons_of_ne_nil hne
  have hmem : e ∈ Grammar.errors (Grammar.declarations (Scan.ofString source).finish
      (Scan.ofString source).tokens) := by
    rw [herrors]
    exact List.mem_cons_self
  have horder := Scan.tokens_pairwise source
  obtain ⟨i, hsite, hsettled⟩ : ∃ i, (Scan.ofString source).sites[i]? = some e.named ∧
      (Scan.ofString source).SettledAt i e := by
    rcases Grammar.namesOneOf_of_mem_declarations hmem with hend | ⟨t, ht, he⟩
    · refine ⟨_, ?_, Scan.settledAt_length h⟩
      rw [Scan.sites_getElem?_length, hend, ParseError.named]
    · obtain ⟨i, hi, rfl⟩ := List.getElem_of_mem ht
      refine ⟨i, ?_, Scan.settledAt_of_lt horder h hi he⟩
      rw [Scan.sites_getElem?_of_lt hi, he, ParseError.named, ParseError.atToken]
  exact ⟨e, es, i, rfl, hsite, fun j hj => Scan.sites_index_unique horder hsite hj, hsettled⟩

/-- A leading plus sign is wrong whatever follows, but that may be wrong first. -/
theorem Program.first_error_settled_plus :
    (Scan.ofString "+ a;").SettledAt 0
        ⟨.missingLeftOperand, some (.symbol .plus), "+", 0, 1⟩ ∧
      Program.parse (Scan.ofString "+ ;").finish (Scan.ofString "+ ;").tokens
        = .error [⟨.nonExpression, some (.symbol .semicolon), ";", 2, 1⟩] := by
  refine ⟨?_, Program.parse_eq_error_iff.mpr ⟨by decide +kernel, List.cons_ne_nil _ _⟩⟩
  have hparse : Program.parse (Scan.ofString "+ a;").finish (Scan.ofString "+ a;").tokens
      = .error [⟨.missingLeftOperand, some (.symbol .plus), "+", 0, 1⟩] :=
    Program.parse_eq_error_iff.mpr ⟨by decide +kernel, List.cons_ne_nil _ _⟩
  obtain ⟨e, es, i, heq, -, honly, hsettled⟩ := Program.first_error_settled hparse
  cases heq
  obtain rfl : 0 = i := honly 0 (by decide +kernel)
  exact hsettled

end Lox
