import Population.Model.Analyzer
import Population.Proofs.Number.Digits
import Population.Proofs.Schema.Fit

namespace Population

namespace Matched

def text (m : Matched) (name : Text) : Text :=
  ((Capture.get? m.captures name).map Text.trim).getD []

def int? (m : Matched) (name : Text) : Option Int :=
  (Capture.get? m.captures name).bind fun t => (Number.parse? t.trim).bind (·.toInt64?)

end Matched

open Schema Extraction Statement

/-- If one name alone sets the scope, the entries of a line are what that name sets. -/
theorem entries_single {g : Text → Option Text} {n : Text} {fields : List Field} (hnodup : (fields.map (·.name)).Nodup)
    (honly : ∀ field ∈ fields, field.name ≠ n → g field.name = none) :
    (fields.filterMap fun field => (g field.name).map (·, field.value)) =
      ((g n).bind fun level => (valueOf fields n).map (level, ·)).toList := by
  induction fields with
  | nil => simp
  | cons field rest ih =>
      rw [List.map_cons, List.nodup_cons] at hnodup
      have hrest := ih hnodup.2 fun other hother => honly other (List.mem_cons_of_mem _ hother)
      by_cases hn : field.name = n
      · subst hn
        have hnone : valueOf rest field.name = none := valueOf_eq_none_iff.mpr hnodup.1
        rw [hnone] at hrest
        cases hg : g field.name <;> simpa [hg] using hrest
      · rw [List.filterMap_cons, honly field List.mem_cons_self hn, valueOf_cons, if_neg hn]
        exact hrest

/-- A line with a form of its section, and its captures with their types. -/
structure Read (home line : Text) (m : Matched) (x : Extraction) : Prop where
  matched : matchLine home line = .ok m
  typed : Typed standard m.form (callOf m.form) (Capture.transform m.form.transform m.captures).1 x

namespace Read

variable {home line : Text} {m : Matched} {x : Extraction} (h : Read home line m x)
include h

theorem form_mem : m.form ∈ forms :=
  (mem_forms_of_matchLine h.matched).1

theorem names_mem : x.fields.map (·.name) ∈ m.form.captureNames := by
  rw [h.typed.names, Capture.map_name_transform]
  exact matchLine_names h.matched

theorem no_level {n : Text} (hn : n ∈ Level.names) : valueOf x.fields n = none :=
  valueOf_eq_none_iff.mpr fun hmem => forms_no_level _ h.form_mem _ h.names_mem n hmem hn

theorem value_text {n : Text} (hn : n ∈ textNames m.form.kind) :
    valueOf x.fields n = (Capture.get? m.captures n).map (.text ·.trim) := by
  have hplain : n ∉ Capture.flagNames ∧ n ∉ Capture.multiplicityNames := by
    have hall : ∀ k ∈ StatementKind.all, ∀ n ∈ textNames k, n ∉ Capture.flagNames ∧ n ∉ Capture.multiplicityNames := by
      decide +kernel
    refine hall m.form.kind ?_ n hn
    cases m.form.kind <;> decide
  rw [h.typed.value_text (forms_textual _ h.form_mem n hn), Capture.get?_transform hplain.1 hplain.2]

theorem text_eq {n : Text} (hn : n ∈ textNames m.form.kind) (kind : Option StatementKind) (scope : Scope) (o : Origin) :
    Statement.text ⟨kind, x.fields, scope, o⟩ n = m.text n := by
  have hv : Statement.value? ⟨kind, x.fields, scope, o⟩ n = (Capture.get? m.captures n).map (.text ·.trim) :=
    h.value_text hn
  rw [Statement.text, hv, Matched.text]
  cases Capture.get? m.captures n <;> rfl

theorem value_given {n : Text} (hn : n ∈ textNames m.form.kind) (hall : ∀ ns ∈ m.form.captureNames, n ∈ ns) :
    valueOf x.fields n = some (.text (m.text n)) := by
  have hmem := hall _ h.names_mem
  have hv := h.value_text hn
  cases hc : Capture.get? m.captures n with
  | none =>
      rw [hc] at hv
      exact absurd hmem (valueOf_eq_none_iff.mp hv)
  | some t =>
      rw [hv, Matched.text, hc]
      rfl

theorem value_name (hn : ("name" : Text) ∈ textNames m.form.kind) :
    valueOf x.fields "name" = some (.text (m.text "name")) :=
  h.value_given hn (forms_named _ h.form_mem hn).1

theorem rnum_digits {t : Text} (hc : Capture.get? m.captures "rnum" = some t) :
    t ≠ [] ∧ ∀ b ∈ t, Text.isDigit b = true := by
  obtain ⟨c, hfind, rfl⟩ := Option.map_eq_some_iff.mp hc
  have hnumber : c.name ∈ numberNames := by
    rw [show c.name = ("rnum" : Text) by simpa using List.find?_some hfind]
    decide
  obtain ⟨p, hp, q, hq, raw, ds, hs, htext⟩ := matchLine_inner h.matched (List.mem_of_find?_eq_some hfind)
  rw [show q = digits from forms_number _ h.form_mem p hp _ hq hnumber] at hs
  rw [htext, Text.trim_of_digits (spells_digits hs).2]
  exact spells_digits hs

/-- The model reads the number of a relationship as it is captured, and the number is that of its integer. -/
theorem rnum_eq (hn : isNumeric standard m.form "rnum" = true) {kind : Option StatementKind} {scope : Scope}
    {o : Origin} {rnum : Int} (hr : Statement.int? ⟨kind, x.fields, scope, o⟩ "rnum" = some rnum) :
    m.int? "rnum" = some rnum ∧ valueOf x.fields "rnum" = some (.ofInt rnum) ∧
      (Number.ofInt rnum).toInt64? = some rnum := by
  have hget : Capture.get? (Capture.transform m.form.transform m.captures).1 "rnum" = Capture.get? m.captures "rnum" :=
    Capture.get?_transform (by decide) (by decide) _ _
  have hvalue : Statement.value? ⟨kind, x.fields, scope, o⟩ "rnum" = valueOf x.fields "rnum" := rfl
  rw [Statement.int?, hvalue] at hr
  cases hc : Capture.get? m.captures "rnum" with
  | none =>
      rw [h.typed.value_none (hget.trans hc)] at hr
      cases hr
  | some t =>
      obtain ⟨hne, hdigits⟩ := h.rnum_digits hc
      obtain ⟨n, i, hparse, hint, hv⟩ := h.typed.value_number hn (hget.trans hc)
      rw [hv] at hr
      simp only [hint] at hr
      obtain rfl := Option.some.inj hr
      refine ⟨by simp only [Matched.int?, hc, Option.bind_some, hparse, hint], ?_⟩
      rw [Text.trim_of_digits hdigits] at hparse
      have hn := Number.parse?_digits_eq_ofInt hne hdigits hparse hint
      simp only [hv, Value.ofInt, ← hn, hint, and_self]

theorem entries_eq : x.entries =
    ((scopeOf m.form "name").bind fun level => (valueOf x.fields "name").map (level, ·)).toList := by
  rw [h.typed.entries]
  refine entries_single (g := scopeOf m.form) (forms_nodup _ h.form_mem _ h.names_mem) fun field hfield hne => ?_
  exact (forms_scope _ h.form_mem).1 _ h.names_mem _ (List.mem_map_of_mem hfield) hne

/-- The scope after a line: a domain, a subsystem or a class is entered, and what was inside it is left. -/
theorem scope_eq {scope scope' : Scope} (hs : x.applyScope scope = .ok scope') :
    scope' = match m.form.kind with
      | .domain => ⟨some (.text (m.text "name")), none, none⟩
      | .subsystem => ⟨scope.domain, some (.text (m.text "name")), none⟩
      | .classDef => ⟨scope.domain, scope.subsystem, some (.text (m.text "name"))⟩
      | _ => scope := by
  have hentries := h.entries_eq
  rw [(forms_scope _ h.form_mem).2] at hentries
  have hname := h.value_name
  rw [applyScope] at hs
  cases hkind : m.form.kind with
  | domain | subsystem | classDef =>
      rw [hkind] at hname
      rw [hkind, hname (by decide)] at hentries
      rw [hentries] at hs
      exact (Except.ok.inj hs).symm
  | none | typeDef | ownAttribute | reference | activePerspective | passivePerspective | superclass | subclasses
      | bridge =>
      rw [hkind] at hentries
      rw [show x.entries = [] from hentries] at hs
      exact (pure_ok_iff.mp hs).symm

end Read

end Population
