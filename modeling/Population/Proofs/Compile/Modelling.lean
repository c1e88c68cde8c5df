import Population.Proofs.Compile.Effect
import Population.Proofs.Compile.Survey

namespace Population

open Identifier

theorem classesIn_append (ds es : List Declared) : classesIn (ds ++ es) = classesIn ds ++ classesIn es :=
  List.filterMap_append

theorem referencesIn_append (ds es : List Declared) : referencesIn (ds ++ es) = referencesIn ds ++ referencesIn es :=
  List.filterMap_append

theorem classesIn_append_of_none (ds : List Declared) {es : List Declared} (h : ∀ x ∈ es, x.class? = none) :
    classesIn (ds ++ es) = classesIn ds := by
  rw [classesIn_append, show classesIn es = [] from List.filterMap_eq_nil_iff.mpr h, List.append_nil]

theorem referencesIn_append_of_none (ds : List Declared) {es : List Declared} (h : ∀ x ∈ es, x.reference? = none) :
    referencesIn (ds ++ es) = referencesIn ds := by
  rw [referencesIn_append, show referencesIn es = [] from List.filterMap_eq_nil_iff.mpr h, List.append_nil]

theorem referencesIn_map (rnum : Int) (cls attr : Text) (targets : List Target) :
    referencesIn (targets.map (.reference rnum cls attr)) = targets.map fun t => (rnum, cls, attr, t) := by
  rw [referencesIn, List.filterMap_map]
  exact congrFun (List.filterMap_eq_map (f := fun t => (rnum, cls, attr, t))) targets

theorem mem_tagged_append {ds : List Declared} {numbers : List Int} {cls attr owner x : Text} {n : Int} :
    .tagged owner n x ∈ ds ++ numbers.map (.tagged cls · attr) ↔
      .tagged owner n x ∈ ds ∨ (n ∈ numbers ∧ owner = cls ∧ x = attr) := by
  simp only [List.mem_append, List.mem_map, Declared.tagged.injEq]
  constructor
  · rintro (hds | ⟨_, hn, rfl, rfl, rfl⟩)
    · exact .inl hds
    · exact .inr ⟨hn, rfl, rfl⟩
  · rintro (hds | ⟨hn, rfl, rfl⟩)
    · exact .inl hds
    · exact .inr ⟨n, hn, rfl, rfl, rfl⟩

/-- The model of a domain has what has been declared in it. -/
structure Models (a : Analyzer) (name : Text) (ds : List Declared) : Prop where
  domain : a.domain = name
  classes : a.classes.map (·.name) = classesIn ds
  nodup : (classesIn ds).Nodup
  references : a.references.map (fun r => (r.rnum, r.fromClass, r.fromAttr, r.target)) = referencesIn ds
  wholes : ∀ r ∈ a.references, (Number.ofInt r.rnum).toInt64? = some r.rnum
  tags : ∀ c ∈ a.classes, ∀ index attr, Holds c.identifiers index attr ↔
    .tagged c.name ((index + 1 : Nat) : Int) attr ∈ ds
  distinct : ∀ c ∈ a.classes, Distinct c.identifiers
  owners : ∀ cls number attr, .tagged cls number attr ∈ ds → cls ∈ classesIn ds ∧ 1 ≤ number ∧ number ≤ 9

theorem models_opened (name : Text) : Models (.opened name) name [] :=
  ⟨rfl, rfl, .nil, rfl, nofun, nofun, nofun, nofun⟩

namespace Models

variable {a a' : Analyzer} {name : Text} {ds : List Declared} (h : Models a name ds)
include h

/-- Subsystems and relationships are not asked for. -/
theorem congr (hdomain : a'.domain = a.domain) (hclasses : a'.classes = a.classes)
    (hreferences : a'.references = a.references) : Models a' name ds := by
  obtain ⟨domain, classes, nodup, references, wholes, tags, distinct, owners⟩ := h
  exact ⟨hdomain.trans domain, by rwa [hclasses], nodup, by rwa [hreferences], by rwa [hreferences], by rwa [hclasses],
    by rwa [hclasses], owners⟩

theorem mem_classesIn {cls : Text} : cls ∈ classesIn ds ↔ ∃ c ∈ a.classes, c.name = cls := by
  rw [← h.classes, List.mem_map]

theorem nodup_names : a.classes.Pairwise fun c c' => c.name ≠ c'.name := by
  have hnodup := h.nodup
  rw [← h.classes] at hnodup
  exact List.pairwise_map.mp hnodup

theorem classDef {cls subsystem : Text} {number : Int} {o : Origin} (hnew : a.class? cls = none) :
    Models { a with classes := a.classes ++ [⟨cls, subsystem, number, [], o⟩] } name (ds ++ [.cls cls]) := by
  have hfresh : cls ∉ classesIn ds := by
    rw [h.mem_classesIn]
    rintro ⟨c, hc, hname⟩
    simpa [hname] using List.find?_eq_none.mp hnew c hc
  have htagged (owner : Text) (n : Int) (attr : Text) :
      .tagged owner n attr ∈ ds ++ [.cls cls] ↔ .tagged owner n attr ∈ ds := by
    simp
  have hclasses : classesIn (ds ++ [.cls cls]) = classesIn ds ++ [cls] := classesIn_append ..
  constructor
  case domain => exact h.domain
  case classes => rw [hclasses, List.map_append, h.classes]; rfl
  case nodup =>
    rw [hclasses]
    refine List.nodup_append.mpr ⟨h.nodup, by simp, fun x hx y hy hxy => hfresh ?_⟩
    rwa [← List.mem_singleton.mp hy, ← hxy]
  case references => rw [h.references, referencesIn_append]; exact (List.append_nil _).symm
  case wholes => exact h.wholes
  case tags =>
    intro c hc index attr
    rw [htagged]
    rcases List.mem_append.mp hc with hc | hc
    · exact h.tags c hc index attr
    · rw [List.mem_singleton.mp hc]
      refine iff_of_false (holds_nil index attr) fun htag => hfresh (h.owners _ _ _ htag).1
  case distinct => exact List.forall_mem_append.mpr ⟨h.distinct, List.forall_mem_singleton.mpr nofun⟩
  case owners =>
    intro owner n attr htag
    obtain ⟨howner, hrange⟩ := h.owners owner n attr ((htagged ..).mp htag)
    rw [hclasses]
    exact ⟨List.mem_append_left _ howner, hrange⟩

theorem tagged {cls : ModelClass} {attr tag : Text} {group : Group} (hcls : a.class? cls.name = some cls)
    (hg : Analyzer.tagged cls attr tag = .ok group) : Models (a.setIdentifiers cls.name group) name
      (ds ++ (Analyzer.tagNumbers tag).map (.tagged cls.name · attr)) := by
  have hmem := List.mem_of_find?_eq_some hcls
  have hclasses : classesIn (ds ++ (Analyzer.tagNumbers tag).map (.tagged cls.name · attr)) = classesIn ds :=
    classesIn_append_of_none ds (by simp [Declared.class?])
  obtain ⟨hholds, hdistinct⟩ := Analyzer.tagged_ok hg
  constructor
  case domain => exact h.domain
  case classes =>
    rw [hclasses, ← h.classes, Analyzer.setIdentifiers, List.map_map]
    refine List.map_congr_left fun c _ => ?_
    by_cases hc : c.name = cls.name <;> simp [hc]
  case nodup => rw [hclasses]; exact h.nodup
  case references =>
    rw [referencesIn_append_of_none ds (by simp [Declared.reference?])]
    exact h.references
  case wholes => exact h.wholes
  -- an attribute of another class is where it was
  case tags =>
    intro c hc index x
    obtain ⟨c₀, hc₀, rfl⟩ := List.mem_map.mp hc
    rw [mem_tagged_append]
    by_cases hname : c₀.name = cls.name
    · rw [if_pos hname]
      simp only [hname, hholds, h.tags cls hmem, true_and]
    · rw [if_neg hname]
      simp only [hname, false_and, and_false, or_false, h.tags c₀ hc₀]
  case distinct =>
    intro c hc
    obtain ⟨c₀, hc₀, rfl⟩ := List.mem_map.mp hc
    by_cases hname : c₀.name = cls.name
    · rw [if_pos hname]
      exact hdistinct (h.distinct cls hmem)
    · rw [if_neg hname]
      exact h.distinct c₀ hc₀
  case owners =>
    intro owner n x htag
    rw [hclasses]
    rcases mem_tagged_append.mp htag with hds | ⟨hn, rfl, rfl⟩
    · exact h.owners owner n x hds
    · exact ⟨h.mem_classesIn.mpr ⟨cls, hmem, rfl⟩, Analyzer.tagNumbers_range hn⟩

theorem reference {cls attr : Text} {rnum : Int} {targets : List Target} {refs : List PendingReference}
    {deps : List Dependency} (hint : (Number.ofInt rnum).toInt64? = some rnum)
    (hrefs : refs.map (fun r => (r.rnum, r.fromClass, r.fromAttr, r.target)) =
      targets.map fun t => (rnum, cls, attr, t)) :
    Models { a with references := a.references ++ refs, dependencies := deps } name
      (ds ++ targets.map (.reference rnum cls attr)) := by
  have hclasses : classesIn (ds ++ targets.map (.reference rnum cls attr)) = classesIn ds :=
    classesIn_append_of_none ds (by simp [Declared.class?])
  -- references are no tags
  have htagged (owner : Text) (n : Int) (x : Text) :
      .tagged owner n x ∈ ds ++ targets.map (.reference rnum cls attr) ↔ .tagged owner n x ∈ ds := by
    simp
  constructor
  case domain => exact h.domain
  case classes => rw [hclasses]; exact h.classes
  case nodup => rw [hclasses]; exact h.nodup
  case references =>
    rw [List.map_append, h.references, hrefs, referencesIn_append, referencesIn_map]
  case wholes =>
    refine List.forall_mem_append.mpr ⟨h.wholes, fun r hr => ?_⟩
    have hmem := List.mem_map_of_mem (f := fun r : PendingReference => (r.rnum, r.fromClass, r.fromAttr, r.target)) hr
    rw [hrefs] at hmem
    obtain ⟨target, -, htarget⟩ := List.mem_map.mp hmem
    have hrnum : r.rnum = rnum := (Prod.mk.inj htarget).1.symm
    simp only [hrnum, hint]
  case tags =>
    intro c hc index x
    rw [htagged]
    exact h.tags c hc index x
  case distinct => exact h.distinct
  case owners =>
    intro owner n x htag
    rw [hclasses]
    exact h.owners owner n x ((htagged ..).mp htag)

end Models

namespace Matched

variable {m : Matched} {cls : Option Text}

theorem declares_classDef (hk : m.form.kind = .classDef) : m.declares cls = [.cls (m.text "name")] := by
  simp only [declares, hk]

theorem declares_ownAttribute {owner : Text} (hk : m.form.kind = .ownAttribute) :
    m.declares (some owner) = m.tags owner := by
  simp only [declares, hk]

theorem declares_reference {owner : Text} (hk : m.form.kind = .reference) :
    m.declares (some owner) = m.references owner ++ m.tags owner := by
  simp only [declares, hk]

theorem declares_other (hk : m.form.kind ∉ [.classDef, .ownAttribute, .reference]) : m.declares cls = [] := by
  unfold declares
  split
  next hc => exact absurd (by simp [hc]) hk
  next ho => exact absurd (by simp [ho]) hk
  next hr => exact absurd (by simp [hr]) hk
  next => rfl

theorem class?_references {owner : Text} : ∀ x ∈ m.references owner, x.class? = none := by
  rw [references]
  split <;> simp [Declared.class?]

theorem classesIn_declares (hk : m.form.kind ≠ .classDef) : classesIn (m.declares cls) = [] := by
  refine List.filterMap_eq_nil_iff.mpr fun x hx => ?_
  unfold declares at hx
  split at hx
  next hc => exact absurd hc hk
  next =>
      obtain ⟨n, -, rfl⟩ := List.mem_map.mp hx
      rfl
  next =>
      rcases List.mem_append.mp hx with hx | hx
      · exact class?_references x hx
      · obtain ⟨n, -, rfl⟩ := List.mem_map.mp hx
        rfl
  next => cases hx

end Matched

namespace Building

variable {b b' : Building} {m : Matched} {name : Text} {ds : List Declared} {cls : Option Text}

theorem Effect.models (he : Effect b b' m) (hk : m.form.kind ≠ .domain) (h : Models b.analyzer name ds)
    (hcls : b.scope.innerClass = cls.map .text) : Models b'.analyzer name (ds ++ m.declares cls) := by
  -- a statement of another kind declares nothing, and what it changes is not asked for
  have hother (hp : m.form.kind ∉ [.classDef, .ownAttribute, .reference]) (h' : Models b'.analyzer name ds) :
      Models b'.analyzer name (ds ++ m.declares cls) := by
    rwa [Matched.declares_other hp, List.append_nil]
  cases he with
  | domain hp => exact absurd hp hk
  | plain hp _ _ ha =>
      refine hother (by rcases hp with hp | hp <;> simp [hp]) ?_
      rw [ha]
      exact h
  | subsystem hp _ _ _ _ ha =>
      refine hother (by simp [hp]) ?_
      rw [ha]
      exact h.congr rfl rfl rfl
  | classDef hp _ _ _ hnew ha =>
      rw [ha, Matched.declares_classDef hp]
      exact h.classDef hnew
  | @ownAttribute c k group hp _ _ hi hk hg ha =>
      obtain rfl : cls = some k.name := by
        rw [hi] at hcls
        cases cls <;> simp_all
      rw [ha, Matched.declares_ownAttribute hp]
      exact h.tagged hk hg
  | @reference k group rnum targets refs deps hp _ _ hi hk hr hint ht hg hrefs ha =>
      obtain rfl : cls = some k.name := by
        rw [hi] at hcls
        cases cls <;> simp_all
      have hreferences : m.references k.name = targets.map (.reference rnum k.name (m.text "name")) := by
        simp only [Matched.references, hr, ht]
      rw [ha, Matched.declares_reference hp, hreferences, ← List.append_assoc]
      exact (h.reference hint hrefs).tagged hk hg
  | relationship hp _ _ _ _ _ ha =>
      refine hother (by rcases hp with hp | hp <;> simp [hp]) ?_
      rw [ha]
      exact h.congr rfl rfl rfl
  | continued hp _ _ _ ha =>
      refine hother (by rcases hp with hp | hp <;> simp [hp]) ?_
      rw [ha]
      exact h

/-- Only domains are opened, and only their end closes them. -/
theorem Effect.active (he : Effect b b' m) (hk : m.form.kind ≠ .domain) : b'.analyzer.active = b.analyzer.active := by
  cases he with
  | domain hp => exact absurd hp hk
  | plain _ _ _ ha | subsystem _ _ _ _ _ ha | classDef _ _ _ _ _ ha | ownAttribute _ _ _ _ _ _ ha
      | reference _ _ _ _ _ _ _ _ _ _ ha | relationship _ _ _ _ _ _ ha | continued _ _ _ _ ha =>
      exact (congrArg Analyzer.active ha).trans rfl

theorem Effect.entered (he : Effect b b' m) (hk : m.form.kind ≠ .domain) (hcls : b.scope.innerClass = cls.map .text) :
    b'.scope.domain = b.scope.domain ∧ b'.scope.innerClass = (m.entered cls).map .text := by
  cases he with
  | domain hp => exact absurd hp hk
  | plain hp _ hs | relationship hp _ _ hs | continued hp _ _ hs =>
      rw [hs]
      refine ⟨rfl, ?_⟩
      rcases hp with hp | hp <;> simp only [Matched.entered, hp, hcls]
  | subsystem hp _ _ hs | classDef hp _ _ hs =>
      rw [hs]
      refine ⟨rfl, ?_⟩
      simp only [Matched.entered, hp]
      rfl
  | ownAttribute hp _ hs | reference hp _ hs =>
      rw [hs]
      refine ⟨rfl, ?_⟩
      simp only [Matched.entered, hp, hcls]

end Building

end Population
