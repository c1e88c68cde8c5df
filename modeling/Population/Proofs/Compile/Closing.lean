import Population.Proofs.Compile.Lines
import Population.Proofs.Compile.Modelling
import Population.Proofs.Script.Derived

namespace Population

open Account Identifier

def toldReferences (domain : Text) (ds : List Declared) :
    List (Option Text × Option Int × Option Text × Option Text × Option Text × Option Text) :=
  (referencesIn ds).map fun (rnum, cls, attr, target) =>
    (some domain, some rnum, some cls, some attr, some target.cls, some target.attr)

def toldClasses (domain : Text) (ds : List Declared) : List (Option Text × Option Text) :=
  (classesIn ds).map fun cls => (some domain, some cls)

theorem toldClasses_append (domain : Text) (ds es : List Declared) :
    toldClasses domain (ds ++ es) = toldClasses domain ds ++ toldClasses domain es := by
  rw [toldClasses, classesIn_append, List.map_append]
  rfl

/-- Derived commands that tell what has been declared in a domain, and nothing else. -/
structure Settled (domain : Text) (ds : List Declared) (cs : List Command) : Prop where
  classes : told evicted cs = toldClasses domain ds
  references : (told formalized cs).Perm (toldReferences domain ds)
  tags : ∀ cls number attr, .tagged cls number attr ∈ ds → Identified cs domain cls number attr
  tagged : ∀ cls number attr, (some domain, some cls, some number, some attr) ∈ told identified cs →
    .tagged cls number attr ∈ ds

def Emission.tells {α : Type} (e : Emission) (account : Account α) : List α :=
  account e.call (valueOf e.fields)

theorem Emitted.tells {α : Type} {e : Emission} {c : Command} (h : Emitted e c) (account : Account α) :
    c.tells account = e.tells account := by
  rw [Command.tells, h.call, show c.value? = valueOf e.fields from funext h.value]
  rfl

theorem Emission.tells_evicted {e : Emission} (h : e.call ≠ Analyzer.removeIdCall) : e.tells evicted = [] :=
  if_neg h

theorem Emission.tells_identified {e : Emission} (h : e.call ≠ Analyzer.addIdCall) : e.tells identified = [] :=
  if_neg h

theorem Emission.tells_formalized {e : Emission} (h : e.call ≠ Analyzer.formalizeCall) : e.tells formalized = [] :=
  if_neg h

theorem told_emitted {α : Type} {es : List Emission} {cs : List Command} (h : List.Forall₂ Emitted es cs)
    (account : Account α) : told account cs = es.flatMap (·.tells account) :=
  flatMap_partner h fun _ _ hec => hec.tells account

namespace Analyzer

variable (a : Analyzer) (c : ModelClass)

theorem tells_added (number : Nat) (attr : Text) : (idCommand addIdCall a c number attr).tells identified =
    [(some a.domain, some c.name, (Number.ofInt number).toInt64?, some attr)] := by
  obtain ⟨hclass, hnumber, hattr, hdomain⟩ := idCommand_values addIdCall a c number attr
  rw [Emission.tells, identified, if_pos (show (idCommand addIdCall a c number attr).call = addIdCall from rfl)]
  simp only [hclass, hnumber, hattr, hdomain, Option.bind_some, Value.text?, Value.int?, Value.ofInt]

theorem tells_removed (number : Nat) (attr : Text) : (idCommand removeIdCall a c number attr).tells evicted =
    [(some a.domain, some c.name)] := by
  obtain ⟨hclass, -, -, hdomain⟩ := idCommand_values removeIdCall a c number attr
  rw [Emission.tells, evicted, if_pos (show (idCommand removeIdCall a c number attr).call = removeIdCall from rfl)]
  simp only [hclass, hdomain, Option.bind_some, Value.text?]

theorem column_texts (ts : List Text) : Value.column (some (.texts ts)) = ts := by
  have hcolumn : Value.column (some (.texts ts)) = (ts.map Value.text).map (·.textOrEmpty) := rfl
  rw [hcolumn, List.map_map]
  exact List.map_id ts

theorem map_range_getElem? {α β : Type} (l : List α) (f : Option α → β) :
    (List.range l.length).map (fun i => f l[i]?) = l.map fun x => f (some x) := by
  refine List.ext_getElem (by simp) fun i hi _ => ?_
  have hi : i < l.length := by simpa using hi
  simp [hi]

theorem tells_formalization (rnum : Int) (first : PendingReference) (refs : List PendingReference) :
    (a.formalization rnum first refs).tells formalized = refs.map fun r =>
      (some a.domain, (Number.ofInt rnum).toInt64?, some r.fromClass, some r.fromAttr, some r.target.cls,
        some r.target.attr) := by
  obtain ⟨hrnum, hrc, hra, htc, hta, hdomain⟩ := formalization_values a rnum first refs
  rw [Emission.tells, formalized, if_pos (show (a.formalization rnum first refs).call = formalizeCall from rfl)]
  simp only [hrnum, hrc, hra, htc, hta, hdomain, column_texts, Option.bind_some, Value.text?, Value.int?, Value.ofInt,
    List.length_map, List.getElem?_map]
  exact map_range_getElem? refs fun r => (some a.domain, (Number.ofInt rnum).toInt64?, r.map (·.fromClass),
    r.map (·.fromAttr), r.map (·.target.cls), r.map (·.target.attr))

theorem identification_evicted : (a.identification c).flatMap (·.tells evicted) = [(some a.domain, some c.name)] := by
  rw [identification, List.flatMap_append, List.flatMap_singleton, tells_removed,
    List.flatMap_eq_nil_iff.mpr, List.nil_append]
  intro e he
  obtain ⟨⟨attrs, i⟩, -, he⟩ := List.mem_flatMap.mp he
  obtain ⟨attr, -, rfl⟩ := List.mem_map.mp he
  exact Emission.tells_evicted (show addIdCall ≠ removeIdCall by decide)

theorem identification_formalized : (a.identification c).flatMap (·.tells formalized) = [] := by
  refine List.flatMap_eq_nil_iff.mpr fun e he => ?_
  rcases identification_cases he with ⟨number, attr, rfl⟩ | rfl
  · exact Emission.tells_formalized (show addIdCall ≠ formalizeCall by decide)
  · exact Emission.tells_formalized (show removeIdCall ≠ formalizeCall by decide)

theorem identification_identified : (a.identification c).flatMap (·.tells identified) =
    (numbered c.identifiers).map fun (i, attr) =>
      (some a.domain, some c.name, (Number.ofInt ((i + 1 : Nat) : Int)).toInt64?, some attr) := by
  have hremoved : (idCommand removeIdCall a c 1 placeholder).tells identified = [] :=
    Emission.tells_identified (show removeIdCall ≠ addIdCall by decide)
  rw [identification, List.flatMap_append, List.flatMap_singleton, hremoved, List.append_nil, List.flatMap_assoc, numbered,
    List.map_flatMap]
  refine List.flatMap_congr fun entry _ => ?_
  obtain ⟨attrs, i⟩ := entry
  rw [List.flatMap_map, List.map_map, List.map_eq_flatMap]
  exact List.flatMap_congr fun attr _ => tells_added a c (i + 1) attr

theorem call_of_formalizes {a : Analyzer} {rels : List Emission} (hrels : List.Forall₂ a.Formalizes a.pendingNumbers rels) :
    ∀ e ∈ rels, e.call = formalizeCall := by
  intro e he
  obtain ⟨rnum, -, hrel⟩ := partner_of_right hrels he
  obtain ⟨first, rfl⟩ := hrel.emission
  rfl

end Analyzer

def Apart (classes : List (Option Text × Option Text))
    (attrs : List (Option Text × Option Text × Option Int × Option Text)) : Prop :=
  ∀ domain cls number attr, (domain, cls) ∈ classes → (domain, cls, number, attr) ∉ attrs

theorem apart_of_other {e : Emission} {attrs : List (Option Text × Option Text × Option Int × Option Text)}
    (h : e.call ≠ Analyzer.removeIdCall) : Apart (e.tells evicted) attrs := by
  rw [Emission.tells_evicted h]
  nofun

theorem apart_of_identification {a : Analyzer} {c c' : ModelClass} (hne : c.name ≠ c'.name) {e e' : Emission}
    (he : e ∈ a.identification c) (he' : e' ∈ a.identification c') : Apart (e.tells evicted) (e'.tells identified) := by
  rcases Analyzer.identification_cases he with ⟨number, attr, rfl⟩ | rfl
  · exact apart_of_other (show Analyzer.addIdCall ≠ Analyzer.removeIdCall by decide)
  · intro domain cls index x hcls hx
    rw [Analyzer.tells_removed] at hcls
    cases List.mem_singleton.mp hcls
    rcases Analyzer.identification_cases he' with ⟨number, attr, rfl⟩ | rfl
    · rw [Analyzer.tells_added] at hx
      have hkey := List.mem_singleton.mp hx
      simp only [Prod.mk.injEq, Option.some.injEq, true_and] at hkey
      exact hne hkey.1
    · rw [Emission.tells_identified (show Analyzer.removeIdCall ≠ Analyzer.addIdCall by decide)] at hx
      cases hx

/-- A class gets its identifiers before it loses the placeholder. -/
theorem pairwise_identification (a : Analyzer) (c : ModelClass) :
    (a.identification c).Pairwise fun e e' => Apart (e.tells evicted) (e'.tells identified) := by
  have hadded : ∀ e ∈ c.identifiers.zipIdx.flatMap fun entry =>
      entry.1.map fun attr => Analyzer.idCommand Analyzer.addIdCall a c (entry.2 + 1) attr,
        e.call ≠ Analyzer.removeIdCall := by
    intro e he
    obtain ⟨entry, -, he⟩ := List.mem_flatMap.mp he
    obtain ⟨attr, -, rfl⟩ := List.mem_map.mp he
    exact show Analyzer.addIdCall ≠ Analyzer.removeIdCall by decide
  refine List.pairwise_append.mpr ⟨?_, List.pairwise_singleton _ _, fun e he _ _ => apart_of_other (hadded e he)⟩
  exact List.pairwise_of_forall_mem_list fun e he _ _ => apart_of_other (hadded e he)

namespace Models

variable {a : Analyzer} {name : Text} {ds : List Declared} {rels : List Emission} {cs : List Command}
  (h : Models a name ds) (hrels : List.Forall₂ a.Formalizes a.pendingNumbers rels)
  (hcs : List.Forall₂ Emitted (rels ++ a.classes.flatMap a.identification) cs)
include h hrels hcs

theorem told_evicted : told evicted cs = toldClasses name ds := by
  have hnone : rels.flatMap (·.tells evicted) = [] := List.flatMap_eq_nil_iff.mpr fun e he =>
    Emission.tells_evicted (by rw [Analyzer.call_of_formalizes hrels e he]; decide)
  rw [told_emitted hcs, List.flatMap_append, hnone, List.nil_append, List.flatMap_assoc, toldClasses, ← h.classes,
    List.map_map, List.map_eq_flatMap]
  refine List.flatMap_congr fun c _ => ?_
  rw [Analyzer.identification_evicted, h.domain]
  rfl

theorem told_formalized : (told formalized cs).Perm (toldReferences name ds) := by
  have hids : (a.classes.flatMap a.identification).flatMap (·.tells formalized) = [] := by
    rw [List.flatMap_assoc]
    exact List.flatMap_eq_nil_iff.mpr fun c _ => Analyzer.identification_formalized a c
  have hgroups : rels.flatMap (·.tells formalized) = a.pendingNumbers.flatMap fun rnum =>
      (a.referencesOf rnum).map fun r =>
        (some name, some r.rnum, some r.fromClass, some r.fromAttr, some r.target.cls, some r.target.attr) := by
    refine flatMap_partner hrels fun rnum e he => ?_
    obtain ⟨first, rfl⟩ := he.emission
    rw [Analyzer.tells_formalization, h.domain]
    refine List.map_congr_left fun r hr => ?_
    obtain ⟨hmem, hnumber⟩ := List.mem_filter.mp hr
    have hwhole := h.wholes r hmem
    rw [of_decide_eq_true hnumber] at hwhole ⊢
    rw [hwhole]
  rw [told_emitted hcs, List.flatMap_append, hids, List.append_nil, hgroups, ← List.map_flatMap, toldReferences,
    ← h.references, List.map_map]
  exact a.referencesOf_perm.map _

theorem told_identified : told identified cs = a.classes.flatMap fun c => (numbered c.identifiers).map fun (i, attr) =>
    (some name, some c.name, some ((i + 1 : Nat) : Int), some attr) := by
  have hnone : rels.flatMap (·.tells identified) = [] := List.flatMap_eq_nil_iff.mpr fun e he =>
    Emission.tells_identified (by rw [Analyzer.call_of_formalizes hrels e he]; decide)
  rw [told_emitted hcs, List.flatMap_append, hnone, List.nil_append, List.flatMap_assoc]
  refine List.flatMap_congr fun c hc => ?_
  rw [Analyzer.identification_identified, h.domain]
  refine List.map_congr_left fun ⟨i, attr⟩ hmem => ?_
  -- tags have one digit for a number, so the number of an identifier is told as it is
  obtain ⟨-, -, hrange⟩ := h.owners _ _ _ ((h.tags c hc i attr).mp (mem_numbered.mp hmem))
  have hdigits : ∀ n ≤ 8, (Number.ofInt ((n + 1 : Nat) : Int)).toInt64? = some ((n + 1 : Nat) : Int) := by decide +kernel
  simp only [hdigits i (by omega)]

theorem mem_identified {cls attr : Text} {number : Int} :
    (some name, some cls, some number, some attr) ∈ told identified cs ↔ .tagged cls number attr ∈ ds := by
  rw [h.told_identified hrels hcs]
  simp only [List.mem_flatMap, List.mem_map, Prod.mk.injEq, Option.some.injEq, true_and, Prod.exists]
  constructor
  · rintro ⟨c, hc, i, x, hmem, rfl, rfl, rfl⟩
    exact (h.tags c hc i x).mp (mem_numbered.mp hmem)
  · intro htag
    obtain ⟨hcls, hlow, -⟩ := h.owners _ _ _ htag
    rw [← h.classes] at hcls
    obtain ⟨c, hc, rfl⟩ := List.mem_map.mp hcls
    have hnumber : (((number - 1).toNat + 1 : Nat) : Int) = number := by omega
    refine ⟨c, hc, (number - 1).toNat, attr, mem_numbered.mpr ((h.tags c hc _ _).mpr ?_), rfl, hnumber, rfl⟩
    rw [hnumber]
    exact htag

theorem nodup_identified : (told identified cs).Nodup := by
  rw [h.told_identified hrels hcs]
  refine List.nodup_flatMap.mpr ⟨fun c hc => (nodup_numbered (h.distinct c hc)).map ?_, ?_⟩
  · rintro ⟨i, x⟩ ⟨j, y⟩ hkey
    simp only [Prod.mk.injEq, Option.some.injEq, true_and] at hkey
    obtain ⟨hij, rfl⟩ := hkey
    rw [show i = j by omega]
  · refine h.nodup_names.imp fun {c c'} hne key hkey hkey' => ?_
    obtain ⟨⟨i, x⟩, -, rfl⟩ := List.mem_map.mp hkey
    obtain ⟨⟨j, y⟩, -, heq⟩ := List.mem_map.mp hkey'
    simp only [Prod.mk.injEq, Option.some.injEq] at heq
    exact hne heq.2.1.symm

/-- The identifiers of a class are given before its placeholder is taken. -/
theorem ordered : cs.Pairwise fun c c' => Apart (c.tells evicted) (c'.tells identified) := by
  have hrel : ∀ e ∈ rels, e.call ≠ Analyzer.removeIdCall := fun e he => by
    rw [Analyzer.call_of_formalizes hrels e he]
    decide
  refine pairwise_partner (S := fun e e' => Apart (e.tells evicted) (e'.tells identified)) hcs ?_ ?_
  · intro e c e' c' he he' hee
    rw [he.tells, he'.tells]
    exact hee
  · refine List.pairwise_append.mpr ⟨?_, List.pairwise_flatMap.mpr ⟨?_, ?_⟩, fun e he _ _ => apart_of_other (hrel e he)⟩
    · exact List.pairwise_of_forall_mem_list fun e he _ _ => apart_of_other (hrel e he)
    · exact fun c _ => pairwise_identification a c
    · exact h.nodup_names.imp fun hne e he e' he' => apart_of_identification hne he he'

theorem settled : Settled name ds cs where
  classes := h.told_evicted hrels hcs
  references := h.told_formalized hrels hcs
  tags cls number attr htag := by
    have hmem := (h.mem_identified hrels hcs).mpr htag
    refine ⟨List.count_eq_one_of_mem (h.nodup_identified hrels hcs) hmem, ?_, fun before c after hsplit hc => ?_⟩
    · rw [h.told_evicted hrels hcs]
      have hnodup : (toldClasses name ds).Nodup :=
        h.nodup.map fun x y hxy => by simpa using hxy
      exact List.count_eq_one_of_mem hnodup (List.mem_map_of_mem (h.owners _ _ _ htag).1)
    · have hordered := h.ordered hrels hcs
      rw [hsplit] at hordered hmem
      rw [← List.singleton_append, told_append, told_append, told_singleton, identified_of_evicted hc,
        List.nil_append] at hmem
      refine (List.mem_append.mp hmem).resolve_right fun hafter => ?_
      obtain ⟨d, hd, hkey⟩ := List.mem_flatMap.mp hafter
      have hrest := (List.pairwise_cons.mp (List.pairwise_append.mp hordered).2.1).1
      exact hrest d hd _ _ _ _ hc hkey
  tagged cls number attr := (h.mem_identified hrels hcs).mp

end Models

end Population
