import Mathlib.Data.List.Induction
import Population.Proofs.Splitting
import Population.Script.Scope

namespace Population

namespace Level

variable {level : Level} {t : Text}

theorem mem_all (level : Level) : level ∈ all := by
  cases level <;> decide

theorem ofName?_eq_some_iff : ofName? t = some level ↔ level.name = t := by
  constructor
  · intro h
    have hname := List.find?_some h
    exact of_decide_eq_true hname
  · rintro rfl
    cases level <;> rfl

theorem ofName?_name (level : Level) : ofName? level.name = some level :=
  ofName?_eq_some_iff.mpr rfl

theorem name_injective : Function.Injective name := fun level other h => by
  have hlevel : ofName? level.name = some other := ofName?_eq_some_iff.mpr h.symm
  rw [ofName?_name] at hlevel
  exact Option.some.inj hlevel

theorem mem_names_iff : t ∈ names ↔ ∃ level : Level, level.name = t := by
  rw [names, List.mem_map]
  exact exists_congr fun level => and_iff_right (mem_all level)

theorem ofName?_eq_none_iff : ofName? t = none ↔ t ∉ names := by
  rw [Option.eq_none_iff_forall_ne_some, mem_names_iff, not_exists]
  exact forall_congr' fun level => not_congr ofName?_eq_some_iff

/-- A domain stands around its subsystems and their classes. -/
inductive Encloses : Level → Level → Prop
  | domain_subsystem : Encloses .domain .subsystem
  | domain_class : Encloses .domain .innerClass
  | subsystem_class : Encloses .subsystem .innerClass

end Level

namespace Scope

variable {s : Scope} {fs later : List Field} {f : Field} {name : Text} {v w : Value} {level other : Level}

theorem set_known (s : Scope) (level : Level) (v : Value) : s.set level.name v = .ok (s.put level v) := by
  rw [set, Level.ofName?_name]

theorem set_unknown (s : Scope) (h : name ∉ Level.names) (v : Value) : s.set name v = .error ⟨name⟩ := by
  rw [set, Level.ofName?_eq_none_iff.mpr h]

theorem set_of_mem (scope : Scope) {name : Text} (h : name ∈ Level.names) (v : Value) :
    ∃ scope', scope.set name v = .ok scope' := by
  obtain ⟨level, rfl⟩ := Level.mem_names_iff.mp h
  exact ⟨_, scope.set_known level v⟩

theorem get?_known (s : Scope) (level : Level) : s.get? level.name = s.entry level := by
  rw [get?, Level.ofName?_name, Option.bind_some]

theorem get?_eq_none (s : Scope) {n : Text} (hn : n ∉ Level.names) : s.get? n = none := by
  rw [get?, Level.ofName?_eq_none_iff.mpr hn, Option.bind_none]

theorem entry_put_self (s : Scope) (level : Level) (v : Value) : (s.put level v).entry level = some v := by
  cases level <;> rfl

theorem entry_put_inner (s : Scope) (v : Value) (h : level.Encloses other) : (s.put level v).entry other = none := by
  cases h <;> rfl

theorem entry_put_other (s : Scope) (v : Value) (hne : level ≠ other) (hout : ¬ level.Encloses other) :
    (s.put level v).entry other = s.entry other := by
  cases level <;> cases other
  case domain.domain | subsystem.subsystem | innerClass.innerClass => exact absurd rfl hne
  case domain.subsystem => exact absurd .domain_subsystem hout
  case domain.innerClass => exact absurd .domain_class hout
  case subsystem.innerClass => exact absurd .subsystem_class hout
  all_goals rfl

theorem entry_put_iff : (s.put level v).entry other = some w ↔
    level = other ∧ v = w ∨ level ≠ other ∧ ¬ level.Encloses other ∧ s.entry other = some w := by
  by_cases hself : level = other
  · subst hself
    simp [entry_put_self]
  by_cases hencloses : level.Encloses other
  · simp [entry_put_inner s v hencloses, hself, hencloses]
  · simp [entry_put_other s v hself hencloses, hself, hencloses]

/-- A scope after a write. One under a name that no entry has leaves it as it was. -/
def write (s : Scope) (f : Field) : Scope :=
  match s.set f.name f.value with
  | .ok s' => s'
  | .error _ => s

theorem write_known (s : Scope) (level : Level) (v : Value) : s.write ⟨level.name, v⟩ = s.put level v := by
  rw [write, set_known]

theorem write_unknown (s : Scope) (h : f.name ∉ Level.names) : s.write f = s := by
  rw [write, set_unknown s h]

/-- A name of an entry around the entry of another name. -/
def Clears (name inner : Text) : Prop :=
  ∃ outer level : Level, outer.Encloses level ∧ outer.name = name ∧ level.name = inner

theorem clears_iff : Clears level.name other.name ↔ level.Encloses other := by
  constructor
  · rintro ⟨outer, inner, hencloses, houter, hinner⟩
    rwa [← Level.name_injective houter, ← Level.name_injective hinner]
  · intro h
    exact ⟨level, other, h, rfl, rfl⟩

theorem entry_write_iff : (s.write f).entry level = some v ↔ f = ⟨level.name, v⟩ ∨
    f.name ≠ level.name ∧ ¬ Clears f.name level.name ∧ s.entry level = some v := by
  obtain ⟨name, w⟩ := f
  by_cases hname : name ∈ Level.names
  · obtain ⟨written, rfl⟩ := Level.mem_names_iff.mp hname
    rw [write_known, entry_put_iff, clears_iff, Field.mk.injEq, Level.name_injective.eq_iff, Level.name_injective.ne_iff]
  · have hlevel : name ≠ level.name := by
      rintro rfl
      exact hname (Level.mem_names_iff.mpr ⟨level, rfl⟩)
    have hclears : ¬ Clears name level.name := by
      rintro ⟨outer, -, -, rfl, -⟩
      exact hname (Level.mem_names_iff.mpr ⟨outer, rfl⟩)
    rw [write_unknown s hname]
    simp [hlevel, hclears]

def written (fs : List Field) : Scope :=
  fs.foldl write empty

theorem written_append (fs later : List Field) : written (fs ++ later) = later.foldl write (written fs) :=
  List.foldl_append

/-- The value that was last written under a name, and what was written after it. -/
structure LastWrite (fs : List Field) (name : Text) (v : Value) (later : List Field) : Prop where
  split : ∃ before, fs = before ++ ⟨name, v⟩ :: later
  last : ∀ f ∈ later, f.name ≠ name

theorem lastWrite_snoc_iff : LastWrite (fs ++ [f]) name v later ↔ f = ⟨name, v⟩ ∧ later = [] ∨
    f.name ≠ name ∧ ∃ between, later = between ++ [f] ∧ LastWrite fs name v between := by
  constructor
  · rintro ⟨⟨before, hsplit⟩, hlast⟩
    rcases snoc_eq_append_cons_iff.mp hsplit with ⟨-, hf, hlater⟩ | ⟨between, rfl, hfs⟩
    · exact .inl ⟨hf.symm, hlater⟩
    · obtain ⟨hbetween, hf⟩ := List.forall_mem_append.mp hlast
      exact .inr ⟨hf f List.mem_cons_self, between, rfl, ⟨before, hfs⟩, hbetween⟩
  · rintro (⟨rfl, rfl⟩ | ⟨hf, between, rfl, ⟨before, rfl⟩, hbetween⟩)
    · exact ⟨⟨fs, rfl⟩, nofun⟩
    · refine ⟨⟨before, by simp⟩, List.forall_mem_append.mpr ⟨hbetween, ?_⟩⟩
      exact List.forall_mem_singleton.mpr hf

def Stands (fs : List Field) (name : Text) (v : Value) : Prop :=
  ∃ later, LastWrite fs name v later ∧ ∀ f ∈ later, ¬ Clears f.name name

theorem stands_snoc_iff : Stands (fs ++ [f]) name v ↔ f = ⟨name, v⟩ ∨
    f.name ≠ name ∧ ¬ Clears f.name name ∧ Stands fs name v := by
  constructor
  · rintro ⟨later, hwrite, hlater⟩
    rcases lastWrite_snoc_iff.mp hwrite with ⟨hf, -⟩ | ⟨hf, between, rfl, hbetween⟩
    · exact .inl hf
    · obtain ⟨hclears, hlast⟩ := List.forall_mem_append.mp hlater
      exact .inr ⟨hf, hlast f List.mem_cons_self, between, hbetween, hclears⟩
  · rintro (hf | ⟨hf, hlast, between, hbetween, hclears⟩)
    · exact ⟨[], lastWrite_snoc_iff.mpr (.inl ⟨hf, rfl⟩), nofun⟩
    · refine ⟨between ++ [f], lastWrite_snoc_iff.mpr (.inr ⟨hf, between, rfl, hbetween⟩), ?_⟩
      exact List.forall_mem_append.mpr ⟨hclears, List.forall_mem_singleton.mpr hlast⟩

theorem entry_written_iff : (written fs).entry level = some v ↔ Stands fs level.name v := by
  induction fs using List.reverseRecOn with
  | nil =>
      refine ⟨fun h => ?_, fun ⟨later, ⟨⟨before, hsplit⟩, _⟩, _⟩ => by simp at hsplit⟩
      cases level <;> cases h
  | append_singleton fs f ih => rw [written_append, List.foldl_cons, List.foldl_nil, entry_write_iff, stands_snoc_iff, ih]

theorem get?_written_iff : (written fs).get? name = some v ↔ name ∈ Level.names ∧ Stands fs name v := by
  by_cases hname : name ∈ Level.names
  · obtain ⟨level, rfl⟩ := Level.mem_names_iff.mp hname
    rw [get?_known, entry_written_iff, and_iff_right hname]
  · simp [get?_eq_none _ hname, hname]

theorem mem_fields_iff : f ∈ s.fields ↔ ∃ level, s.entry level = some f.value ∧ f.name = level.name := by
  simp only [fields, List.mem_filterMap, Level.mem_all, true_and, Option.map_eq_some_iff]
  constructor
  · rintro ⟨level, v, hv, rfl⟩
    exact ⟨level, hv, rfl⟩
  · rintro ⟨level, hv, hname⟩
    exact ⟨level, f.value, hv, by rw [← hname]⟩

theorem mem_fields_iff_get? : f ∈ s.fields ↔ s.get? f.name = some f.value := by
  rw [mem_fields_iff]
  constructor
  · rintro ⟨level, hv, hname⟩
    rwa [hname, get?_known]
  · intro h
    obtain ⟨level, hlevel, hv⟩ := Option.bind_eq_some_iff.mp h
    exact ⟨level, hv, (Level.ofName?_eq_some_iff.mp hlevel).symm⟩

theorem names_sublist_of (s : Scope) (levels : List Level) :
    ((levels.filterMap fun level => (s.entry level).map (Field.mk level.name)).map (·.name)).Sublist
      (levels.map Level.name) := by
  induction levels with
  | nil => exact .slnil
  | cons level rest ih =>
      cases h : s.entry level with
      | none =>
          rw [List.filterMap_cons, h]
          exact ih.cons _
      | some v =>
          rw [List.filterMap_cons, h]
          exact ih.cons_cons _

/-- The fields of a scope stand in the order of the levels, and no level has two of them. -/
theorem names_sublist (s : Scope) : (s.fields.map (·.name)).Sublist Level.names :=
  s.names_sublist_of Level.all

theorem names_nodup (s : Scope) : (s.fields.map (·.name)).Nodup := by
  have hlevels : Level.names.Nodup := by decide
  exact hlevels.sublist s.names_sublist

theorem written_of_unknown (fs later : List Field) (hf : f.name ∉ Level.names) :
    written (fs ++ f :: later) = written (fs ++ later) := by
  rw [written_append, written_append, List.foldl_cons, write_unknown _ hf]

/-- Whatever was written, an entry holds what was last written under its name if no entry around it was written later,
and nothing otherwise; what a scope holds is told from the outside in. Writing under any other name is refused, and is
as if it had not been tried. -/
theorem written_holds_last (fs : List Field) :
    (∀ name v, (written fs).get? name = some v ↔
      name ∈ Level.names ∧ ∃ later, LastWrite fs name v later ∧ ∀ f ∈ later, ¬ Clears f.name name) ∧
    (∀ f, f ∈ (written fs).fields ↔ (written fs).get? f.name = some f.value) ∧
    ((written fs).fields.map (·.name)).Sublist Level.names ∧
    (∀ name v, (written fs).set name v = .error ⟨name⟩ ↔ name ∉ Level.names) ∧
    ∀ f later, f.name ∉ Level.names → written (fs ++ f :: later) = written (fs ++ later) := by
  refine ⟨fun name v => get?_written_iff, fun f => mem_fields_iff_get?, names_sublist _, fun name v => ?_,
    fun f later => written_of_unknown fs later⟩
  constructor
  · intro hrefused hname
    obtain ⟨s, hs⟩ := (written fs).set_of_mem hname v
    cases hs.symm.trans hrefused
  · exact fun hname => (written fs).set_unknown hname v

/-- A class that is forgotten, since a subsystem is entered after it, and a name that no entry has. -/
def reentered : List Field :=
  [⟨"domain", .text "ATC"⟩, ⟨"class", .text "Pilot"⟩, ⟨"lineage", .text "Gate"⟩, ⟨"subsystem", .text "Air Field"⟩]

theorem written_holds_last_reentered : (written reentered).get? "domain" = some (.text "ATC") ∧
    (written reentered).get? "class" = none ∧ (Field.mk "lineage" (.text "Tower")).name ∉ Level.names ∧
    written (reentered ++ [⟨"lineage", .text "Tower"⟩]) = written reentered := by
  obtain ⟨hget, -, -, -, hunknown⟩ := written_holds_last reentered
  have houtermost : ∀ name, ¬ Clears name "domain" := by
    rintro name ⟨outer, inner, hencloses, -, hinner⟩
    cases hencloses <;> exact absurd hinner (by decide)
  have hlineage : (Field.mk "lineage" (.text "Tower")).name ∉ Level.names := by decide
  refine ⟨(hget _ _).mpr ⟨by decide, reentered.tail, ⟨⟨[], rfl⟩, by decide⟩, fun f _ => houtermost f.name⟩, rfl, hlineage, ?_⟩
  rw [hunknown _ [] hlineage, List.append_nil]

end Scope

end Population
