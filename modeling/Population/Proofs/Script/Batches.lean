import Population.Proofs.Pairing
import Population.Proofs.Schema.Standard
import Population.Proofs.Script.Values

/-!
Which batches are taken depends on all their fields together and on what is still required before the last one; what a
command has then depends on the fields, and not on how they were dealt out.
-/
namespace Population

/-- The scope and some fields give all that a call requires. -/
def Call.Covered (call : Call) (scope : Option Scope) (fields : List Field) : Prop :=
  ∀ name ∈ call.required, (scope.bind (·.get? name)).isSome ∨ name ∈ fields.map (·.name)

instance (call : Call) (scope : Option Scope) (fields : List Field) : Decidable (call.Covered scope fields) :=
  inferInstanceAs (Decidable (∀ name ∈ call.required, _))

namespace Command

variable {call : Call} {scope : Option Scope} {o : Origin} {c c' : Command} {fields : List Field}

/-- The command that begins with a batch and continues with others. -/
def ofBatches (call : Call) (scope : Option Scope) (o : Origin) (first : List Field) (rest : List (List Field)) :
    Except CommandError Command :=
  begin call scope first o >>= fun c => rest.foldlM contribute c

def given (c : Command) (fields : List Field) : Command :=
  { c with
    values := fields.foldl (fun values f => setField f values) c.values
    explicit := c.explicit ++ fields.map (·.name) }

/-- Fields that are parameters of the call of a command, each given once and by no line before. -/
structure Takes (c : Command) (fields : List Field) : Prop where
  params : ∀ f ∈ fields, c.call.hasParam f.name
  nodup : (fields.map (·.name)).Nodup
  fresh : ∀ f ∈ fields, f.name ∉ c.explicit

theorem checkFields_of_fresh {call : Call} {given : List Text} {fields : List Field}
    (hparams : ∀ f ∈ fields, call.hasParam f.name) (hnodup : (fields.map (·.name)).Nodup)
    (hfresh : ∀ f ∈ fields, f.name ∉ given) : checkFields call given fields = .ok () := by
  induction fields generalizing given with
  | nil => rfl
  | cons f rest ih =>
      obtain ⟨hparam, hparams⟩ := List.forall_mem_cons.mp hparams
      obtain ⟨hnew, hfresh⟩ := List.forall_mem_cons.mp hfresh
      rw [List.map_cons, List.nodup_cons] at hnodup
      rw [checkFields, hparam, if_neg (by simp), if_neg hnew]
      refine ih hparams hnodup.2 fun g hg hmem => ?_
      rcases List.mem_cons.mp hmem with hname | hmem
      · exact hnodup.1 (hname ▸ List.mem_map_of_mem hg)
      · exact hfresh g hg hmem

theorem checkFields_ok_iff : checkFields c.call c.explicit fields = .ok () ↔ c.Takes fields := by
  constructor
  · intro h
    obtain ⟨hnodup, hparams, hfresh⟩ := checkFields_ok h
    exact ⟨hparams, hnodup, hfresh⟩
  · exact fun h => checkFields_of_fresh h.params h.nodup h.fresh

@[simp] theorem given_nil (c : Command) : c.given [] = c := by
  simp [given]

theorem given_append (c : Command) (xs ys : List Field) : c.given (xs ++ ys) = (c.given xs).given ys := by
  simp [given, List.append_assoc]

theorem takes_append {xs ys : List Field} : c.Takes (xs ++ ys) ↔ c.Takes xs ∧ (c.given xs).Takes ys := by
  have hgiven (name : Text) : name ∈ (c.given xs).explicit ↔ name ∈ c.explicit ∨ name ∈ xs.map (·.name) :=
    List.mem_append
  constructor
  · rintro ⟨hparams, hnodup, hfresh⟩
    obtain ⟨hxs, hys⟩ := List.forall_mem_append.mp hparams
    obtain ⟨hxsfresh, hysfresh⟩ := List.forall_mem_append.mp hfresh
    rw [List.map_append] at hnodup
    obtain ⟨hxsnodup, hysnodup, hdisjoint⟩ := List.nodup_append.mp hnodup
    refine ⟨⟨hxs, hxsnodup, hxsfresh⟩, hys, hysnodup, fun f hf hmem => ?_⟩
    rcases (hgiven _).mp hmem with hmem | hmem
    · exact hysfresh f hf hmem
    · exact hdisjoint _ hmem _ (List.mem_map_of_mem hf) rfl
  · rintro ⟨⟨hxs, hxsnodup, hxsfresh⟩, hys, hysnodup, hysfresh⟩
    refine ⟨List.forall_mem_append.mpr ⟨hxs, hys⟩, ?_, List.forall_mem_append.mpr ⟨hxsfresh, fun f hf hmem => ?_⟩⟩
    · rw [List.map_append]
      refine List.nodup_append.mpr ⟨hxsnodup, hysnodup, ?_⟩
      rintro name hx name' hy rfl
      obtain ⟨f, hf, rfl⟩ := List.mem_map.mp hy
      exact hysfresh f hf ((hgiven _).mpr (.inr hx))
    · exact hysfresh f hf ((hgiven _).mpr (.inl hmem))

theorem takes_fromScope :
    (fromScope call scope o).Takes fields ↔ (∀ f ∈ fields, call.hasParam f.name) ∧ (fields.map (·.name)).Nodup :=
  ⟨fun h => ⟨h.params, h.nodup⟩, fun h => ⟨h.1, h.2, fun _ _ => List.not_mem_nil⟩⟩

theorem contribute_complete (h : c.completed = true) (fields : List Field) :
    c.contribute fields = .error (.complete c.call.name) := by
  rw [contribute, if_pos h]
  rfl

theorem contribute_of_open (h : c.completed = false) (fields : List Field) :
    c.contribute fields = (checkFields c.call c.explicit fields).map fun _ => c.given fields := by
  rw [contribute, h, if_neg Bool.false_ne_true]
  cases checkFields c.call c.explicit fields <;> rfl

theorem begin_eq (call : Call) (scope : Option Scope) (fields : List Field) (o : Origin) :
    begin call scope fields o = (checkFields call [] fields).map fun _ => (fromScope call scope o).given fields := by
  rw [begin]
  cases checkFields call [] fields <;> rfl

theorem contribute_ok_iff :
    c.contribute fields = .ok c' ↔ c.completed = false ∧ c.Takes fields ∧ c' = c.given fields := by
  cases hc : c.completed with
  | true =>
      rw [contribute_complete hc]
      exact ⟨nofun, nofun⟩
  | false =>
      rw [contribute_of_open hc, map_ok_iff, ← checkFields_ok_iff]
      exact ⟨fun ⟨_, hcheck, h⟩ => ⟨rfl, hcheck, h.symm⟩, fun ⟨_, hcheck, h⟩ => ⟨(), hcheck, h.symm⟩⟩

theorem begin_ok_iff :
    begin call scope fields o = .ok c ↔
      (fromScope call scope o).Takes fields ∧ c = (fromScope call scope o).given fields := by
  rw [begin_eq, map_ok_iff, ← checkFields_ok_iff]
  exact ⟨fun ⟨_, hcheck, h⟩ => ⟨hcheck, h.symm⟩, fun ⟨hcheck, h⟩ => ⟨(), hcheck, h.symm⟩⟩

theorem isSome_value?_given {name : Text} :
    ((c.given fields).value? name).isSome ↔ (c.value? name).isSome ∨ name ∈ fields.map (·.name) := by
  induction fields generalizing c with
  | nil => simp
  | cons f rest ih =>
      have hfirst : (c.given [f]).value? name = if f.name = name then some f.value else c.value? name :=
        valueOf_setField f c.values name
      rw [← List.singleton_append, given_append, ih, hfirst, List.singleton_append, List.map_cons, List.mem_cons]
      by_cases hname : f.name = name
      · simp [hname]
      · simp [hname, Ne.symm hname]

theorem completed_given_iff :
    (c.given fields).completed = true ↔ ∀ name ∈ c.call.required, (c.value? name).isSome ∨ name ∈ fields.map (·.name) := by
  simp only [completed_iff, isSome_value?_given]
  rfl

theorem open_of_given (h : (c.given fields).completed = false) : c.completed = false := by
  rw [← Bool.not_eq_true] at h ⊢
  exact fun hc => h (completed_given_iff.mpr fun name hname => .inl (completed_iff.mp hc name hname))

/-- Batches are taken one by one if their fields can be taken together, and those before the last leave something
missing. -/
theorem foldlM_contribute_ok_iff {rest : List (List Field)} :
    rest.foldlM contribute c = .ok c' ↔ c.Takes rest.flatten ∧
      (rest ≠ [] → (c.given rest.dropLast.flatten).completed = false) ∧ c' = c.given rest.flatten := by
  -- on the batches: a command that is open after some of them was open before each, so the last one decides
  induction rest generalizing c with
  | nil =>
      rw [List.foldlM_nil, pure_ok_iff, List.flatten_nil, given_nil]
      exact ⟨fun h => ⟨⟨nofun, .nil, nofun⟩, absurd rfl, h.symm⟩, fun h => h.2.2.symm⟩
  | cons batch rest ih =>
      have hopen : (c.given (batch :: rest).dropLast.flatten).completed = false ↔
          c.completed = false ∧ (rest ≠ [] → ((c.given batch).given rest.dropLast.flatten).completed = false) := by
        cases rest with
        | nil => simp
        | cons next rest =>
            rw [List.dropLast_cons_cons, List.flatten_cons, given_append]
            exact ⟨fun h => ⟨open_of_given (open_of_given h), fun _ => h⟩, fun h => h.2 (List.cons_ne_nil _ _)⟩
      rw [List.foldlM_cons, bind_ok_iff, List.flatten_cons, takes_append, given_append,
        forall_prop_of_true (List.cons_ne_nil _ _), hopen]
      constructor
      · rintro ⟨c₁, hfirst, hrest⟩
        obtain ⟨hc, htakes, rfl⟩ := contribute_ok_iff.mp hfirst
        obtain ⟨htakes', hbefore, rfl⟩ := ih.mp hrest
        exact ⟨⟨htakes, htakes'⟩, ⟨hc, hbefore⟩, rfl⟩
      · rintro ⟨⟨htakes, htakes'⟩, ⟨hc, hbefore⟩, rfl⟩
        exact ⟨_, contribute_ok_iff.mpr ⟨hc, htakes, rfl⟩, ih.mpr ⟨htakes', hbefore, rfl⟩⟩

theorem value?_given (h : (fields.map (·.name)).Nodup) (name : Text) :
    (c.given fields).value? name = (valueOf fields name).or (c.value? name) :=
  valueOf_setFields h c.values name

theorem completed_fromScope_given :
    ((fromScope call scope o).given fields).completed = true ↔ call.Covered scope fields := by
  rw [completed_given_iff]
  refine forall₂_congr fun name hname => ?_
  have hparam : call.hasParam name := Call.hasParam_of_required hname
  rw [value?_fromScope, if_pos hparam]

theorem ofBatches_ok_iff {first : List Field} {rest : List (List Field)} :
    ofBatches call scope o first rest = .ok c ↔ (fromScope call scope o).Takes (first :: rest).flatten ∧
      (rest ≠ [] → ¬ call.Covered scope (first :: rest).dropLast.flatten) ∧
      c = (fromScope call scope o).given (first :: rest).flatten := by
  have hopen : (rest ≠ [] → (((fromScope call scope o).given first).given rest.dropLast.flatten).completed = false) ↔
      (rest ≠ [] → ¬ call.Covered scope (first :: rest).dropLast.flatten) := by
    refine imp_congr_right fun hrest => ?_
    rw [List.dropLast_cons_of_ne_nil hrest, List.flatten_cons, ← completed_fromScope_given (o := o), given_append,
      Bool.not_eq_true]
  rw [ofBatches, bind_ok_iff, List.flatten_cons, takes_append, given_append, ← hopen]
  constructor
  · rintro ⟨c₁, hfirst, hrest⟩
    obtain ⟨htakes, rfl⟩ := begin_ok_iff.mp hfirst
    obtain ⟨htakes', hbefore, rfl⟩ := foldlM_contribute_ok_iff.mp hrest
    exact ⟨⟨htakes, htakes'⟩, hbefore, rfl⟩
  · rintro ⟨⟨htakes, htakes'⟩, hbefore, rfl⟩
    exact ⟨_, begin_ok_iff.mpr ⟨htakes, rfl⟩, foldlM_contribute_ok_iff.mpr ⟨htakes', hbefore, rfl⟩⟩

theorem value?_given_perm {fields' : List Field} (h : fields.Perm fields') (hnodup : (fields.map (·.name)).Nodup)
    (name : Text) : (c.given fields).value? name = (c.given fields').value? name := by
  have hnodup' : (fields'.map (·.name)).Nodup := (h.map _).nodup_iff.mp hnodup
  have hvalue : valueOf fields name = valueOf fields' name := congrArg (Option.map _) (find?_key_perm h hnodup)
  rw [value?_given hnodup, value?_given hnodup', hvalue]

/-- How fields are dealt out matters only to whether they are taken: a batch can follow while something is missing. -/
theorem batches_agree (call : Call) (scope : Option Scope) :
    (∀ o first rest, (∃ c, ofBatches call scope o first rest = .ok c) ↔
      (∀ f ∈ (first :: rest).flatten, call.hasParam f.name) ∧ ((first :: rest).flatten.map (·.name)).Nodup ∧
        (rest ≠ [] → ¬ call.Covered scope (first :: rest).dropLast.flatten)) ∧
    ∀ o first rest c, ofBatches call scope o first rest = .ok c →
      (∀ name, c.value? name = (valueOf (first :: rest).flatten name).or
        (if call.hasParam name then scope.bind (·.get? name) else none)) ∧
      ∀ o' first' rest' c', ofBatches call scope o' first' rest' = .ok c' →
        (first :: rest).flatten.Perm (first' :: rest').flatten →
        c.completed = c'.completed ∧ c.missing = c'.missing ∧ (∀ name, c.value? name = c'.value? name) ∧
          ((first :: rest).flatten = (first' :: rest').flatten → c.params = c'.params ∧ c.arguments = c'.arguments) := by
  refine ⟨fun o first rest => ?_, fun o first rest c h => ?_⟩
  · simp only [ofBatches_ok_iff, takes_fromScope, and_assoc, exists_and_left, exists_eq, and_true]
  obtain ⟨htakes, -, rfl⟩ := ofBatches_ok_iff.mp h
  refine ⟨fun name => ?_, fun o' first' rest' c' h' hperm => ?_⟩
  · rw [value?_given htakes.nodup, value?_fromScope]
  · obtain ⟨-, -, rfl⟩ := ofBatches_ok_iff.mp h'
    have hvalue (name : Text) : ((fromScope call scope o).given (first :: rest).flatten).value? name =
        ((fromScope call scope o').given (first' :: rest').flatten).value? name :=
      value?_given_perm hperm htakes.nodup name
    have hmissing : ((fromScope call scope o).given (first :: rest).flatten).missing =
        ((fromScope call scope o').given (first' :: rest').flatten).missing := missing_congr rfl hvalue
    refine ⟨congrArg List.isEmpty hmissing, hmissing, hvalue, fun heq => ?_⟩
    rw [heq]
    exact ⟨rfl, rfl⟩

def airField : Scope :=
  ⟨some (.text "Air Traffic"), some (.text "Air Field"), none⟩

def pilotOrigin : Origin :=
  ⟨"atc.mi", 1, "Pilot / P"⟩

def pilotName : Field :=
  ⟨"name", .text "Pilot"⟩

def pilotAlias : Field :=
  ⟨"alias", .text "P"⟩

def pilotNumber : Field :=
  ⟨"cnum", .ofInt 51⟩

theorem batches_agree_pilot :
    (∃ c c', ofBatches Schema.Standard.classCall airField pilotOrigin [pilotAlias] [[pilotNumber], [pilotName]] = .ok c ∧
      ofBatches Schema.Standard.classCall airField pilotOrigin [pilotName, pilotNumber] [[pilotAlias]] = .ok c' ∧
      c.missing = c'.missing ∧ c.value? "subsystem" = c'.value? "subsystem") ∧
    ¬ ∃ c, ofBatches Schema.Standard.classCall airField pilotOrigin [pilotName, pilotAlias] [[pilotNumber]] = .ok c := by
  obtain ⟨htaken, hagree⟩ := batches_agree Schema.Standard.classCall airField
  have hfirst := (htaken pilotOrigin [pilotAlias] [[pilotNumber], [pilotName]]).mpr (by decide)
  have hsecond := (htaken pilotOrigin [pilotName, pilotNumber] [[pilotAlias]]).mpr (by decide)
  obtain ⟨c, hc⟩ := hfirst
  obtain ⟨c', hc'⟩ := hsecond
  have hperm : [pilotAlias, pilotNumber, pilotName].Perm [pilotName, pilotNumber, pilotAlias] :=
    (List.reverse_perm [pilotName, pilotNumber, pilotAlias])
  obtain ⟨-, hmissing, hvalue, -⟩ := (hagree _ _ _ c hc).2 _ _ _ c' hc' hperm
  exact ⟨⟨c, c', hc, hc', hmissing, hvalue _⟩, fun hlast => absurd ((htaken _ _ _).mp hlast) (by decide)⟩

end Command

end Population
