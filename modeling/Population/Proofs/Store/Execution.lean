import Population.Proofs.Compile.Valuation
import Population.Proofs.Store.Delivery
import Population.Script.Dump
import Population.Store.Sql

namespace Population

namespace Value

variable {v : Value} {n : Number} {items : List Value}

def Finite : Value → Prop
  | .number n => ∀ negative, n ≠ .infinite negative
  | .list _ items => ∀ negative, .number (.infinite negative) ∉ items
  | _ => True

def Blockless : Value → Prop
  | .text t => (Yaml.Scalar.ofText t).isBlock = false
  | .list _ items => ∀ t, .text t ∈ items → (Yaml.Scalar.ofText t).isBlock = false
  | _ => True

theorem exists_ofDouble_iff {d : Double} : (∃ j, Json.ofDouble d = .ok j) ↔ d.isInfinite ≠ true := by
  simp only [Json.ofDouble]
  split
  next h => exact iff_of_false (by simp) (not_not_intro h)
  next h => exact iff_of_true ⟨_, rfl⟩ h

theorem sentAs_number_iff {m : Native} (h : nativeNumber n = .ok m) :
    (∃ j, Json.ofNative m = .ok j) ↔ ∀ negative, n ≠ .infinite negative := by
  rw [nativeNumber] at h
  split at h
  next hwhole =>
      have hfinite (negative : Bool) : n ≠ .infinite negative := by
        rintro rfl
        cases hwhole
      split at h
      next i _ =>
          cases h
          exact iff_of_true ⟨_, rfl⟩ hfinite
      next => cases h
  next =>
      obtain ⟨d, hd, rfl⟩ := map_ok_iff.mp h
      change (∃ j, Json.ofDouble d = .ok j) ↔ _
      rw [exists_ofDouble_iff, Ne, doubleOf_ok hd, not_exists]

theorem numberItem_ok {d : Double} (h : numberItem v = .ok d) :
    d.isInfinite = true ↔ ∃ negative, v = .number (.infinite negative) := by
  cases v with
  | number n => simpa using doubleOf_ok h
  | text t => cases h
  | bool b => cases h
  | list type items => cases h
  | null type => cases h

theorem toInt64?_infinite {d : Double} (h : d.isInfinite = true) : d.value.toInt64? = none := by
  rw [Double.isInfinite] at h
  split at h
  next hvalue =>
      rw [hvalue]
      rfl
  next => cases h

theorem sentAs_numbers_iff {m : Native} (h : nativeNumbers items = .ok m) :
    (∃ j, Json.ofNative m = .ok j) ↔ ∀ negative, .number (.infinite negative) ∉ items := by
  obtain ⟨doubles, hdoubles, h⟩ := bind_ok_iff.mp h
  have hdoubles := mapM_ok_iff.mp hdoubles
  -- only an infinite number becomes an infinite double
  have hinfinite : (∃ d ∈ doubles, d.isInfinite = true) ↔ ∃ negative, .number (.infinite negative) ∈ items := by
    constructor
    · rintro ⟨d, hd, hinf⟩
      obtain ⟨v, hv, hitem⟩ := partner_of_right hdoubles hd
      obtain ⟨negative, rfl⟩ := (numberItem_ok hitem).mp hinf
      exact ⟨negative, hv⟩
    · rintro ⟨negative, hv⟩
      obtain ⟨d, hd, hitem⟩ := partner_of_left hdoubles hv
      exact ⟨d, hd, (numberItem_ok hitem).mpr ⟨negative, rfl⟩⟩
  rw [← not_exists, ← hinfinite]
  split at h
  next ints hints =>
      cases h
      -- integers are written as they are
      refine iff_of_true ⟨_, rfl⟩ ?_
      rintro ⟨d, hd, hinf⟩
      obtain ⟨i, -, hi⟩ := partner_of_left (mapM_some_iff.mp hints) hd
      rw [toInt64?_infinite hinf] at hi
      cases hi
  next =>
      cases h
      have hmap : (∃ j, Json.ofNative (.floats doubles) = .ok j) ↔ ∃ js, doubles.mapM Json.ofDouble = .ok js := by
        simp only [Json.ofNative, map_ok_iff]
        constructor
        · rintro ⟨-, js, hjs, -⟩
          exact ⟨js, hjs⟩
        · rintro ⟨js, hjs⟩
          exact ⟨_, js, hjs, rfl⟩
      rw [hmap, exists_mapM_iff]
      simp only [exists_ofDouble_iff, ne_eq, not_exists, not_and]

theorem WellFormed.exists_sentAs_iff (h : v.WellFormed) : (∃ j, v.SentAs j) ↔ v.Fits ∧ v.Finite := by
  -- a value is sent if it is taken at all and what it is taken as can be written
  have hsent : (∃ j, v.SentAs j) ↔ v.Fits ∧ ∀ m, v.native = .ok m → ∃ j, Json.ofNative m = .ok j := by
    rw [← h.exists_native_iff]
    constructor
    · rintro ⟨j, m, hm, hj⟩
      exact ⟨⟨m, hm⟩, fun m' hm' => Except.ok.inj (hm.symm.trans hm') ▸ ⟨j, hj⟩⟩
    · rintro ⟨⟨m, hm⟩, hall⟩
      obtain ⟨j, hj⟩ := hall m hm
      exact ⟨j, m, hm, hj⟩
  rw [hsent]
  refine and_congr_right fun hfits => ?_
  obtain ⟨m, hm⟩ := h.exists_native_iff.mpr hfits
  have hone : (∀ m, v.native = .ok m → ∃ j, Json.ofNative m = .ok j) ↔ ∃ j, Json.ofNative m = .ok j :=
    ⟨fun hall => hall m hm, fun hj m' hm' => Except.ok.inj (hm.symm.trans hm') ▸ hj⟩
  rw [hone]
  cases h with
  | single h =>
      cases v with
      | text t =>
          cases hm
          exact iff_of_true ⟨_, rfl⟩ trivial
      | bool b =>
          cases hm
          exact iff_of_true ⟨_, rfl⟩ trivial
      | number n => exact sentAs_number_iff hm
      | list element items => exact h.elim
      | null type => exact h.elim
  | @list u items h =>
      cases u with
      | integer => exact sentAs_numbers_iff hm
      | float => exact sentAs_numbers_iff hm
      | string =>
          obtain ⟨ts, -, rfl⟩ := map_ok_iff.mp hm
          refine iff_of_true ⟨_, rfl⟩ fun negative hn => ?_
          obtain ⟨t, ht⟩ := single_text_iff.mp (h _ hn)
          cases ht
      | bool =>
          obtain ⟨bs, -, rfl⟩ := map_ok_iff.mp hm
          refine iff_of_true ⟨_, rfl⟩ fun negative hn => ?_
          obtain ⟨b, hb⟩ := single_bool_iff.mp (h _ hn)
          cases hb

theorem textItem_ok {t : Text} (h : textItem v = .ok t) : v = .text t := by
  cases v <;> cases h
  rfl

theorem exists_nativeNode {m : Native} (h : v.native = .ok m) (hline : v.Blockless) :
    ∃ node, Script.nativeNode m = .ok node := by
  rw [native.eq_def] at h
  split at h
  next =>
      cases h
      exact ⟨_, rfl⟩
  next t =>
      cases h
      have hline : (Yaml.Scalar.ofText t).isBlock = false := hline
      exact ⟨_, by rw [Script.nativeNode, Yaml.Node.reread, hline, if_neg nofun]⟩
  next =>
      cases h
      exact ⟨_, rfl⟩
  next n =>
      rw [nativeNumber] at h
      split at h
      next =>
          split at h <;> cases h
          exact ⟨_, rfl⟩
      next =>
          obtain ⟨d, -, rfl⟩ := map_ok_iff.mp h
          exact ⟨_, rfl⟩
  next items =>
      obtain ⟨ts, hts, rfl⟩ := map_ok_iff.mp h
      -- a list is one node because none of its texts is a block
      have hnone : (ts.map Yaml.Scalar.ofText).any (·.isBlock) = false := by
        rw [List.any_map, List.any_eq_false]
        intro t ht
        obtain ⟨v, hv, htext⟩ := partner_of_right (mapM_ok_iff.mp hts) ht
        obtain rfl := textItem_ok htext
        exact Bool.not_eq_true _ ▸ hline t hv
      exact ⟨_, by rw [Script.nativeNode, Yaml.Node.rereadAll, hnone, if_neg nofun]⟩
  next =>
      obtain ⟨bs, -, rfl⟩ := map_ok_iff.mp h
      exact ⟨_, rfl⟩
  next =>
      obtain ⟨doubles, -, h⟩ := bind_ok_iff.mp h
      split at h <;> cases h <;> exact ⟨_, rfl⟩
  next => cases h

end Value

namespace Command

variable {c : Command} {f : Field}

def Fits (c : Command) : Prop :=
  ∀ f ∈ c.arguments, f.value.Fits

theorem valued_arguments (h : Valued c.values) : Valued c.arguments := by
  rw [arguments]
  split
  next => exact h
  next => exact valued_nil

theorem exists_argument_iff (h : f.value.WellFormed) : (∃ a, c.argument f = .ok a) ↔ f.value.Fits := by
  rw [← h.exists_native_iff]
  constructor
  · rintro ⟨a, ha⟩
    exact ⟨a.value, (argument_ok_iff.mp ha).2⟩
  · rintro ⟨m, hm⟩
    exact ⟨⟨f.name, m⟩, argument_ok_iff.mpr ⟨rfl, hm⟩⟩

theorem exists_natives_iff (h : Valued c.values) : (∃ arguments, c.natives = .ok arguments) ↔ c.Fits := by
  rw [natives, exists_mapM_iff]
  exact forall₂_congr fun f hf => exists_argument_iff (valued_arguments h f hf)

theorem exists_statement_iff (h : Valued c.values) (hdone : c.completed = true) :
    (∃ st, SqlStatement.ofCommand c = .ok st) ↔ c.Fits := by
  rw [← exists_natives_iff h]
  constructor
  · rintro ⟨st, hst⟩
    rw [SqlStatement.ofCommand, hdone] at hst
    obtain ⟨arguments, harguments, -⟩ := bind_ok_iff.mp hst
    exact ⟨arguments, mapError_ok_iff.mp harguments⟩
  · rintro ⟨arguments, harguments⟩
    rw [SqlStatement.ofCommand, hdone, harguments]
    exact ⟨_, rfl⟩

theorem sendable_iff (h : Valued c.values) : c.Sendable ↔ ∀ f ∈ c.arguments, f.value.Fits ∧ f.value.Finite :=
  forall₂_congr fun f hf => (valued_arguments h f hf).exists_sentAs_iff

/-- A parameter whose value fits is written in a dump, if it has no text of several lines. -/
theorem exists_paramNode_iff (h : f.value.WellFormed) (hline : f.value.Blockless) :
    (∃ node, Script.paramNode c f = .ok node) ↔ f.value.Fits := by
  rw [← exists_argument_iff (c := c) h]
  constructor
  · rintro ⟨node, hnode⟩
    obtain ⟨a, ha, -⟩ := bind_ok_iff.mp hnode
    exact ⟨a, mapError_ok_iff.mp ha⟩
  · rintro ⟨a, ha⟩
    obtain ⟨node, hnode⟩ := Value.exists_nativeNode (argument_ok_iff.mp ha).2 hline
    rw [Script.paramNode, ha]
    exact ⟨_, bind_ok_iff.mpr ⟨a, rfl, bind_ok_iff.mpr ⟨node, mapError_ok_iff.mpr hnode, rfl⟩⟩⟩

theorem paramNode_error {e : ParamError} (h : f.value.WellFormed) (he : Script.paramNode c f = .error (.param e)) :
    ¬ f.value.Fits := by
  rw [← exists_argument_iff (c := c) h]
  rcases bind_error_iff.mp he with he | ⟨a, -, he⟩
  · obtain ⟨e', he', -⟩ := mapError_error_iff.mp he
    rw [he']
    exact nofun
  · rcases bind_error_iff.mp he with he | ⟨node, -, he⟩
    · obtain ⟨problem, -, hproblem⟩ := mapError_error_iff.mp he
      cases hproblem
    · exact absurd he pure_ne_error

end Command

namespace Script

variable {s : Script}

theorem fits_of_toYaml {t : Text} (hs : ∀ c ∈ s.commands, Valued c.values) (h : s.toYaml = .ok t) :
    ∀ c ∈ s.completed, c.Fits := by
  intro c hc f hf
  have hvalued := Command.valued_arguments (hs c (List.mem_filter.mp hc).1) f hf
  obtain ⟨commands, hcommands, -⟩ := bind_ok_iff.mp h
  obtain ⟨params, -, hparams⟩ := partner_of_left (mapM_ok_iff.mp hcommands) hc
  obtain ⟨nodes, hnodes, -⟩ := bind_ok_iff.mp hparams
  obtain ⟨node, -, hnode⟩ := partner_of_left (mapM_ok_iff.mp hnodes) hf
  obtain ⟨a, ha, -⟩ := bind_ok_iff.mp hnode
  exact (Command.exists_argument_iff hvalued).mp ⟨a, mapError_ok_iff.mp ha⟩

theorem not_fits_of_toYaml {e : ParamError} (hs : ∀ c ∈ s.commands, Valued c.values) (h : s.toYaml = .error (.param e)) :
    ∃ c ∈ s.completed, ¬ c.Fits := by
  rcases bind_error_iff.mp h with h | ⟨commands, -, h⟩
  · obtain ⟨c, hc, he⟩ := mapM_error h
    refine ⟨c, hc, fun hfits => ?_⟩
    rcases bind_error_iff.mp he with he | ⟨params, -, he⟩
    · obtain ⟨f, hf, he⟩ := mapM_error he
      exact Command.paramNode_error (Command.valued_arguments (hs c (List.mem_filter.mp hc).1) f hf) he (hfits f hf)
    · exact absurd he pure_ne_error
  · rcases bind_error_iff.mp h with h | ⟨nodes, -, h⟩
    · obtain ⟨⟨c, params⟩, -, he⟩ := mapM_error h
      rcases bind_error_iff.mp he with he | ⟨entries, -, he⟩
      · -- The names of parameters are no values.
        obtain ⟨⟨name, node⟩, -, he⟩ := mapM_error he
        dsimp only at he
        split at he <;> cases he
      · exact absurd he pure_ne_error
    · exact absurd h pure_ne_error

end Script

namespace Compiled

/-- A converted value is taken by a store just if it fits, as every value of a type other than of floating point does.
So a compiled script is carried out by a database, sent to a remote executor and dumped just if all of its values fit,
where a remote executor takes no infinite numbers either. -/
theorem compile_executable_iff (s : Schema) (fs : List SourceFile) :
    (∀ (type : AppType) raw v, type.convert raw = .ok v →
      ((∃ m, v.native = .ok m) ↔ v.Fits) ∧ (type.ui ≠ .float → v.Fits)) ∧
    (∀ (type : AppType) raws v, type.convertList raws = .ok v →
      ((∃ m, v.native = .ok m) ↔ v.Fits) ∧ (type.ui ≠ .float → v.Fits)) ∧
    (∀ c ∈ (compile s fs).script.completed, ((∃ st, SqlStatement.ofCommand c = .ok st) ↔ c.Fits) ∧
      ∀ f ∈ c.arguments, f.value.Blockless → ((∃ node, Script.paramNode c f = .ok node) ↔ f.value.Fits)) ∧
    (∀ runId, (∃ payload, RemoteStore.payload runId (compile s fs).script.completed = .ok payload) ↔
      ∀ c ∈ (compile s fs).script.completed, ∀ f ∈ c.arguments, f.value.Fits ∧ f.value.Finite) ∧
    (∀ t, (compile s fs).script.toYaml = .ok t → ∀ c ∈ (compile s fs).script.completed, c.Fits) ∧
    ∀ e, (compile s fs).script.toYaml = .error (.param e) → ∃ c ∈ (compile s fs).script.completed, ¬ c.Fits := by
  have hvalued := compile_valued s fs
  have hcompleted {c : Command} (hc : c ∈ (compile s fs).script.completed) : Valued c.values ∧ c.completed = true :=
    (List.mem_filter.mp hc).imp_left (hvalued c)
  refine ⟨fun type raw v hv => ?_, fun type raws v hv => ?_, fun c hc => ?_, fun runId => ?_, ?_, ?_⟩
  · exact ⟨(AppType.convert_wellFormed hv).exists_native_iff, fun hui => AppType.convert_fits hui hv⟩
  · exact ⟨(AppType.convertList_wellFormed hv).exists_native_iff, fun hui => AppType.convertList_fits hui hv⟩
  · obtain ⟨hc, hdone⟩ := hcompleted hc
    refine ⟨Command.exists_statement_iff hc hdone, fun f hf hline => ?_⟩
    exact Command.exists_paramNode_iff (Command.valued_arguments hc f hf) hline
  · simp only [RemoteStore.payload_ok_iff, RemoteStore.exists_lists_iff]
    exact forall₂_congr fun c hc => Command.sendable_iff (hcompleted hc).1
  · exact fun t ht => Script.fits_of_toYaml hvalued ht
  · exact fun e he => Script.not_fits_of_toYaml hvalued he

def runway : SourceFile :=
  .ofBytes "runway.mi" "domain\nAir Traffic / ATC\nsubsystem\nAir Field / AF 1-50\n"

/-- The greatest integer of 64 bits on its own, a number that is too great for that in a list, and a subsystem. -/
theorem compile_executable_runway :
    ∃ v w c, AppType.convert ⟨"rate", .float⟩ "9223372036854775807" = .ok v ∧ (∃ m, v.native = .ok m) ∧
      AppType.convertList ⟨"rate", .float⟩ ["1e19"] = .ok w ∧ (∃ m, w.native = .ok m) ∧
      c ∈ (compile Schema.standard [runway]).script.completed ∧ c.call.name = "new_subsystem" ∧
      (∃ st, SqlStatement.ofCommand c = .ok st) ∧ c.Fits := by
  have hgreatest : Number.parse? "9223372036854775807" = some (.finite false ⟨9223372036854775807, 0⟩) := by decide +kernel
  have hgreat : Number.parse? "1e19" = some (.finite false ⟨19073486328125, 19⟩) := by decide +kernel
  have hv := AppType.convert_float "rate" (show Text.trim "9223372036854775807" = "9223372036854775807" by decide +kernel)
    hgreatest
  have hw : AppType.convertList ⟨"rate", .float⟩ ["1e19"] = .ok (.list .number [.number (.finite false ⟨19073486328125, 19⟩)]) :=
    map_ok_iff.mpr ⟨_, mapM_ok_iff.mpr (.cons (AppType.convert_float "rate" (by decide +kernel) hgreat) .nil), rfl⟩
  have hany : (compile Schema.standard [runway]).script.completed.any
      (fun c => c.call.name = "new_subsystem" && (SqlStatement.ofCommand c).isOk) = true := by
    decide +kernel
  obtain ⟨c, hc, hname⟩ := List.any_eq_true.mp hany
  rw [Bool.and_eq_true, decide_eq_true_eq] at hname
  have hst : ∃ st, SqlStatement.ofCommand c = .ok st := by
    cases hst : SqlStatement.ofCommand c with
    | ok st => exact ⟨st, rfl⟩
    | error e =>
        rw [hst] at hname
        cases hname.2
  obtain ⟨hsingle, hlist, hcommand, -⟩ := compile_executable_iff Schema.standard [runway]
  refine ⟨_, _, c, hv, (hsingle _ _ _ hv).1.mpr ?_, hw, (hlist _ _ _ hw).1.mpr ?_, hc, hname.1, hst, (hcommand c hc).1.mp hst⟩
  · intro i hi
    obtain rfl : 9223372036854775807 = i := by simpa [Number.toInt?, Magnitude.toNat?] using hi
    decide
  · intro n i hn hi
    cases List.mem_singleton.mp hn
    obtain rfl : 10000000000000000000 = i := by simpa [Number.toInt?, Magnitude.toNat?] using hi
    decide +kernel

end Compiled

/-- A great number is a value of a type of floating point, and it can be taken in a list but not on its own. -/
theorem AppType.convert_not_taken :
    ∃ v, convert ⟨"rate", .float⟩ "1e19" = .ok v ∧ v.native = .error .wholeOutOfRange ∧
      ∃ d, (Value.list .number [v]).native = .ok (.floats [d]) := by
  have hgreat : Number.parse? "1e19" = some (.finite false ⟨19073486328125, 19⟩) := by decide +kernel
  exact ⟨_, convert_float "rate" (by decide +kernel) hgreat, by decide +kernel, ⟨.finite false ⟨19073486328125, 19⟩⟩, by decide +kernel⟩

end Population
