import Population.Proofs.Pairing
import Population.Proofs.Schema.Standard
import Population.Proofs.Value.Formatting
import Population.Proofs.Value.Literal
import Population.Script.Basic

namespace Population

/-- The calls of a schema have different names, and all names are made of word bytes. -/
structure Schema.Distinct (schema : Schema) : Prop where
  nodup : (schema.calls.map (·.name)).Nodup
  calls : ∀ c ∈ schema.calls, ∀ b ∈ c.name, Text.isWord b = true
  params : ∀ c ∈ schema.calls, ∀ p ∈ c.params, ∀ b ∈ p.name, Text.isWord b = true

theorem Schema.standard_distinct : Schema.standard.Distinct where
  nodup := by decide +kernel
  calls := by
    have h : standard.calls.all (·.name.all Text.isWord) = true := by decide +kernel
    simpa only [List.all_eq_true] using h
  params := by
    have h : standard.calls.all (·.params.all (·.name.all Text.isWord)) = true := by decide +kernel
    simpa only [List.all_eq_true] using h

structure Field.Plain (f : Field) : Prop where
  name : ∀ b ∈ f.name, Text.isWord b = true
  value : f.value.Plain

namespace Command

variable {schema : Schema} {c d : Command} {f g : Field}

structure Plain (schema : Schema) (c : Command) : Prop where
  call : c.call ∈ schema.calls
  params : ∀ f ∈ c.values, c.call.hasParam f.name = true
  values : ∀ f ∈ c.values, f.value.Plain

theorem Plain.field (hschema : schema.Distinct) (h : c.Plain schema) (hf : f ∈ c.values) : f.Plain := by
  obtain ⟨p, hp⟩ := Option.isSome_iff_exists.mp (h.params f hf)
  have hname : p.name = f.name := by simpa using List.find?_some hp
  exact ⟨hname ▸ hschema.params c.call h.call p (List.mem_of_find?_eq_some hp), h.values f hf⟩

def bound (f : Field) : Text :=
  f.name ++ " => " ++ f.value.literal

theorem toText_eq (c : Command) :
    c.toText = c.call.name ++ 0x28 :: (Text.join ", " (c.values.map bound) ++ [0x29]) := by
  rw [toText, List.append_assoc, List.append_assoc]
  rfl

/-- A written parameter is told from what is behind it. It tells the name and the value, unless that is a number that has
its text in common with another one. -/
theorem bound_cut {r r' : Text} (hf : f.Plain) (hg : g.Plain) (hr : Text.Stops r) (hr' : Text.Stops r')
    (h : bound f ++ r = bound g ++ r') : (f = g ∨ f.value.Blurred) ∧ r = r' := by
  have hbound (f : Field) (r : Text) : bound f ++ r = f.name ++ 0x20 :: 0x3d :: 0x3e :: 0x20 :: (f.value.literal ++ r) := by
    rw [bound, List.append_assoc, List.append_assoc]
    rfl
  rw [hbound, hbound] at h
  obtain ⟨hname, hrest⟩ := Text.word_cut hf.name hg.name (by decide) h
  simp only [List.cons.injEq, true_and] at hrest
  obtain ⟨hvalue, hrest⟩ := Value.literal_cut hf.value hg.value hr hr' hrest
  refine ⟨(Value.literal_eq hf.value hg.value hvalue).imp_left fun hvalue => ?_, hrest⟩
  obtain ⟨name, value⟩ := f
  exact congrArg₂ Field.mk hname hvalue

theorem bound_ne {r r' : Text} (hf : f.Plain) : bound f ++ r ≠ 0x29 :: r' := by
  rw [bound]
  cases hname : f.name with
  | nil => exact fun h => absurd (List.cons.inj h).1 (by decide)
  | cons b t =>
      intro h
      have hb := hf.name b (hname ▸ List.mem_cons_self)
      rw [(List.cons.inj h).1] at hb
      cases hb

/-- A written command tells its call, and the names and values of its parameters if none of its numbers has its text in
common with another one. -/
theorem eq_or_blurred_of_toText (hschema : schema.Distinct) (hc : c.Plain schema) (hd : d.Plain schema)
    (h : c.toText = d.toText) : c.call = d.call ∧ (c.values = d.values ∨ ∃ f ∈ c.values, f.value.Blurred) := by
  rw [toText_eq, toText_eq] at h
  obtain ⟨hname, hrest⟩ := Text.word_cut (hschema.calls _ hc.call) (hschema.calls _ hd.call) (by decide) h
  refine ⟨List.inj_on_of_nodup_map hschema.nodup hc.call hd.call hname, eq_or_exists_of_partners ?_⟩
  exact (Text.join_cut (P := Field.Plain) rfl (by decide) (fun f g r r' hf hg hr hr' h => bound_cut hf hg hr hr' h)
    (fun f r r' hf => bound_ne hf) (fun f hf => hc.field hschema hf) (fun f hf => hd.field hschema hf) hrest).1

def replaceValues (g : Value → Value) (c : Command) : Command :=
  { c with values := c.values.map fun f => ⟨f.name, g f.value⟩ }

theorem completed_replaceValues (g : Value → Value) (c : Command) : (c.replaceValues g).completed = c.completed := by
  simp [completed, missing, replaceValues, List.any_map, Function.comp_def]

theorem toText_replaceValues {g : Value → Value} (hg : ∀ f ∈ c.values, (g f.value).literal = f.value.literal) :
    (c.replaceValues g).toText = c.toText := by
  have hbound : (c.replaceValues g).values.map bound = c.values.map bound := by
    rw [replaceValues, List.map_map]
    exact List.map_congr_left fun f hf => congrArg (f.name ++ " => " ++ ·) (hg f hf)
  rw [toText_eq, toText_eq, hbound]
  rfl

theorem Plain.replaceValues {g : Value → Value} (h : c.Plain schema) (hg : ∀ f ∈ c.values, (g f.value).Plain) :
    (c.replaceValues g).Plain schema where
  call := h.call
  params := List.forall_mem_map.mpr h.params
  values := List.forall_mem_map.mpr hg

theorem toText_feedless (hschema : schema.Distinct) (h : c.Plain schema) : 0x0a ∉ c.toText := by
  have hword {t : Text} (ht : ∀ b ∈ t, Text.isWord b = true) : 0x0a ∉ t := fun hmem => absurd (ht _ hmem) (by decide)
  have hjoin : 0x0a ∉ Text.join ", " (c.values.map bound) := by
    refine Text.not_mem_join (by decide) (List.forall_mem_map.mpr fun f hf => ?_)
    have hname := hword (h.field hschema hf).name
    have hvalue := Value.literal_feedless (h.values f hf)
    have harrow : 0x0a ∉ Text.ofString " => " := by decide
    simp [bound, hname, hvalue, harrow]
  have hcall := hword (hschema.calls _ h.call)
  rw [toText_eq]
  simp [hcall, hjoin]

end Command

namespace Script

variable {schema : Schema} {s t : Script}

def Plain (schema : Schema) (s : Script) : Prop :=
  ∀ c ∈ s.completed, c.Plain schema

def bindings (s : Script) : List (Call × List Field) :=
  s.completed.map fun c => (c.call, c.values)

theorem splitOn_toText (hschema : schema.Distinct) (hs : s.Plain schema) :
    s.toText.splitOn 0x0a = s.completed.map Command.toText ++ [[]] :=
  Text.splitOn_lines (List.forall_mem_map.mpr fun c hc => Command.toText_feedless hschema (hs c hc))

theorem bindings_of_toText (hschema : schema.Distinct) (hs : s.Plain schema) (ht : t.Plain schema)
    (hclear : ∀ c ∈ s.completed, ∀ f ∈ c.values, ¬ f.value.Blurred) (h : t.toText = s.toText) : t.bindings = s.bindings := by
  have hlines : s.completed.map Command.toText = t.completed.map Command.toText :=
    Text.lines_injective (List.forall_mem_map.mpr fun c hc => Command.toText_feedless hschema (hs c hc))
      (List.forall_mem_map.mpr fun c hc => Command.toText_feedless hschema (ht c hc)) h.symm
  refine (map_eq_of_map_eq hlines fun c hc d hd hline => ?_).symm
  obtain ⟨hcall, hvalues | ⟨f, hf, hblurred⟩⟩ := Command.eq_or_blurred_of_toText hschema (hs c hc) (ht d hd) hline
  · rw [hcall, hvalues]
  · exact absurd hblurred (hclear c hc f hf)

/-- A script with a number that has its text in common with another one is written as another script is. -/
theorem exists_alike (hs : s.Plain schema) {c : Command} (hc : c ∈ s.completed) {f : Field} (hf : f ∈ c.values)
    (hblurred : f.value.Blurred) : ∃ t : Script, t.Plain schema ∧ t.toText = s.toText ∧ t.bindings ≠ s.bindings := by
  have hother (v : Value) : ∃ w : Value, v.Plain → w.Plain ∧ w.literal = v.literal ∧ (v.Blurred → w ≠ v) := by
    by_cases hv : v.Blurred
    · obtain ⟨w, hw, hliteral, hne⟩ := hv.exists_other
      exact ⟨w, fun _ => ⟨hw, hliteral, fun _ => hne⟩⟩
    · exact ⟨v, fun hplain => ⟨hplain, rfl, fun h => absurd h hv⟩⟩
  choose g hg using hother
  have hcompleted : completed ⟨s.commands.map (·.replaceValues g)⟩ = s.completed.map (·.replaceValues g) := by
    rw [completed, completed, List.filter_map]
    simp only [Function.comp_def, Command.completed_replaceValues]
  refine ⟨⟨s.commands.map (·.replaceValues g)⟩, ?_, ?_, ?_⟩
  · rw [Plain, hcompleted]
    exact List.forall_mem_map.mpr fun c hc => (hs c hc).replaceValues fun f hf => (hg _ ((hs c hc).values f hf)).1
  · rw [toText, toText, hcompleted, List.map_map]
    refine congrArg Text.lines (List.map_congr_left fun c hc => ?_)
    exact Command.toText_replaceValues fun f hf => (hg _ ((hs c hc).values f hf)).2.1
  · rw [bindings, bindings, hcompleted, List.map_map]
    intro hsame
    have hvalues := congrArg Prod.snd (List.map_inj_left.mp hsame c hc)
    have hvalue : (⟨f.name, g f.value⟩ : Field) = f :=
      List.map_inj_left.mp (hvalues.trans (List.map_id _).symm) f hf
    exact (hg _ ((hs c hc).values f hf)).2.2 hblurred (congrArg Field.value hvalue)

/-- Over the default schema the completed commands of a script, if they hold plain values only, are written as one line
each, and what is written tells their calls, and the names and values of their parameters, in order, just if none of
their numbers has its text in common with another one: a power of two with that below it. -/
theorem toText_tells_iff {schema : Schema} (hdefault : Schema.default = .ok schema) {s : Script} (hs : s.Plain schema) :
    s.toText.splitOn 0x0a = s.completed.map Command.toText ++ [[]] ∧
      ((∀ t : Script, t.Plain schema → t.toText = s.toText → t.bindings = s.bindings) ↔
        ∀ c ∈ s.completed, ∀ f ∈ c.values, ¬ f.value.Blurred) := by
  rw [Schema.default_eq_standard] at hdefault
  cases hdefault
  refine ⟨splitOn_toText Schema.standard_distinct hs, fun htells c hc f hf hblurred => ?_, fun hclear t ht h => ?_⟩
  · obtain ⟨t, ht, htext, hne⟩ := exists_alike hs hc hf hblurred
    exact hne (htells t ht htext)
  · exact bindings_of_toText Schema.standard_distinct hs ht hclear h

/-- A generalization and an attribute with texts that are hard to tell from what is around them. -/
def garbled : Script where
  commands := [
    { call := Schema.Standard.generalizationCall
      origin := ⟨"garbled.mi", 1, []⟩
      values := [⟨"rnum", .ofInt 5⟩, ⟨"superclass", .text (Text.ofString "\"], [\n => " ++ [0xff])⟩,
        ⟨"subclasses", .texts ["a, b", "\\\"", []]⟩, ⟨"subsystem", .text ")\n"⟩, ⟨"domain", .text []⟩]
      explicit := [] },
    { call := Schema.Standard.attributeCall
      origin := ⟨"garbled.mi", 2, []⟩
      values := [⟨"name", .text "5"⟩, ⟨"derived", .bool true⟩, ⟨"class", .text "true"⟩, ⟨"domain", .text "é"⟩]
      explicit := [] }]

theorem garbled_completed : garbled.completed = garbled.commands :=
  List.filter_eq_self.mpr (by decide +kernel)

theorem garbled_plain : garbled.Plain Schema.standard := by
  rw [Plain, garbled_completed]
  simp only [garbled, List.forall_mem_cons]
  refine ⟨⟨by decide, ?_, ?_⟩, ⟨by decide, ?_, ?_⟩, nofun⟩
  · simp only [List.forall_mem_cons]
    exact ⟨by decide, by decide, by decide, by decide, by decide, nofun⟩
  · simp only [List.forall_mem_cons]
    exact ⟨.number (Number.held_ofInt 5) (by decide +kernel), .text _, .texts _, .text _, .text _, nofun⟩
  · simp only [List.forall_mem_cons]
    exact ⟨by decide, by decide, by decide, by decide, nofun⟩
  · simp only [List.forall_mem_cons]
    exact ⟨.text _, .bool true, .text _, .text _, nofun⟩

theorem garbled_tells : Schema.default = .ok Schema.standard ∧ garbled.Plain Schema.standard ∧
    garbled.toText.splitOn 0x0a = garbled.completed.map Command.toText ++ [[]] ∧
    ∀ t : Script, t.Plain Schema.standard → t.toText = garbled.toText → t.bindings = garbled.bindings := by
  obtain ⟨hlines, htells⟩ := toText_tells_iff Schema.default_eq_standard garbled_plain
  refine ⟨Schema.default_eq_standard, garbled_plain, hlines, htells.mpr ?_⟩
  rw [garbled_completed]
  simp only [garbled, List.forall_mem_cons]
  refine ⟨⟨?_, id, id, id, id, nofun⟩, ⟨id, id, id, id, nofun⟩, nofun⟩
  exact Number.not_blurred_of_toInt64? (i := 5) (Number.held_ofInt 5) (by decide +kernel)

def floored (floor : Number) : Script where
  commands := [
    { call := Schema.Standard.subsystemCall
      origin := ⟨"floored.mi", 1, []⟩
      values := [⟨"name", .text "Air Field"⟩, ⟨"alias", .text "AF"⟩, ⟨"floor", .number floor⟩, ⟨"ceiling", .ofInt 50⟩,
        ⟨"domain", .text "Air Traffic"⟩]
      explicit := [] }]

theorem floored_completed (floor : Number) : (floored floor).completed = (floored floor).commands :=
  List.filter_eq_self.mpr (List.forall_mem_cons.mpr ⟨rfl, nofun⟩)

theorem floored_plain {floor : Number} (h : floor.Held) (hwhole : floor.isWhole = true) :
    (floored floor).Plain Schema.standard := by
  rw [Plain, floored_completed]
  refine List.forall_mem_cons.mpr ⟨⟨show Schema.Standard.subsystemCall ∈ Schema.standard.calls by decide, ?_, ?_⟩, nofun⟩
  · simp only [List.forall_mem_cons]
    exact ⟨rfl, rfl, rfl, rfl, rfl, nofun⟩
  · simp only [List.forall_mem_cons]
    exact ⟨.text _, .text _, .number h hwhole, .number (Number.held_ofInt 50) (by decide +kernel), .text _, nofun⟩

/-- A power of two and the number below it have one text, and so have the scripts with them. -/
theorem toText_not_telling :
    (floored (.finite false ⟨1, 513⟩)).Plain Schema.standard ∧
    (floored (.finite false ⟨2 ^ Number.precision - 1, 1⟩)).Plain Schema.standard ∧
    (floored (.finite false ⟨2 ^ Number.precision - 1, 1⟩)).toText = (floored (.finite false ⟨1, 513⟩)).toText ∧
    (floored (.finite false ⟨2 ^ Number.precision - 1, 1⟩)).bindings ≠ (floored (.finite false ⟨1, 513⟩)).bindings := by
  obtain ⟨hn, hm, htwins⟩ := Number.twins_power
  refine ⟨floored_plain hn htwins.whole.1, floored_plain hm htwins.whole.2, ?_, fun hsame => ?_⟩
  · rw [toText, toText, floored_completed, floored_completed]
    simp only [floored, List.map_cons, List.map_nil, Command.toText, Value.literal]
    rw [← htwins.same]
  · rw [bindings, bindings, floored_completed, floored_completed] at hsame
    simp only [floored, List.map_cons, List.map_nil, List.cons.injEq, Prod.mk.injEq, Field.mk.injEq, true_and, and_true,
      Value.number.injEq] at hsame
    exact htwins.ne hsame.symm

end Script

end Population
