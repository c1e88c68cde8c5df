import Population.Proofs.Compile.Phases
import Population.Proofs.Compile.Referential
import Population.Proofs.Compile.Standing

/-!
Along a build the blocks of the earlier domains have referential integrity, and the block of the last domain is
mirrored by the model, so that the next line and the end of the domain keep it.
-/
namespace Population

theorem sound_opened {name : Text} {c : Command} (hc : c.call.name = ("new_domain" : Text)) :
    Sound (.opened name) [c] := by
  have hnil : Sound (.opened name) [] :=
    ⟨⟨List.nodup_nil, List.nodup_nil, List.nodup_nil, by simp, by simp, by simp⟩, rfl, rfl, rfl, nofun, nofun, nofun⟩
  exact hnil.other (c := c) (by rw [hc]; decide) (by rw [hc]; decide)

theorem integrity_snoc {cs : List Command} {c : Command} (h : ∀ block ∈ blocks cs, Integrity block)
    (hc : ∀ before, Fits before c) (hopens : c.opensDomain = false) :
    ∀ block ∈ blocks (cs ++ [c]), Integrity block := by
  rcases blocks_snoc cs hopens with ⟨-, hnil⟩ | ⟨bs, b, hold, hnew⟩
  · rw [hnil]
    exact nofun
  · rw [hold] at h
    rw [hnew]
    obtain ⟨hbs, hb⟩ := List.forall_mem_append.mp h
    exact List.forall_mem_append.mpr ⟨hbs,
      List.forall_mem_singleton.mpr ((List.forall_mem_singleton.mp hb).snoc (hc b))⟩

namespace Building

variable {b b' : Building} {m : Matched} {before block : List Command}

theorem Begins.other {c : Command} (h : Begins b b' m c) (hk : m.form.kind = .typeDef ∨ m.form.kind = .bridge) :
    c.call.name ∉ makingCalls ∧ c.call.name ∉ derivedCalls := by
  rcases hk with hk | hk <;> rw [h.call_eq hk rfl] <;> decide

theorem Effect.sound (h : Effect b b' m) (hk : m.form.kind ≠ .domain) (hs : b.out.script.Steady)
    (hin : b.Inside before block) (hsound : Sound b.analyzer block) :
    ∃ block', b'.Inside before block' ∧ Sound b'.analyzer block' := by
  cases h with
  | domain hd => exact absurd hd hk
  | @plain c hp hc _ ha =>
      obtain ⟨hmaking, hderived⟩ := hc.other hp
      rw [ha]
      exact ⟨_, hin.begins hc hk, hsound.other hmaking hderived⟩
  | subsystem hp hc _ _ hnew ha hn =>
      rw [ha]
      exact ⟨_, hin.begins hc hk, hsound.subsystem (hc.call_eq hp rfl) hn hnew⟩
  | classDef hp hc _ _ hnew ha hn =>
      rw [ha]
      exact ⟨_, hin.begins hc hk, hsound.classDef (hc.call_eq hp rfl) hn hnew⟩
  | ownAttribute hp hc _ _ hcls hg ha hn hcc =>
      rw [ha]
      exact ⟨_, hin.begins hc hk, hsound.ownAttribute (hc.call_eq hp rfl) hn hcc hcls hg⟩
  | reference _ hscript _ _ hcls _ _ ht hg hrefs ha =>
      rw [ha]
      refine ⟨block, ⟨?_, hin.block⟩, hsound.reference hcls (Analyzer.parseList_ne_nil ht) hg hrefs⟩
      rw [hscript]
      exact hin.commands
  | @relationship c r hp hc _ _ hnew hint ha hn =>
      rw [ha]
      refine ⟨_, hin.begins hc hk, hsound.relationship ?_ hn hint hnew⟩
      rcases hp with hp | hp <;> rw [hc.call_eq hp rfl] <;> decide
  | continued _ hopen hscript _ ha hcall hn =>
      -- a steady script has a relationship open, and that keeps its number
      obtain ⟨hname, -⟩ := hs _ hopen
      obtain ⟨block₀, rfl, hin'⟩ := hin.continued hopen hscript hcall (Command.opensDomain_of_relationship hname)
      rw [ha]
      exact ⟨_, hin', hsound.continued hcall hname hn⟩

theorem sound_of_emits {walker : Walker} {graph : Graph} {rels : List Emission} {cs : List Command}
    (hin : b.Inside before block) (hsound : Sound b.analyzer block)
    (hrels : List.Forall₂ b.analyzer.Formalizes b.analyzer.pendingNumbers rels)
    (hcs : List.Forall₂ Emitted (rels ++ b.analyzer.classes.flatMap b.analyzer.identification) cs)
    (hext : { b with walker, analyzer := { b.analyzer with active := false, graph } }.Extends b' cs) :
    b'.Inside before (block ++ cs) ∧ Sound b'.analyzer (block ++ cs) := by
  have hcommand : ∀ c ∈ cs, c.opensDomain = false := fun c hc =>
    Command.opensDomain_of_derived (emitted_derived hrels hcs c hc)
  rw [hext.analyzer]
  exact ⟨hin.append hcommand hext.commands, hsound.close hrels hcs⟩

/-- The blocks of a build have integrity, and the model mirrors the one that is open. -/
inductive Upright (b : Building) : Prop
  | outside (hout : b.Outside) (hblocks : ∀ block ∈ blocks b.out.script.commands, Integrity block)
  | inside {before block : List Command} (hin : b.Inside before block) (hsound : Sound b.analyzer block)
      (hblocks : ∀ block ∈ blocks before, Integrity block)

namespace Upright

variable (h : b.Upright)
include h

theorem integrity : ∀ block ∈ blocks b.out.script.commands, Integrity block := by
  cases h with
  | outside _ hblocks => exact hblocks
  | inside hin hsound hblocks =>
      rw [hin.blocks_eq]
      exact List.forall_mem_append.mpr ⟨hblocks, List.forall_mem_singleton.mpr hsound.integrity⟩

theorem extends_nil {walker : Walker} (hext : { b with walker }.Extends b' []) : b'.Upright := by
  cases h with
  | outside hout hblocks =>
      obtain ⟨hout', hcommands⟩ := hout.extends_nil hext
      refine .outside hout' ?_
      rw [hcommands]
      exact hblocks
  | @inside before block hin hsound hblocks =>
      have hin' : b'.Inside before (block ++ []) := hin.append nofun hext.commands
      rw [List.append_nil] at hin'
      refine .inside hin' ?_ hblocks
      rw [hext.analyzer]
      exact hsound

theorem closes {walker : Walker} (hcloses : Closes { b with walker } b') : b'.Upright := by
  cases hcloses with
  | idle _ hext => exact h.extends_nil hext
  | emits hactive hrels hcs hext =>
      cases h with
      | outside hout =>
          rw [show ({ b with walker } : Building).analyzer = .idle from hout.analyzer] at hactive
          cases hactive
      | inside hin hsound hblocks =>
          obtain ⟨hin', hsound'⟩ := sound_of_emits hin hsound hrels hcs hext
          exact .inside hin' hsound' hblocks

theorem domain (hk : m.form.kind = .domain) (he : Effect b b' m) : b'.Upright := by
  obtain ⟨c, hc, -, ha, -⟩ := he.of_domain hk
  refine .inside (inside_of_domain hc hk) ?_ h.integrity
  rw [ha]
  exact sound_opened (hc.call_eq hk rfl)

theorem statement (hs : b.out.script.Steady) (he : Effect b b' m) : b'.Upright := by
  by_cases hk : m.form.kind = .domain
  · exact h.domain hk he
  · cases h with
    | outside hout hblocks =>
        obtain ⟨hplain, hout', c, hc⟩ := (hout.statement he).resolve_left hk
        obtain ⟨hmaking, hderived⟩ := hc.other hplain
        refine .outside hout' ?_
        rw [hc.script]
        exact integrity_snoc hblocks (fun _ => fits_of_other hmaking hderived) (by rw [hc.opensDomain, decide_eq_false hk])
    | inside hin hsound hblocks =>
        obtain ⟨block', hin', hsound'⟩ := he.sound hk hs hin hsound
        exact .inside hin' hsound' hblocks

theorem line {l : Line} (hs : b.out.script.Steady) (he : LineEffect b b' l) : b'.Upright := by
  cases he with
  | header _ _ _ hext => exact h.extends_nil hext
  | closing _ _ _ _ hcloses => exact h.closes hcloses
  | statement _ _ _ heffect => exact h.statement hs heffect

end Upright

end Building

namespace Output

structure Sound (out : Output) : Prop where
  closed : out.script.lastOpen = none
  integrity : ∀ block ∈ blocks out.script.commands, Integrity block

theorem sound_addFile {out out' : Output} {f : SourceFile} (h : out.Sound)
    (hadd : addFile Schema.standard out f = .ok out') : out'.Sound := by
  obtain ⟨b', hrun, rfl⟩ := map_ok_iff.mp hadd
  have hstart : (Building.start f.name out).Upright := .outside ⟨rfl, rfl, h.closed⟩ h.integrity
  -- no line tells more than the build does, so nothing follows the lines beside it
  obtain ⟨c, hc, -, hopen', hcloses⟩ := Building.run_keeps (fun (_ : Unit) _ => ()) (fun _ b => b.Upright)
    (fun _ _ _ _ hb hs he => hb.line hs he) (r := ()) hstart (Script.steady_of_closed h.closed) hrun
  have hb' : b'.Upright := hc.closes (show Building.Closes { c with walker := c.walker } b' from hcloses)
  exact ⟨hopen', hb'.integrity⟩

end Output

namespace Compiled

/-- The blocks of every script that is compiled with the default schema have referential integrity. -/
theorem compile_integrity {s : Schema} {fs : List SourceFile} (hs : Schema.default = .ok s)
    (hc : (compile s fs).ending = .complete) : ∀ block ∈ blocks (compile s fs).script.commands, Integrity block := by
  rw [Schema.default_eq_standard] at hs
  cases hs
  obtain ⟨out, hout, hscript⟩ := compile_complete hc
  have hsound : out.Sound := foldlM_keeps (·.Sound) hout ⟨rfl, nofun⟩ fun _ _ _ => Output.sound_addFile
  rw [hscript]
  exact hsound.integrity

/-- Two domains, the first of which has a class that refers to the other one. -/
def airTraffic : SourceFile :=
  .ofBytes "air_traffic.mi" ("domain\nAir Traffic / ATC\nsubsystem\nAir Field / AF 1-50\n" ++
    "classes\nPilot / P / 1\nName : name / I\nRank -> Rank.Title, R1, I2\nRank / RK\nTitle : name / I\n" ++
    "relationships\nR1: Pilot / holds > Rank\nRank / is held by >> Pilot\n" ++
    "domain\nUser Interface / UI\nsubsystem\nWindows / W 51-99\nclasses\nRank / RK\nTitle : name / I\n")

theorem compile_integrity_airTraffic : Schema.default = .ok Schema.standard ∧
    (compile Schema.standard [airTraffic]).ending = .complete ∧
    (blocks (compile Schema.standard [airTraffic]).script.commands).length = 2 ∧
    ∀ block ∈ blocks (compile Schema.standard [airTraffic]).script.commands, Integrity block := by
  obtain ⟨hc, hlength⟩ : (compile Schema.standard [airTraffic]).ending = .complete ∧
      (blocks (compile Schema.standard [airTraffic]).script.commands).length = 2 := by
    decide +kernel
  exact ⟨Schema.default_eq_standard, hc, hlength, compile_integrity Schema.default_eq_standard hc⟩

end Compiled

end Population
