import Population.Proofs.Compile.Alongside
import Population.Proofs.Compile.Lines
import Population.Proofs.Compile.Phases

namespace Population

open Schema

theorem Origin.Alike.eq {o o' : Origin} (h : o.Alike Eq o') : o' = o := by
  obtain ⟨hfile, hline, htext⟩ := h
  cases o
  cases o'
  simp_all

theorem Script.Behind.commands_eq {earlier : List Command} {s s' : Script} (h : s.Behind Eq earlier s') :
    s'.commands = earlier ++ s.commands := by
  obtain ⟨cs, hcs, hs'⟩ := h
  have heq : cs.map id = s.commands.map id := by
    refine map_parallel hcs ?_
    rintro c _ ⟨o, ho, rfl⟩
    cases ho.eq
    rfl
  rw [hs', ← List.map_id cs, heq, List.map_id]

theorem Said.eq {m m' : Text} (h : Said Eq m m') : m' = m := by
  cases h with
  | same => rfl
  | duplicate rnum h => rw [h]

theorem Fault.Alike.eq {f f' : Fault} (h : f.Alike Eq Eq f') : f' = f := by
  obtain ⟨hkind, hfile, hline, htext, hsummary, hcause⟩ := h
  have hsaid := hsummary.eq
  cases f
  cases f'
  simp_all

namespace Compiled

theorem Alike.ending_eq {earlier : List Command} {r r' : Compiled} (h : r.Alike Eq earlier r') :
    r'.ending = r.ending := by
  have hending := h.ending
  generalize r.ending = e, r'.ending = e' at hending
  cases hending with
  | complete => rfl
  | faulty hf => rw [hf.eq]
  | abandoned => rfl

/-- Files that are built after others, of which nothing is left open, give the same as on their own. -/
theorem build_append_of_closed {s : Schema} {fs : List SourceFile} {out : Output} (hout : Output.ofFiles s fs = .ok out)
    (hclosed : out.script.lastOpen = none) (gs : List SourceFile) :
    (build s gs).Alike Eq out.script.commands (build s (fs ++ gs)) := by
  have hempty : Output.empty.script.Behind Eq out.script.commands out.script := ⟨[], .nil, by simp⟩
  have hsame : List.Forall₂ (SourceFile.Alike Eq) gs gs := by
    refine List.forall₂_same.mpr fun f _ => ⟨rfl, ?_⟩
    exact List.forall₂_same.mpr fun l _ => ⟨rfl, rfl⟩
  have hfiles : Output.ofFiles s (fs ++ gs) = gs.foldlM (Output.addFile s) out := by
    rw [Output.ofFiles, List.foldlM_append]
    rw [Output.ofFiles] at hout
    rw [hout]
    rfl
  rw [build, build, hfiles]
  exact ofBuild_parallel hclosed s (fun n n' h => by rw [h]) hempty hsame

/-- Files that are built after others add their own commands to the script, and end as they do on their own. -/
theorem build_append {s : Schema} {fs : List SourceFile} (hs : Schema.default = .ok s)
    (hc : (build s fs).ending = .complete) (gs : List SourceFile) :
    (build s (fs ++ gs)).script.commands = (build s fs).script.commands ++ (build s gs).script.commands ∧
      (build s (fs ++ gs)).ending = (build s gs).ending := by
  rw [Schema.default_eq_standard] at hs
  cases hs
  obtain ⟨out, hout, hscript⟩ := build_complete hc
  have happend := build_append_of_closed hout (Output.ofFiles_closed hout) gs
  rw [hscript]
  exact ⟨happend.script.commands_eq, happend.ending_eq⟩

def towers : SourceFile :=
  .ofBytes "towers.mi" "domain\nAir Traffic / ATC\nsubsystem\nAir Field / AF 1-50\nclasses\nTower / T\nName : name / I\n"

/-- A domain that ends between the two lines of an association. -/
def halfTold : SourceFile :=
  .ofBytes "half_told.mi" ("domain\nAir Traffic / ATC\nsubsystem\nAir Field / AF 1-50\nclasses\nTower / T\n" ++
    "Name : name / I\nRunway / RW\nrelationships\nR1 : Tower / controls >> Runway\n")

theorem build_append_halfTold : Schema.default = .ok standard ∧ (build standard [towers]).ending = .complete ∧
    (build standard [towers]).script.commands.length = 6 ∧ (build standard [halfTold]).script.commands.length = 6 ∧
    (build standard [halfTold]).script.lastOpen.map (·.call.name) = some ("new_bin_rel" : Text) ∧
    (build standard [halfTold]).ending ≠ .complete ∧
    (build standard ([towers] ++ [halfTold])).script.commands =
      (build standard [towers]).script.commands ++ (build standard [halfTold]).script.commands ∧
    (build standard ([towers] ++ [halfTold])).ending = (build standard [halfTold]).ending := by
  obtain ⟨hc, hlength, hlength', hopen, hfault⟩ : (build standard [towers]).ending = .complete ∧
      (build standard [towers]).script.commands.length = 6 ∧ (build standard [halfTold]).script.commands.length = 6 ∧
      (build standard [halfTold]).script.lastOpen.map (·.call.name) = some ("new_bin_rel" : Text) ∧
      (build standard [halfTold]).ending ≠ .complete := by
    decide +kernel
  exact ⟨Schema.default_eq_standard, hc, hlength, hlength', hopen, hfault,
    build_append Schema.default_eq_standard hc [halfTold]⟩

end Compiled

end Population
