import Population.Job.Actions
import Population.Proofs.Files.Path
import Population.Proofs.Pairing

namespace Population

namespace Expand

variable {v : FileView} {args ps found : List Text} {arg p : Text}

theorem add_eraseDups (l : List Text) (p : Text) : add l.eraseDups p = (l ++ [Path.clean p]).eraseDups := by
  by_cases h : Path.clean p ∈ l <;>
    simp [add, List.eraseDups_append, List.removeAll, List.eraseDups_cons, List.mem_eraseDups, h]

theorem foldl_add (l found : List Text) :
    found.foldl add l.eraseDups = (l ++ found.map Path.clean).eraseDups := by
  induction found generalizing l with
  | nil => simp
  | cons p rest ih => rw [List.foldl_cons, add_eraseDups, ih, List.map_cons, List.append_assoc, List.singleton_append]

/-- What is listed are the paths that arguments stand for, without those that are there already. -/
theorem paths_ok_iff : paths v args = .ok ps ↔
    ∃ found, args.mapM (argument v) = .ok found ∧ ps = (found.flatten.map Path.clean).eraseDups := by
  suffices h : ∀ l : List Text, args.foldlM (fun listed arg => do
      let found ← argument v arg
      return found.foldl add listed) l.eraseDups = .ok ps ↔
      ∃ found, args.mapM (argument v) = .ok found ∧ ps = (l ++ found.flatten.map Path.clean).eraseDups from h []
  -- along the arguments, behind what is listed already
  induction args with
  | nil =>
      intro l
      rw [List.foldlM_nil, List.mapM_nil, pure_ok_iff]
      constructor
      · rintro rfl
        exact ⟨[], rfl, by simp⟩
      · rintro ⟨found, hfound, rfl⟩
        cases pure_ok_iff.mp hfound
        simp
  | cons arg rest ih =>
      intro l
      rw [List.foldlM_cons, List.mapM_cons]
      cases argument v arg with
      | error e => exact ⟨nofun, fun ⟨_, h, _⟩ => nomatch h⟩
      | ok here =>
          change (rest.foldlM _ (here.foldl add l.eraseDups) : Except ExpandError _) = .ok ps ↔ _
          rw [foldl_add, ih]
          constructor
          · rintro ⟨found, hfound, rfl⟩
            refine ⟨here :: found, ?_, by simp⟩
            change rest.mapM (argument v) >>= _ = _
            rw [hfound]
            rfl
          · rintro ⟨all, hall, rfl⟩
            obtain ⟨_, hhere, hall⟩ := bind_ok_iff.mp hall
            obtain ⟨found, hfound, hall⟩ := bind_ok_iff.mp hall
            cases hhere
            cases pure_ok_iff.mp hall
            exact ⟨found, hfound, by simp⟩

/-- A path that stands for itself: that of a file, or one that leads nowhere and is no pattern. -/
def Plain (v : FileView) (p : Text) : Prop :=
  v.stat p = some .file ∨ (v.stat p = none ∧ Glob.looksLike p = false)

theorem argument_plain (h : Plain v p) : argument v p = .ok [p] := by
  rcases h with h | ⟨h, hlooks⟩
  · simp only [argument, h]
  · simp [argument, h, hlooks]

instance : Decidable (Plain v p) :=
  inferInstanceAs (Decidable (_ ∨ _))

theorem argument_cases (h : argument v arg = .ok found) :
    (Plain v arg ∧ found = [arg]) ∨ (¬ Plain v arg ∧ found ≠ [] ∧ ∃ pattern, v.glob pattern = .ok found) := by
  by_cases hplain : Plain v arg
  · exact .inl ⟨hplain, (Except.ok.inj ((argument_plain hplain).symm.trans h)).symm⟩
  refine .inr ⟨hplain, ?_⟩
  -- what does not stand for itself is a directory or a pattern
  rw [argument] at h
  split at h
  next hfile => exact absurd (.inl hfile) hplain
  next =>
      split at h
      next => cases h
      next => cases h
      next hne hglob =>
          cases h
          exact ⟨hne, _, hglob⟩
  next hnone =>
      split at h
      next hlooks => exact absurd (.inr ⟨hnone, by simpa using hlooks⟩) hplain
      next =>
          split at h
          next => cases h
          next =>
              split at h
              next => cases h
              next => cases h
              next hne hglob =>
                  cases h
                  exact ⟨hne, _, hglob⟩

theorem clean_of_mem (h : paths v args = .ok ps) (hp : p ∈ ps) : Path.clean p = p := by
  obtain ⟨found, -, rfl⟩ := paths_ok_iff.mp h
  obtain ⟨q, -, rfl⟩ := List.mem_map.mp (List.mem_eraseDups.mp hp)
  exact Path.clean_clean q

theorem paths_nodup (h : paths v args = .ok ps) : ps.Nodup := by
  obtain ⟨found, -, rfl⟩ := paths_ok_iff.mp h
  exact nodup_eraseDups _

/-- Each path that is listed is one that an argument stands for, cleaned. -/
theorem mem_paths_iff (h : paths v args = .ok ps) :
    p ∈ ps ↔ ∃ arg ∈ args, ∃ found, argument v arg = .ok found ∧ ∃ q ∈ found, Path.clean q = p := by
  obtain ⟨all, hall, rfl⟩ := paths_ok_iff.mp h
  have hall := mapM_ok_iff.mp hall
  simp only [List.mem_eraseDups, List.mem_map, List.mem_flatten]
  constructor
  · rintro ⟨q, ⟨found, hfound, hq⟩, rfl⟩
    obtain ⟨arg, harg, hargument⟩ := partner_of_right hall hfound
    exact ⟨arg, harg, found, hargument, q, hq, rfl⟩
  · rintro ⟨arg, harg, found, hargument, q, hq, rfl⟩
    obtain ⟨found', hfound', hargument'⟩ := partner_of_left hall harg
    cases hargument.symm.trans hargument'
    exact ⟨q, ⟨found, hfound', hq⟩, rfl⟩

theorem eraseDups_of_nodup (h : ps.Nodup) : ps.eraseDups = ps := by
  induction ps with
  | nil => rfl
  | cons p rest ih =>
      obtain ⟨hp, hrest⟩ := List.nodup_cons.mp h
      have hfilter : rest.filter (fun q => !q == p) = rest := by
        refine List.filter_eq_self.mpr fun q hq => ?_
        have hne : q ≠ p := fun heq => hp (heq ▸ hq)
        simpa using hne
      rw [List.eraseDups_cons, hfilter, ih hrest]

theorem paths_of_plain (hnodup : ps.Nodup) (hclean : ∀ p ∈ ps, Path.clean p = p) (hplain : ∀ p ∈ ps, Plain v p) :
    paths v ps = .ok ps := by
  have hfound : ps.mapM (argument v) = .ok (ps.map fun p => [p]) := by
    rw [mapM_ok_iff, List.forall₂_map_right_iff]
    exact List.forall₂_same.mpr fun p hp => argument_plain (hplain p hp)
  refine paths_ok_iff.mpr ⟨_, hfound, ?_⟩
  have hflat : (ps.map fun p => [p]).flatten = ps := by
    rw [← List.flatMap_def, List.flatMap_singleton']
  rw [hflat, List.map_congr_left hclean, List.map_id', eraseDups_of_nodup hnodup]

/-- Files that are found for a pattern are files still when their paths are cleaned. -/
def FindsFiles (v : FileView) : Prop :=
  ∀ pattern found, v.glob pattern = .ok found → ∀ q ∈ found, v.stat (Path.clean q) = some .file

theorem paths_paths_iff (hfinds : FindsFiles v) (h : paths v args = .ok ps) :
    paths v ps = .ok ps ↔ ∀ p ∈ ps, Plain v p := by
  refine ⟨fun hagain p hp => ?_, paths_of_plain (paths_nodup h) fun p => clean_of_mem h⟩
  obtain ⟨arg, harg, found, hargument, q, hq, rfl⟩ := (mem_paths_iff hagain).mp hp
  rcases argument_cases hargument with ⟨hplain, rfl⟩ | ⟨-, -, pattern, hglob⟩
  · cases List.mem_singleton.mp hq
    rwa [clean_of_mem h harg]
  · exact .inl (hfinds pattern found hglob q hq)

theorem plain_paths_iff (hfinds : FindsFiles v) (h : paths v args = .ok ps) :
    (∀ p ∈ ps, Plain v p) ↔ ∀ arg ∈ args, Plain v arg → Plain v (Path.clean arg) := by
  constructor
  · intro hplain arg harg hstands
    exact hplain _ ((mem_paths_iff h).mpr ⟨arg, harg, [arg], argument_plain hstands, arg, List.mem_cons_self, rfl⟩)
  · intro hargs p hp
    obtain ⟨arg, harg, found, hargument, q, hq, rfl⟩ := (mem_paths_iff h).mp hp
    rcases argument_cases hargument with ⟨hplain, rfl⟩ | ⟨-, -, pattern, hglob⟩
    · cases List.mem_singleton.mp hq
      exact hargs arg harg hplain
    · exact .inl (hfinds pattern found hglob q hq)

theorem isEmpty_paths (h : paths v args = .ok ps) : ps.isEmpty = args.isEmpty := by
  cases args with
  | nil =>
      cases pure_ok_iff.mp h
      rfl
  | cons arg rest =>
      obtain ⟨all, hall, -⟩ := paths_ok_iff.mp h
      obtain ⟨found, -, hargument⟩ := partner_of_left (mapM_ok_iff.mp hall) List.mem_cons_self
      have hne : found ≠ [] := by
        rcases argument_cases hargument with ⟨-, rfl⟩ | ⟨-, hne, -⟩
        · exact List.cons_ne_nil arg []
        · exact hne
      obtain ⟨q, qs, rfl⟩ := List.exists_cons_of_ne_nil hne
      have hq : Path.clean q ∈ ps :=
        (mem_paths_iff h).mpr ⟨arg, List.mem_cons_self, _, hargument, q, List.mem_cons_self, rfl⟩
      cases ps with
      | nil => cases hq
      | cons p ps => rfl

end Expand

namespace Job

open Expand

/-- A check reads no more of its arguments than the list that they stand for. -/
theorem check_paths {j : Job} {args ps : List Text} (h : paths j.env.tree.view args = .ok ps)
    (hagain : paths j.env.tree.view ps = .ok ps) : inputs j.env ps = inputs j.env args ∧ j.check ps = j.check args := by
  have hinputs : inputs j.env ps = inputs j.env args := by
    rw [inputs, inputs, isEmpty_paths h, h, hagain]
  refine ⟨hinputs, ?_⟩
  rw [check, check, readInputs, readInputs, hinputs]

end Job

namespace Expand

/-- What is listed are the cleaned paths that arguments stand for, each where it is first stood for. The list stands
for itself if each of its paths does, and, where what is found for a pattern are files, if and only if cleaning leaves
each argument that stands for itself to do so; then a check of the list is a check of the arguments. An argument is told
from a directory as it is written, and what is listed is its clean path: one that leads nowhere as it is written may be a
directory when it is cleaned. -/
theorem paths_stable_iff {v : FileView} {args ps : List Text} (h : paths v args = .ok ps) :
    ps.Nodup ∧
      (∃ found, args.mapM (argument v) = .ok found ∧ ps = (found.flatten.map Path.clean).eraseDups) ∧
      (∀ p ∈ ps, Path.clean p = p) ∧
      ((∀ p ∈ ps, Plain v p) → paths v ps = .ok ps) ∧
      (FindsFiles v → (paths v ps = .ok ps ↔ ∀ arg ∈ args, Plain v arg → Plain v (Path.clean arg))) ∧
      (paths v ps = .ok ps → ∀ j : Job, j.env.tree.view = v →
        Job.inputs j.env ps = Job.inputs j.env args ∧ j.check ps = j.check args) := by
  have hnodup := paths_nodup h
  have hclean : ∀ p ∈ ps, Path.clean p = p := fun p => clean_of_mem h
  refine ⟨hnodup, paths_ok_iff.mp h, hclean, paths_of_plain hnodup hclean, fun hfinds => ?_, fun hagain j hview => ?_⟩
  · exact (paths_paths_iff hfinds h).trans (plain_paths_iff hfinds h)
  · subst hview
    exact Job.check_paths h hagain

/-- A directory with one script in it, and what is found below it. -/
def oneScript : FileView where
  stat p := if p = "models/a.mi" then some .file else if p = "models" then some .directory else none
  glob pattern := .ok (if pattern = "models/**/*.mi" then ["models/a.mi"] else [])

theorem oneScript_findsFiles : FindsFiles oneScript := by
  intro pattern found hglob q hq
  cases hglob
  split at hq
  next =>
      cases List.mem_singleton.mp hq
      decide +kernel
  next => cases hq

theorem paths_stable_directory :
    paths oneScript ["models", "./gone/new.mi", "models/a.mi"] = .ok ["models/a.mi", "gone/new.mi"] ∧
      (["models/a.mi", "gone/new.mi"] : List Text).Nodup ∧
      paths oneScript ["models/a.mi", "gone/new.mi"] = .ok ["models/a.mi", "gone/new.mi"] := by
  have hpaths : paths oneScript ["models", "./gone/new.mi", "models/a.mi"] = .ok ["models/a.mi", "gone/new.mi"] := by
    decide +kernel
  obtain ⟨hnodup, -, -, -, hstable, -⟩ := paths_stable_iff hpaths
  exact ⟨hpaths, hnodup, (hstable oneScript_findsFiles).mpr (by decide +kernel)⟩

def scriptAtHand : Environment where
  tree := (⟨[]⟩ : Tree).put "models/a.mi" "domain\n"
  directory := "/"
  runId := []
  time := none
  elapsed := ⟨0⟩

/-- A path through a directory that is not there is that of a directory when it is cleaned. The list that it gives is
expanded further, and a check of the list reads a script where a check of the path fails. -/
theorem paths_not_stable :
    paths oneScript ["gone/../models"] = .ok ["models"] ∧ paths oneScript ["models"] = .ok ["models/a.mi"] ∧
      paths scriptAtHand.tree.view ["gone/../models"] = .ok ["models"] ∧
      Job.inputs scriptAtHand ["models"] = .ok [.ofBytes "models/a.mi" "domain\n"] ∧
      Job.inputs scriptAtHand ["gone/../models"] =
        .error (.input "models" "could not open models: read models: is a directory") ∧
      ¬ ∀ v : FileView, FindsFiles v → ∀ args ps : List Text, paths v args = .ok ps → paths v ps = .ok ps := by
  have hlisted : paths oneScript ["gone/../models"] = .ok ["models"] := by decide +kernel
  have hagain : paths oneScript ["models"] = .ok ["models/a.mi"] := by decide +kernel
  refine ⟨hlisted, hagain, by decide +kernel, by decide +kernel, by decide +kernel, fun hstable => ?_⟩
  exact absurd (hagain.symm.trans (hstable _ oneScript_findsFiles _ _ hlisted)) (by decide)

end Expand

end Population
