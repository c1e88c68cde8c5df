import Population.Files.Path
import Population.Proofs.Text.Blank

namespace Population.Path

variable {rooted : Bool} {ns : List Text} {name path : Text}

/-- Names that are kept, last first: those that go up stand before all others, and there are none below the root. -/
inductive Kept (rooted : Bool) : List Text → Prop
  | nil : Kept rooted []
  | name {n : Text} {rest : List Text} (h : Kept rooted rest) (hne : n ≠ []) (hhere : n ≠ ".") (hup : n ≠ "..")
      (hslash : slash ∉ n) : Kept rooted (n :: rest)
  | up {rest : List Text} (h : Kept rooted rest) (hrooted : rooted = false) (hrest : ∀ last ∈ rest.head?, last = "..") :
      Kept rooted (".." :: rest)

namespace Kept

theorem rest {n : Text} {rest : List Text} (h : Kept rooted (n :: rest)) : Kept rooted rest := by
  cases h with
  | name h _ _ _ _ => exact h
  | up h _ _ => exact h

theorem rooted_of_up {rest : List Text} (h : Kept rooted (".." :: rest)) : rooted = false := by
  cases h with
  | name _ _ _ hup _ => exact absurd rfl hup
  | up _ hrooted _ => exact hrooted

theorem no_slash (h : Kept rooted ns) : ∀ n ∈ ns, slash ∉ n := by
  induction h with
  | nil => exact nofun
  | name _ _ _ _ hslash ih => exact List.forall_mem_cons.mpr ⟨hslash, ih⟩
  | up _ _ _ ih => exact List.forall_mem_cons.mpr ⟨by decide, ih⟩

theorem ne_nil (h : Kept rooted ns) : ∀ n ∈ ns, n ≠ [] := by
  induction h with
  | nil => exact nofun
  | name _ hne _ _ _ ih => exact List.forall_mem_cons.mpr ⟨hne, ih⟩
  | up _ _ _ ih => exact List.forall_mem_cons.mpr ⟨nofun, ih⟩

theorem step (h : Kept rooted ns) (hslash : slash ∉ name) : Kept rooted (Path.step rooted ns name) := by
  rw [Path.step.eq_def]
  split
  next => exact h
  next hname =>
      simp only [Bool.or_eq_true, List.isEmpty_iff, decide_eq_true_eq, not_or] at hname
      split
      next hup =>
          subst hup
          split
          next =>
              cases rooted with
              | true => exact .nil
              | false => exact .up .nil rfl nofun
          next last rest =>
              split
              next hlast =>
                  subst hlast
                  exact .up h h.rooted_of_up fun last hlast => (Option.some.inj hlast).symm
              next => exact h.rest
      next hup => exact .name h hname.1 hname.2 hup hslash

theorem step_last {n : Text} {rest : List Text} (h : Kept rooted (n :: rest)) : Path.step rooted rest n = n :: rest := by
  cases h with
  | name _ hne hhere hup _ => simp [Path.step, hne, hhere, hup]
  | up _ hrooted hrest =>
      cases rest with
      | nil => rw [hrooted]; rfl
      | cons last rest =>
          obtain rfl : last = ".." := hrest last rfl
          rfl

theorem foldl (h : Kept rooted ns) : ns.reverse.foldl (Path.step rooted) [] = ns := by
  induction ns with
  | nil => rfl
  | cons n rest ih =>
      rw [List.reverse_cons, List.foldl_append, ih h.rest]
      exact h.step_last

end Kept

def kept (path : Text) : List Text :=
  (names path).foldl (step (isAbsolute path)) []

theorem names_no_slash (path : Text) : ∀ n ∈ names path, slash ∉ n := by
  induction path with
  | nil => simp [names, Text.splitByte, List.splitOnP_nil]
  | cons b t ih =>
      rw [names, Text.splitByte, List.splitOnP_cons_eq_if_modifyHead]
      split
      next => exact List.forall_mem_cons.mpr ⟨List.not_mem_nil, ih⟩
      next hb =>
          obtain ⟨first, rest, hsplit⟩ := List.exists_cons_of_ne_nil (List.splitOnP_ne_nil (· == slash) t)
          rw [names, Text.splitByte, hsplit] at ih
          obtain ⟨hfirst, hrest⟩ := List.forall_mem_cons.mp ih
          rw [hsplit, List.modifyHead_cons]
          refine List.forall_mem_cons.mpr ⟨fun hmem => ?_, hrest⟩
          rcases List.mem_cons.mp hmem with rfl | hmem
          · exact hb (beq_self_eq_true _)
          · exact hfirst hmem

theorem kept_of_path (path : Text) : Kept (isAbsolute path) (kept path) := by
  have hsteps (ns kept : List Text) (hkept : Kept (isAbsolute path) kept) (hns : ∀ n ∈ ns, slash ∉ n) :
      Kept (isAbsolute path) (ns.foldl (step (isAbsolute path)) kept) := by
    induction ns generalizing kept with
    | nil => exact hkept
    | cons n rest ih =>
        obtain ⟨hn, hrest⟩ := List.forall_mem_cons.mp hns
        exact ih _ (hkept.step hn) hrest
  exact hsteps _ _ .nil (names_no_slash path)

theorem clean_eq (path : Text) : clean path =
    if isAbsolute path then slash :: Text.join [slash] (kept path).reverse
    else if (kept path).reverse.isEmpty then "." else Text.join [slash] (kept path).reverse :=
  rfl

theorem names_join {parts : List Text} (hne : parts ≠ []) (h : ∀ n ∈ parts, slash ∉ n) :
    names (Text.join [slash] parts) = parts :=
  List.splitOn_intercalate slash h hne

theorem names_slash (path : Text) : names (slash :: path) = [] :: names path := by
  rw [names, Text.splitByte, List.splitOnP_cons_eq_if_modifyHead, if_pos (beq_self_eq_true _)]
  rfl

theorem kept_join (h : Kept rooted ns) : (names (Text.join [slash] ns.reverse)).foldl (step rooted) [] = ns := by
  cases hns : ns.reverse with
  | nil =>
      rw [List.reverse_eq_nil_iff.mp hns]
      rfl
  | cons n rest =>
      rw [← hns, names_join (by rw [hns]; exact List.cons_ne_nil n rest), h.foldl]
      exact fun n hn => h.no_slash n (List.mem_reverse.mp hn)

theorem isAbsolute_join (h : Kept rooted ns) : isAbsolute (Text.join [slash] ns.reverse) = false := by
  cases hns : ns.reverse with
  | nil => rfl
  | cons n rest =>
      have hn : n ∈ ns := List.mem_reverse.mp (hns ▸ List.mem_cons_self)
      obtain ⟨b, t, rfl⟩ := List.exists_cons_of_ne_nil (h.ne_nil n hn)
      obtain ⟨hb, -⟩ := List.ne_and_not_mem_of_not_mem_cons (h.no_slash _ hn)
      have hhead : (Text.join [slash] ((b :: t) :: rest)).head? = some b := by
        cases rest with
        | nil => rw [Text.join, List.intercalate_singleton]; rfl
        | cons next rest => rw [Text.join, List.intercalate_cons_cons]; rfl
      simp [isAbsolute, hhead, hb.symm]

/-- A path that is cleaned stays as it is when it is cleaned again. -/
theorem clean_clean (path : Text) : clean (clean path) = clean path := by
  have hkept := kept_of_path path
  rw [clean_eq path]
  cases habsolute : isAbsolute path with
  | true =>
      rw [habsolute] at hkept
      have hagain : kept (slash :: Text.join [slash] (kept path).reverse) = kept path := by
        rw [kept, names_slash, List.foldl_cons]
        exact kept_join hkept
      rw [if_pos rfl, clean_eq, hagain]
      rfl
  | false =>
      rw [habsolute] at hkept
      rw [if_neg nofun]
      split
      next => rfl
      next hne =>
          have hrelative := isAbsolute_join hkept
          have hagain : kept (Text.join [slash] (kept path).reverse) = kept path := by
            rw [kept, hrelative]
            exact kept_join hkept
          rw [clean_eq, hagain, hrelative, if_neg nofun, if_neg hne]

end Population.Path
