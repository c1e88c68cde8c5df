import Mathlib.Data.List.Forall2
import Mathlib.Data.List.TakeDrop
import Mathlib.Data.List.TakeWhile
import Population.Proofs.Outcome
import Population.Proofs.Pairing
import Population.Proofs.Source.Content
import Population.Proofs.Text.Ends
import Population.Source.Sectioned

namespace Population

namespace SectionedFile

variable {t word : Text}

theorem mem_dropWhile {p : UInt8 → Bool} {b : UInt8} (hb : p b = false) (h : b ∈ t) : b ∈ t.dropWhile p := by
  rw [← List.takeWhile_append_dropWhile (p := p) (l := t), List.mem_append] at h
  rcases h with h | h
  · rw [List.mem_takeWhile_imp h] at hb
    cases hb
  · exact h

/-- A header begins with a bracket, and what else is in it is the other bracket, a word and white space. -/
theorem header?_bytes (h : header? t = some word) : 0x5b ∈ t ∧ 0x3a ∉ t := by
  have hspace : Text.isSpace 0x3a = false := rfl
  rw [header?] at h
  split at h
  next rest hstart =>
      refine ⟨(List.dropWhile_sublist Text.isSpace).subset (hstart ▸ List.mem_cons_self), fun hcolon => ?_⟩
      have hrest : 0x3a ∈ rest := by
        have hmem := mem_dropWhile hspace hcolon
        rw [hstart] at hmem
        simpa using hmem
      have hafter : 0x3a ∈ ((rest.dropWhile Text.isSpace).dropWhile Text.isWord).dropWhile Text.isSpace :=
        mem_dropWhile hspace (mem_dropWhile rfl (mem_dropWhile hspace hrest))
      rw [List.span_eq_takeWhile_dropWhile] at h
      dsimp only at h
      split at h
      next tail htail =>
          rw [htail] at hafter
          split at h
          next hend =>
              obtain ⟨-, hall⟩ := Bool.and_eq_true_iff.mp hend
              have htailcolon : 0x3a ∈ tail := by simpa using hafter
              cases List.all_eq_true.mp hall _ htailcolon
          next => cases h
      next => cases h
  next => cases h

structure Block where
  header : Line
  name : Text
  lines : List Line

structure Block.Marked (b : Block) : Prop where
  header : header? b.header.text = some b.name
  lines : ∀ l ∈ b.lines, header? l.text = none

theorem foldlM_add_lines (file : Text) {ls : List Line} (h : ∀ l ∈ ls, header? l.text = none) (s : FileSection)
    (rest : List FileSection) :
    ls.foldlM (add file) (s :: rest) = .ok ({ s with lines := ls.reverse ++ s.lines } :: rest) := by
  induction ls generalizing s with
  | nil => rfl
  | cons l ls ih =>
      obtain ⟨hl, hls⟩ := List.forall_mem_cons.mp h
      have hadd : add file (s :: rest) l = .ok ({ s with lines := l :: s.lines } :: rest) := by
        simp only [add, hl]
      rw [List.foldlM_cons, hadd]
      change ls.foldlM (add file) _ = _
      rw [ih hls]
      simp

theorem foldlM_add_blocks (file : Text) {bs : List Block} (h : ∀ b ∈ bs, b.Marked) {seen : List FileSection}
    (hnames : (bs.map (·.name)).Nodup) (hseen : ∀ s ∈ seen, ∀ b ∈ bs, s.name ≠ b.name) :
    (bs.flatMap fun b => b.header :: b.lines).foldlM (add file) seen =
      .ok ((bs.map fun b => ⟨b.name, b.lines.reverse⟩).reverse ++ seen) := by
  induction bs generalizing seen with
  | nil => rfl
  | cons b bs ih =>
      obtain ⟨hb, hbs⟩ := List.forall_mem_cons.mp h
      obtain ⟨hfresh, hrest⟩ := List.nodup_cons.mp hnames
      have hnew : seen.any (·.name = b.name) = false := by
        simpa using fun s hs => hseen s hs b List.mem_cons_self
      have hadd : add file seen b.header = .ok (⟨b.name, []⟩ :: seen) := by
        simp only [add, hb.header, hnew]
        rfl
      have hothers : ∀ s ∈ (⟨b.name, b.lines.reverse⟩ : FileSection) :: seen, ∀ c ∈ bs, s.name ≠ c.name := by
        intro s hs c hc
        rcases List.mem_cons.mp hs with rfl | hs
        · intro heq
          exact hfresh (List.mem_map.mpr ⟨c, hc, heq.symm⟩)
        · exact hseen s hs c (List.mem_cons_of_mem b hc)
      rw [List.flatMap_cons, List.cons_append, List.foldlM_cons, hadd]
      change ((b.lines ++ _).foldlM (add file) _) = _
      rw [List.foldlM_append, foldlM_add_lines file hb.lines]
      change (List.foldlM (add file) _ _) = _
      rw [List.append_nil, ih hbs hrest hothers]
      simp

theorem ofSource_blocks {f : SourceFile} {bs : List Block} (h : ∀ b ∈ bs, b.Marked) (hnames : (bs.map (·.name)).Nodup)
    (hlines : f.lines = bs.flatMap fun b => b.header :: b.lines) :
    ofSource f = .ok ⟨f.name, bs.map fun b => ⟨b.name, b.lines⟩⟩ := by
  rw [ofSource, hlines, foldlM_add_blocks f.name h hnames (by simp)]
  change Except.ok (SectionedFile.mk _ _) = _
  simp

open SourceFile

/-- A line that is cut short is no header without a bracket, and none with a colon. -/
theorem header?_stripComment (hcomment : 0x23 ∉ t) (h : 0x5b ∉ t ∨ 0x3a ∈ t) : header? (stripComment t) = none := by
  obtain ⟨e, he, ht⟩ := exists_stripComment_append hcomment
  cases hword : header? (stripComment t) with
  | none => rfl
  | some word =>
      obtain ⟨hbracket, hcolon⟩ := header?_bytes hword
      rcases h with h | h
      · exact absurd (ht ▸ List.mem_append_left e hbracket) h
      · rw [ht, List.mem_append] at h
        exact absurd (h.resolve_left hcolon) (he.not_mem rfl)

structure Written where
  header : Text
  name : Text
  texts : List Text

def Written.lines (w : Written) : List Text :=
  w.header :: w.texts

structure Written.Marked (w : Written) : Prop where
  header : header? (stripComment w.header) = some w.name
  texts : ∀ t ∈ w.texts, header? (stripComment t) = none

theorem exists_blocks {ws : List Written} {ls : List Line}
    (h : ls.map (·.text) = (ws.flatMap Written.lines).map stripComment) :
    ∃ bs : List Block, ls = (bs.flatMap fun b => b.header :: b.lines) ∧
      List.Forall₂ (fun w b => b.header.text = stripComment w.header ∧ b.name = w.name ∧
        b.lines.map (·.text) = w.texts.map stripComment) ws bs := by
  induction ws generalizing ls with
  | nil => exact ⟨[], List.map_eq_nil_iff.mp h, .nil⟩
  | cons w ws ih =>
      rw [List.flatMap_cons, List.map_append] at h
      obtain ⟨here, later, rfl, hhere, hlater⟩ := List.map_eq_append_iff.mp h
      obtain ⟨header, lines, rfl, hheader, hlines⟩ := List.map_eq_cons_iff.mp hhere
      obtain ⟨bs, rfl, hbs⟩ := ih hlater
      exact ⟨⟨header, w.name, lines⟩ :: bs, rfl, .cons ⟨hheader, rfl, hlines⟩ hbs⟩

def textsOf (ws : List Written) (name : Text) : List Text :=
  ((ws.find? (·.name = name)).map (·.texts)).getD []

theorem linesOf_written {ws : List Written} {sections : List FileSection}
    (h : List.Forall₂ (fun w s => s.name = w.name ∧ s.lines.map Line.trimmed = w.texts.map Text.trim) ws sections)
    (file name : Text) : (linesOf ⟨file, sections⟩ name).map Line.trimmed = (textsOf ws name).map Text.trim := by
  rw [linesOf, section?, textsOf]
  induction h with
  | nil => rfl
  | @cons w s ws sections hws _ ih =>
      obtain ⟨hname, hlines⟩ := hws
      rw [List.find?_cons, List.find?_cons, hname]
      cases hfound : decide (w.name = name) with
      | true => exact hlines
      | false => exact ih

/-- Texts that are written in sections with different names are read as these, as far as they are short enough. -/
theorem ofBytes_written (name : Text) {texts : List Text} {ws : List Written} (hplain : ∀ t ∈ texts, Plain t)
    (hread : texts.takeWhile isReadable = ws.flatMap Written.lines) (h : ∀ w ∈ ws, w.Marked)
    (hnames : (ws.map (·.name)).Nodup) :
    ∃ f, SectionedFile.ofBytes name (Text.lines texts) = .ok f ∧
      ∀ title, (f.linesOf title).map Line.trimmed = (textsOf ws title).map Text.trim := by
  have hlines := contentLines_lines hplain
  rw [hread] at hlines
  obtain ⟨bs, hblocks, hbs⟩ := exists_blocks hlines
  have hmarked : ∀ b ∈ bs, b.Marked := by
    intro b hb
    obtain ⟨w, hw, hheader, hname, htexts⟩ := partner_of_right hbs hb
    refine ⟨by rw [hheader, hname, (h w hw).header], fun l hl => ?_⟩
    obtain ⟨t, ht, htext⟩ := List.mem_map.mp (htexts ▸ List.mem_map_of_mem hl)
    rw [← htext]
    exact (h w hw).texts t ht
  have hsame : bs.map (·.name) = ws.map (·.name) := by
    rw [← List.forall₂_eq_eq_eq, List.forall₂_map_left_iff, List.forall₂_map_right_iff]
    exact hbs.flip.imp fun b w hb => hb.2.1
  refine ⟨_, ofSource_blocks hmarked (hsame ▸ hnames) hblocks, linesOf_written ?_ name⟩
  rw [List.forall₂_map_right_iff]
  -- no text has a comment, so only blanks are taken off
  have hcomment : ∀ w ∈ ws, ∀ t ∈ w.texts, 0x23 ∉ t := by
    intro w hw t ht
    have hmem : t ∈ texts.takeWhile isReadable := hread ▸ List.mem_flatMap.mpr ⟨w, hw, List.mem_cons_of_mem _ ht⟩
    exact (hplain t ((List.takeWhile_sublist isReadable).subset hmem)).comment
  refine ((List.forall₂_and_left ws bs).mpr ⟨hcomment, hbs⟩).imp fun w b ⟨hw, _, hname, htexts⟩ => ⟨hname, ?_⟩
  have htrimmed : b.lines.map Line.trimmed = (b.lines.map (·.text)).map Text.trim := by
    rw [List.map_map]
    rfl
  rw [htrimmed, htexts, List.map_map]
  exact List.map_congr_left fun t ht => trim_stripComment (hw t ht)

end SectionedFile

end Population
