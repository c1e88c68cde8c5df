import Population.Proofs.Pairing
import Population.Proofs.Schema.Record
import Population.Proofs.Source.Sectioned

namespace Population

open Text

namespace Schema

structure IsGap (t : Text) : Prop where
  blank : t.IsBlank
  feed : 0x0a ∉ t

instance instDecidableIsGap (t : Text) : Decidable (IsGap t) :=
  decidable_of_iff (t.IsBlank ∧ 0x0a ∉ t) ⟨fun h => ⟨h.1, h.2⟩, fun h => ⟨h.blank, h.feed⟩⟩

/-- A parameter record with blanks around it. -/
structure Spaced where
  before : Text
  param : Param
  after : Text

def Spaced.toText (r : Spaced) : Text :=
  r.before ++ (r.param.toText ++ r.after)

/-- A line of parameter records, with commas between them and perhaps at its end. -/
structure RecordLine where
  records : List Spaced
  commas : Nat
  gap : Text

namespace RecordLine

def body (l : RecordLine) : Text :=
  Text.join [0x2c] (l.records.map Spaced.toText)

def toText (l : RecordLine) : Text :=
  l.body ++ (List.replicate l.commas 0x2c ++ l.gap)

def params (l : RecordLine) : List Param :=
  l.records.map (·.param)

structure Neat (l : RecordLine) : Prop where
  records : l.records ≠ []
  gaps : ∀ r ∈ l.records, IsGap r.before ∧ IsGap r.after
  gap : IsGap l.gap

end RecordLine

structure Entry where
  metaclass : Text
  name : Text
  lines : List RecordLine

namespace Entry

def params (e : Entry) : List Param :=
  e.lines.flatMap RecordLine.params

def call (e : Entry) : Call :=
  ⟨e.metaclass, e.name, e.params⟩

def texts (e : Entry) : List Text :=
  heading e.metaclass e.name :: e.lines.map RecordLine.toText

def rendering (e : Entry) : Text :=
  e.name ++ "(" ++ Text.join ", " (e.lines.flatMap fun l => l.records.map (·.param.toText)) ++ ")"

theorem toText_call (e : Entry) : e.call.toText = e.rendering := by
  have hrecords : e.params.map Param.toText = e.lines.flatMap fun l => l.records.map (·.param.toText) := by
    simp [params, RecordLine.params, List.map_flatMap, Function.comp_def]
  rw [Call.toText, call, rendering, hrecords]

end Entry

structure Sheet where
  types : List AppType
  entries : List Entry

def typeHeader : Text := "[type]"

def constructorHeader : Text := "[constructor]"

namespace Sheet

def schema (s : Sheet) : Schema :=
  ⟨s.types, s.entries.map Entry.call⟩

def texts (s : Sheet) : List Text :=
  typeHeader :: (s.types.map typeLine ++ constructorHeader :: s.entries.flatMap Entry.texts)

def toText (s : Sheet) : Text :=
  Text.lines s.texts

end Sheet

/-- Names are words and differ from each other, and parameters have declared types. -/
structure WellFormed (s : Schema) : Prop where
  typeNames : (s.types.map (·.name)).Nodup
  types : ∀ t ∈ s.types, t.name.IsIdentifier
  metaclasses : (s.calls.map (·.metaclass)).Nodup
  callNames : (s.calls.map (·.name)).Nodup
  calls : ∀ c ∈ s.calls, c.metaclass.IsIdentifier ∧ c.name.IsIdentifier
  paramNames : ∀ c ∈ s.calls, (c.params.map (·.name)).Nodup
  params : ∀ c ∈ s.calls, ∀ p ∈ c.params, Worded p ∧ p.type ∈ s.types

structure Sheet.Sound (s : Sheet) : Prop where
  schema : s.schema.WellFormed
  lines : ∀ e ∈ s.entries, ∀ l ∈ e.lines, l.Neat

theorem trim_record {r : Spaced} (hr : IsGap r.before ∧ IsGap r.after) (hp : Worded r.param) :
    r.toText.trim = r.param.toText :=
  hp.shown_toText.trimmed.trim_between hr.1.blank hr.2.blank

theorem not_mem_record {r : Spaced} (hp : Worded r.param) {b : UInt8} (hb : isWord b = false) (hsigns : b ∉ recordSigns)
    (hbefore : b ∉ r.before) (hafter : b ∉ r.after) : b ∉ r.toText := by
  simp [Spaced.toText, hbefore, hafter, hp.not_mem_toText hb hsigns]

theorem last_record {p : Param} (hp : Worded p) : p.toText.getLast? ≠ some 0x2c := by
  intro hlast
  exact hp.not_mem_toText rfl (by decide) (List.mem_of_getLast? hlast)

theorem exists_join_eq {rs : List Spaced} (hne : rs ≠ []) (hgaps : ∀ r ∈ rs, IsGap r.before ∧ IsGap r.after)
    (hwords : ∀ r ∈ rs, Worded r.param) :
    ∃ b m e, Text.join [0x2c] (rs.map Spaced.toText) = b ++ (m ++ e) ∧ IsBlank b ∧ IsBlank e ∧ m.Shown ∧
      m.getLast? ≠ some 0x2c := by
  induction rs with
  | nil => exact absurd rfl hne
  | cons r rs ih =>
      obtain ⟨hr, hgaps⟩ := List.forall_mem_cons.mp hgaps
      obtain ⟨hp, hwords⟩ := List.forall_mem_cons.mp hwords
      cases rs with
      | nil =>
          refine ⟨r.before, r.param.toText, r.after, ?_, hr.1.blank, hr.2.blank, hp.shown_toText, last_record hp⟩
          rw [List.map_singleton, Text.join, List.intercalate_singleton, Spaced.toText]
      | cons next rest =>
          obtain ⟨b, m, e, hjoin, hb, he, hm, hlast⟩ := ih (List.cons_ne_nil next rest) hgaps hwords
          refine ⟨r.before, r.param.toText ++ (r.after ++ 0x2c :: b ++ m), e, ?_, hr.1.blank, he,
            hp.shown_toText.append _ hm, ?_⟩
          · rw [Text.join] at hjoin ⊢
            rw [List.map_cons, List.map_cons, List.intercalate_cons_cons, ← List.map_cons, hjoin, Spaced.toText]
            simp only [List.append_assoc, List.cons_append, List.nil_append]
          · rw [← List.append_assoc, List.getLast?_append_of_ne_nil _ hm.ne_nil]
            exact hlast

/-- Bytes that are taken off the end of a line of records. -/
def isSeparator (b : UInt8) : Bool :=
  b == 0x2c || b == 0x20

theorem shown_commas (n : Nat) : Shown (List.replicate (n + 1) 0x2c) where
  first := ⟨0x2c, by simp [List.head?_replicate], rfl⟩
  last := ⟨0x2c, by simp [List.getLast?_replicate], rfl⟩

/-- Commas and blanks behind records do not change what is left of the pieces between the commas. -/
theorem pieces_append_commas {b m e gap : Text} (hb : b.IsBlank) (hm : m.Shown) (hlast : m.getLast? ≠ some 0x2c)
    (he : e.IsBlank) (hgap : gap.IsBlank) (n : Nat) :
    (splitByte 0x2c (trimRight isSeparator (Text.trim ((b ++ (m ++ e)) ++ (List.replicate n 0x2c ++ gap))))).map Text.trim =
      ((b ++ (m ++ e)).splitOn 0x2c).map Text.trim := by
  have hcomma : isVisible 0x2c = true := rfl
  have hstop : ∀ c ∈ m.getLast?, isSeparator c = false := by
    obtain ⟨d, hd, hvisible⟩ := hm.last
    intro c hc
    obtain rfl := Option.mem_unique hd hc
    have hne : d ≠ 0x2c := by
      rintro rfl
      exact hlast hd
    have hspace : d ≠ 0x20 := by
      rintro rfl
      cases hvisible
    simp [isSeparator, hne, hspace]
  rw [map_trim_splitOn hcomma hb he]
  cases n with
  | zero =>
      have htrim : Text.trim ((b ++ (m ++ e)) ++ ([] ++ gap)) = m := by
        simpa using hm.trimmed.trim_between hb (he.append hgap)
      have hright : trimRight isSeparator m = m := by
        simpa [trimRight] using trimRight_append_of_last hm.ne_nil hstop []
      rw [List.replicate_zero, htrim, hright]
      rfl
  | succ n =>
      have hshown := hm.append e (shown_commas n)
      have htrim : Text.trim ((b ++ (m ++ e)) ++ (List.replicate (n + 1) 0x2c ++ gap)) =
          m ++ (e ++ List.replicate (n + 1) 0x2c) := by
        simpa using hshown.trimmed.trim_between hb hgap
      have hcommas : ∀ c ∈ (List.replicate (n + 1) 0x2c : Text), isSeparator c = true := by
        intro c hc
        rw [List.eq_of_mem_replicate hc]
        rfl
      -- What is taken off the blanks behind the records is blank, for it holds no comma.
      obtain ⟨spaces, hspaces, hsplit⟩ := exists_trimRight isSeparator e
      have hspace : spaces.AllSpace := by
        intro c hc
        have hne : c ≠ 0x2c := by
          rintro rfl
          exact he.not_mem hcomma (hsplit ▸ List.mem_append_right _ hc)
        have hc := hspaces c hc
        simp only [isSeparator, Bool.or_eq_true, beq_iff_eq] at hc
        rw [hc.resolve_left hne]
        rfl
      rw [htrim, trimRight_append_of_last hm.ne_nil hstop, SourceFile.trimRight_append hcommas]
      have hleft := map_trim_splitOn hcomma (isRun_nil blankCodes) hspace.isBlank (m ++ trimRight isSeparator e)
      have hwhole := map_trim_splitOn hcomma (isRun_nil blankCodes) he m
      rw [List.nil_append, List.append_assoc, ← hsplit] at hleft
      rw [List.nil_append] at hwhole
      exact hleft.symm.trans hwhole

variable {l : RecordLine}

theorem RecordLine.Neat.pieces (h : l.Neat) (hwords : ∀ p ∈ l.params, Worded p) :
    (splitByte 0x2c (trimRight isSeparator l.toText.trim)).map Text.trim = l.params.map Param.toText := by
  have hword : ∀ r ∈ l.records, Worded r.param := fun r hr => hwords r.param (List.mem_map_of_mem hr)
  obtain ⟨b, m, e, hjoin, hb, he, hm, hlast⟩ := exists_join_eq h.records h.gaps hword
  have hcomma : ∀ t ∈ l.records.map Spaced.toText, 0x2c ∉ t := by
    intro t ht
    obtain ⟨r, hr, rfl⟩ := List.mem_map.mp ht
    obtain ⟨hbefore, hafter⟩ := h.gaps r hr
    exact not_mem_record (hword r hr) rfl (by decide) (hbefore.blank.not_mem rfl) (hafter.blank.not_mem rfl)
  have hsplit : l.body.splitOn 0x2c = l.records.map Spaced.toText :=
    List.splitOn_intercalate 0x2c hcomma (by simpa using h.records)
  have hpieces := pieces_append_commas hb hm hlast he h.gap.blank l.commas
  rw [← hjoin] at hpieces
  change _ = (l.body.splitOn 0x2c).map Text.trim at hpieces
  rw [hsplit] at hpieces
  rw [RecordLine.toText, RecordLine.params, List.map_map]
  refine hpieces.trans ?_
  rw [List.map_map]
  exact List.map_congr_left fun r hr => trim_record (h.gaps r hr) (hword r hr)

end Schema

end Population
