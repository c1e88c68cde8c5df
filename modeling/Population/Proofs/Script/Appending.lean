import Population.Proofs.Script.Lifetime

/-!
A draft keeps its commands in place and lets them gather what they are offered, so that a refusal could leave a trace;
it is in step with the script that is offered the same.
-/
namespace Population

/-- Fields for a script, with what a command that they begin is made of. -/
structure Offer where
  call : Option Text
  scope : Option Scope
  fields : List Field
  origin : Origin

def Offer.misses (o : Offer) (call : Call) : Bool :=
  o.call.any (· ≠ call.name)

namespace Script

variable {schema : Schema} {s s' : Script} {o : Offer} {tail c : Command} {i : Nat}

def take (schema : Schema) (s : Script) (o : Offer) : Except ScriptError (Script × Command) :=
  s.add schema o.call o.scope o.fields o.origin

/-- What a script is after an offer, which leaves it as it is if the fields are refused. -/
def offer (schema : Schema) (s : Script) (o : Offer) : Script × Option ScriptError :=
  match s.take schema o with
  | .ok (s', _) => (s', none)
  | .error e => (s, some e)

def after (schema : Schema) (s : Script) (offers : List Offer) : Script :=
  offers.foldl (fun s o => (s.offer schema o).1) s

/-- A command that an offer has begun at the end of a script without an open one. -/
structure Begun (schema : Schema) (o : Offer) (s s' : Script) (c : Command) : Prop where
  closed : s.lastOpen = none
  called : o.call = some c.call.name
  listed : schema.call? c.call.name = some c.call
  origin : c.origin = o.origin
  explicit : c.explicit = o.fields.map (·.name)
  value : ∀ name, c.value? name =
    (valueOf o.fields name).or (if c.call.hasParam name then o.scope.bind (·.get? name) else none)
  grown : s' = s.append c

structure Continued (o : Offer) (s s' : Script) (tail c : Command) : Prop where
  opened : s.lastOpen = some tail
  called : ∀ name, o.call = some name → name = tail.call.name
  call : c.call = tail.call
  origin : c.origin = tail.origin
  explicit : c.explicit = tail.explicit ++ o.fields.map (·.name)
  value : ∀ name, c.value? name = (valueOf o.fields name).or (tail.value? name)
  replaced : s' = s.replaceLast c

theorem take_cases (h : s.take schema o = .ok (s', c)) : Begun schema o s s' c ∨ ∃ tail, Continued o s s' tail c := by
  rcases add_ok h with ⟨tail, hopen, hcall, hc, rfl⟩ | ⟨hopen, name, k, hname, hk, hc, rfl⟩
  · obtain ⟨hsame, hexplicit, -, hvalue⟩ := Command.contribute_ok hc
    obtain ⟨-, -, rfl⟩ := Command.contribute_ok_iff.mp hc
    exact .inr ⟨tail, hopen, hcall, hsame, rfl, hexplicit, hvalue, rfl⟩
  · obtain ⟨hsame, hexplicit, hvalue⟩ := Command.begin_ok hc
    obtain ⟨-, rfl⟩ := Command.begin_ok_iff.mp hc
    obtain rfl : k.name = name := by simpa using List.find?_some hk
    exact .inl ⟨hopen, hname, hk, rfl, hexplicit, hvalue, rfl⟩

theorem offer_cases (schema : Schema) (s : Script) (o : Offer) :
    (∃ s' c, s.take schema o = .ok (s', c) ∧ s.offer schema o = (s', none)) ∨
    ∃ e, s.take schema o = .error e ∧ s.offer schema o = (s, some e) := by
  cases h : s.take schema o with
  | ok r => exact .inl ⟨r.1, r.2, rfl, by rw [offer, h]⟩
  | error e => exact .inr ⟨e, rfl, by rw [offer, h]⟩

theorem Tailed.offer (h : s.Tailed) (o : Offer) : (s.offer schema o).1.Tailed := by
  rcases offer_cases schema s o with ⟨s', c, htake, hoffer⟩ | ⟨e, -, hoffer⟩ <;> rw [hoffer]
  · rcases take_cases htake with hbegun | ⟨tail, hcontinued⟩
    · rw [hbegun.grown]
      exact h.append hbegun.closed c
    · rw [hcontinued.replaced]
      exact h.replaceLast c
  · exact h

theorem Tailed.after (h : s.Tailed) (offers : List Offer) : (s.after schema offers).Tailed :=
  List.foldlRecOn offers _ h fun _ h o _ => h.offer o

theorem getElem?_offer (h : s.commands[i]? = some c) (hc : c.completed = true) (o : Offer) :
    (s.offer schema o).1.commands[i]? = some c := by
  rcases offer_cases schema s o with ⟨s', c', htake, hoffer⟩ | ⟨e, -, hoffer⟩ <;> rw [hoffer]
  · rcases take_cases htake with hbegun | ⟨tail, hcontinued⟩
    · rw [hbegun.grown]
      exact List.getElem?_append_left (List.getElem?_eq_some_iff.mp h).1 ▸ h
    · -- the command that is replaced is open, so it is not this one
      obtain ⟨before, hbefore, hopen⟩ := lastOpen_some hcontinued.opened
      rw [hbefore] at h
      rw [hcontinued.replaced, replaceLast, hbefore, List.dropLast_concat]
      rcases Nat.lt_or_ge i before.length with hi | hi
      · rwa [List.getElem?_append_left hi] at h ⊢
      · rw [List.getElem?_append_right hi] at h
        cases List.mem_singleton.mp (List.mem_of_getElem? h)
        exact absurd hc (by simp [hopen])
  · exact h

theorem getElem?_after (h : s.commands[i]? = some c) (hc : c.completed = true) (offers : List Offer) :
    (s.after schema offers).commands[i]? = some c :=
  List.foldlRecOn (motive := fun s : Script => s.commands[i]? = some c) offers _ h fun _ h o _ => getElem?_offer h hc o

theorem Tailed.completed_of_open (h : s.Tailed) (hopen : s.lastOpen = some tail) :
    s.completed = s.commands.dropLast := by
  obtain ⟨before, hbefore, htail⟩ := lastOpen_some hopen
  rw [Tailed, hbefore, List.dropLast_concat] at h
  rw [completed, hbefore, List.dropLast_concat, List.filter_append, List.filter_eq_self.mpr h,
    List.filter_cons_of_neg (by simp [htail]), List.filter_nil, List.append_nil]

theorem Tailed.completed_cases (h : s.Tailed) : s.completed = s.commands ∨ s.completed = s.commands.dropLast := by
  cases hopen : s.lastOpen with
  | none => exact .inl (List.filter_eq_self.mpr (h.all_complete hopen))
  | some tail => exact .inr (h.completed_of_open hopen)

theorem Tailed.close_ok_iff (h : s.Tailed) : s.close = .ok () ↔ s.completed = s.commands := by
  rw [Script.close_ok_iff]
  constructor
  · exact fun hopen => List.filter_eq_self.mpr (h.all_complete hopen)
  · intro hall
    refine Option.eq_none_iff_forall_ne_some.mpr fun tail hopen => ?_
    obtain ⟨before, hbefore, htail⟩ := lastOpen_some hopen
    have hmem : tail ∈ s.commands := hbefore ▸ List.mem_concat_self
    exact absurd (List.filter_eq_self.mp hall tail hmem) (by simp [htail])

end Script

/-- A script whose commands are kept in place, each with the line that began it. -/
structure Draft where
  commands : List (Origin × Gathering)

namespace Draft

def empty : Draft :=
  ⟨[]⟩

def lastOpen (d : Draft) : Option (Origin × Gathering) :=
  d.commands.getLast?.filter (!·.2.completed)

/-- Takes in an offer. What the open command is afterwards takes its place even if the fields are refused. -/
def add (schema : Schema) (d : Draft) (o : Offer) : Draft × Option ScriptError :=
  match d.lastOpen with
  | some (origin, g) =>
    if o.misses g.call then (d, some (.stillMissing g.call.name g.missing))
    else
      let (g, refusal) := g.contribute o.fields
      (⟨d.commands.dropLast ++ [(origin, g)]⟩, refusal.map .command)
  | none => match o.call with
    | none => (d, some .noOpenCommand)
    | some name => match schema.call? name with
      | none => (d, some (.unknownCall name))
      | some call => match Gathering.begin call o.scope o.fields with
        | .ok g => (⟨d.commands ++ [(o.origin, g)]⟩, none)
        | .error e => (d, some (.command e))

def after (schema : Schema) (d : Draft) (offers : List Offer) : Draft :=
  offers.foldl (fun d o => (d.add schema o).1) d

end Draft

namespace Command

theorem gathered_missing (c : Command) : c.gathered.missing = c.missing :=
  (missing_eq c).symm

theorem offer_origin (c : Command) (fields : List Field) : (c.offer fields).1.origin = c.origin := by
  rcases offer_cases c fields with ⟨hoffer, -⟩ | ⟨e, -, hoffer⟩ <;> rw [hoffer]
  rfl

end Command

namespace Script

variable {schema : Schema} {s : Script} {tail : Command}

def drafted (s : Script) : Draft :=
  ⟨s.commands.map fun c => (c.origin, c.gathered)⟩

theorem lastOpen_drafted (s : Script) : s.drafted.lastOpen = s.lastOpen.map fun c => (c.origin, c.gathered) := by
  rw [Draft.lastOpen, drafted, List.getLast?_map, Option.filter_map]
  rfl

theorem drafted_append (s : Script) (c : Command) :
    (s.append c).drafted = ⟨s.drafted.commands ++ [(c.origin, c.gathered)]⟩ :=
  congrArg Draft.mk List.map_append

theorem drafted_replaceLast (s : Script) (c : Command) :
    (s.replaceLast c).drafted = ⟨s.drafted.commands.dropLast ++ [(c.origin, c.gathered)]⟩ := by
  rw [drafted, replaceLast, List.map_append, List.map_dropLast]
  rfl

theorem mem_of_lastOpen (h : s.lastOpen = some tail) : tail ∈ s.commands :=
  List.mem_of_getLast? (Option.filter_eq_some_iff.mp h).1

theorem replaceLast_lastOpen (h : s.lastOpen = some tail) : s.replaceLast tail = s := by
  obtain ⟨before, hbefore, -⟩ := lastOpen_some h
  rw [replaceLast, hbefore, List.dropLast_concat, ← hbefore]

theorem offer_of_open (h : s.lastOpen = some tail) (o : Offer) : s.offer schema o =
    if o.misses tail.call then (s, some (.stillMissing tail.call.name tail.missing))
    else (s.replaceLast (tail.offer o.fields).1, (tail.offer o.fields).2.map .command) := by
  simp only [offer, take, add, h]
  rw [show o.call.any (· ≠ tail.call.name) = o.misses tail.call from rfl]
  cases o.misses tail.call with
  | true => rfl
  | false =>
      rw [if_neg Bool.false_ne_true, if_neg Bool.false_ne_true]
      rcases Command.offer_cases tail o.fields with ⟨hoffer, hopen, htakes⟩ | ⟨e, hrefused, hoffer⟩
      · rw [hoffer, Command.contribute_ok_iff.mpr ⟨hopen, htakes, rfl⟩]
        rfl
      · rw [hoffer, hrefused, replaceLast_lastOpen h]
        rfl

theorem offer_of_closed (h : s.lastOpen = none) (o : Offer) : s.offer schema o = match o.call with
    | none => (s, some .noOpenCommand)
    | some name => match schema.call? name with
      | none => (s, some (.unknownCall name))
      | some call => match Command.begin call o.scope o.fields o.origin with
        | .ok c => (s.append c, none)
        | .error e => (s, some (.command e)) := by
  simp only [offer, take, add, h]
  cases o.call with
  | none => rfl
  | some name =>
      cases hcall : schema.call? name with
      | none => simp [hcall]
      | some call =>
          simp only [hcall]
          cases Command.begin call o.scope o.fields o.origin <;> rfl

theorem add_drafted (h : ∀ c ∈ s.commands, c.Tabled) (o : Offer) :
    s.drafted.add schema o = ((s.offer schema o).1.drafted, (s.offer schema o).2) := by
  rw [Draft.add, lastOpen_drafted]
  cases hopen : s.lastOpen with
  | some tail =>
      have htail : tail.Tabled := h tail (mem_of_lastOpen hopen)
      rw [offer_of_open hopen]
      simp only [Option.map_some, show tail.gathered.call = tail.call from rfl, Command.contribute_gathered htail]
      cases o.misses tail.call with
      | true =>
          rw [if_pos rfl, if_pos rfl, ← Command.gathered_missing tail]
      | false =>
          rw [if_neg Bool.false_ne_true, if_neg Bool.false_ne_true, drafted_replaceLast, Command.offer_origin]
  | none =>
      rw [offer_of_closed hopen]
      cases o.call with
      | none => rfl
      | some name =>
          cases hcall : schema.call? name with
          | none => simp [hcall]
          | some call =>
              simp only [Option.map_none, hcall, Command.begin_gathered call o.scope o.fields o.origin]
              cases hbegin : Command.begin call o.scope o.fields o.origin with
              | error e => rfl
              | ok c =>
                  obtain ⟨-, rfl⟩ := Command.begin_ok_iff.mp hbegin
                  rw [drafted_append]
                  rfl

theorem tabled_offer (h : ∀ c ∈ s.commands, c.Tabled) (o : Offer) : ∀ c ∈ (s.offer schema o).1.commands, c.Tabled := by
  rcases offer_cases schema s o with ⟨s', c, htake, hoffer⟩ | ⟨e, -, hoffer⟩ <;> rw [hoffer]
  · rcases add_ok htake with ⟨tail, hopen, -, hc, rfl⟩ | ⟨-, _, k, -, -, hc, rfl⟩
    · obtain ⟨-, htakes, rfl⟩ := Command.contribute_ok_iff.mp hc
      have htail : tail.Tabled := h tail (mem_of_lastOpen hopen)
      refine List.forall_mem_append.mpr ⟨fun c hmem => h c (List.dropLast_subset _ hmem), ?_⟩
      exact List.forall_mem_singleton.mpr (htail.given htakes.params)
    · exact List.forall_mem_append.mpr ⟨h, List.forall_mem_singleton.mpr (Command.begin_tabled hc)⟩
  · exact h

theorem tabled_after (h : ∀ c ∈ s.commands, c.Tabled) (offers : List Offer) :
    ∀ c ∈ (s.after schema offers).commands, c.Tabled :=
  List.foldlRecOn (motive := fun s : Script => ∀ c ∈ s.commands, c.Tabled) offers _ h fun _ h o _ => tabled_offer h o

theorem after_drafted (h : ∀ c ∈ s.commands, c.Tabled) (offers : List Offer) :
    s.drafted.after schema offers = (s.after schema offers).drafted := by
  induction offers generalizing s with
  | nil => rfl
  | cons o rest ih =>
      rw [Draft.after, List.foldl_cons, add_drafted h]
      exact ih (tabled_offer h o)

/-- What holds of a script at any time, and of the draft that was offered the same. -/
structure AppendOnly (schema : Schema) (s : Script) (d : Draft) : Prop where
  tailed : s.Tailed
  kept : ∀ (i : Nat) c, s.commands[i]? = some c → c.completed = true →
    ∀ offers, (s.after schema offers).commands[i]? = some c
  taken : ∀ o s' c, s.take schema o = .ok (s', c) → Begun schema o s s' c ∨ ∃ tail, Continued o s s' tail c
  unchanged : ∀ o e, (d.add schema o).2 = some e → (d.add schema o).1 = d
  reports : ∀ o, (d.add schema o).2 = (s.offer schema o).2
  drafted : ∀ offers, d.after schema offers = (s.after schema offers).drafted
  replayed : s.completed = s.commands ∨ s.completed = s.commands.dropLast
  closes : s.close = .ok () ↔ s.completed = s.commands

/-- Whatever was offered to a script, taken or not, all its commands but the last are complete and stay as they are. -/
theorem after_appendOnly (schema : Schema) (offers : List Offer) :
    (empty.after schema offers).AppendOnly schema (Draft.empty.after schema offers) := by
  have htailed : (empty.after schema offers).Tailed := Tailed.after (s := empty) nofun offers
  have htabled : ∀ c ∈ (empty.after schema offers).commands, c.Tabled := tabled_after (s := empty) nofun offers
  have hdraft : Draft.empty.after schema offers = (empty.after schema offers).drafted :=
    after_drafted (s := empty) nofun offers
  rw [hdraft]
  refine ⟨htailed, fun _ _ => getElem?_after, fun _ _ _ => take_cases, fun o e he => ?_, fun o => ?_,
    after_drafted htabled, htailed.completed_cases, htailed.close_ok_iff⟩
  · rw [add_drafted htabled] at he ⊢
    rcases offer_cases schema (empty.after schema offers) o with ⟨_, _, -, hoffer⟩ | ⟨_, -, hoffer⟩
    · rw [hoffer] at he
      cases he
    · rw [hoffer]
  · rw [add_drafted htabled]

/-- A class begun with its alias, two offers that are refused, the name of the class, and another class. -/
example : ((empty.after Schema.standard [⟨some "new_class", Command.airField, [Command.pilotAlias], Command.pilotOrigin⟩,
    ⟨some "new_attr", none, [], Command.pilotOrigin⟩, ⟨none, none, [Command.pilotAlias], Command.pilotOrigin⟩,
    ⟨none, none, [Command.pilotName], Command.pilotOrigin⟩,
    ⟨some "new_class", none, [Command.pilotName], Command.pilotOrigin⟩]).commands.map (·.completed)) =
      [true, false] := by
  decide +kernel

end Script

end Population
