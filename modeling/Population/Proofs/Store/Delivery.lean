import Population.Proofs.Pairing
import Population.Store.Remote

namespace Population

/-- The form that a value has in a request. -/
def Value.SentAs (v : Value) (j : Json) : Prop :=
  ∃ n, v.native = .ok n ∧ Json.ofNative n = .ok j

/-- A command as a request lists it, with a value at the place of each parameter. -/
def Command.ListedAs (c : Command) (item : Json) : Prop :=
  ∃ values, List.Forall₂ (fun (f : Field) j => f.value.SentAs j) c.arguments values ∧
    item = .object [("call", .text c.call.name), ("params", RemoteStore.payloadNames c.params), ("values", .array values)]

def Command.Sendable (c : Command) : Prop :=
  ∀ f ∈ c.arguments, ∃ j, f.value.SentAs j

theorem Command.map_name_arguments (c : Command) : c.arguments.map (·.name) = c.params := by
  rw [arguments, params]
  split <;> rfl

theorem Command.argument_ok_iff {c : Command} {f : Field} {a : Argument} :
    c.argument f = .ok a ↔ a.name = f.name ∧ f.value.native = .ok a.value := by
  rw [argument]
  cases f.value.native with
  | error e => simp
  | ok value =>
      obtain ⟨name, native⟩ := a
      simp [eq_comm]

theorem Store.commitAll_store {σ τ : Type} (b : Store σ τ) (commands : List Command) (r : Replay σ τ) :
    (b.commitAll commands r).store = (b.commit r.store r.tx).store := by
  simp only [commitAll]
  cases (b.commit r.store r.tx).error <;> rfl

theorem Store.commitAll_fault {σ τ : Type} (b : Store σ τ) (commands : List Command) (r : Replay σ τ) :
    (b.commitAll commands r).fault = (b.commit r.store r.tx).error.map (commitFault commands) := by
  simp only [commitAll]
  cases (b.commit r.store r.tx).error <;> rfl

namespace RemoteStore

variable {c : Command} {commands : List Command} {fields : List Field} {arguments : List Argument} {values : List Json}

theorem names_of_arguments (h : List.Forall₂ (fun f a => c.argument f = .ok a) fields arguments) :
    arguments.map (·.name) = fields.map (·.name) := by
  induction h with
  | nil => rfl
  | cons hf _ ih => rw [List.map_cons, List.map_cons, ih, (Command.argument_ok_iff.mp hf).1]

theorem sent_iff : (∃ arguments : List Argument, List.Forall₂ (fun f a => c.argument f = .ok a) fields arguments ∧
      List.Forall₂ (fun (a : Argument) j => Json.ofNative a.value = .ok j) arguments values) ↔
    List.Forall₂ (fun (f : Field) j => f.value.SentAs j) fields values := by
  constructor
  · rintro ⟨arguments, hfields, hvalues⟩
    induction hfields generalizing values with
    | nil =>
        cases hvalues
        exact .nil
    | cons hf _ ih =>
        cases hvalues with
        | cons hj hrest => exact .cons ⟨_, (Command.argument_ok_iff.mp hf).2, hj⟩ (ih hrest)
  · intro h
    induction h with
    | nil => exact ⟨[], .nil, .nil⟩
    | @cons f j _ _ hf _ ih =>
        obtain ⟨n, hn, hj⟩ := hf
        obtain ⟨arguments, hfields, hvalues⟩ := ih
        exact ⟨⟨f.name, n⟩ :: arguments, .cons (Command.argument_ok_iff.mpr ⟨rfl, hn⟩) hfields, .cons hj hvalues⟩

theorem listedAs_iff {item : Json} :
    c.ListedAs item ↔ ∃ arguments, c.natives = .ok arguments ∧ payloadCommand c arguments = .ok item := by
  constructor
  · rintro ⟨values, hvalues, rfl⟩
    obtain ⟨arguments, hfields, hvalues⟩ := (sent_iff (c := c)).mpr hvalues
    refine ⟨arguments, mapM_ok_iff.mpr hfields, bind_ok_iff.mpr ⟨values, mapM_ok_iff.mpr hvalues, ?_⟩⟩
    rw [names_of_arguments hfields, Command.map_name_arguments]
    rfl
  · rintro ⟨arguments, hnatives, hitem⟩
    have hfields := mapM_ok_iff.mp hnatives
    obtain ⟨values, hvalues, hitem⟩ := bind_ok_iff.mp hitem
    refine ⟨values, sent_iff.mp ⟨arguments, hfields, mapM_ok_iff.mp hvalues⟩, ?_⟩
    rw [← pure_ok_iff.mp hitem, names_of_arguments hfields, Command.map_name_arguments]

/-- The payload of a request that lists commands. -/
def Lists (runId : Text) (commands : List Command) (payload : Text) : Prop :=
  ∃ items, List.Forall₂ Command.ListedAs commands items ∧
    payload = Json.toText Json.webSafe (.object [("run_id", .text runId), ("commands", .array items)])

theorem listed_iff {items : List Json} : List.Forall₂ Command.ListedAs commands items ↔
    ∃ arguments, List.Forall₂ (fun c as => Command.natives c = .ok as) commands arguments ∧
      List.Forall₂ (fun (x : Command × List Argument) item => payloadCommand x.1 x.2 = .ok item)
        (commands.zip arguments) items := by
  constructor
  · intro h
    induction h with
    | nil => exact ⟨[], .nil, .nil⟩
    | cons hc _ ih =>
        obtain ⟨as, has, hitem⟩ := listedAs_iff.mp hc
        obtain ⟨arguments, hnatives, hitems⟩ := ih
        exact ⟨as :: arguments, .cons has hnatives, .cons hitem hitems⟩
  · rintro ⟨arguments, hnatives, hitems⟩
    induction hnatives generalizing items with
    | nil =>
        cases hitems
        exact .nil
    | cons has _ ih =>
        cases hitems with
        | cons hitem hrest => exact .cons (listedAs_iff.mpr ⟨_, has, hitem⟩) (ih hrest)

theorem payload_ok_iff {runId payload : Text} :
    RemoteStore.payload runId commands = .ok payload ↔ Lists runId commands payload := by
  have hnatives {arguments : List (List Argument)} :
      (commands.mapM fun c => c.natives.mapError StoreError.param) = .ok arguments ↔
        List.Forall₂ (fun c as => Command.natives c = .ok as) commands arguments := by
    rw [mapM_ok_iff]
    simp only [mapError_ok_iff]
  constructor
  · intro h
    obtain ⟨arguments, has, h⟩ := bind_ok_iff.mp h
    obtain ⟨items, hitems, h⟩ := bind_ok_iff.mp h
    refine ⟨items, listed_iff.mpr ⟨arguments, hnatives.mp has, mapM_ok_iff.mp hitems⟩, ?_⟩
    exact (pure_ok_iff.mp h).symm
  · rintro ⟨items, hitems, rfl⟩
    obtain ⟨arguments, has, hitems⟩ := listed_iff.mp hitems
    apply bind_ok_iff.mpr
    refine ⟨arguments, hnatives.mpr has, bind_ok_iff.mpr ⟨items, mapM_ok_iff.mpr hitems, rfl⟩⟩

theorem exists_lists_iff {runId : Text} : (∃ payload, Lists runId commands payload) ↔ ∀ c ∈ commands, c.Sendable := by
  have hitem (c : Command) : (∃ item, c.ListedAs item) ↔ c.Sendable := by
    rw [Command.Sendable, ← exists_partners_iff]
    constructor
    · rintro ⟨item, values, hvalues, -⟩
      exact ⟨values, hvalues⟩
    · rintro ⟨values, hvalues⟩
      exact ⟨_, values, hvalues, rfl⟩
  simp only [← hitem, ← exists_partners_iff]
  constructor
  · rintro ⟨payload, items, hitems, -⟩
    exact ⟨items, hitems⟩
  · rintro ⟨items, hitems⟩
    exact ⟨_, items, hitems, rfl⟩

/-- A transaction takes every complete command; nothing is sent before it is committed. -/
theorem replay_gathers (s : RemoteStore) (hc : ∀ c ∈ commands, c.completed = true) (gathered : List Command)
    (index : Nat) : ∃ log, store.replay s ⟨gathered, false⟩ index commands =
      ⟨s, ⟨commands.reverse ++ gathered, false⟩, log, none⟩ := by
  induction commands generalizing gathered index with
  | nil => exact ⟨[], rfl⟩
  | cons c rest ih =>
      obtain ⟨hhead, hrest⟩ := List.forall_mem_cons.mp hc
      have hstep : store.exec s ⟨gathered, false⟩ c = ⟨s, ⟨c :: gathered, false⟩, [], none⟩ := by
        simp [store, exec, hhead]
      obtain ⟨log, hreplay⟩ := ih hrest (c :: gathered) (index + 1)
      refine ⟨Store.executed index c :: log, ?_⟩
      simp only [Store.replay, hstep, hreplay, List.reverse_cons, List.append_assoc, List.cons_append, List.nil_append]

def Replies (s : RemoteStore) (request : RemoteRequest) (reply : Reply) : Prop :=
  ∃ answer, s.answer request = .ok answer ∧ Reply.parse? answer = some reply

def Blames (commands : List Command) (reply : Reply) (c : Command) : Prop :=
  reply.ok = false ∧ 0 ≤ reply.index ∧ commands[reply.index.toNat]? = some c

/-- How a request for commands can turn out, and the fault that is returned then. -/
inductive Settled (s : RemoteStore) (commands : List Command) (request : RemoteRequest) : Option Fault → Prop
  | accepted {reply : Reply} (hreply : s.Replies request reply) (hok : reply.ok = true) : Settled s commands request none
  | blamed {reply : Reply} {c : Command} (hreply : s.Replies request reply) (hblames : Blames commands reply c) :
      Settled s commands request (some (Store.commandFault c reply.error))
  | failed (cause : Text)
      (hnone : ∀ reply, s.Replies request reply → reply.ok = false ∧ ∀ c, ¬ Blames commands reply c) :
      Settled s commands request (some (.causedBy .execution "commit failed" cause))

theorem Replies.unique {s : RemoteStore} {request : RemoteRequest} {reply reply' : Reply} (h : s.Replies request reply)
    (h' : s.Replies request reply') : reply = reply' := by
  obtain ⟨answer, hanswer, hreply⟩ := h
  obtain ⟨answer', hanswer', hreply'⟩ := h'
  cases hanswer.symm.trans hanswer'
  exact Option.some.inj (hreply.symm.trans hreply')

theorem outcome_settled {s : RemoteStore} {request : RemoteRequest} {reply : Reply} (h : s.Replies request reply) :
    Settled s commands request ((outcome commands reply).map (Store.commitFault commands)) := by
  rw [outcome]
  by_cases hok : reply.ok = true
  · rw [if_pos hok]
    exact .accepted h hok
  · have hno : reply.ok = false := by simpa using hok
    rw [if_neg hok]
    -- a negative position, and one behind the last command, blames none
    by_cases hindex : reply.index < 0
    · rw [if_pos hindex]
      refine .failed _ fun reply' h' => ?_
      cases h.unique h'
      refine ⟨hno, fun c hc => ?_⟩
      exact absurd hc.2.1 (by omega)
    · rw [if_neg hindex]
      cases hc : commands[reply.index.toNat]? with
      | none =>
          refine .failed _ fun reply' h' => ?_
          cases h.unique h'
          refine ⟨hno, fun c hblames => ?_⟩
          rw [hblames.2.2] at hc
          cases hc
      | some c =>
          have hfault : Store.commitFault commands (.command ⟨reply.index.toNat, c.call.name, reply.error⟩) =
              Store.commandFault c reply.error := by
            simp [Store.commitFault, StoreError.commandFailure?, hc]
          simp only [Option.map_some, hfault]
          exact .blamed h ⟨hno, by omega, hc⟩

theorem answered_settled (s : RemoteStore) (commands : List Command) (request : RemoteRequest) :
    Settled s commands request ((s.answered commands request).map (Store.commitFault commands)) := by
  rw [answered]
  cases hanswer : s.answer request with
  | error cause =>
      refine .failed _ ?_
      rintro reply ⟨answer, hreply, -⟩
      rw [hreply] at hanswer
      cases hanswer
  | ok answer =>
      simp only
      cases hreply : Reply.parse? answer with
      | none =>
          refine .failed _ ?_
          rintro reply ⟨answer', hanswer', hreply'⟩
          cases hanswer.symm.trans hanswer'
          rw [hreply'] at hreply
          cases hreply
      | some reply => exact outcome_settled ⟨answer, hanswer, hreply⟩

theorem ofNative_error {n : Native} {e : StoreError} (h : Json.ofNative n = .error e) : e.commandFailure? = none := by
  have hdouble {d : Double} (h : Json.ofDouble d = .error e) : e.commandFailure? = none := by
    rw [Json.ofDouble] at h
    split at h
    next =>
        cases h
        rfl
    next => cases h
  cases n with
  | float d => exact hdouble h
  | floats ds =>
      obtain ⟨d, -, hd⟩ := mapM_error (map_error_iff.mp h)
      exact hdouble hd
  | _ => cases h

theorem payload_error {runId : Text} {e : StoreError} (h : payload runId commands = .error e) :
    e.commandFailure? = none := by
  rcases bind_error_iff.mp h with h | ⟨arguments, -, h⟩
  · obtain ⟨c, -, hc⟩ := mapM_error h
    obtain ⟨e', -, rfl⟩ := mapError_error_iff.mp hc
    rfl
  rcases bind_error_iff.mp h with h | ⟨items, -, h⟩
  · obtain ⟨⟨c, as⟩, -, hc⟩ := mapM_error h
    rcases bind_error_iff.mp hc with hc | ⟨values, -, hc⟩
    · obtain ⟨a, -, ha⟩ := mapM_error hc
      exact ofNative_error ha
    · exact absurd hc pure_ne_error
  · exact absurd h pure_ne_error

/-- How a transaction over commands can end: what has been sent by then, and the fault that is returned. -/
inductive Delivered (s : RemoteStore) (commands : List Command) : List RemoteRequest → Option Fault → Prop
  | unsent (cause : Text) (hnot : ¬ ∀ c ∈ commands, c.Sendable) :
      Delivered s commands s.sent (some (.causedBy .execution "commit failed" cause))
  | sent {payload : Text} {fault : Option Fault} (hlists : Lists s.options.runId commands payload)
      (hsettled : Settled s commands ⟨s.options.subject, payload⟩ fault) :
      Delivered s commands (⟨s.options.subject, payload⟩ :: s.sent) fault

theorem commit_delivered (s : RemoteStore) (commands : List Command) :
    Delivered s commands (s.commit ⟨commands.reverse, false⟩).store.sent
      ((s.commit ⟨commands.reverse, false⟩).error.map (Store.commitFault commands)) := by
  simp only [commit, Bool.false_eq_true, if_false, List.reverse_reverse]
  cases hpayload : payload s.options.runId commands with
  | error e =>
      have hfault : Store.commitFault commands e = .causedBy .execution "commit failed" e.message := by
        rw [Store.commitFault, payload_error hpayload]
      simp only [Option.map_some, hfault]
      refine .unsent _ fun hsendable => ?_
      obtain ⟨payload, hlists⟩ : ∃ payload, Lists s.options.runId commands payload := exists_lists_iff.mpr hsendable
      rw [payload_ok_iff.mpr hlists] at hpayload
      cases hpayload
  | ok payload => exact .sent (payload_ok_iff.mp hpayload) (s.answered_settled commands _)

/-- A script is handed over as a whole once it has compiled; what was begun for one that has not is taken back. -/
theorem execute_delivered (s : RemoteStore) (script : Script) (compileFault : Option Fault) :
    (∃ g, compileFault = some g ∧ (store.execute s script compileFault).store.sent = s.sent ∧
      (store.execute s script compileFault).fault = some g) ∨
    (compileFault = none ∧ Delivered s script.completed (store.execute s script compileFault).store.sent
      (store.execute s script compileFault).fault) := by
  have hcompleted : ∀ c ∈ script.completed, c.completed = true := fun c hc => (List.mem_filter.mp hc).2
  obtain ⟨log, hreplay⟩ := s.replay_gathers hcompleted [] 0
  rw [List.append_nil] at hreplay
  simp only [Store.execute, show store.begin s = (s, .ok ⟨[], false⟩) from rfl, hreplay]
  cases compileFault with
  | some g =>
      refine .inl ⟨g, rfl, ?_⟩
      simp [Store.conclude, Store.takeBack, store, rollback]
  | none =>
      refine .inr ⟨rfl, ?_⟩
      simp only [Store.conclude, Store.commitAll_store, Store.commitAll_fault]
      exact s.commit_delivered script.completed

theorem Settled.reports {s : RemoteStore} {request : RemoteRequest} {fault : Option Fault}
    (h : Settled s commands request fault) :
    (fault = none ↔ ∃ reply, s.Replies request reply ∧ reply.ok = true) ∧
      (∀ reply c, s.Replies request reply → Blames commands reply c → fault = some (Store.commandFault c reply.error)) ∧
      (∀ g, fault = some g → (∃ cause, g = .causedBy .execution "commit failed" cause) ∨
        ∃ reply c, s.Replies request reply ∧ Blames commands reply c) := by
  cases h with
  | @accepted reply hreply hok =>
      refine ⟨⟨fun _ => ⟨reply, hreply, hok⟩, fun _ => rfl⟩, fun reply' c hreply' hblames => ?_, nofun⟩
      rw [hreply.unique hreply', hblames.1] at hok
      cases hok
  | @blamed reply c hreply hblames =>
      refine ⟨⟨nofun, fun ⟨reply', hreply', hok⟩ => ?_⟩, fun reply' c' hreply' hblames' => ?_, fun g _ => ?_⟩
      · rw [← hreply.unique hreply', hblames.1] at hok
        cases hok
      · cases hreply.unique hreply'
        cases hblames.2.2.symm.trans hblames'.2.2
        rfl
      · exact .inr ⟨reply, c, hreply, hblames⟩
  | failed cause hnone =>
      refine ⟨⟨nofun, fun ⟨reply, hreply, hok⟩ => ?_⟩, fun reply c hreply hblames => ?_, fun g hg => ?_⟩
      · rw [(hnone reply hreply).1] at hok
        cases hok
      · exact absurd hblames ((hnone reply hreply).2 c)
      · exact .inl ⟨cause, (Option.some.inj hg).symm⟩

/-- A script is sent to the executor in one request or not at all, and what is returned is what the reply says: no fault
if it accepts the script, a fault at the line of the command that it blames, and else one without a place. -/
theorem execute_sends_once (s : RemoteStore) (script : Script) (compileFault : Option Fault) :
    ∃ run, store.execute s script compileFault = run ∧
      (run.store.sent = s.sent ∨ ∃ request, run.store.sent = request :: s.sent) ∧
      ((∃ request, run.store.sent = request :: s.sent) ↔ compileFault = none ∧ ∀ c ∈ script.completed, c.Sendable) ∧
      (∀ request, run.store.sent = request :: s.sent →
        request.subject = s.options.subject ∧ Lists s.options.runId script.completed request.payload) ∧
      (∀ g, compileFault = some g → run.fault = some g) ∧
      (compileFault = none →
        (run.fault = none ↔
          ∃ request reply, run.store.sent = request :: s.sent ∧ s.Replies request reply ∧ reply.ok = true) ∧
        (∀ request reply c, run.store.sent = request :: s.sent → s.Replies request reply →
          Blames script.completed reply c → ∃ g, run.fault = some g ∧ g.kind = .execution ∧ g.file = c.origin.file ∧
            g.line = c.origin.line ∧ g.text = c.origin.text ∧ g.cause = some reply.error) ∧
        (∀ g, run.fault = some g →
          (¬ ∃ request reply c, run.store.sent = request :: s.sent ∧ s.Replies request reply ∧
            Blames script.completed reply c) →
          g.kind = .execution ∧ g.file = [] ∧ g.line = 0 ∧ g.text = [])) := by
  refine ⟨_, rfl, ?_⟩
  rcases s.execute_delivered script compileFault with ⟨g, rfl, hsent, hfault⟩ | ⟨rfl, hdelivered⟩
  · rw [hsent, hfault]
    simp
  · generalize (store.execute s script none).store.sent = sent, (store.execute s script none).fault = fault at hdelivered
    cases hdelivered with
    | unsent cause hnot =>
        -- what was sent before is not one request more of itself
        have hnone (request : RemoteRequest) : s.sent ≠ request :: s.sent := (List.cons_ne_self request s.sent).symm
        refine ⟨.inl rfl, ⟨fun ⟨request, h⟩ => absurd h (hnone request), fun h => absurd h.2 hnot⟩,
          fun request h => absurd h (hnone request), nofun, fun _ => ⟨⟨nofun, ?_⟩, ?_, ?_⟩⟩
        · rintro ⟨request, reply, h, -⟩
          exact absurd h (hnone request)
        · intro request reply c h
          exact absurd h (hnone request)
        · intro g hg _
          cases hg
          exact ⟨rfl, rfl, rfl, rfl⟩
    | @sent payload _ hlists hsettled =>
        -- from here on the only request is the one that was sent, so each part is about its reply
        obtain ⟨hdone, hblamed, hother⟩ := hsettled.reports
        have hsendable := exists_lists_iff.mp ⟨payload, hlists⟩
        refine ⟨.inr ⟨_, rfl⟩, ⟨fun _ => ⟨rfl, hsendable⟩, fun _ => ⟨_, rfl⟩⟩, ?_, nofun, fun _ => ⟨?_, ?_, ?_⟩⟩
        · intro request hrequest
          cases hrequest
          exact ⟨rfl, hlists⟩
        · rw [hdone]
          constructor
          · rintro ⟨reply, hreply⟩
            exact ⟨_, reply, rfl, hreply⟩
          · rintro ⟨request, reply, hrequest, hreply⟩
            cases hrequest
            exact ⟨reply, hreply⟩
        · intro request reply c hrequest hreply hblames
          cases hrequest
          exact ⟨_, hblamed reply c hreply hblames, rfl, rfl, rfl, rfl, rfl⟩
        · intro g hg hnot
          rcases hother g hg with ⟨cause, rfl⟩ | ⟨reply, c, hreply, hblames⟩
          · exact ⟨rfl, rfl, rfl, rfl⟩
          · exact absurd ⟨_, reply, c, rfl, hreply, hblames⟩ hnot

end RemoteStore

end Population
