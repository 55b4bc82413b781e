import Yonaa.Accepting
import Yonaa.Codes
import Yonaa.Registry

/-! Invariants of the history, `ec_` and `errno` over whole runs of the network thread. An
invariant is checked against single events and single calls; that every function of
server.cpp keeps it is shown once. -/
namespace Yonaa
open Prog

def Event.gains : Event → Bool
  | .callback (.connect _) | .callback (.dataReceive _ _) => true
  | _ => false

/-- An event that is neither a system call nor a gain. -/
def Event.isNote : Event → Bool
  | .sys _ => false
  | e => !e.gains

/-- A call that the server makes: on a descriptor that is not 0, for a receive buffer of the
size the server uses, and without a flag but MSG_NOSIGNAL. -/
def SysCall.isPlain : SysCall → Prop
  | .poll _ _ => True
  | .accept fd _ => fd ≠ 0
  | .send fd offered flags _ => fd ≠ 0 ∧ offered ≠ [] ∧ flags = MSG_NOSIGNAL
  | .recv fd size flags n data => fd ≠ 0 ∧ size = Connection.maxBufferSize ∧ flags = 0 ∧
    data.length ≤ size ∧ (n = data.length ∨ (n = -1 ∧ data = []))
  | .close fd => fd ≠ 0

/-- I of the history, `ec_` and `errno` is kept by every event and by every function of the
library that reports through `ec_`. -/
structure Recorded (I : List Observation → ErrorCode → Int → Prop) : Prop where
  note : ∀ {log ec n e} (p : Process), e.isNote = true → I log ec n → I (log++[⟨e,p⟩]) ec n
  gain : ∀ {log n e} (p : Process), e.gains = true → I log .clear n → I (log++[⟨e,p⟩]) .clear n
  calls : ∀ {log ec n calls ec' n'} (p : Process), p.kernel.errno = n → I log ec n →
    (∀ c ∈ calls, c.isPlain) → (n ≠ 0 → n' ≠ 0) → (∀ c ∈ calls, c.fails = true → n' ≠ 0) →
    Told ec n calls ec' → I (log++calls.map fun c => ⟨.sys c,p⟩) ec' n'

namespace Server
open Net Sys

/-- I of a world, with the code ec in the place of `ec_`. -/
def With (I : List Observation → ErrorCode → Int → Prop) (ec : ErrorCode) (w : World) : Prop :=
  I w.log ec w.kernel.errno

def Now (I : List Observation → ErrorCode → Int → Prop) (w : World) : Prop := With I w.server.ec w

def Ended (I : List Observation → ErrorCode → Int → Prop) (_ : Halt) (w : World) : Prop :=
  ∃ ec, With I ec w

section Recorded
variable {α : Type} {I : List Observation → ErrorCode → Int → Prop} (hI : Recorded I)

/-- The program keeps I. -/
abbrev Records (I : List Observation → ErrorCode → Int → Prop) (m : Net α) : Prop :=
  Triple (Now I) m (fun _ => Now I) (Ended I)

theorem Records.pure (a : α) : Records I (Pure.pure a) := Triple.pure fun _ h => h

theorem Records.stop (e : Halt) : Records I (Prog.stop e : Net α) :=
  Triple.stop fun _ h => ⟨_,h⟩

theorem records_setServer {f : Server → Server} (hf : ∀ s, (f s).ec = s.ec) :
    Records I (setServer f) :=
  Triple.modify fun w h => by
    change I w.log (f w.server).ec w.kernel.errno
    rw [hf]
    exact h

theorem Records.after {f : Server → Server} {k : Unit → Net α} (hf : ∀ s, (f s).ec = s.ec)
    (hk : Records I (k ())) : Records I (setServer f >>= k) :=
  (records_setServer hf).bind fun _ => hk

theorem records_setClient (i : Nat) (c : ClientInfo) : Records I (setClient i c) :=
  records_setServer fun _ => rfl

theorem records_setNextAvailableId (f : ClientId → ClientId) :
    Records I (setNextAvailableId f) := Triple.modify fun _ h => h

theorem records_server {P : World → Prop} {k : Server → Net α} {Q : α → World → Prop}
    {E : Halt → World → Prop} (h : ∀ s, Triple (fun w => P w ∧ w.server = s) (k s) Q E) :
    Triple P (server >>= k) Q E := fun w hw => h w.server w ⟨hw,rfl⟩

theorem records_server' {k : Server → Net α} (h : ∀ s, Records I (k s)) :
    Records I (server >>= k) := records_server fun s => (h s).weaken fun _ hw => hw.1

include hI

theorem records_emit {e : Event} (he : e.isNote = true) : Records I (emit e) :=
  Triple.modify fun w h => hI.note w.toProcess he h

def Plain (m : Sys α) (fine : SysCall → Prop) : Prop :=
  ∀ n, Keeps (Noted n fun c e => c.isPlain ∧ fine c ∧ (c.fails = true → e ≠ 0)) m

omit hI in
theorem lasting_plain (fine : SysCall → Prop) :
    Lasting fun c e => c.isPlain ∧ fine c ∧ (c.fails = true → e ≠ 0) :=
  fun _ _ _ h h0 => ⟨h.1,h.2.1,fun _ => h0.ne'⟩

theorem records_told {m : Sys α} {f : α → ErrorCode} {ec : ErrorCode}
    (hm : Plain m fun _ => True)
    (ht : ∀ s a s', s.calls = [] → m.run s = (.ok a, s') →
      Told ec s.kernel.errno s'.calls (f a)) :
    Triple (With I ec) (sys m) (fun a => With I (f a)) (Ended I) := by
  refine Triple.zoom fun w hw => ?_
  have hkeep := hm (w.kernel.errno ≠ 0) (sysPart w) ⟨id,fun c hc => by cases hc⟩
  have htold := ht (sysPart w)
  generalize m.run (sysPart w) = r at hkeep htold ⊢
  cases r with
  | mk r s => cases r with
    | ok a =>
      exact hI.calls w.toProcess rfl hw (fun c hc => (hkeep.2 c hc).1) hkeep.1
        (fun c hc => (hkeep.2 c hc).2.2) (htold a s rfl rfl)
    | error e =>
      exact ⟨.assign 1,hI.calls w.toProcess rfl hw (fun c hc => (hkeep.2 c hc).1) hkeep.1
        (fun c hc => (hkeep.2 c hc).2.2) (.set rfl)⟩

theorem records_sys {m : Sys α} (hm : Plain m fun c => c.fails = false ∧ c.ends = false) :
    Records I (sys m) := by
  refine Triple.zoom fun w hw => ?_
  have hkeep := hm (w.kernel.errno ≠ 0) (sysPart w) ⟨id,fun c hc => by cases hc⟩
  have hnow : ∀ s, Noted (w.kernel.errno ≠ 0) (fun c e => c.isPlain ∧
      (c.fails = false ∧ c.ends = false) ∧ (c.fails = true → e ≠ 0)) s → Now I (putSys w s) :=
    fun s hs => hI.calls w.toProcess rfl hw (fun c hc => (hs.2 c hc).1) hs.1
      (fun c hc => (hs.2 c hc).2.2) (.kept fun c hc => (hs.2 c hc).2.1)
  generalize m.run (sysPart w) = r at hkeep ⊢
  cases r with
  | mk r s => cases r with
    | ok a => exact hnow s hkeep
    | error e => exact ⟨_,hnow s hkeep⟩

omit hI in
theorem records_setEc (ec : ErrorCode) :
    Triple (With I ec) (setEc ec) (fun _ w => Now I w ∧ w.server.ec = ec) (Ended I) :=
  Triple.modify fun _ h => ⟨h,rfl⟩

omit hI in
theorem records_lookup (p : ClientInfo → Bool) : Records I (lookup p) :=
  records_server' fun s => by
    cases find p s.clients with
    | missing => exact Records.pure _
    | crash => exact Records.stop _
    | found i c => exact Records.pure _

omit hI in
theorem records_deref (i : Nat) : Records I (deref i) :=
  records_server' fun s => by
    cases s.clients[i]? with
    | none => exact Records.stop _
    | some e => cases e with
      | none => exact Records.stop _
      | some c => exact Records.pure c

theorem records_stop : Records I stop :=
  Records.after (fun _ => rfl) (records_emit hI rfl)

theorem records_loadRunning : Records I loadRunning := by
  have hnext : Records I nextStop := by
    intro w h
    unfold nextStop
    cases hs : w.stops with
    | nil =>
      simp only [hs]
      exact ⟨_,h⟩
    | cons b rest =>
      simp only [hs]
      exact h
  have hread : Records I (server >>= fun s => Pure.pure s.running) :=
    records_server' fun s => Records.pure s.running
  exact hnext.bind fun b => .ite (fun _ => (records_stop hI).bind fun _ => hread) fun _ => hread

theorem records_removeClient (id : ClientId) : Records I (removeClient id) := by
  refine (records_lookup _).bind fun x => ?_
  cases x with
  | none => exact Records.pure ()
  | some x =>
    refine (records_setClient _ _).bind fun _ => ?_
    exact Records.after (fun _ => rfl) (records_emit hI rfl)

omit hI in
theorem plain_disconnect (c : Connection) :
    Plain c.disconnect fun c => c.fails = false ∧ c.ends = false :=
  fun _ => Connection.keeps_disconnect (lasting_plain _) fun _ h0 =>
    ⟨h0,⟨rfl,rfl⟩,fun hf => by cases hf⟩

omit hI in
theorem plain_destroy (c : Connection) :
    Plain c.destroy fun c => c.fails = false ∧ c.ends = false :=
  fun _ => Connection.keeps_destroy (lasting_plain _) fun _ h0 =>
    ⟨h0,⟨rfl,rfl⟩,fun hf => by cases hf⟩

theorem records_send (c : Connection) (msg : Buffer) (ec : ErrorCode) :
    Triple (With I ec) (sys (c.send msg ec)) (fun ec' => With I ec') (Ended I) := by
  refine records_told hI (fun _ => ?_) fun s ec' s' hs h => Connection.send_told hs h
  refine Connection.keeps_send (lasting_plain _) ec (fun _ k _ h0 hne hk => ?_)
    fun _ e h0 hne he => ⟨⟨h0,hne,rfl⟩,trivial,fun _ => he.ne'⟩
  refine ⟨⟨h0,hne,rfl⟩,trivial,fun hf => ?_⟩
  simp [SysCall.fails] at hf

theorem records_sendToClient (msg : Buffer) (id : ClientId) :
    Records I (sendToClient msg id) := by
  refine (records_lookup _).bind fun x => ?_
  cases x with
  | none => exact Records.pure ()
  | some x =>
    refine .ite (fun _ => Records.pure ()) fun _ => records_server fun s => ?_
    refine ((records_send hI x.2.conn msg s.ec).weaken fun w hw => ?_).bind fun ec => ?_
    · rw [← hw.2]
      exact hw.1
    · refine ((records_setEc ec).mono (fun _ h => h) (fun _ _ h => h.1) fun _ _ h => h).bind
        fun _ => ?_
      exact .ite (fun _ => records_removeClient hI id) fun _ => Records.pure ()

theorem records_messageClient (msg : Buffer) (id : ClientId) :
    Records I (messageClient msg id) :=
  (records_emit hI rfl).bind fun _ => (records_sendToClient hI msg id).bind fun _ =>
    records_emit hI rfl

theorem records_messageFrom (msg : Buffer) (exclude : ClientId) (n i : Nat) :
    Records I (messageFrom msg exclude n i) := by
  induction n generalizing i with
  | zero => exact Records.pure ()
  | succ n ih =>
    refine (records_deref i).bind fun client => .ite (fun _ => ?_) fun _ => ih (i+1)
    exact (records_messageClient hI msg client.id).bind fun _ => ih (i+1)

theorem records_apiCall (call : ApiCall) : Records I (apiCall call) := by
  cases call with
  | messageClient msg id => exact records_messageClient hI msg id
  | messageAllClients msg exclude =>
    exact records_server' fun s => records_messageFrom hI msg exclude _ _
  | removeClient id => exact records_removeClient hI id
  | stop => exact records_stop hI

theorem records_runHandler : Records I runHandler := by
  have hnext : Records I nextHandler := by
    intro w h
    unfold nextHandler
    cases hs : w.handlers with
    | nil =>
      simp only [hs]
      exact ⟨_,h⟩
    | cons calls rest =>
      simp only [hs]
      exact h
  exact hnext.bind fun calls => Triple.forM (records_apiCall hI) calls

theorem records_hasPendingConnection : Records I hasPendingConnection :=
  records_server' fun s => records_sys hI fun _ =>
    Acceptor.keeps_hasPendingConnection (lasting_plain _) s.acceptor fun _ _ _ =>
      ⟨trivial,⟨rfl,rfl⟩,fun hf => by cases hf⟩

theorem records_destroyClient (e : Option ClientInfo) : Records I (destroyClient e) := by
  cases e with
  | none => exact Records.pure ()
  | some c => exact records_sys hI (plain_destroy c.conn)

theorem records_accept (a : Acceptor) (ec : ErrorCode) :
    Triple (With I ec) (sys (a.accept ec)) (fun x => With I x.2) (Ended I) := by
  refine records_told (f := fun x : Connection × ErrorCode => x.2) hI (fun _ => ?_)
    fun s x s' hs h => Acceptor.accept_told hs h
  refine Acceptor.keeps_accept (lasting_plain _) ec (fun r _ h0 hr => ?_)
    fun e h0 he => ⟨h0,trivial,fun _ => he.ne'⟩
  refine ⟨h0,trivial,fun hf => ?_⟩
  have hf : r = -1 := by simpa [SysCall.fails] using hf
  omega

theorem records_gain {e : Event} (he : e.gains = true) :
    Triple (fun w => Now I w ∧ w.server.ec = .clear) (emit e) (fun _ => Now I) (Ended I) :=
  Triple.modify fun w h => by
    have hgain := h.1
    unfold Now With at hgain ⊢
    rw [h.2] at hgain
    exact h.2 ▸ hI.gain w.toProcess he hgain

theorem records_register (id : ClientId) (x : Connection × ErrorCode) :
    Triple (With I x.2) (register id x) (fun _ => Now I) (Ended I) := by
  refine (records_setEc x.2).bind fun _ => .ite (fun _ => ?_) fun hec => ?_
  · refine ((records_setNextAvailableId _).weaken fun _ h => h.1).bind fun _ => ?_
    exact (records_destroyClient hI _).bind fun _ => Records.pure false
  · have hclear : x.2 = .clear := ErrorCode.isSet_eq_false.mp (by simpa using hec)
    refine Triple.bind (Q := fun _ w => Now I w ∧ w.server.ec = .clear) ?_ fun _ =>
      (records_gain hI rfl).bind fun _ => Records.pure true
    exact Triple.modify fun w hw => ⟨hw.1,hclear ▸ hw.2⟩

theorem records_acceptClient : Records I acceptClient := by
  intro w hw
  rw [acceptClient_run]
  exact ((records_accept hI w.server.acceptor w.server.ec).bind fun x =>
    records_register hI w.nextAvailableId x) w.withTaken hw

theorem records_handleIncomingConnections (fuel : Nat) :
    Records I (handleIncomingConnections fuel) := by
  induction fuel with
  | zero =>
    exact (records_loadRunning hI).bind fun _ => .ite (fun _ => Records.stop _) fun _ =>
      Records.pure ()
  | succ fuel ih =>
    refine (records_loadRunning hI).bind fun _ => .ite (fun _ => ?_) fun _ => Records.pure ()
    refine (records_hasPendingConnection hI).bind fun _ => .ite (fun _ => ?_) fun _ =>
      Records.pure ()
    refine (records_acceptClient hI).bind fun _ => .ite (fun _ => ?_) fun _ => ih
    exact (records_runHandler hI).bind fun _ => ih

theorem records_pollClients : Records I pollClients := by
  refine records_server' fun s => (records_sys hI fun _ => ?_).bind fun x =>
    Records.after (fun _ => rfl) (Records.pure _)
  exact (keeps_poll (lasting_plain _) fun _ _ _ =>
    ⟨trivial,⟨rfl,rfl⟩,fun hf => by cases hf⟩).bind fun _ => Keeps.pure _

theorem records_receive (c : Connection) (ec : ErrorCode) :
    Triple (With I ec) (sys (c.receive Connection.maxBufferSize ec)) (fun x => With I x.2.2)
      (Ended I) := by
  refine records_told (f := fun x : Buffer × Connection × ErrorCode => x.2.2) hI (fun _ => ?_)
    fun s x s' hs h => Connection.receive_told hs h
  refine Connection.keeps_receive (lasting_plain _) ec (fun bytes _ h0 hb => ?_)
    (fun e h0 he => ⟨⟨h0,rfl,rfl,Nat.zero_le _,Or.inr ⟨rfl,rfl⟩⟩,trivial,fun _ => he.ne'⟩)
    fun _ h0 => ⟨h0,trivial,fun hf => by cases hf⟩
  refine ⟨⟨h0,rfl,rfl,hb,Or.inl rfl⟩,trivial,fun hf => ?_⟩
  simp [SysCall.fails] at hf

theorem records_handleEvent (e : SocketStatusInfo) : Records I (handleEvent e) := by
  refine (records_lookup _).bind fun x => ?_
  cases x with
  | none => exact Records.pure false
  | some x =>
    refine .ite (fun _ => (records_removeClient hI _).bind fun _ => Records.pure false) fun _ => ?_
    refine .ite (fun _ => records_server fun s => ?_) fun _ => Records.pure false
    refine ((records_receive hI x.2.conn s.ec).weaken fun w hw => ?_).bind fun y => ?_
    · rw [← hw.2]
      exact hw.1
    refine Triple.bind (Q := fun _ => With I y.2.2) (Triple.modify fun _ h => h) fun _ => ?_
    refine (records_setEc y.2.2).bind fun _ => .ite (fun _ => ?_) fun hec => ?_
    · exact ((records_removeClient hI _).weaken fun _ h => h.1).bind fun _ => Records.pure false
    · have hclear : y.2.2 = .clear := by
        refine ErrorCode.isSet_eq_false.mp (Bool.eq_false_of_not_eq_true fun h => hec ?_)
        rw [h,Bool.true_or]
      refine ((records_gain hI rfl).weaken fun w hw => ?_).bind fun _ => Records.pure true
      exact ⟨hw.1,hclear ▸ hw.2⟩

theorem records_handleEvents (es : PollResult) : Records I (handleEvents es) := by
  induction es with
  | nil => exact Records.pure ()
  | cons e es ih =>
    refine (records_loadRunning hI).bind fun _ => .ite (fun _ => ?_) fun _ => Records.pure ()
    refine (records_handleEvent hI e).bind fun _ => .ite (fun _ => ?_) fun _ => ih
    exact (records_runHandler hI).bind fun _ => ih

theorem records_removeIfLoop (kept gap rest : List (Option ClientInfo)) :
    Records I (removeIfLoop kept gap rest) := by
  induction rest generalizing kept gap with
  | nil => exact Records.pure _
  | cons e rest ih => cases e with
    | none => exact Records.stop _
    | some c =>
      refine .ite (fun _ => ih _ _) fun _ => ?_
      cases gap with
      | nil => exact ih _ _
      | cons target gap => exact (records_destroyClient hI target).bind fun _ => ih _ _

theorem records_disconnectClient (i : Nat) : Records I (disconnectClient i) := by
  refine (records_deref i).bind fun client => Records.after (fun _ => rfl) ?_
  refine (records_sys hI (plain_disconnect client.conn)).bind fun conn => ?_
  exact (records_setClient _ _).bind fun _ => records_emit hI rfl

theorem records_disconnectFrom (n i : Nat) : Records I (disconnectFrom n i) := by
  induction n generalizing i with
  | zero => exact Records.pure ()
  | succ n ih =>
    exact (records_disconnectClient hI i).bind fun _ => (records_runHandler hI).bind fun _ =>
      ih (i+1)

theorem records_handleDisconnectedClients : Records I handleDisconnectedClients := by
  refine (records_emit hI rfl).bind fun _ => records_server' fun s =>
    .ite (fun _ => ?_) fun _ => Records.pure ()
  refine Triple.bind (Q := fun _ => Now I) (records_server' fun s => ?_) fun first => ?_
  · exact (records_removeIfLoop hI _ _ _).bind fun x =>
      Records.after (fun _ => rfl) (Records.pure _)
  · refine records_server' fun s => (records_disconnectFrom hI _ _).bind fun _ =>
      records_server' fun s => ?_
    exact (Triple.forM (records_destroyClient hI) _).bind fun _ => records_setServer fun _ => rfl

theorem records_networkLoop (fuel : Nat) : Records I (networkLoop fuel) := by
  induction fuel with
  | zero =>
    exact (records_loadRunning hI).bind fun _ => .ite (fun _ => Records.stop _) fun _ =>
      Records.pure ()
  | succ fuel ih =>
    refine (records_loadRunning hI).bind fun _ => .ite (fun _ => ?_) fun _ => Records.pure ()
    refine (records_emit hI rfl).bind fun _ =>
      (records_handleIncomingConnections hI fuel).bind fun _ => Triple.bind ?_ fun _ =>
      (records_handleDisconnectedClients hI).bind fun _ => ih
    exact (records_pollClients hI).bind fun es => records_handleEvents hI es

theorem records_closeAcceptor : Records I closeAcceptor :=
  records_server' fun s => Triple.bind (records_sys hI fun _ =>
    Acceptor.keeps_close (lasting_plain _) fun _ h0 => ⟨h0,⟨rfl,rfl⟩,fun hf => by cases hf⟩)
    fun _ => records_setServer fun _ => rfl

end Recorded
end Server

/-- What holds of the empty history holds of the history of every run. -/
theorem Environment.recorded {I : List Observation → ErrorCode → Int → Prop} (hI : Recorded I)
    (h0 : ∀ n, I [] .clear n) (env : Environment) (fuel : Nat) :
    ∃ ec n, I (env.log fuel) ec n := by
  unfold log run Server.networkThreadFunction
  obtain ⟨w,hr,hl,-,a,hs⟩ | ⟨e,w,hr,hl,-⟩ := Server.openAcceptor_cases env.initial
  · rw [bind_ok hr]
    have hw : Server.Now I w := by
      unfold Server.Now Server.With
      rw [hl,hs]
      exact h0 _
    have h := ((Server.records_networkLoop hI fuel).bind fun _ =>
      Server.records_closeAcceptor hI) w hw
    generalize (Server.networkLoop fuel >>= fun _ => Server.closeAcceptor).run w = r at h ⊢
    cases r with
    | mk r w' => cases r with
      | ok a => exact ⟨_,_,h⟩
      | error e =>
        obtain ⟨ec,h⟩ := h
        exact ⟨ec,_,h⟩
  · rw [bind_error hr,hl]
    exact ⟨.clear,0,h0 0⟩

/-! The first failure. -/

/-- A call of ::accept, ::send or ::recv failed here, or ::recv found an orderly close while
`errno` was set. -/
def Observation.fails (o : Observation) : Prop :=
  ∃ c, o.event = .sys c ∧ (c.fails = true ∨ (c.ends = true ∧ o.state.kernel.errno ≠ 0))

theorem Observation.fails_sys {c : SysCall} {p : Process} :
    Observation.fails ⟨.sys c,p⟩ ↔ c.fails = true ∨ (c.ends = true ∧ p.kernel.errno ≠ 0) := by
  constructor
  · rintro ⟨c,⟨⟩,h⟩
    exact h
  · exact fun h => ⟨c,rfl,h⟩

theorem Event.not_gains {e : Event} (h : e.isNote = true) : e.gains = false := by
  cases e with
  | sys c => cases h
  | _ => simpa [isNote] using h

theorem Event.not_fails {e : Event} (h : e.isNote = true ∨ e.gains = true) (p : Process) :
    ¬Observation.fails ⟨e,p⟩ := by
  rintro ⟨c,⟨⟩,-⟩
  obtain h | h := h
  · cases h
  · cases h

/-- A failure stays in `ec_`, and nothing is gained after it. -/
structure Final (log : List Observation) (ec : ErrorCode) (errno : Int) : Prop where
  kept : ∀ o ∈ log, o.fails → ec.isSet = true ∧ errno ≠ 0
  order : log.Pairwise fun o x => o.fails → x.event.gains = false

theorem Final.recorded : Recorded Final where
  note {log ec n e} p he h := by
    refine ⟨fun o ho hf => ?_,List.pairwise_append.mpr ⟨h.order,List.pairwise_singleton _ _,?_⟩⟩
    · obtain ho | ho := List.mem_append.mp ho
      · exact h.kept o ho hf
      · rw [List.mem_singleton.mp ho] at hf
        exact absurd hf (Event.not_fails (.inl he) p)
    · intro o _ x hx _
      rw [List.mem_singleton.mp hx]
      exact Event.not_gains he
  gain {log n e} p he h := by
    have hnone : ∀ o ∈ log, ¬o.fails := fun o ho hf => by cases (h.kept o ho hf).1
    refine ⟨fun o ho hf => ?_,List.pairwise_append.mpr ⟨h.order,List.pairwise_singleton _ _,?_⟩⟩
    · obtain ho | ho := List.mem_append.mp ho
      · exact h.kept o ho hf
      · rw [List.mem_singleton.mp ho] at hf
        exact absurd hf (Event.not_fails (.inr he) p)
    · exact fun o ho x _ hf => absurd hf (hnone o ho)
  calls {log ec n calls ec' n'} p hp h hplain hn hfails ht := by
    refine ⟨fun o ho hf => ?_,List.pairwise_append.mpr ⟨h.order,?_,?_⟩⟩
    · obtain ho | ho := List.mem_append.mp ho
      · obtain ⟨hec,h0⟩ := h.kept o ho hf
        exact ⟨ht.sticks hec h0,hn h0⟩
      · obtain ⟨c,hc,rfl⟩ := List.mem_map.mp ho
        have hbad := Observation.fails_sys.mp hf
        rw [hp] at hbad
        refine ⟨ht.reports hc hbad,?_⟩
        obtain hfail | ⟨-,h0⟩ := hbad
        · exact hfails c hc hfail
        · exact hn h0
    · exact List.pairwise_map.mpr (List.pairwise_of_forall fun _ _ _ => rfl)
    · intro o _ x hx _
      obtain ⟨c,-,rfl⟩ := List.mem_map.mp hx
      rfl

/-- The first failure of a call is the end of the service: after it no client is announced
and no data is passed on. This needs handlers that do not assign to `errno`: an orderly close
that found 0 there would clear `ec_`. -/
theorem Environment.failures_final (env : Environment) (fuel : Nat) :
    (env.log fuel).Pairwise fun o x => o.fails → x.event.gains = false := by
  obtain ⟨ec,n,h⟩ := env.recorded Final.recorded (fun _ => ⟨by simp,.nil⟩) fuel
  exact h.order

/-! The arguments of the calls. -/

/-- Every call of the history is one the server makes. -/
def Apt (log : List Observation) (_ : ErrorCode) (_ : Int) : Prop :=
  ∀ o ∈ log, ∀ c, o.event = .sys c → c.isPlain

theorem Apt.recorded : Recorded Apt where
  note {log ec n e} p he h o ho c hc := by
    obtain ho | ho := List.mem_append.mp ho
    · exact h o ho c hc
    · rw [List.mem_singleton.mp ho] at hc
      cases hc
      cases he
  gain {log n e} p he h o ho c hc := by
    obtain ho | ho := List.mem_append.mp ho
    · exact h o ho c hc
    · rw [List.mem_singleton.mp ho] at hc
      cases hc
      cases he
  calls {log ec n calls ec' n'} p hp h hplain hn hfails ht o ho c hc := by
    obtain ho | ho := List.mem_append.mp ho
    · exact h o ho c hc
    · obtain ⟨d,hd,rfl⟩ := List.mem_map.mp ho
      cases hc
      exact hplain _ hd

/-- Every call of a run has the arguments the server means it to have: no ::send can raise
SIGPIPE or offers nothing, no ::recv peeks or overruns its buffer, and no call but ::poll
names descriptor 0. -/
theorem Environment.calls_apt (env : Environment) (fuel : Nat) :
    ∀ o ∈ env.log fuel, ∀ c, o.event = .sys c → c.isPlain := by
  obtain ⟨ec,n,h⟩ := env.recorded Apt.recorded (fun _ o ho => nomatch ho) fuel
  exact h

/-- The call by which the last part of the broadcast fails. -/
theorem Environment.calls_apt_broadcast : ∃ o ∈ broadcast.log 5,
    o.event = .sys (.send 5 [9] MSG_NOSIGNAL (-1)) ∧
    (SysCall.send 5 [9] MSG_NOSIGNAL (-1)).isPlain := by
  have hlog : (broadcast.log 5)[16]?.map Observation.event =
      some (.sys (.send 5 [9] MSG_NOSIGNAL (-1))) := rfl
  obtain ⟨o,ho,he⟩ := Option.map_eq_some_iff.mp hlog
  have hmem := List.mem_of_getElem? ho
  exact ⟨o,hmem,he,broadcast.calls_apt 5 o hmem _ he⟩

end Yonaa
