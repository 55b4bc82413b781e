import Yonaa.Clients

/-! What the pieces of the network thread do: for each piece of server.cpp between
two points where control can change, all of its outcomes. -/
namespace Yonaa

namespace World

def note (w : World) (e : Event) : World := { w with log := w.log++[⟨e,w.toProcess⟩] }

def withServer (w : World) (f : Server → Server) : World := { w with server := f w.server }

def withEc (w : World) (ec : ErrorCode) : World := w.withServer fun s => { s with ec := ec }

def withClient (w : World) (i : Nat) (c : ClientInfo) : World :=
  w.withServer fun s => { s with clients := s.clients.set i (some c) }

def mark (w : World) (i : Nat) (c : ClientInfo) : World :=
  note (w.withServer fun s =>
    { s with
      clients := s.clients.set i (some { c with isConnected := false })
      hasDisconnectedClients := true }) (.marked c.id)

def halted (w : World) : World :=
  note (w.withServer fun s => { s with running := false }) .stopped

def withTaken (w : World) : World := { w with nextAvailableId := w.nextAvailableId+1 }

section
variable (w : World) (e : Event) (ec : ErrorCode) (i : Nat) (c : ClientInfo)
  (f : Server → Server) (s : SysState)

@[simp] theorem note_toProcess : (w.note e).toProcess = w.toProcess := rfl
@[simp] theorem note_log : (w.note e).log = w.log++[⟨e,w.toProcess⟩] := rfl
@[simp] theorem withServer_server : (w.withServer f).server = f w.server := rfl
@[simp] theorem withServer_nextAvailableId :
    (w.withServer f).nextAvailableId = w.nextAvailableId := rfl
@[simp] theorem withServer_kernel : (w.withServer f).kernel = w.kernel := rfl
@[simp] theorem withServer_log : (w.withServer f).log = w.log := rfl
@[simp] theorem withEc_server : (w.withEc ec).server = { w.server with ec := ec } := rfl
@[simp] theorem withEc_nextAvailableId :
    (w.withEc ec).nextAvailableId = w.nextAvailableId := rfl
@[simp] theorem withEc_kernel : (w.withEc ec).kernel = w.kernel := rfl
@[simp] theorem withEc_log : (w.withEc ec).log = w.log := rfl
@[simp] theorem withClient_server : (w.withClient i c).server =
    { w.server with clients := w.server.clients.set i (some c) } := rfl
@[simp] theorem withClient_nextAvailableId :
    (w.withClient i c).nextAvailableId = w.nextAvailableId := rfl
@[simp] theorem withClient_kernel : (w.withClient i c).kernel = w.kernel := rfl
@[simp] theorem withClient_log : (w.withClient i c).log = w.log := rfl
@[simp] theorem mark_server : (w.mark i c).server = { w.server with
    clients := w.server.clients.set i (some { c with isConnected := false })
    hasDisconnectedClients := true } := rfl
@[simp] theorem mark_nextAvailableId : (w.mark i c).nextAvailableId = w.nextAvailableId := rfl
@[simp] theorem mark_kernel : (w.mark i c).kernel = w.kernel := rfl
@[simp] theorem mark_log :
    (w.mark i c).log = w.log++[⟨.marked c.id,(w.mark i c).toProcess⟩] := rfl
@[simp] theorem halted_server : w.halted.server = { w.server with running := false } := rfl
@[simp] theorem halted_nextAvailableId : w.halted.nextAvailableId = w.nextAvailableId := rfl
@[simp] theorem halted_kernel : w.halted.kernel = w.kernel := rfl
@[simp] theorem halted_log : w.halted.log = w.log++[⟨.stopped,w.halted.toProcess⟩] := rfl
@[simp] theorem withTaken_server : w.withTaken.server = w.server := rfl
@[simp] theorem withTaken_nextAvailableId :
    w.withTaken.nextAvailableId = w.nextAvailableId+1 := rfl
@[simp] theorem withTaken_kernel : w.withTaken.kernel = w.kernel := rfl
@[simp] theorem withTaken_log : w.withTaken.log = w.log := rfl
@[simp] theorem sysPart_kernel : (Net.sysPart w).kernel = w.kernel := rfl
@[simp] theorem sysPart_calls : (Net.sysPart w).calls = [] := rfl
@[simp] theorem putSys_server : (Net.putSys w s).server = w.server := rfl
@[simp] theorem putSys_nextAvailableId :
    (Net.putSys w s).nextAvailableId = w.nextAvailableId := rfl
@[simp] theorem putSys_kernel : (Net.putSys w s).kernel = s.kernel := rfl
@[simp] theorem putSys_log : (Net.putSys w s).log =
    w.log++s.calls.map fun c => ⟨.sys c,w.toProcess⟩ := rfl

end

end World

/-- The events inside a piece. Only while `running_` is set are connections accepted and
bytes received. -/
def Event.isInner (running : Bool) : Event → Prop
  | .message _ _ | .messaged _ => True
  | .sys (.send _ _ _ _) | .sys (.close _) | .sys (.poll _ _) => True
  | .sys (.accept _ _) => running = true
  | .sys (.recv _ _ _ n _) => running = true ∧ n ≤ 0
  | _ => False

/-- Nothing happened to the server but to `ec_`, no descriptor was closed and none but 0
is new, and only inner events were logged. -/
structure Quiet (running : Bool) (w w' : World) : Prop where
  server : ∃ ec, w'.server = { w.server with ec := ec }
  nextAvailableId : w'.nextAvailableId = w.nextAvailableId
  open_kept : ∀ fd ∈ w.kernel.fds, fd ∈ w'.kernel.fds
  open_old : ∀ fd ≠ 0, fd ∈ w'.kernel.fds → fd ∈ w.kernel.fds
  log : ∃ new, w'.log = w.log++new ∧ ∀ o ∈ new, o.event.isInner running

namespace Quiet
variable {b : Bool} {w w' w'' : World}

theorem clients (h : Quiet b w w') : w'.server.clients = w.server.clients := by
  obtain ⟨ec,h⟩ := h.server
  rw [h]

theorem running (h : Quiet b w w') : w'.server.running = w.server.running := by
  obtain ⟨ec,h⟩ := h.server
  rw [h]

theorem hasDisconnectedClients (h : Quiet b w w') :
    w'.server.hasDisconnectedClients = w.server.hasDisconnectedClients := by
  obtain ⟨ec,h⟩ := h.server
  rw [h]

theorem pollGroup (h : Quiet b w w') : w'.server.pollGroup = w.server.pollGroup := by
  obtain ⟨ec,h⟩ := h.server
  rw [h]

theorem refl (w : World) : Quiet b w w :=
  ⟨⟨w.server.ec,rfl⟩,rfl,fun _ => id,fun _ _ => id,[],by simp,by simp⟩

theorem note {e : Event} (h : e.isInner b) : Quiet b w (w.note e) :=
  ⟨⟨w.server.ec,rfl⟩,rfl,fun _ => id,fun _ _ => id,[⟨e,w.toProcess⟩],rfl,by simp [h]⟩

theorem withEc (w : World) (ec : ErrorCode) : Quiet b w (w.withEc ec) :=
  ⟨⟨ec,rfl⟩,rfl,fun _ => id,fun _ _ => id,[],by simp,by simp⟩

theorem inputs (hs : List (List ApiCall)) (ss : List Bool) :
    Quiet b w { w with handlers := hs, stops := ss } :=
  ⟨⟨w.server.ec,rfl⟩,rfl,fun _ => id,fun _ _ => id,[],by simp,by simp⟩

theorem putSys {s : SysState} {calls : List SysCall} (hf : s.kernel.fds = w.kernel.fds)
    (hc : s.calls = calls) (hok : ∀ c ∈ calls, (Event.sys c).isInner b) :
    Quiet b w (Net.putSys w s) := by
  refine ⟨⟨w.server.ec,rfl⟩,rfl,fun fd => by simp [hf],fun fd _ => by simp [hf],_,rfl,?_⟩
  intro o ho
  rw [hc] at ho
  obtain ⟨c,hmem,rfl⟩ := List.mem_map.mp ho
  exact hok c hmem

theorem trans (h : Quiet b w w') (h' : Quiet b w' w'') : Quiet b w w'' := by
  obtain ⟨ec,hs⟩ := h'.server
  obtain ⟨ec',hs'⟩ := h.server
  obtain ⟨new,hl,hn⟩ := h.log
  obtain ⟨new',hl',hn'⟩ := h'.log
  refine ⟨⟨ec,by rw [hs,hs']⟩,h'.nextAvailableId.trans h.nextAvailableId,
    fun fd hfd => h'.open_kept fd (h.open_kept fd hfd),
    fun fd h0 hfd => h.open_old fd h0 (h'.open_old fd h0 hfd),new++new',
    by rw [hl',hl,List.append_assoc],?_⟩
  exact List.forall_mem_append.mpr ⟨hn,hn'⟩

end Quiet

namespace Server
open Net Prog

theorem run_sys {α : Type} (m : Sys α) (w : World) :
    (sys m).run w = ((m.run (sysPart w)).1,putSys w (m.run (sysPart w)).2) := rfl

theorem sys_ok {α : Type} {m : Sys α} {w : World} {a : α} {s : SysState}
    (h : m.run (sysPart w) = (.ok a, s)) : (sys m).run w = (.ok a, putSys w s) := by
  rw [run_sys,h]

theorem sys_error {α : Type} {m : Sys α} {w : World} {e : Halt} {s : SysState}
    (h : m.run (sysPart w) = (.error e, s)) : (sys m).run w = (.error e, putSys w s) := by
  rw [run_sys,h]

@[simp] theorem run_server_bind {α : Type} (k : Server → Net α) (w : World) :
    (server >>= k).run w = (k w.server).run w := rfl

@[simp] theorem run_setServer (f : Server → Server) (w : World) :
    (setServer f).run w = (.ok (), w.withServer f) := rfl

@[simp] theorem run_setEc (ec : ErrorCode) (w : World) :
    (setEc ec).run w = (.ok (), w.withEc ec) := rfl

@[simp] theorem run_setClient (i : Nat) (c : ClientInfo) (w : World) :
    (setClient i c).run w = (.ok (), w.withClient i c) := rfl

@[simp] theorem run_emit (e : Event) (w : World) : (emit e).run w = (.ok (), w.note e) := rfl

@[simp] theorem run_stop (w : World) : stop.run w = (.ok (), w.halted) := rfl

/-! Reads of the inputs and of the vector. -/

theorem loadRunning_nil {w : World} (h : w.stops = []) :
    loadRunning.run w = (.error .cut, w) := by
  have hnext : nextStop.run w = (.error .cut, w) := by simp [nextStop,h]
  exact bind_error hnext

theorem loadRunning_cons {w : World} {b : Bool} {rest : List Bool} (h : w.stops = b::rest) :
    loadRunning.run w = if b then (.ok false, ({ w with stops := rest } : World).halted)
      else (.ok w.server.running, { w with stops := rest }) := by
  have hnext : nextStop.run w = (.ok b, { w with stops := rest }) := by simp [nextStop,h]
  unfold loadRunning
  rw [bind_ok hnext]
  cases b <;> rfl

theorem nextHandler_nil {w : World} (h : w.handlers = []) :
    nextHandler.run w = (.error .cut, w) := by simp [nextHandler,h]

theorem nextHandler_cons {w : World} {calls : List ApiCall} {rest : List (List ApiCall)}
    (h : w.handlers = calls::rest) :
    nextHandler.run w = (.ok calls, { w with handlers := rest }) := by simp [nextHandler,h]

theorem deref_entry {w : World} {i : Nat} {c : ClientInfo}
    (h : w.server.clients[i]? = some (some c)) : (deref i).run w = (.ok c, w) := by
  unfold deref
  rw [run_server_bind,h]
  rfl

theorem deref_crash {w : World} {i : Nat} (h : ∀ c, w.server.clients[i]? ≠ some (some c)) :
    (deref i).run w = (.error .crash, w) := by
  unfold deref
  rw [run_server_bind]
  cases hi : w.server.clients[i]? with
  | none => rfl
  | some e => cases e with
    | none => rfl
    | some c => exact absurd hi (h c)

theorem lookup_cases (p : ClientInfo → Bool) (w : World) :
    (∃ i c, find p w.server.clients = .found i c ∧
      (lookup p).run w = (.ok (some (i,c)), w)) ∨
    (find p w.server.clients = .missing ∧ (lookup p).run w = (.ok none, w)) ∨
    (find p w.server.clients = .crash ∧ (lookup p).run w = (.error .crash, w)) := by
  unfold lookup
  rw [run_server_bind]
  cases h : find p w.server.clients with
  | missing => exact Or.inr (Or.inl ⟨rfl,rfl⟩)
  | crash => exact Or.inr (Or.inr ⟨rfl,rfl⟩)
  | found i c => exact Or.inl ⟨i,c,rfl,rfl⟩

/-! The calls a handler makes. -/

/-- `remove_client` marks the first entry with the id. -/
inductive Removed (id : ClientId) (w : World) : Except Halt Unit × World → Prop where
  | missing (h : find (fun c => c.id == id) w.server.clients = .missing) :
      Removed id w (.ok (), w)
  | crash (h : find (fun c => c.id == id) w.server.clients = .crash) :
      Removed id w (.error .crash, w)
  | marked {i : Nat} {c : ClientInfo}
      (h : find (fun c => c.id == id) w.server.clients = .found i c) :
      Removed id w (.ok (), w.mark i c)

theorem removeClient_cases (id : ClientId) (w : World) :
    Removed id w ((removeClient id).run w) := by
  unfold removeClient clientInfoFromId
  obtain ⟨i,c,hf,h⟩ | ⟨hf,h⟩ | ⟨hf,h⟩ := lookup_cases (fun c => c.id == id) w
  · rw [bind_ok h]
    have hid : c.id = id := by simpa using (find_found hf).2
    have hr : (do
        setClient i { c with isConnected := false }
        setServer fun s => { s with hasDisconnectedClients := true }
        emit (.marked id) : Net Unit).run w = (.ok (),w.mark i c) := by
      rw [← hid]
      rfl
    exact hr ▸ .marked hf
  · rw [bind_ok h]
    exact .missing hf
  · rw [bind_error h]
    exact .crash hf

theorem removeClient_found {id : ClientId} {w : World} {i : Nat} {c : ClientInfo}
    (hc : w.server.clients[i]? = some (some c)) (hid : c.id = id)
    (hne : ∀ j < i, w.server.clients[j]? ≠ some none) :
    ∃ j d, find (fun c => c.id == id) w.server.clients = .found j d ∧ j ≤ i ∧
      (removeClient id).run w = (.ok (), w.mark j d) := by
  obtain ⟨j,d,hf,hj⟩ := find_of_mem hc (p := fun c => c.id == id) (by simp [hid]) hne
  refine ⟨j,d,hf,hj,?_⟩
  have h := removeClient_cases id w
  generalize (removeClient id).run w = r at h ⊢
  cases h with
  | missing h => rw [hf] at h; cases h
  | crash h => rw [hf] at h; cases h
  | marked h =>
    rw [hf] at h
    cases h
    rfl

/-- `message_client`: nothing is sent, or the send to the first entry with the id
leaves `ec_` clear, or it leaves `ec_` set and that entry is marked. -/
inductive Messaged (msg : Buffer) (id : ClientId) (w : World) :
    Except Halt Unit × World → Prop where
  | passed (h : ∀ i c, find (fun c => c.id == id) w.server.clients = .found i c →
        c.isConnected = false) :
      Messaged msg id w (.ok (), (w.note (.message id msg)).note (.messaged id))
  | crash (h : find (fun c => c.id == id) w.server.clients = .crash) :
      Messaged msg id w (.error .crash, w.note (.message id msg))
  | sent {i : Nat} {c : ClientInfo} {ec : ErrorCode} {s : SysState}
      (hf : find (fun c => c.id == id) w.server.clients = .found i c)
      (hc : c.isConnected = true)
      (hs : (c.conn.send msg w.server.ec).run (sysPart (w.note (.message id msg))) =
        (.ok ec, s))
      (hec : ec.isSet = false) :
      Messaged msg id w
        (.ok (), ((putSys (w.note (.message id msg)) s).withEc ec).note (.messaged id))
  | failed {i : Nat} {c : ClientInfo} {ec : ErrorCode} {s : SysState}
      (hf : find (fun c => c.id == id) w.server.clients = .found i c)
      (hc : c.isConnected = true)
      (hs : (c.conn.send msg w.server.ec).run (sysPart (w.note (.message id msg))) =
        (.ok ec, s))
      (hec : ec.isSet = true) :
      Messaged msg id w
        (.ok (), (((putSys (w.note (.message id msg)) s).withEc ec).mark i c).note
          (.messaged id))
  | cut {i : Nat} {c : ClientInfo} {e : Halt} {s : SysState}
      (hf : find (fun c => c.id == id) w.server.clients = .found i c)
      (hc : c.isConnected = true)
      (hs : (c.conn.send msg w.server.ec).run (sysPart (w.note (.message id msg))) =
        (.error e, s)) :
      Messaged msg id w (.error e, putSys (w.note (.message id msg)) s)

theorem messageClient_cases (msg : Buffer) (id : ClientId) (w : World) :
    Messaged msg id w ((messageClient msg id).run w) := by
  unfold messageClient
  rw [bind_ok (run_emit _ w)]
  generalize hw : w.note (.message id msg) = w1
  have hcs : w1.server = w.server := by rw [← hw]; rfl
  unfold sendToClient clientInfoFromId
  rw [run_bind_bind]
  obtain ⟨i,c,hf,h⟩ | ⟨hf,h⟩ | ⟨hf,h⟩ := lookup_cases (fun c => c.id == id) w1
  · rw [bind_ok h]
    rw [hcs] at hf
    by_cases hc : c.isConnected = true
    · simp only [hc,Bool.not_true,Bool.false_eq_true,if_false]
      rw [run_bind_bind,run_server_bind,hcs,run_bind_bind]
      cases hs : (c.conn.send msg w.server.ec).run (sysPart w1) with
      | mk r s => cases r with
        | error e =>
          rw [bind_error (sys_error hs)]
          exact hw ▸ .cut hf hc (hw ▸ hs)
        | ok ec =>
          rw [bind_ok (sys_ok hs)]
          by_cases hec : ec.isSet = true
          · simp only [hec,if_true]
            rw [run_bind_bind,bind_ok (run_setEc ec _)]
            have hr : (removeClient id).run ((putSys w1 s).withEc ec) =
                (.ok (),((putSys w1 s).withEc ec).mark i c) := by
              have hcl : ((putSys w1 s).withEc ec).server.clients = w.server.clients := by
                rw [← hcs]
                rfl
              have hrem := removeClient_cases id ((putSys w1 s).withEc ec)
              generalize (removeClient id).run _ = r at hrem ⊢
              cases hrem with
              | missing h => rw [hcl,hf] at h; cases h
              | crash h => rw [hcl,hf] at h; cases h
              | marked h =>
                rw [hcl,hf] at h
                cases h
                rfl
            rw [bind_ok hr]
            exact hw ▸ .failed hf hc (hw ▸ hs) hec
          · have hec' : ec.isSet = false := by simpa using hec
            simp only [hec',Bool.false_eq_true,if_false]
            rw [run_bind_bind,bind_ok (run_setEc ec _)]
            exact hw ▸ .sent hf hc (hw ▸ hs) hec'
    · have hc' : c.isConnected = false := by simpa using hc
      simp only [hc',Bool.not_false,if_true]
      refine hw ▸ .passed ?_
      intro j d hd
      rw [hf] at hd
      cases hd
      exact hc'
  · rw [bind_ok h]
    rw [hcs] at hf
    refine hw ▸ .passed ?_
    intro j d hd
    rw [hf] at hd
    cases hd
  · rw [bind_error h]
    rw [hcs] at hf
    exact hw ▸ .crash hf

def isMessaging : Event → Prop
  | .message _ _ | .messaged _ | .marked _ | .sys (.send _ _ _ _) => True
  | _ => False

theorem Messaged.recorded {w : World} {msg : Buffer} {id : ClientId}
    {r : Except Halt Unit × World} (h : Messaged msg id w r) :
    ∃ new, r.2.log = w.log++⟨.message id msg,w.toProcess⟩::new ∧
      ∀ o ∈ new, isMessaging o.event := by
  have hsend : ∀ (c : ClientInfo) (r : Except Halt ErrorCode × SysState),
      (c.conn.send msg w.server.ec).run (sysPart (w.note (.message id msg))) = r →
      ∀ o ∈ r.2.calls.map fun x => (⟨.sys x,w.toProcess⟩ : Observation), isMessaging o.event := by
    intro c r hr o ho
    obtain ⟨-,⟨sends,hsends,hall⟩,-⟩ :=
      Connection.send_frame c.conn msg w.server.ec 0 (sysPart (w.note (.message id msg)))
    rw [hr] at hsends
    obtain ⟨x,hx,rfl⟩ := List.mem_map.mp ho
    have hx' := hall x (by simpa [hsends] using hx)
    cases x with
    | send _ _ _ _ => trivial
    | _ => exact hx'.elim
  cases h with
  | passed hf => exact ⟨_,List.append_assoc _ _ _,List.forall_mem_singleton.mpr trivial⟩
  | crash hf => exact ⟨[],rfl,by simp⟩
  | @sent i c ec s hf hc hs hec =>
    refine ⟨(s.calls.map fun x => ⟨.sys x,w.toProcess⟩)++[⟨.messaged id,_⟩],by simp; rfl,?_⟩
    exact List.forall_mem_append.mpr ⟨hsend c _ hs,List.forall_mem_singleton.mpr trivial⟩
  | @failed i c ec s hf hc hs hec =>
    refine ⟨(s.calls.map fun x => ⟨.sys x,w.toProcess⟩)++[⟨.marked c.id,_⟩,⟨.messaged id,_⟩],
      by simp; exact ⟨rfl,rfl⟩,?_⟩
    exact List.forall_mem_append.mpr ⟨hsend c _ hs,List.forall_mem_cons.mpr
      ⟨trivial,List.forall_mem_singleton.mpr trivial⟩⟩
  | @cut i c e s hf hc hs =>
    exact ⟨_,by rw [World.putSys_log,World.note_log,List.append_assoc]; rfl,hsend c _ hs⟩

/-! The accept loop. -/

theorem destroyClient_closed {c : ClientInfo} (h : c.conn.socket = 0) (w : World) :
    (destroyClient (some c)).run w = (.ok (), w) := by
  have hopen : c.conn.isConnected = false := by simp [Connection.isConnected,h]
  unfold destroyClient
  rw [sys_ok (Connection.destroy_closed hopen _)]
  simp [putSys,sysPart]

theorem destroyClient_open {c : ClientInfo} (h : c.conn.socket ≠ 0) (w : World) :
    (∃ s, (destroyClient (some c)).run w = (.ok (), putSys w s) ∧
      s.kernel.fds = w.kernel.fds.filter (· ≠ c.conn.socket) ∧
      s.calls = [.close c.conn.socket]) ∨
    ∃ s, (destroyClient (some c)).run w = (.error .cut, putSys w s) ∧
      s.kernel.fds = w.kernel.fds ∧ s.calls = [] := by
  have hopen : c.conn.isConnected = true := by simp [Connection.isConnected,h]
  unfold destroyClient
  obtain ⟨s,hr,hf,hcalls,-⟩ | ⟨s,hr,hs⟩ := Connection.destroy_open hopen (sysPart w)
  · exact Or.inl ⟨s,sys_ok hr,hf,hcalls⟩
  · exact Or.inr ⟨s,sys_error hr,hs.fds,hs.calls⟩

/-- One round of the accept loop: ::accept gave no descriptor, or gave one while
`ec_` was set, so that it is closed again, or the client joins the registry. -/
inductive Admitted (w : World) : Except Halt Bool × World → Prop where
  | refused {w' : World} (hq : Quiet true w w')
      (hlog : w'.log = w.log ∨ ∃ p : Process, p.server = w.server ∧
        w'.log = w.log++[⟨.sys (.accept w.server.acceptor.socket (-1)),p⟩]) :
      Admitted w (.ok false, w')
  | dropped {w' : World} {fd : Int} {p : Process} {closes : List Observation}
      (hq : Quiet true w w') (hnew : 0 ≤ fd ∧ fd ∉ w.kernel.fds)
      (hp : p.server = w.server) (hec : w.server.ec.isSet = true)
      (hlog : w'.log = w.log++⟨.sys (.accept w.server.acceptor.socket fd),p⟩::closes)
      (hcloses : closes = [] ∨ ∃ q, closes = [⟨.sys (.close fd),q⟩]) :
      Admitted w (.ok false, w')
  | registered {fd : Int} {conn : Connection} {p : Process} {w1 : World}
      (hnew : 0 ≤ fd ∧ fd ∉ w.kernel.fds) (hconn : conn.socket = fd)
      (hp : p.server = w.server) (hec : w.server.ec.isSet = false)
      (hfds : w1.kernel.fds = fd::w.kernel.fds)
      (hserver : w1.server = { w.server with
        clients := w.server.clients++[some ⟨w.nextAvailableId,conn,fd,true⟩]
        pollGroup := w.server.pollGroup.addSocket fd })
      (hnext : w1.nextAvailableId = w.nextAvailableId+1)
      (hlog : w1.log = w.log++[⟨.sys (.accept w.server.acceptor.socket fd),p⟩]) :
      Admitted w (.ok true, w1.note (.callback (.connect w.nextAvailableId)))
  | cut {w' : World} (hlog : w'.log = w.log ∨ ∃ fd, ∃ p : Process, p.server = w.server ∧
        w'.log = w.log++[⟨.sys (.accept w.server.acceptor.socket fd),p⟩]) :
      Admitted w (.error .cut, w')

theorem destroyClient_dropped {w w2 : World} {fd : Int} {p : Process} {c : ClientInfo}
    (hs : w2.server = w.server) (hn : w2.nextAvailableId = w.nextAvailableId)
    (hf : w2.kernel.fds = fd::w.kernel.fds)
    (hl : w2.log = w.log++[⟨.sys (.accept w.server.acceptor.socket fd),p⟩])
    (hconn : c.conn.socket = fd) (hnew : 0 ≤ fd ∧ fd ∉ w.kernel.fds) (hp : p.server = w.server)
    (hec : w.server.ec.isSet = true) :
    Admitted w ((destroyClient (some c) >>= fun _ => pure false).run w2) := by
  by_cases h0 : c.conn.socket = 0
  · rw [bind_ok (destroyClient_closed h0 w2)]
    refine .dropped ⟨⟨w.server.ec,by rw [hs]⟩,hn,fun x hx => by simp [hf,hx],?_,_,hl,?_⟩ hnew hp
      hec hl (Or.inl rfl)
    · intro x hx
      have hne : x ≠ fd := by rw [← hconn,h0]; exact hx
      simp [hf,hne]
    · simp [Event.isInner]
  · obtain ⟨s,hr,hfds,hcalls⟩ | ⟨s,hr,hfds,hcalls⟩ := destroyClient_open h0 w2
    · rw [bind_ok hr]
      have hl' : (putSys w2 s).log = w.log++⟨.sys (.accept w.server.acceptor.socket fd),p⟩::
          [⟨.sys (.close fd),w2.toProcess⟩] := by
        simp [hcalls,hconn,hl]
      refine .dropped ⟨⟨w.server.ec,hs⟩,hn,?_,?_,_,hl',?_⟩ hnew hp hec hl' (Or.inr ⟨_,rfl⟩)
      · intro x hx
        have hne : x ≠ fd := fun he => hnew.2 (he ▸ hx)
        simp [hfds,hf,hconn,hx,hne]
      · intro x _ hx
        simp only [World.putSys_kernel,hfds,hf,hconn,List.mem_filter,List.mem_cons] at hx
        exact hx.1.resolve_left (by simpa using hx.2)
      · simp [Event.isInner]
    · rw [bind_error hr]
      exact .cut (Or.inr ⟨fd,p,hp,by simp [hcalls,hl]⟩)

theorem refused_of {w w' : World} {ec : ErrorCode} {calls : List SysCall} {p : Process}
    (hs : w'.server = { w.server with ec := ec }) (hn : w'.nextAvailableId = w.nextAvailableId)
    (hf : w'.kernel.fds = w.kernel.fds) (hl : w'.log = w.log++calls.map fun c => ⟨.sys c,p⟩)
    (hp : p.server = w.server)
    (hc : calls = [] ∨ calls = [.accept w.server.acceptor.socket (-1)]) :
    Admitted w (.ok false, w') := by
  refine .refused ⟨⟨ec,hs⟩,hn,fun fd => by simp [hf],fun fd _ => by simp [hf],_,hl,?_⟩ ?_
  · intro o ho
    obtain ⟨c,hmem,rfl⟩ := List.mem_map.mp ho
    cases hc with
    | inl hc => simp [hc] at hmem
    | inr hc =>
      rw [hc,List.mem_singleton] at hmem
      rw [hmem]
      rfl
  · cases hc with
    | inl hc => exact Or.inl (by simp [hl,hc])
    | inr hc => exact Or.inr ⟨p,hp,by simp [hl,hc]⟩

theorem acceptClient_cases (w : World) : Admitted w (acceptClient.run w) := by
  unfold acceptClient setNextAvailableId
  rw [run_get_bind,run_modify_bind]
  change Admitted w ((server >>= _).run w.withTaken)
  rw [run_server_bind,run_server_bind,World.withTaken_server]
  have hpred : w.nextAvailableId+1-1 = w.nextAvailableId := UInt64.add_sub_cancel _ _
  by_cases ha : w.server.acceptor.isOpen = true
  · have h := Acceptor.accept_open w.server.ec ha (sysPart w.withTaken)
    cases hr : (w.server.acceptor.accept w.server.ec).run (sysPart w.withTaken) with
    | mk r s =>
      rw [hr] at h
      cases h with
      | @accepted fd addr rest conn _ hnew hconn hfds hcalls hans hrest =>
        rw [bind_ok (sys_ok hr)]
        dsimp only
        rw [bind_ok (run_setEc _ _)]
        by_cases hec : w.server.ec.isSet = true
        · rw [if_pos hec,run_modify_bind]
          exact destroyClient_dropped (p := w.withTaken.toProcess) rfl hpred hfds
            (by simp [hcalls]) hconn hnew rfl hec
        · rw [if_neg hec,bind_ok (run_setServer _ _),bind_ok (run_emit _ _)]
          refine .registered (p := w.withTaken.toProcess) hnew hconn rfl (by simpa using hec)
            hfds ?_ rfl (by simp [hcalls])
          simp [Connection.nativeSocket,hconn]
      | failed e hfds hcalls hans =>
        rw [bind_ok (sys_ok hr)]
        dsimp only
        rw [bind_ok (run_setEc _ _),if_pos (ErrorCode.isSet_errno e),run_modify_bind,
          bind_ok (destroyClient_closed rfl _)]
        exact refused_of (p := w.withTaken.toProcess) rfl hpred hfds rfl rfl
          (Or.inr (by simp [hcalls]))
      | @naming fd _ hnew hcalls hans =>
        rw [bind_error (sys_error hr)]
        exact .cut (Or.inr ⟨fd,w.withTaken.toProcess,rfl,by simp [hcalls]⟩)
      | cut hs =>
        rw [bind_error (sys_error hr)]
        exact .cut (Or.inl (by simp [hs.calls]))
  · have hr := Acceptor.accept_closed w.server.ec (by simpa using ha) (sysPart w.withTaken)
    rw [bind_ok (sys_ok hr)]
    dsimp only
    rw [bind_ok (run_setEc _ _),if_pos (by rfl),run_modify_bind,
      bind_ok (destroyClient_closed rfl _)]
    exact refused_of (p := w.withTaken.toProcess) rfl hpred rfl rfl rfl (Or.inl rfl)

/-! The polls. -/

theorem hasPendingConnection_quiet (w : World) :
    (∃ b w', hasPendingConnection.run w = (.ok b, w') ∧ Quiet false w w' ∧
      ∃ pfds n, w'.log = w.log++[⟨.sys (.poll pfds n),w.toProcess⟩]) ∨
    ∃ w', hasPendingConnection.run w = (.error .cut, w') ∧ Quiet false w w' ∧
      w'.log = w.log := by
  unfold hasPendingConnection
  rw [run_server_bind]
  obtain ⟨b,pfds,n,s,hr,hf,hc,-⟩ | ⟨s,hr,hs⟩ :=
    Acceptor.hasPendingConnection_cases w.server.acceptor (sysPart w)
  · refine Or.inl ⟨b,_,sys_ok hr,.putSys hf hc ?_,pfds,n,by simp [hc]⟩
    intro c hc
    rw [List.mem_singleton.mp hc]
    trivial
  · exact Or.inr ⟨_,sys_error hr,.putSys hs.fds hs.calls (by simp),by simp [hs.calls]⟩

/-- The poll of the clients leaves the group's descriptors as they were. -/
structure Polled (w w' : World) : Prop where
  server : ∃ g : PollGroup, g.fds = w.server.pollGroup.fds ∧
    w'.server = { w.server with pollGroup := g }
  nextAvailableId : w'.nextAvailableId = w.nextAvailableId
  fds : w'.kernel.fds = w.kernel.fds
  log : ∃ pfds n, w'.log = w.log++[⟨.sys (.poll pfds n),w.toProcess⟩]

theorem pollClients_cases (w : World) :
    (∃ es w', pollClients.run w = (.ok es, w') ∧ Polled w w') ∨
    ∃ w', pollClients.run w = (.error .cut, w') ∧ w'.log = w.log := by
  unfold pollClients PollGroup.poll
  rw [run_server_bind]
  obtain ⟨pfds,n,s,hr,hfd,hf,hc,-⟩ | ⟨s,hr,hs⟩ :=
    Sys.poll_cases w.server.pollGroup.pfds (sysPart w)
  · left
    rw [bind_ok (sys_ok (bind_ok hr))]
    exact ⟨_,_,rfl,⟨{ w.server.pollGroup with pfds := pfds },hfd,rfl⟩,rfl,hf,pfds,n,
      by simp [hc]⟩
  · right
    rw [bind_error (sys_error (bind_error hr))]
    exact ⟨_,rfl,by simp [hs.calls]⟩

/-! The event loop. -/

/-- One event. The client with the descriptor is marked when the status says so or
::recv brings no data or `ec_` is set after it; otherwise its handler is called. -/
inductive Handled (e : SocketStatusInfo) (w : World) : Except Halt Bool × World → Prop where
  | ignored : Handled e w (.ok false, w)
  | crash : Handled e w (.error .crash, w)
  | hungUp {i j : Nat} {c d : ClientInfo}
      (hf : find (fun c => c.fd == e.socketFd) w.server.clients = .found i c)
      (hd : find (fun d => d.id == c.id) w.server.clients = .found j d) :
      Handled e w (.ok false, w.mark j d)
  | rejected {i j : Nat} {c d : ClientInfo} {ec : ErrorCode} {s : SysState}
      (hf : find (fun c => c.fd == e.socketFd) w.server.clients = .found i c)
      (hfds : s.kernel.fds = w.kernel.fds)
      (hcalls : s.calls = [] ∨ ∃ flags n bytes, (0 < n → w.server.ec.isSet = true) ∧
        s.calls = [.recv c.conn.socket Connection.maxBufferSize flags n bytes])
      (hd : find (fun d => d.id == c.id) w.server.clients = .found j d) :
      Handled e w (.ok false, ((putSys w s).withEc ec).mark j d)
  | closed {i j flags : Nat} {c d : ClientInfo} {ec : ErrorCode} {s : SysState}
      (hf : find (fun c => c.fd == e.socketFd) w.server.clients = .found i c)
      (hopen : c.conn.socket ≠ 0)
      (hfds : s.kernel.fds = w.kernel.fds.filter (· ≠ c.conn.socket))
      (hcalls : s.calls = [.recv c.conn.socket Connection.maxBufferSize flags 0 [],
        .close c.conn.socket])
      (hd : find (fun d => d.id == c.id)
        (w.server.clients.set i (some { c with conn := {} })) = .found j d) :
      Handled e w
        (.ok false, (((putSys w s).withClient i { c with conn := {} }).withEc ec).mark j d)
  | delivered {i flags : Nat} {c : ClientInfo} {bytes : List Byte} {s : SysState}
      (hf : find (fun c => c.fd == e.socketFd) w.server.clients = .found i c)
      (hopen : c.conn.socket ≠ 0) (hne : bytes ≠ [])
      (hsize : bytes.length ≤ Connection.maxBufferSize) (hec : w.server.ec.isSet = false)
      (hfds : s.kernel.fds = w.kernel.fds)
      (hcalls : s.calls = [.recv c.conn.socket Connection.maxBufferSize flags
        bytes.length bytes]) :
      Handled e w
        (.ok true, (putSys w s).note (.callback (.dataReceive c.id (.ofList bytes))))
  | cut {i : Nat} {c : ClientInfo} {s : SysState}
      (hf : find (fun c => c.fd == e.socketFd) w.server.clients = .found i c)
      (hcalls : s.calls = [] ∨ ∃ flags,
        s.calls = [.recv c.conn.socket Connection.maxBufferSize flags 0 []]) :
      Handled e w (.error .cut, putSys w s)

theorem withClient_self {w : World} {s : SysState} {i : Nat} {c : ClientInfo}
    (h : w.server.clients[i]? = some (some c)) :
    (putSys w s).withClient i c = putSys w s := by
  have hi : (putSys w s).server.clients.set i (some c) = w.server.clients := set_self h
  simp only [World.withClient,World.withServer,hi]
  rfl

/-- The client just served is still found by its id, or one before it. -/
theorem removeClient_served {w : World} {i : Nat} {c : ClientInfo} (conn : Connection)
    (ec : ErrorCode) (s : SysState) (hc : w.server.clients[i]? = some (some c))
    (hpassed : ∀ j < i, w.server.clients[j]? ≠ some none) :
    ∃ j d, find (fun d => d.id == c.id)
        (w.server.clients.set i (some { c with conn := conn })) = .found j d ∧
      (removeClient c.id).run
        (((putSys w s).withClient i { c with conn := conn }).withEc ec) =
        (.ok (), (((putSys w s).withClient i { c with conn := conn }).withEc ec).mark j d) := by
  have hi : i < w.server.clients.length := (List.getElem?_eq_some_iff.mp hc).1
  have hpassed' : ∀ j < i, (w.server.clients.set i (some { c with conn := conn }))[j]? ≠
      some none := by
    intro j hj
    have hne : i ≠ j := by omega
    simpa [hne] using hpassed j hj
  obtain ⟨j,d,hd,-,hr⟩ := removeClient_found (c := { c with conn := conn })
    (w := ((putSys w s).withClient i { c with conn := conn }).withEc ec) (i := i)
    (by simp [hi]) rfl hpassed'
  exact ⟨j,d,hd,hr⟩

theorem handleEvent_cases (e : SocketStatusInfo) (w : World) :
    Handled e w ((handleEvent e).run w) := by
  unfold handleEvent clientInfoFromNativeSocket
  obtain ⟨i,c,hf,h⟩ | ⟨hf,h⟩ | ⟨hf,h⟩ := lookup_cases (fun c => c.fd == e.socketFd) w
  · rw [bind_ok h]
    dsimp only
    have hc := (find_found hf).1
    have hpassed := find_passed hf
    have hself : w.server.clients.set i (some c) = w.server.clients := set_self hc
    by_cases hhup : e.status &&& (SocketStatus.error ||| SocketStatus.hungUp) ≠ 0
    · obtain ⟨j,d,hd,-,hr⟩ := removeClient_found hc rfl hpassed
      rw [if_pos hhup,bind_ok hr]
      exact .hungUp hf hd
    · rw [if_neg hhup]
      by_cases hread : e.status &&& SocketStatus.readable ≠ 0
      · rw [if_pos hread,run_server_bind]
        by_cases hopen : c.conn.isConnected = true
        · have hsock : c.conn.socket ≠ 0 := by simpa [Connection.isConnected] using hopen
          have hmax : Connection.maxBufferSize ≠ 0 := by decide
          obtain ⟨flags,hr⟩ := Connection.receive_open w.server.ec 0 hopen hmax (sysPart w)
          cases hrun : (c.conn.receive Connection.maxBufferSize w.server.ec 0).run
              (sysPart w) with
          | mk r s =>
            rw [hrun] at hr
            cases hr with
            | @data bytes _ hne hsize hcap hfds hcalls hans =>
              rw [bind_ok (sys_ok hrun)]
              dsimp only
              rw [bind_ok (run_setClient _ _ _),bind_ok (run_setEc _ _)]
              have hcalls' : s.calls =
                  [.recv c.conn.socket Connection.maxBufferSize flags bytes.length bytes] := by
                simpa using hcalls
              by_cases hec : w.server.ec.isSet = true
              · obtain ⟨j,d,hd,hrem⟩ := removeClient_served c.conn w.server.ec s hc hpassed
                rw [if_pos (by simp [hec]),bind_ok hrem,withClient_self hc]
                exact .rejected hf hfds (Or.inr ⟨flags,_,bytes,fun _ => hec,hcalls'⟩)
                  (hself ▸ hd)
              · have hec' : w.server.ec.isSet = false := by simpa using hec
                have hsmall : bytes.length < 2^64 :=
                  Nat.lt_of_le_of_lt hsize (by decide)
                have hdata : (Buffer.ofList bytes).size ≠ 0 := by
                  rw [Buffer.size,Buffer.data_ofList hsmall]
                  exact fun h => hne (List.length_eq_zero_iff.mp h)
                rw [if_neg (by simp [hec',hdata]),bind_ok (run_emit _ _),withClient_self hc]
                exact .delivered hf hsock hne hsize hec' hfds hcalls'
            | failed er hfds hcalls hans =>
              rw [bind_ok (sys_ok hrun)]
              dsimp only
              obtain ⟨j,d,hd,hrem⟩ :=
                removeClient_served c.conn (.assign er.1) s hc hpassed
              rw [bind_ok (run_setClient _ _ _),bind_ok (run_setEc _ _),
                if_pos (by simp [ErrorCode.isSet_errno]),bind_ok hrem,withClient_self hc]
              exact .rejected hf hfds (Or.inr ⟨flags,-1,[],by omega,by simpa using hcalls⟩)
                (hself ▸ hd)
            | closed er hfds hcalls hans =>
              rw [bind_ok (sys_ok hrun)]
              dsimp only
              obtain ⟨j,d,hd,hrem⟩ := removeClient_served {} (.assign er) s hc hpassed
              rw [bind_ok (run_setClient _ _ _),bind_ok (run_setEc _ _),
                if_pos (by simp [Buffer.size]),bind_ok hrem]
              exact .closed hf hsock hfds (by simpa using hcalls) hd
            | closing hfds hcalls hans =>
              rw [bind_error (sys_error hrun)]
              exact .cut hf (Or.inr ⟨flags,by simpa using hcalls⟩)
            | cut hs =>
              rw [bind_error (sys_error hrun)]
              exact .cut hf (Or.inl (by simpa using hs.calls))
        · have hrun := Connection.receive_closed Connection.maxBufferSize w.server.ec 0
            (by simpa using hopen) (sysPart w)
          obtain ⟨j,d,hd,hrem⟩ :=
            removeClient_served c.conn (.assign 1) (sysPart w) hc hpassed
          rw [bind_ok (sys_ok hrun)]
          dsimp only
          rw [bind_ok (run_setClient _ _ _),bind_ok (run_setEc _ _),if_pos (by rfl),
            bind_ok hrem,withClient_self hc]
          exact .rejected hf rfl (Or.inl rfl) (hself ▸ hd)
      · rw [if_neg hread]
        exact .ignored
  · rw [bind_ok h]
    exact .ignored
  · rw [bind_error h]
    exact .crash

/-! The removal. -/

def Closes (new : List Observation) : Prop :=
  ∀ o ∈ new, ∃ fd, o.event = .sys (.close fd)

/-- The loop of `std::remove_if`. As long as no element moves the order is kept and
nothing happens; once one moves, an empty pointer lies in the gap for good. -/
inductive Gathered (kept gap rest : List (Option ClientInfo)) (w : World) :
    Except Halt (List (Option ClientInfo) × List (Option ClientInfo)) × World → Prop where
  | clean {kept' gap' : List (Option ClientInfo)} (h : kept'++gap' = kept++gap++rest)
      (hkept : ∀ c, some c ∈ kept' → some c ∈ kept ∨ c.isConnected = true)
      (hgap : ∀ c, some c ∈ gap' → c.isConnected = false) :
      Gathered kept gap rest w (.ok (kept',gap'), w)
  | moved {kept' gap' : List (Option ClientInfo)} {w' : World} (hnone : none ∈ gap')
      (hsub : (entries (kept'++gap')).Subperm (entries (kept++gap++rest)))
      (hgap : ∀ c, some c ∈ gap' → c.isConnected = false)
      (hserver : w'.server = w.server) (hnext : w'.nextAvailableId = w.nextAvailableId)
      (hlog : ∃ new, w'.log = w.log++new ∧ Closes new) :
      Gathered kept gap rest w (.ok (kept',gap'), w')
  | cut {w' : World} (hlog : ∃ new, w'.log = w.log++new ∧ Closes new) :
      Gathered kept gap rest w (.error .cut, w')

theorem destroyClient_closes (target : Option ClientInfo) (w : World) :
    (∃ w', (destroyClient target).run w = (.ok (), w') ∧ w'.server = w.server ∧
      w'.nextAvailableId = w.nextAvailableId ∧ ∃ new, w'.log = w.log++new ∧ Closes new) ∨
    ∃ w', (destroyClient target).run w = (.error .cut, w') ∧ w'.log = w.log := by
  cases target with
  | none => exact Or.inl ⟨w,rfl,rfl,rfl,[],by simp,by simp [Closes]⟩
  | some c =>
    by_cases h0 : c.conn.socket = 0
    · exact Or.inl ⟨w,destroyClient_closed h0 w,rfl,rfl,[],by simp,by simp [Closes]⟩
    · obtain ⟨s,hr,hfds,hcalls⟩ | ⟨s,hr,hfds,hcalls⟩ := destroyClient_open h0 w
      · exact Or.inl ⟨_,hr,rfl,rfl,_,rfl,by simp [hcalls,Closes]⟩
      · exact Or.inr ⟨_,hr,by simp [hcalls]⟩

/-- Moving an entry forward loses the entry in whose place it comes. -/
theorem move_subperm (kept gap rest : List (Option ClientInfo)) (target : Option ClientInfo)
    (c : ClientInfo) : (entries ((kept++[some c])++(gap++[none])++rest)).Subperm
      (entries (kept++target::gap++some c::rest)) := by
  have hl : entries ((kept++[some c])++(gap++[none])++rest) =
      entries kept++c::(entries gap++entries rest) := by
    simp [List.reduceOption_append]
  have hr : entries (kept++target::gap++some c::rest) =
      entries kept++(entries [target]++(entries gap++c::entries rest)) := by
    cases target <;> simp [List.reduceOption_append]
  rw [hl,hr]
  have hperm : (c::(entries gap++entries rest)).Perm (entries gap++c::entries rest) :=
    List.perm_middle.symm
  exact (List.Subperm.refl _).append
    (hperm.subperm.trans (List.sublist_append_right _ _).subperm)

/-- An empty pointer in the gap stays there. -/
theorem removeIfLoop_none (kept gap rest : List (Option ClientInfo)) (w : World)
    (hn : none ∈ gap) {kept' gap' : List (Option ClientInfo)} {w' : World}
    (h : (removeIfLoop kept gap rest).run w = (.ok (kept',gap'), w')) : none ∈ gap' := by
  induction rest generalizing kept gap w with
  | nil =>
    cases h
    exact hn
  | cons e rest ih =>
    cases e with
    | none => cases h
    | some c =>
      by_cases hc : c.isConnected = true
      · cases gap with
        | nil => exact absurd hn List.not_mem_nil
        | cons target gap =>
          simp only [removeIfLoop,hc,Bool.not_true,Bool.false_eq_true,if_false] at h
          obtain ⟨w1,hr,-⟩ | ⟨w1,hr,-⟩ := destroyClient_closes target w
          · rw [bind_ok hr] at h
            exact ih _ _ _ (by simp) h
          · rw [bind_error hr] at h
            cases h
      · simp only [removeIfLoop,hc,Bool.not_false,if_true] at h
        exact ih _ _ _ (List.mem_append_left _ hn) h

theorem removeIfLoop_cases (kept gap rest : List (Option ClientInfo)) (w : World)
    (hgap : ∀ c, some c ∈ gap → c.isConnected = false) (hrest : none ∉ rest) :
    Gathered kept gap rest w ((removeIfLoop kept gap rest).run w) := by
  induction rest generalizing kept gap w with
  | nil => exact .clean (by simp) (fun c hc => Or.inl hc) hgap
  | cons e rest ih =>
    cases e with
    | none => exact absurd List.mem_cons_self hrest
    | some c =>
      have hrest' : none ∉ rest := fun h => hrest (List.mem_cons_of_mem _ h)
      by_cases hc : c.isConnected = true
      · simp only [removeIfLoop,hc,Bool.not_true,Bool.false_eq_true,if_false]
        cases gap with
        | nil =>
          dsimp only
          have h := ih (kept++[some c]) [] w (by simp) hrest'
          generalize (removeIfLoop (kept++[some c]) [] rest).run w = r at h ⊢
          cases h with
          | clean h hkept hgap' =>
            refine .clean (by simpa using h) ?_ hgap'
            intro d hd
            obtain hd | hd := hkept d hd
            · obtain hd | hd := List.mem_append.mp hd
              · exact Or.inl hd
              · cases List.mem_singleton.mp hd
                exact Or.inr hc
            · exact Or.inr hd
          | moved hnone hsub hgap' hs hn hlog =>
            exact .moved hnone (by simpa using hsub) hgap' hs hn hlog
          | cut hlog => exact .cut hlog
        | cons target gap =>
          dsimp only
          have hsub := move_subperm kept gap rest target c
          have hgap1 : ∀ d, some d ∈ gap++[none] → d.isConnected = false := by
            intro d hd
            have hd' : some d ∈ gap := by simpa using hd
            exact hgap d (List.mem_cons_of_mem _ hd')
          obtain ⟨w1,hr,hs,hn,new,hl,hclose⟩ | ⟨w1,hr,hl⟩ := destroyClient_closes target w
          · rw [bind_ok hr]
            have h := ih (kept++[some c]) (gap++[none]) w1 hgap1 hrest'
            have hnone : ∀ k g w', (removeIfLoop (kept++[some c]) (gap++[none]) rest).run w1 =
                (.ok (k,g), w') → none ∈ g := fun k g w' hr =>
              removeIfLoop_none _ _ rest w1 (by simp) hr
            generalize (removeIfLoop (kept++[some c]) (gap++[none]) rest).run w1 = r
              at h hnone ⊢
            cases h with
            | clean h hkept hgap' =>
              exact .moved (hnone _ _ _ rfl) (by rw [h]; exact hsub) hgap' hs hn
                ⟨new,hl,hclose⟩
            | moved hnone' hsub' hgap' hs' hn' hlog =>
              obtain ⟨new',hl',hclose'⟩ := hlog
              refine .moved hnone' (hsub'.trans hsub) hgap' (hs'.trans hs) (hn'.trans hn)
                ⟨new++new',by rw [hl',hl,List.append_assoc],?_⟩
              exact List.forall_mem_append.mpr ⟨hclose,hclose'⟩
            | cut hlog =>
              obtain ⟨new',hl',hclose'⟩ := hlog
              exact .cut ⟨new++new',by rw [hl',hl,List.append_assoc],
                List.forall_mem_append.mpr ⟨hclose,hclose'⟩⟩
          · rw [bind_error hr]
            exact .cut ⟨[],by simp [hl],by simp [Closes]⟩
      · have hc' : c.isConnected = false := by simpa using hc
        simp only [removeIfLoop,hc',Bool.not_false,if_true]
        have hgap1 : ∀ d, some d ∈ gap++[some c] → d.isConnected = false := by
          intro d hd
          obtain hd | hd := List.mem_append.mp hd
          · exact hgap d hd
          · cases List.mem_singleton.mp hd
            exact hc'
        have h := ih kept (gap++[some c]) w hgap1 hrest'
        generalize (removeIfLoop kept (gap++[some c]) rest).run w = r at h ⊢
        cases h with
        | clean h hkept hgap' => exact .clean (by simpa using h) hkept hgap'
        | moved hnone hsub hgap' hs hn hlog =>
          exact .moved hnone (by simpa using hsub) hgap' hs hn hlog
        | cut hlog => exact .cut hlog

/-- `std::remove_if` on a vector without empty pointers: either nothing moves, and the
vector was the connected entries followed by the others, or empty pointers are left
behind the returned position. -/
inductive Parted (w : World) : Except Halt Nat × World → Prop where
  | clean {kept gone : List (Option ClientInfo)} (h : w.server.clients = kept++gone)
      (hkept : ∀ c, some c ∈ kept → c.isConnected = true)
      (hgone : ∀ c, some c ∈ gone → c.isConnected = false) :
      Parted w (.ok kept.length, w)
  | moved {kept gap : List (Option ClientInfo)} {w' : World} (hnone : none ∈ gap)
      (hsub : (entries (kept++gap)).Subperm (entries w.server.clients))
      (hgap : ∀ c, some c ∈ gap → c.isConnected = false)
      (hserver : w'.server = { w.server with clients := kept++gap })
      (hnext : w'.nextAvailableId = w.nextAvailableId)
      (hlog : ∃ new, w'.log = w.log++new ∧ Closes new) : Parted w (.ok kept.length, w')
  | cut {w' : World} (hlog : ∃ new, w'.log = w.log++new ∧ Closes new) :
      Parted w (.error .cut, w')

theorem removeDisconnected_cases (w : World) (hw : none ∉ w.server.clients) :
    Parted w (removeDisconnected.run w) := by
  unfold removeDisconnected
  rw [run_server_bind]
  have h := removeIfLoop_cases [] [] w.server.clients w (by simp) hw
  cases hr : (removeIfLoop [] [] w.server.clients).run w with
  | mk r w' =>
    rw [hr] at h
    cases h with
    | @clean kept gap h hkept hgap =>
      rw [bind_ok hr]
      dsimp only
      rw [bind_ok (run_setServer _ _)]
      have hself : (w.withServer fun s => { s with clients := kept++gap }) = w := by
        have hcs : kept++gap = w.server.clients := by simpa using h
        simp only [World.withServer,hcs]
      rw [hself]
      exact .clean (by simpa using h.symm) (fun c hc => by simpa using hkept c hc) hgap
    | moved hnone hsub hgap hs hn hlog =>
      rw [bind_ok hr]
      dsimp only
      rw [bind_ok (run_setServer _ _)]
      exact .moved hnone (by simpa using hsub) hgap (by simp [hs]) hn hlog
    | cut hlog =>
      rw [bind_error hr]
      exact .cut hlog

/-- One round of the sweep's loop: the client at position i leaves the poll group,
its connection is closed, its handler is called. -/
inductive Disconnected (i : Nat) (w : World) : Except Halt Unit × World → Prop where
  | crash (h : ∀ c, w.server.clients[i]? ≠ some (some c)) :
      Disconnected i w (.error .crash, w)
  | done {c : ClientInfo} {conn : Connection} {w1 : World}
      (h : w.server.clients[i]? = some (some c)) (hconn : conn.socket = 0)
      (hserver : w1.server = { w.server with
        clients := w.server.clients.set i (some { c with conn := conn })
        pollGroup := w.server.pollGroup.removeSocket c.fd })
      (hnext : w1.nextAvailableId = w.nextAvailableId)
      (hfds : w1.kernel.fds = w.kernel.fds.filter fun fd => c.conn.socket = 0 ∨
        fd ≠ c.conn.socket)
      (hlog : (c.conn.socket = 0 ∧ w1.log = w.log) ∨ (c.conn.socket ≠ 0 ∧ ∃ p : Process,
        p.server.clients = w.server.clients ∧
        w1.log = w.log++[⟨.sys (.close c.conn.socket),p⟩])) :
      Disconnected i w (.ok (), w1.note (.callback (.disconnect c.id)))
  | cut {w' : World} (hlog : w'.log = w.log) : Disconnected i w (.error .cut, w')

theorem disconnectClient_at {i : Nat} {c : ClientInfo} {w : World}
    (hi : w.server.clients[i]? = some (some c)) : (disconnectClient i).run w =
      (sys c.conn.disconnect >>= fun conn => setClient i { c with conn := conn } >>= fun _ =>
        emit (.callback (.disconnect c.id))).run
          (w.withServer fun s => { s with pollGroup := s.pollGroup.removeSocket c.fd }) :=
  bind_ok (deref_entry hi)

theorem disconnectClient_crash {i : Nat} {w : World}
    (h : ∀ c, w.server.clients[i]? ≠ some (some c)) :
    (disconnectClient i).run w = (.error .crash, w) := bind_error (deref_crash h)

theorem disconnectClient_cases (i : Nat) (w : World) :
    Disconnected i w ((disconnectClient i).run w) := by
  by_cases hi : ∃ c, w.server.clients[i]? = some (some c)
  · obtain ⟨c,hi⟩ := hi
    rw [disconnectClient_at hi]
    by_cases h0 : c.conn.socket = 0
    · have hopen : c.conn.isConnected = false := by simp [Connection.isConnected,h0]
      rw [bind_ok (sys_ok (Connection.disconnect_closed hopen _)),
        bind_ok (run_setClient _ _ _),run_emit]
      exact .done hi h0 rfl rfl (by simp [h0]) (Or.inl ⟨h0,by simp⟩)
    · have hopen : c.conn.isConnected = true := by simp [Connection.isConnected,h0]
      obtain ⟨s,hr,hf,hc,-⟩ | ⟨s,hr,hs⟩ := Connection.disconnect_open hopen
        (sysPart (w.withServer fun s => { s with pollGroup := s.pollGroup.removeSocket c.fd }))
      · rw [bind_ok (sys_ok hr),bind_ok (run_setClient _ _ _),run_emit]
        refine .done hi rfl rfl rfl (by simp [hf,h0]) (Or.inr ⟨h0,_,?_,by simp [hc]; rfl⟩)
        rfl
      · rw [bind_error (sys_error hr)]
        exact .cut (by simp [hs.calls])
  · have hnone : ∀ c, w.server.clients[i]? ≠ some (some c) := fun c hc => hi ⟨c,hc⟩
    rw [disconnectClient_crash hnone]
    exact .crash hnone

theorem eraseFrom_closed (first : Nat) (w : World)
    (h : ∀ e ∈ w.server.clients.drop first, ∃ c, e = some c ∧ c.conn.socket = 0) :
    (eraseFrom first).run w =
      (.ok (), w.withServer fun s => { s with clients := s.clients.take first }) := by
  unfold eraseFrom
  rw [run_server_bind]
  have hrun : ∀ cs : List (Option ClientInfo),
      (∀ e ∈ cs, ∃ c, e = some c ∧ c.conn.socket = 0) →
      (cs.forM destroyClient).run w = (.ok (), w) := by
    intro cs hcs
    induction cs with
    | nil => rfl
    | cons e cs ih =>
      obtain ⟨c,rfl,h0⟩ := hcs e (by simp)
      change (destroyClient (some c) >>= fun _ => cs.forM destroyClient).run w = _
      rw [bind_ok (destroyClient_closed h0 w)]
      exact ih fun e he => hcs e (by simp [he])
  rw [bind_ok (hrun _ h)]
  rfl

/-! The acceptor. -/

theorem sys_silent {α : Type} {m : Sys α} (h : Sys.Silent m) (w : World) :
    (∃ a s, (sys m).run w = (.ok a, putSys w s) ∧ s.calls = []) ∨
    ∃ s, (sys m).run w = (.error .cut, putSys w s) ∧ s.calls = [] := by
  obtain ⟨hc,he⟩ := h (sysPart w)
  cases hr : m.run (sysPart w) with
  | mk r s =>
    rw [hr] at hc he
    cases r with
    | ok a => exact Or.inl ⟨a,s,sys_ok hr,hc⟩
    | error e =>
      rw [he e rfl] at hr
      exact Or.inr ⟨s,sys_error hr,hc⟩

theorem openAcceptor_cases (w : World) :
    (∃ w', openAcceptor.run w = (.ok (), w') ∧ w'.log = w.log ∧
      w'.nextAvailableId = w.nextAvailableId ∧
      ∃ a, w'.server = { w.server with running := true, acceptor := a, ec := .clear }) ∨
    ∃ e w', openAcceptor.run w = (.error e, w') ∧ w'.log = w.log ∧ (e = .cut ∨ e = .exit) := by
  unfold openAcceptor
  rw [bind_ok (run_setServer _ _),run_server_bind,run_server_bind]
  have hs : (w.withServer fun s => { s with running := true }).server =
    { w.server with running := true } := rfl
  have hl : (w.withServer fun s => { s with running := true }).log = w.log := rfl
  have hn : (w.withServer fun s => { s with running := true }).nextAvailableId =
    w.nextAvailableId := rfl
  generalize (w.withServer fun s => { s with running := true }) = w1 at hs hl hn ⊢
  obtain ⟨⟨es,ec⟩,s,hr,hc⟩ | ⟨s,hr,hc⟩ := sys_silent
    (resolve_silent anyAddress (toString w1.server.port) w1.server.ec) w1
  · rw [bind_ok hr]
    dsimp only
    rw [bind_ok (run_setEc _ _)]
    by_cases hec : ec.isSet = true
    · rw [if_pos hec]
      exact Or.inr ⟨.exit,_,rfl,by simp [hc,hl],Or.inr rfl⟩
    · rw [if_neg hec,run_server_bind]
      obtain ⟨⟨a,ec'⟩,s',hr',hc'⟩ | ⟨s',hr',hc'⟩ := sys_silent
        (Acceptor.openOn_silent ((putSys w1 s).withEc ec).server.acceptor es ec true)
        ((putSys w1 s).withEc ec)
      · rw [bind_ok hr']
        dsimp only
        rw [bind_ok (run_setServer _ _)]
        by_cases hec' : ec'.isSet = true
        · rw [if_pos hec']
          exact Or.inr ⟨.exit,_,rfl,by simp [hc,hc',hl],Or.inr rfl⟩
        · rw [if_neg hec']
          have hclear : ec' = .clear := ErrorCode.isSet_eq_false.mp (by simpa using hec')
          exact Or.inl ⟨_,rfl,by simp [hc,hc',hl],hn,a,by simp [hclear,hs]⟩
      · rw [bind_error hr']
        exact Or.inr ⟨.cut,_,rfl,by simp [hc,hc',hl],Or.inl rfl⟩
  · rw [bind_error hr]
    exact Or.inr ⟨.cut,_,rfl,by simp [hc,hl],Or.inl rfl⟩

theorem closeAcceptor_cases (w : World) :
    (∃ a new w', closeAcceptor.run w = (.ok (), w') ∧ a.isOpen = false ∧
      w'.server = { w.server with acceptor := a } ∧
      w'.nextAvailableId = w.nextAvailableId ∧ w'.log = w.log++new ∧ Closes new ∧
      w'.kernel.fds = w.kernel.fds.filter fun fd => w.server.acceptor.socket = 0 ∨
        fd ≠ w.server.acceptor.socket) ∨
    ∃ w', closeAcceptor.run w = (.error .cut, w') ∧ w'.log = w.log := by
  unfold closeAcceptor
  rw [run_server_bind]
  by_cases ha : w.server.acceptor.isOpen = true
  · obtain ⟨s,hr,hf,hc,-⟩ | ⟨s,hr,hs⟩ := Acceptor.close_open ha (sysPart w)
    · left
      rw [bind_ok (sys_ok hr),run_setServer]
      have h0 : w.server.acceptor.socket ≠ 0 := by simpa [Acceptor.isOpen] using ha
      refine ⟨{},_,_,rfl,rfl,rfl,rfl,rfl,?_,?_⟩
      · simp [Closes,hc]
      · simp [hf,h0]
    · right
      rw [bind_error (sys_error hr)]
      exact ⟨_,rfl,by simp [hs.calls]⟩
  · have ha' : w.server.acceptor.isOpen = false := by simpa using ha
    left
    rw [bind_ok (sys_ok (Acceptor.close_closed ha' _)),run_setServer]
    have h0 : w.server.acceptor.socket = 0 := by simpa [Acceptor.isOpen] using ha'
    exact ⟨_,[],_,rfl,ha',rfl,rfl,by simp,by simp [Closes],by simp [h0]⟩

end Server
end Yonaa
