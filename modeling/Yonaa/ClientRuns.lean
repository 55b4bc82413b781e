import Yonaa.Client

/-! What the acts of a client can do, and the network thread's function as a walk along the
acts of the network thread. -/
namespace Yonaa
namespace Client
open Machine

def World.note (w : World) (e : Event) : World := { w with log := w.log++[e] }

@[simp] theorem note_log (w : World) (e : Event) : (w.note e).log = w.log++[e] := rfl
@[simp] theorem note_client (w : World) (e : Event) : (w.note e).client = w.client := rfl

/-- The events new were logged, and `running_` was left alone. -/
structure Touch (w : World) (new : List Event) (w' : World) : Prop where
  log : w'.log = w.log++new
  running : w'.client.running = w.client.running

theorem Touch.refl (w : World) : Touch w [] w := ⟨(List.append_nil _).symm,rfl⟩

theorem Touch.note (w : World) (e : Event) : Touch w [e] (w.note e) := ⟨rfl,rfl⟩

/-- What `receive` returns, by the calls it made. -/
inductive Receipt : Buffer → List Event → Prop where
  | data {fd : Int} {size flags : Nat} {bytes : List Byte} (hne : bytes ≠ [])
      (hlen : bytes.length < 2^64) :
      Receipt (.ofList bytes) [.sys (.recv fd size flags bytes.length bytes)]
  | failed {fd : Int} {size flags : Nat} : Receipt {} [.sys (.recv fd size flags (-1) [])]
  | closed {fd : Int} {size flags : Nat} :
      Receipt {} [.sys (.recv fd size flags 0 []),.sys (.close fd)]
  | guard : Receipt {} []

/-- A call that tells nothing to anyone: what an operation leaves that was cut. -/
def Event.isSilent : Event → Prop
  | .performs _ => True
  | .sys (.recv _ _ _ n _) => n ≤ 0
  | _ => False

def Point.waits : Point → Prop
  | .resolving | .connecting _ | .polling | .receiving | .closing => True
  | _ => False

inductive Turn (w : World) : Point → List Event → World → Point → Prop where
  | resolve {remoteEndpoints : List Endpoint} {b : Bool} {w' : World}
      (h : Touch w [.performs b] w') :
      Turn w .resolving [.performs b] w' (.resolved remoteEndpoints)
  | connect {remoteEndpoints : List Endpoint} {b : Bool} {w' : World}
      (h : Touch w [.performs b] w') :
      Turn w (.connecting remoteEndpoints) [.performs b] w' .connected
  | exit {p : Point} (hp : p = .connected ∨ ∃ es, p = .resolved es)
      (he : w.client.ec.isSet = true) : Turn w p [.exit] (w.note .exit) .exited
  | resolved {remoteEndpoints : List Endpoint} (he : w.client.ec.isSet = false) :
      Turn w (.resolved remoteEndpoints) [] w (.connecting remoteEndpoints)
  | connected (he : w.client.ec.isSet = false) : Turn w .connected [] w .announcing
  | announce : Turn w .announcing [.connect] (w.note .connect) .head
  | iterate (hr : w.client.running = true) :
      Turn w .head [.iteration] (w.note .iteration) .checking
  | leave (hr : w.client.running = false) : Turn w .head [] w .closing
  | lost (hc : w.client.conn.isConnected = false) :
      Turn w .checking [.disconnect .network] (w.note (.disconnect .network)) .head
  | check (hc : w.client.conn.isConnected = true) : Turn w .checking [] w .polling
  | poll {pfds : List PollFd} {n : Int} {q : Point} {w' : World}
      (h : Touch w [.sys (.poll pfds n)] w') (hq : q = .head ∨ q = .receiving) :
      Turn w .polling [.sys (.poll pfds n)] w' q
  | receive {data : Buffer} {new : List Event} {w' : World} (h : Touch w new w')
      (hr : Receipt data new) : Turn w .receiving new w' (.received data)
  | fail {data : Buffer} (h : w.client.ec.isSet = true ∨ data.size = 0) :
      Turn w (.received data) [.disconnect .network] (w.note (.disconnect .network)) .head
  | pass {data : Buffer} (he : w.client.ec.isSet = false) (hd : data.size ≠ 0) :
      Turn w (.received data) [.dataReceive data] (w.note (.dataReceive data)) .head
  | close {w' : World} (h : Touch w [] w') : Turn w .closing [] w' .leaving
  | closed {fd : Int} {w' : World} (h : Touch w [.sys (.close fd)] w') :
      Turn w .closing [.sys (.close fd)] w' .leaving
  | last : Turn w .leaving [.disconnect .network] (w.note (.disconnect .network)) .ended

def Sends (caller : Thread) (w : World) (msg : Buffer) (calls : List SysCall) : Prop :=
  ((w.client.conn.send msg w.client.ec).run
    (sysPart caller (w.note (.message msg)))).2.calls = calls

/-- What an act can do, with the events it logs. -/
inductive Moved (s : State) : Act → List Event → State → Prop where
  | connect {hostname service : String} (hp : s.point = .absent) :
      Moved s (.connect hostname service) [] { s with
        world.client.hostname := hostname
        world.client.service := service
        world.kernel.errno := 0
        point := .resolving }
  | terminate {hostname service : String} (hp : s.point ≠ .absent) :
      Moved s (.connect hostname service) [] { s with halted := true }
  | disconnect : Moved s .disconnect [] { s with asked := true, world.client.running := false }
  | sent {caller : Thread} {msg : Buffer} {calls : List SysCall} {w : World}
      (hs : Sends caller s.world msg calls)
      (h : Touch s.world (.message msg::calls.map .sys) w) :
      Moved s (.send caller msg) (.message msg::calls.map .sys)
        { s with world := w, unchecked := s.unchecked+1 }
  | sending {caller : Thread} {msg : Buffer} {calls : List SysCall} {w : World}
      (hs : Sends caller s.world msg calls)
      (h : Touch s.world (.message msg::calls.map .sys) w) :
      Moved s (.send caller msg) (.message msg::calls.map .sys)
        { s with world := w, halted := true }
  | clear (hu : s.unchecked ≠ 0) (he : s.world.client.ec.isSet = false) :
      Moved s .check [] { s with unchecked := s.unchecked-1 }
  | report (hu : s.unchecked ≠ 0) (he : s.world.client.ec.isSet = true) :
      Moved s .check [.disconnect .user]
        { s with world := s.world.note (.disconnect .user), unchecked := s.unchecked-1 }
  | destroy (hd : s.destroyed = false) : Moved s .destroy [] { s with destroyed := true }
  | net {new : List Event} {w : World} {q : Point} (h : Turn s.world s.point new w q) :
      Moved s .net new { s with world := w, point := q, halted := q = .exited }
  | blocked {new : List Event} {w : World} (hp : s.point.waits) (h : Touch s.world new w)
      (hnew : ∀ e ∈ new, e.isSilent) : Moved s .net new { s with world := w, halted := true }

section Operations
variable {α β : Type} {t : Thread} {w : World}

theorem run_client_bind (k : Client → Run β) : (client >>= k).run w = (k w.client).run w := rfl

theorem sysOn_ok {m : Sys α} {x : α} {s : SysState} (h : m.run (sysPart t w) = (.ok x, s)) :
    (sysOn t m).run w = (.ok x, putSys t w s) := by
  simp [sysOn,Prog.zoom,h]

theorem sysOn_error {m : Sys α} {e : Halt} {s : SysState}
    (h : m.run (sysPart t w) = (.error e, s)) : (sysOn t m).run w = (.error e, putSys t w s) := by
  simp [sysOn,Prog.zoom,h]

theorem sys_ok {m : Sys α} {x : α} {s : SysState} (h : m.run (sysPart .network w) = (.ok x, s)) :
    (sys m).run w = (.ok x, putSys .network w s) := sysOn_ok h

theorem sys_error {m : Sys α} {e : Halt} {s : SysState}
    (h : m.run (sysPart .network w) = (.error e, s)) :
    (sys m).run w = (.error e, putSys .network w s) := sysOn_error h

theorem performed_silent {o : Operation} {m : Sys α} (hm : Sys.Silent m) (w : World) :
    ∃ r w', (perform o >>= fun _ => sys m).run w = (r, w') ∧ (∀ e, r = .error e → e = .cut) ∧
      Touch w [.performs (o.succeeds (sysPart .network w))] w' := by
  have hrun : (perform o >>= fun _ => sys m).run w =
      (sys m).run (w.note (.performs (o.succeeds (sysPart .network w)))) := rfl
  obtain ⟨hcalls,he⟩ := hm (sysPart .network (w.note (.performs (o.succeeds (sysPart .network w)))))
  refine ⟨_,_,hrun,he,?_,rfl⟩
  simp only [putSys,hcalls]
  simp [sysPart]

end Operations

/-- An operation of the network thread returns, or it is cut. -/
inductive Took (w : World) (p : Point) : Except Halt Point × World → Prop where
  | done {new : List Event} {w' : World} {q : Point} (h : Turn w p new w' q) :
      Took w p (.ok q, w')
  | cut {new : List Event} {w' : World} (hp : p.waits) (h : Touch w new w')
      (hnew : ∀ x ∈ new, x.isSilent) : Took w p (.error .cut, w')

theorem Turn.touch {w w' : World} {p q : Point} {new : List Event} (h : Turn w p new w' q) :
    Touch w new w' := by
  cases h with
  | resolve h => exact h
  | connect h => exact h
  | poll h _ => exact h
  | receive h _ => exact h
  | close h => exact h
  | closed h => exact h
  | resolved _ => exact .refl w
  | connected _ => exact .refl w
  | leave _ => exact .refl w
  | check _ => exact .refl w
  | _ => exact .note w _

section Took
variable {w : World} {p : Point}

theorem took_performed {o : Operation} {α : Type} {m : Sys α} (hp : p.waits) (hm : Sys.Silent m)
    {k : α → Run Point} (hk : ∀ x w', Touch w [.performs (o.succeeds (sysPart .network w))] w' →
      ∃ q w'', (k x).run w' = (.ok q, w'') ∧
        Turn w p [.performs (o.succeeds (sysPart .network w))] w'' q) :
    Took w p (((perform o >>= fun _ => sys m) >>= k).run w) := by
  obtain ⟨r,w',hrun,he,ht⟩ := performed_silent (o := o) hm w
  cases r with
  | error e =>
    rw [Prog.bind_error hrun,he e rfl]
    refine .cut hp ht ?_
    intro x hx
    rw [List.mem_singleton.mp hx]
    trivial
  | ok x =>
    obtain ⟨q,w'',hq,hturn⟩ := hk x w' ht
    rw [Prog.bind_ok hrun,hq]
    exact .done hturn

theorem took_resolving {m : Run Point} (hm : next .resolving = some m) :
    Took w .resolving (m.run w) := by
  cases hm
  simp only [resolveServer,Prog.bind_bind,run_client_bind]
  rw [← Prog.bind_bind]
  refine took_performed (p := .resolving) trivial
    (o := .resolve w.client.hostname w.client.service)
    (k := fun x => setEc x.2 >>= fun _ => pure (.resolved x.1))
    (resolve_silent w.client.hostname w.client.service w.client.ec) ?_
  intro x w' ht
  exact ⟨_,_,rfl,.resolve ⟨ht.log,ht.running⟩⟩

theorem took_connecting {remoteEndpoints : List Endpoint} {m : Run Point}
    (hm : next (.connecting remoteEndpoints) = some m) :
    Took w (.connecting remoteEndpoints) (m.run w) := by
  cases hm
  simp only [connectTo,Prog.bind_bind,run_client_bind]
  rw [← Prog.bind_bind]
  refine took_performed (p := .connecting remoteEndpoints) trivial
    (o := .connect w.client.conn remoteEndpoints)
    (k := fun x => setConn x.1 >>= fun _ => setEc x.2 >>= fun _ => pure .connected)
    (w.client.conn.connect_silent remoteEndpoints w.client.ec) ?_
  intro x w' ht
  exact ⟨_,_,rfl,.connect ⟨ht.log,ht.running⟩⟩

theorem exitOnError_set (h : w.client.ec.isSet = true) :
    exitOnError.run w = (.ok false, w.note .exit) := by
  simp only [exitOnError,run_client_bind,h,if_true]
  rfl

theorem exitOnError_clear (h : w.client.ec.isSet = false) :
    exitOnError.run w = (.ok true, w) := by
  simp only [exitOnError,run_client_bind,h,Bool.false_eq_true,if_false]
  rfl

theorem took_exitOnError {q : Point} (hp : p = .connected ∨ ∃ es, p = .resolved es)
    (hq : w.client.ec.isSet = false → Turn w p [] w q) :
    Took w p ((exitOnError >>= fun b =>
      if b = true then pure q else pure .exited : Run Point).run w) := by
  cases h : w.client.ec.isSet with
  | true =>
    rw [Prog.bind_ok (exitOnError_set h)]
    exact .done (.exit hp h)
  | false =>
    rw [Prog.bind_ok (exitOnError_clear h)]
    exact .done (hq h)

theorem took_head {m : Run Point} (hm : next .head = some m) : Took w .head (m.run w) := by
  cases hm
  cases hr : w.client.running with
  | true =>
    simp only [run_client_bind,hr,if_true]
    exact .done (.iterate hr)
  | false =>
    simp only [run_client_bind,hr,Bool.false_eq_true,if_false]
    exact .done (.leave hr)

theorem took_checking {m : Run Point} (hm : next .checking = some m) :
    Took w .checking (m.run w) := by
  cases hm
  cases hc : w.client.conn.isConnected with
  | true =>
    simp only [run_client_bind,hc,Bool.not_true,Bool.false_eq_true,if_false]
    exact .done (.check hc)
  | false =>
    simp only [run_client_bind,hc,Bool.not_false,if_true]
    exact .done (.lost hc)

theorem hasDataAvailable_cases (c : Connection) (s : SysState) :
    (∃ b pfds n s', c.hasDataAvailable.run s = (.ok b, s') ∧ pfds.map (·.fd) = [c.socket] ∧
      s'.kernel.fds = s.kernel.fds ∧ s'.calls = s.calls++[.poll pfds n]) ∨
    (∃ s', c.hasDataAvailable.run s = (.error .cut, s') ∧ Sys.Same s s') := by
  unfold Connection.hasDataAvailable pollSocket
  obtain ⟨pfds,n,s',hr,hfd,hfds,hc,-⟩ | ⟨s',hr,hs⟩ :=
    Sys.poll_cases [⟨c.socket,POLLIN ||| POLLOUT,0⟩] s
  · left
    rw [Prog.bind_bind,Prog.bind_ok hr]
    cases pfds with
    | nil => exact ⟨_,_,_,_,rfl,hfd,hfds,hc⟩
    | cons pfd pfds => exact ⟨_,_,_,_,rfl,hfd,hfds,hc⟩
  · right
    rw [Prog.bind_bind]
    exact ⟨s',Prog.bind_error hr,hs⟩

theorem touch_putSys {t : Thread} {s : SysState} {calls : List SysCall}
    (h : s.calls = (sysPart t w).calls++calls) : Touch w (calls.map .sys) (putSys t w s) := by
  refine ⟨?_,rfl⟩
  simp only [putSys,h]
  rfl

theorem touch_same {s : SysState} (h : s.calls = (sysPart .network w).calls) :
    Touch w [] (putSys .network w s) := by
  have ht := touch_putSys (h.trans (List.append_nil _).symm)
  exact ht

theorem took_polling {m : Run Point} (hm : next .polling = some m) :
    Took w .polling (m.run w) := by
  cases hm
  rw [run_client_bind]
  obtain ⟨b,pfds,n,s,hr,-,-,hc⟩ | ⟨s,hr,hs⟩ :=
    hasDataAvailable_cases w.client.conn (sysPart .network w)
  · rw [Prog.bind_ok (sys_ok hr)]
    have ht : Touch w [.sys (.poll pfds n)] (putSys .network w s) := touch_putSys hc
    cases b with
    | true => exact .done (.poll ht (Or.inl rfl))
    | false => exact .done (.poll ht (Or.inr rfl))
  · rw [Prog.bind_error (sys_error hr)]
    refine .cut trivial (touch_same hs.calls) ?_
    simp

theorem took_receiving {m : Run Point} (hm : next .receiving = some m) :
    Took w .receiving (m.run w) := by
  cases hm
  simp only [receive,Prog.bind_bind,run_client_bind]
  cases hc : w.client.conn.isConnected with
  | false =>
    rw [Prog.bind_ok (sys_ok (w.client.conn.receive_closed _ w.client.ec 0 hc
      (sysPart .network w)))]
    exact .done (.receive ⟨(touch_same rfl).log,rfl⟩ .guard)
  | true =>
    obtain ⟨flags,hr⟩ := w.client.conn.receive_open w.client.ec 0 hc
      (show Connection.maxBufferSize ≠ 0 by decide) (sysPart .network w)
    generalize hrun : (w.client.conn.receive Connection.maxBufferSize w.client.ec 0).run
      (sysPart .network w) = r at hr
    cases hr with
    | data hne hsize hmax hfds hcalls hans =>
      rw [Prog.bind_ok (sys_ok hrun)]
      have ht := touch_putSys hcalls
      refine .done (.receive ⟨ht.log,rfl⟩ (.data hne ?_))
      have : maxTransfer < 2^64 := by decide
      omega
    | failed e hfds hcalls hans =>
      rw [Prog.bind_ok (sys_ok hrun)]
      have ht := touch_putSys hcalls
      exact .done (.receive ⟨ht.log,rfl⟩ .failed)
    | closed e hfds hcalls hans =>
      rw [Prog.bind_ok (sys_ok hrun)]
      have ht := touch_putSys hcalls
      exact .done (.receive ⟨ht.log,rfl⟩ .closed)
    | closing hfds hcalls hans =>
      rw [Prog.bind_error (sys_error hrun)]
      refine .cut trivial (touch_putSys hcalls) ?_
      simp [Event.isSilent]
    | cut hs =>
      rw [Prog.bind_error (sys_error hrun)]
      refine .cut trivial (touch_same hs.calls) ?_
      simp

theorem took_received {data : Buffer} {m : Run Point} (hm : next (.received data) = some m) :
    Took w (.received data) (m.run w) := by
  cases hm
  simp only [passOn,Prog.bind_bind,run_client_bind]
  cases h : w.client.ec.isSet || data.size == 0 with
  | true =>
    simp only [if_true]
    exact .done (.fail (by simpa using h))
  | false =>
    have hboth : w.client.ec.isSet = false ∧ data.size ≠ 0 := by simpa using h
    simp only [Bool.false_eq_true,if_false]
    exact .done (.pass hboth.1 hboth.2)

theorem took_closing {m : Run Point} (hm : next .closing = some m) :
    Took w .closing (m.run w) := by
  cases hm
  simp only [closeConnection,Prog.bind_bind,run_client_bind]
  cases hc : w.client.conn.isConnected with
  | false =>
    rw [Prog.bind_ok (sys_ok (Connection.disconnect_closed hc (sysPart .network w)))]
    exact .done (.close ⟨(touch_same rfl).log,rfl⟩)
  | true =>
    obtain ⟨s,hr,-,hcalls,-⟩ | ⟨s,hr,hs⟩ := Connection.disconnect_open hc (sysPart .network w)
    · rw [Prog.bind_ok (sys_ok hr)]
      have ht := touch_putSys hcalls
      exact .done (.closed ⟨ht.log,rfl⟩)
    · rw [Prog.bind_error (sys_error hr)]
      refine .cut trivial (touch_same hs.calls) ?_
      simp

theorem took (w : World) {p : Point} {m : Run Point} (hm : next p = some m) :
    Took w p (m.run w) := by
  cases p with
  | absent => cases hm
  | ended => cases hm
  | exited => cases hm
  | resolving => exact took_resolving hm
  | resolved remoteEndpoints =>
    cases hm
    exact took_exitOnError (Or.inr ⟨remoteEndpoints,rfl⟩) .resolved
  | connecting remoteEndpoints => exact took_connecting hm
  | connected =>
    cases hm
    exact took_exitOnError (Or.inl rfl) .connected
  | announcing =>
    cases hm
    exact .done .announce
  | head => exact took_head hm
  | checking => exact took_checking hm
  | polling => exact took_polling hm
  | receiving => exact took_receiving hm
  | received data => exact took_received hm
  | closing => exact took_closing hm
  | leaving =>
    cases hm
    exact .done .last

end Took

theorem send_cases (caller : Thread) (msg : Buffer) (w : World) : ∃ r w' calls,
    (send caller msg).run w = (r, w') ∧ (r = .ok () ∨ r = .error .cut) ∧
      Sends caller w msg calls ∧ Touch w (.message msg::calls.map .sys) w' := by
  have hbind : (send caller msg).run w =
    (sysOn caller (w.client.conn.send msg w.client.ec) >>= setEc).run (w.note (.message msg)) := rfl
  obtain ⟨-,⟨calls,hcalls,-⟩,he⟩ := w.client.conn.send_frame msg w.client.ec 0
    (sysPart caller (w.note (.message msg)))
  have hs : Sends caller w msg calls := hcalls.trans (List.nil_append calls)
  cases hrun : (w.client.conn.send msg w.client.ec).run
      (sysPart caller (w.note (.message msg))) with
  | mk r s =>
    rw [hrun] at hcalls he
    have ht := touch_putSys hcalls
    have hlog : (putSys caller (w.note (.message msg)) s).log =
        w.log++.message msg::calls.map .sys := by
      rw [ht.log]
      simp
    cases r with
    | ok ec =>
      refine ⟨.ok (),((setEc ec).run (putSys caller (w.note (.message msg)) s)).2,calls,?_,
        Or.inl rfl,hs,hlog,rfl⟩
      rw [hbind,Prog.bind_ok (sysOn_ok hrun)]
      rfl
    | error e =>
      refine ⟨.error e,_,calls,?_,Or.inr ?_,hs,hlog,rfl⟩
      · rw [hbind,Prog.bind_error (sysOn_error hrun)]
      · rw [he e rfl]

theorem act_moved {s t : State} {a : Act} (h : act s a = some t) : ∃ new, Moved s a new t := by
  cases a with
  | connect hostname service =>
    by_cases hp : s.point = .absent
    · simp only [act,if_pos hp] at h
      cases h
      exact ⟨[],.connect hp⟩
    · simp only [act,if_neg hp] at h
      cases h
      exact ⟨[],.terminate hp⟩
  | disconnect =>
    cases h
    exact ⟨[],.disconnect⟩
  | send caller msg =>
    obtain ⟨r,w,calls,hrun,hr,hs,ht⟩ := send_cases caller msg s.world
    simp only [act,hrun] at h
    cases hr with
    | inl hr =>
      subst hr
      cases h
      exact ⟨_,.sent hs ht⟩
    | inr hr =>
      subst hr
      cases h
      exact ⟨_,.sending hs ht⟩
  | check =>
    by_cases hu : s.unchecked = 0
    · simp [act,hu] at h
    · simp only [act,if_neg hu,reportFailure,run_client_bind] at h
      cases he : s.world.client.ec.isSet with
      | false =>
        rw [he] at h
        cases h
        exact ⟨[],.clear hu he⟩
      | true =>
        rw [he] at h
        cases h
        exact ⟨_,.report hu he⟩
  | destroy =>
    cases hd : s.destroyed with
    | true => simp [act,hd] at h
    | false =>
      simp only [act,hd] at h
      cases h
      exact ⟨[],.destroy hd⟩
  | net =>
    obtain ⟨m,hm,h⟩ := Option.map_eq_some_iff.mp h
    have hr := took s.world hm
    generalize m.run s.world = r at hr h
    cases hr with
    | done hturn =>
      cases h
      exact ⟨_,.net hturn⟩
    | cut hp ht hnew =>
      cases h
      exact ⟨_,.blocked hp ht hnew⟩

theorem step_moved {s t : State} {a : Act} (h : step s a = some t) :
    (s.halted = false ∧ ¬s.gone) ∧ ∃ new, Moved s a new t := by
  by_cases hs : s.halted = true ∨ s.gone
  · simp [step,hs] at h
  · simp only [step,if_neg hs] at h
    refine ⟨⟨?_,fun hg => hs (Or.inr hg)⟩,act_moved h⟩
    simpa using fun hh => hs (Or.inl hh)

theorem Moved.log {s t : State} {a : Act} {new : List Event} (h : Moved s a new t) :
    t.world.log = s.world.log++new := by
  cases h with
  | sent _ h => exact h.log
  | sending _ h => exact h.log
  | report => rfl
  | net h => exact h.touch.log
  | blocked _ h _ => exact h.log
  | _ => exact (List.append_nil _).symm

/-- A call of `send_message` that nothing interrupts is its two acts. -/
theorem run_sendMessage {s : State} {caller : Thread} {msg : Buffer} {w : World}
    (hs : ¬(s.halted = true ∨ s.gone)) (h : (sendMessage caller msg).run s.world = (.ok (), w)) :
    run step s [.send caller msg,.check] = some { s with world := w } := by
  obtain ⟨u,v,hsend,hcheck⟩ := Prog.of_bind_ok h
  have hfirst : step s (.send caller msg) =
      some { s with world := v, unchecked := s.unchecked+1 } := by
    rw [step,if_neg hs,act,hsend]
    rfl
  have hsecond : step { s with world := v, unchecked := s.unchecked+1 } .check =
      some { s with world := w } := by
    refine (if_neg hs).trans ?_
    rw [act,if_neg (Nat.succ_ne_zero _),hcheck]
    rfl
  rw [run_cons _ hfirst,run_cons _ hsecond]
  rfl

/-! The functions of the network thread walk along its operations. -/

inductive Goes : Point × World → Point × World → Prop where
  | done {p q : Point} {w w' : World} {m : Run Point} (hm : next p = some m)
      (hr : m.run w = (.ok q, w')) : Goes (p, w) (q, w')
  | cut {p : Point} {w w' : World} {m : Run Point} (hm : next p = some m)
      (hr : m.run w = (.error .cut, w')) : Goes (p, w) (p, w')

theorem Goes.act {s : State} {q : Point} {w : World} (h : Goes (s.point, s.world) (q, w)) :
    ∃ t, act s .net = some t ∧ t.point = q ∧ t.world = w := by
  generalize hx : (s.point, s.world) = x at h
  generalize hy : (q, w) = y at h
  cases h with
  | done hm hr =>
    cases hx
    cases hy
    exact ⟨_,by rw [Client.act,hm,Option.map_some,hr],rfl,rfl⟩
  | cut hm hr =>
    cases hx
    cases hy
    exact ⟨{ s with world := w, halted := true },by rw [Client.act,hm,Option.map_some,hr]; rfl,
      rfl,rfl⟩

/-- `std::exit` is the end of a thread that found a code set. -/
def Exits (e : Halt) (p : Point) (_ : World) : Prop := e = .exit → p = .exited

section Traces
open Prog

theorem traces_client {α : Type} {P : Point → World → Prop} {k : Client → Run α}
    {Q : α → Point → World → Prop}
    (h : ∀ w, Traces Goes (fun p s => P p s ∧ s = w) (k w.client) Q Exits) :
    Traces Goes P (client >>= k) Q Exits := fun p s hp => h s p s ⟨hp,rfl⟩

/-- A part of an operation that is followed by nothing the world would show. -/
theorem traces_operation {α : Type} {p : Point} {P : World → Prop} {n : Run Point} {m : Run α}
    {k : α → Run Point} {f : α → Point} (hn : next p = some n)
    (hrun : ∀ w, P w → n.run w = (m >>= k).run w) (hk : ∀ x w, (k x).run w = (.ok (f x), w)) :
    Traces Goes (fun q w => q = p ∧ P w) m (fun x q _ => q = f x) Exits := by
  refine .step ?_ ?_
  · intro q w hq x w' hr
    obtain ⟨rfl,hw⟩ := hq
    exact ⟨_,.done hn (by rw [hrun w hw,bind_ok hr,hk]),rfl⟩
  · intro q w hq e w' hr
    obtain ⟨rfl,hw⟩ := hq
    have hcut := took w hn
    rw [hrun w hw,bind_error hr] at hcut
    cases hcut
    exact ⟨_,.cut hn (by rw [hrun w hw,bind_error hr]),fun h => by cases h⟩

theorem traces_next {α : Type} {p : Point} {m : Run α} {f : α → Point}
    (hn : next p = some (m >>= fun x => pure (f x))) :
    Traces Goes (fun q _ => q = p) m (fun x q _ => q = f x) Exits :=
  (traces_operation (P := fun _ => True) hn (fun _ _ => rfl) fun _ _ => rfl).weaken
    fun _ _ h => ⟨h,trivial⟩

theorem traces_exitOnError {p q : Point}
    (hn : next p = some (do if ← exitOnError then return q else return .exited)) :
    Traces Goes (fun p' _ => p' = p) exitOnError
      (fun b p' _ => p' = if b then q else .exited) Exits := by
  refine (traces_operation (P := fun _ => True) hn (fun _ _ => rfl) ?_).weaken
    fun _ _ h => ⟨h,trivial⟩
  intro b w
  cases b <;> rfl

theorem traces_handleIncomingMessages :
    Traces Goes (fun p _ => p = .checking) handleIncomingMessages (fun _ p _ => p = .head)
      Exits := by
  refine traces_client fun w => ?_
  cases hc : w.client.conn.isConnected with
  | false =>
    refine traces_operation (k := fun _ => pure .head) (f := fun _ => .head) rfl ?_
      fun _ _ => rfl
    intro s hs
    subst hs
    simp only [run_client_bind,hc]
    rfl
  | true =>
    refine .after (S := fun p _ => p = .polling) ?_ (traces_client fun w' => ?_)
    · intro p s hp
      obtain ⟨rfl,rfl⟩ := hp
      refine ⟨.polling,.done rfl ?_,rfl⟩
      simp only [run_client_bind,hc]
      rfl
    · refine .bind (traces_operation
        (k := fun b => if b then pure .head else pure .receiving)
        (f := fun b => if b then .head else .receiving) rfl ?_ ?_) fun b => ?_
      · intro s hs
        subst hs
        exact run_client_bind _
      · intro b s
        cases b <;> rfl
      · cases b with
        | true => exact .pure fun _ _ hp => hp
        | false => exact (traces_next rfl).bind fun data => traces_next rfl

theorem traces_networkLoop (fuel : Nat) :
    Traces Goes (fun p _ => p = .head) (networkLoop fuel) (fun _ p _ => p = .closing)
      Exits := by
  have hleave : ∀ w : World, w.client.running = false →
      Traces Goes (fun p s => p = .head ∧ s = w) (Pure.pure () : Run Unit)
        (fun _ p _ => p = .closing) Exits := by
    intro w hr p s hp
    obtain ⟨rfl,rfl⟩ := hp
    refine ⟨.closing,.single (.done rfl ?_),rfl⟩
    simp only [run_client_bind,hr]
    rfl
  induction fuel with
  | zero =>
    refine traces_client fun w => ?_
    cases hr : w.client.running with
    | false => exact hleave w hr
    | true => exact .stop fun p s hp h => by cases h
  | succ fuel ih =>
    refine traces_client fun w => ?_
    cases hr : w.client.running with
    | false => exact hleave w hr
    | true =>
      refine .bind (Q := fun _ p _ => p = .checking) ?_ fun _ => ?_
      · refine traces_operation (k := fun _ => pure .checking) (f := fun _ => .checking) rfl ?_
          fun _ _ => rfl
        intro s hs
        subst hs
        simp only [run_client_bind,hr]
        rfl
      · exact traces_handleIncomingMessages.bind fun _ => ih

/-- The function of the network thread, from its first operation to its last. -/
theorem traces_networkThreadFunction (fuel : Nat) :
    Traces Goes (fun p _ => p = .resolving) (networkThreadFunction fuel)
      (fun _ p _ => p = .ended) Exits := by
  refine (traces_next rfl).bind fun remoteEndpoints => ?_
  refine (traces_exitOnError rfl).bind fun b => ?_
  cases b with
  | false => exact .stop fun _ _ hp _ => hp
  | true =>
    refine (traces_next (f := fun _ => .connected) rfl).bind fun _ => ?_
    refine (traces_exitOnError rfl).bind fun b => ?_
    cases b with
    | false => exact .stop fun _ _ hp _ => hp
    | true =>
      refine (traces_next (f := fun _ => .head) rfl).bind fun _ => ?_
      refine (traces_networkLoop fuel).bind fun _ => ?_
      exact (traces_next (f := fun _ => .leaving) rfl).bind fun _ => traces_next rfl

end Traces

/-! The way to an open connection, for runs on given answers. -/

/-- The kernel finds one address and connects the socket 4 to it. -/
def connects : List Answer :=
  [.getaddrinfo (some [(6,inetAddress 127 0 0 1)]),.socket (.ok 4),.connect (.ok ()),
    .getname (.ok ()) (inetAddress 127 0 0 1),.getsockopt (.ok ()) 6,
    .getname (.ok ()) (inetAddress 127 0 0 1),.getsockopt (.ok ()) 6]

/-- From `connect` to the first reading of `running_` by the loop. -/
def opening : List Act := .connect "localhost" "5000"::List.replicate 5 .net

end Client
end Yonaa
