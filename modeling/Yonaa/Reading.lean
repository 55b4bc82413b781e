import Yonaa.ClientRuns

/-! When a client reads: one execution of `handle_incoming_messages_` on an open
connection. -/
namespace Yonaa

namespace Client
open Machine

def reported : Except Errno (List Nat) → Bool
  | .ok [revents] => revents &&& POLLIN != 0
  | _ => false

/-- An execution that started in w calls ::recv: the call is recorded, or the execution
waits in it after ::poll was answered. -/
def CallsRecv (w : World) (r : Except Halt Unit × World) : Prop :=
  ∃ new, r.2.log = w.log++new ∧
    ((∃ fd size flags n data, .sys (.recv fd size flags n data) ∈ new) ∨
      (r.1 = .error .cut ∧ new ≠ []))

/-- What one execution from w does when r is the answer to its ::poll. -/
structure ReadsReported (w : World) (r : Except Errno (List Nat)) : Prop where
  /-- It calls ::recv exactly if the socket is reported as readable. -/
  recv : CallsRecv w (handleIncomingMessages.run w) ↔ reported r = true
  /-- Queued bytes are passed on. -/
  passes : ∀ bytes rest, w.answers = .poll r::.recv (.ok bytes)::rest → reported r = true →
    bytes ≠ [] → bytes.length ≤ Connection.maxBufferSize →
    .dataReceive (.ofList bytes) ∈ (handleIncomingMessages.run w).2.log
  /-- It does not wait for bytes while a request to disconnect is pending. -/
  waits : w.client.running = false → reported r = false →
    (handleIncomingMessages.run w).1 ≠ .error .cut

theorem hasDataAvailable_answered {s : SysState} {r : Except Errno (List Nat)}
    {rest : List Answer} (c : Connection) (ha : s.answers = .poll r::rest)
    (hr : ∀ revents, r = .ok revents → revents.length = 1) :
    ∃ pfds n s', c.hasDataAvailable.run s = (.ok (reported r), s') ∧
      s'.calls = s.calls++[.poll pfds n] := by
  obtain ⟨kernel,answers,calls⟩ := s
  subst ha
  cases r with
  | error e =>
    have hrun : c.hasDataAvailable.run ⟨kernel,.poll (.error e)::rest,calls⟩ =
        (.ok ((if (-1 : Int) > 0 then ssmFromRevents 0 else SocketStatus.none) &&&
          SocketStatus.readable != 0),⟨{ kernel with errno := e.1 },rest,
          calls++[.poll [⟨c.socket,POLLIN ||| POLLOUT,0⟩] (-1)]⟩) := rfl
    exact ⟨_,_,_,hrun,rfl⟩
  | ok revents =>
    obtain ⟨v,rfl⟩ := List.length_eq_one_iff.mp (hr revents rfl)
    have hrun : c.hasDataAvailable.run ⟨kernel,.poll (.ok [v])::rest,calls⟩ =
        (.ok ((if ((([v].filter (· ≠ 0)).length : Nat) : Int) > 0 then ssmFromRevents v
          else SocketStatus.none) &&& SocketStatus.readable != 0),
          ⟨kernel,rest,calls++[.poll [⟨c.socket,POLLIN ||| POLLOUT,v⟩]
            ([v].filter (· ≠ 0)).length]⟩) := rfl
    refine ⟨_,_,_,hrun.trans (congrArg (·,_) (congrArg Except.ok ?_)),rfl⟩
    by_cases hv : v = 0
    · subst hv
      rfl
    · have hone : (([v].filter (· ≠ 0)).length : Int) > 0 := by simp [hv]
      rw [if_pos hone,ssmFromRevents_readable]
      rfl

theorem receive_recorded {w : World} (hc : w.client.conn.isConnected = true) :
    (∃ data new w', receive.run w = (.ok data, w') ∧ w'.log = w.log++new ∧
      ∃ fd size flags n data, .sys (.recv fd size flags n data) ∈ new) ∨
    (∃ new w', receive.run w = (.error .cut, w') ∧ w'.log = w.log++new) := by
  obtain ⟨flags,hr⟩ := w.client.conn.receive_open w.client.ec 0 hc
    (show Connection.maxBufferSize ≠ 0 by decide) (sysPart .network w)
  simp only [receive,run_client_bind]
  generalize hrun : (w.client.conn.receive Connection.maxBufferSize w.client.ec 0).run
    (sysPart .network w) = r at hr
  cases hr with
  | data hne hsize hmax hfds hcalls hans =>
    rw [Prog.bind_ok (sys_ok hrun)]
    exact Or.inl ⟨_,_,_,rfl,(touch_putSys hcalls).log,_,_,_,_,_,List.mem_cons_self⟩
  | failed e hfds hcalls hans =>
    rw [Prog.bind_ok (sys_ok hrun)]
    exact Or.inl ⟨_,_,_,rfl,(touch_putSys hcalls).log,_,_,_,_,_,List.mem_cons_self⟩
  | closed e hfds hcalls hans =>
    rw [Prog.bind_ok (sys_ok hrun)]
    exact Or.inl ⟨_,_,_,rfl,(touch_putSys hcalls).log,_,_,_,_,_,List.mem_cons_self⟩
  | closing hfds hcalls hans =>
    rw [Prog.bind_error (sys_error hrun)]
    exact Or.inr ⟨_,_,rfl,(touch_putSys hcalls).log⟩
  | cut hs =>
    rw [Prog.bind_error (sys_error hrun)]
    exact Or.inr ⟨_,_,rfl,(touch_same hs.calls).log⟩

theorem passOn_log (data : Buffer) (w : World) :
    ∃ e, (passOn data).run w = (.ok (), w.note e) := by
  simp only [passOn,run_client_bind]
  cases w.client.ec.isSet || data.size == 0 with
  | true => exact ⟨_,rfl⟩
  | false => exact ⟨_,rfl⟩

section Execution
variable {w : World} {r : Except Errno (List Nat)} {rest : List Answer}
  (hc : w.client.conn.isConnected = true) (ha : w.answers = .poll r::rest)
  (hr : ∀ revents, r = .ok revents → revents.length = 1)
include hc ha hr

theorem handle_polled : ∃ pfds n w', w'.client = w.client ∧ w'.log = w.log++[.sys (.poll pfds n)] ∧
    handleIncomingMessages.run w =
      (if reported r then pure () else receive >>= passOn : Run Unit).run w' := by
  obtain ⟨pfds,n,s,hpoll,hcalls⟩ :=
    hasDataAvailable_answered (s := sysPart .network w) w.client.conn ha hr
  refine ⟨pfds,n,putSys .network w s,rfl,(touch_putSys hcalls).log,?_⟩
  simp only [handleIncomingMessages,run_client_bind,hc,Bool.not_true,Bool.false_eq_true,if_false]
  rw [Prog.bind_ok (sys_ok hpoll)]

theorem handle_readable (h : reported r = true) : ∃ pfds n w',
    handleIncomingMessages.run w = (.ok (), w') ∧ w'.log = w.log++[.sys (.poll pfds n)] := by
  obtain ⟨pfds,n,w',-,hlog,hrun⟩ := handle_polled hc ha hr
  rw [h,if_pos rfl] at hrun
  exact ⟨pfds,n,w',hrun,hlog⟩

theorem handle_unreadable (h : reported r = false) :
    CallsRecv w (handleIncomingMessages.run w) := by
  obtain ⟨pfds,n,w',hclient,hlog,hrun⟩ := handle_polled hc ha hr
  simp only [h,Bool.false_eq_true,if_false] at hrun
  rw [hrun]
  obtain ⟨data,new,w1,hrecv,hlog1,hnew⟩ | ⟨new,w1,hrecv,hlog1⟩ :=
    receive_recorded (w := w') (by rw [hclient]; exact hc)
  · obtain ⟨e,he⟩ := passOn_log data w1
    rw [Prog.bind_ok hrecv,he]
    have hlog2 : (w1.note e).log = w.log++([.sys (.poll pfds n)]++new++[e]) := by
      rw [note_log,hlog1,hlog]
      simp
    obtain ⟨fd,size,flags,k,bytes,hmem⟩ := hnew
    exact ⟨_,hlog2,Or.inl ⟨fd,size,flags,k,bytes,by simp [hmem]⟩⟩
  · rw [Prog.bind_error hrecv]
    have hlog2 : w1.log = w.log++([.sys (.poll pfds n)]++new) := by
      rw [hlog1,hlog,List.append_assoc]
    exact ⟨_,hlog2,Or.inr ⟨rfl,by simp⟩⟩

/-- ::recv is called exactly where the socket is not reported as readable. -/
theorem callsRecv_iff : CallsRecv w (handleIncomingMessages.run w) ↔ reported r = false := by
  refine ⟨?_,handle_unreadable hc ha hr⟩
  intro hcall
  by_contra h
  obtain ⟨pfds,n,w',hrun,hlog⟩ := handle_readable hc ha hr (by simpa using h)
  rw [hrun] at hcall
  obtain ⟨new,hnew,hmem⟩ := hcall
  rw [hlog,List.append_cancel_left_eq] at hnew
  subst hnew
  obtain ⟨fd,size,flags,k,data,hmem⟩ | ⟨hcut,-⟩ := hmem
  · simp at hmem
  · cases hcut

end Execution

/-- No execution whose ::poll is answered reads as it reports. -/
theorem never_readsReported {w : World} {r : Except Errno (List Nat)} {rest : List Answer}
    (hc : w.client.conn.isConnected = true) (ha : w.answers = .poll r::rest)
    (hr : ∀ revents, r = .ok revents → revents.length = 1) : ¬ReadsReported w r := by
  intro h
  have hrecv := h.recv
  rw [callsRecv_iff hc ha hr] at hrecv
  cases hb : reported r <;> simp [hb] at hrecv

def connectedTo (answers : List Answer) : World where
  client :=
    { running := true
      conn := ⟨4,.fromNativeAddress 6 (inetAddress 127 0 0 1),
        .fromNativeAddress 6 (inetAddress 127 0 0 1)⟩ }
  kernel := ⟨[4],0,[]⟩
  userErrno := 0
  answers := answers
  log := []

/-- Nothing is queued, and the execution waits for it. -/
theorem never_readsReported_waiting :
    ¬ReadsReported (connectedTo [.poll (.ok [POLLOUT])]) (.ok [POLLOUT]) :=
  never_readsReported rfl rfl (by simp)

/-- A byte is queued, and ::poll says so. -/
theorem queued_not_passed : ¬∀ w r rest, w.client.conn.isConnected = true →
    w.client.ec.isSet = false → w.answers = .poll r::rest →
    (∀ revents, r = .ok revents → revents.length = 1) → ReadsReported w r := by
  intro h
  have hreads := h (connectedTo [.poll (.ok [POLLIN]),.recv (.ok [7])]) _ _ rfl rfl rfl (by simp)
  have hpassed := hreads.passes [7] [] rfl rfl (by simp) (by decide)
  have hlog : (handleIncomingMessages.run
    (connectedTo [.poll (.ok [POLLIN]),.recv (.ok [7])])).2.log =
      [.sys (.poll [⟨4,POLLIN ||| POLLOUT,POLLIN⟩] 1)] := rfl
  rw [hlog] at hpassed
  simp at hpassed

end Client
end Yonaa
