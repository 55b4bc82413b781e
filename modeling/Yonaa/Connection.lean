import Yonaa.SocketOps

/-! connection.cpp and acceptor.cpp. An object is a value; a member function that
changes its object returns the new value, and one that takes an error_code by
reference returns the new code. -/
namespace Yonaa

structure Connection where
  socket : Int := 0
  localEndpoint : Endpoint := Endpoint.empty
  remoteEndpoint : Endpoint := Endpoint.empty
deriving DecidableEq

namespace SendFlags
def dontRoute : Nat := 0x01
def endOfRecord : Nat := 0x02
end SendFlags

namespace ReceiveFlags
def peek : Nat := 0x01
end ReceiveFlags

def MSG_PEEK : Nat := 0x02
def MSG_DONTROUTE : Nat := 0x04
def MSG_EOR : Nat := 0x80
def MSG_NOSIGNAL : Nat := 0x4000

namespace Connection

def maxBufferSize : Nat := 8192

def isConnected (c : Connection) : Bool := c.socket != 0

def hasDataAvailable (c : Connection) : Sys Bool := do
  return (← pollSocket c.socket) &&& SocketStatus.readable != 0

def nativeSocket (c : Connection) : Int := c.socket

def fromNativeSocket (fd : Int) (remoteEndpoint : Endpoint) : Sys Connection := do
  let localEndpoint ← SocketOps.getLocalEndpoint fd
  return ⟨fd, localEndpoint, remoteEndpoint⟩

def connect (c : Connection) (remoteEndpoints : List Endpoint) (ec : ErrorCode) :
    Sys (Connection × ErrorCode) := do
  if remoteEndpoints.isEmpty then return (c, .assign 1)
  else
    let fd ← SocketOps.createConnectedSocket remoteEndpoints
    if fd = 0 then return (c, .assign (← Sys.errno))
    else
      let localEndpoint ← SocketOps.getLocalEndpoint fd
      let remoteEndpoint ← SocketOps.getRemoteEndpoint fd
      return (⟨fd, localEndpoint, remoteEndpoint⟩, ec)

def disconnect (c : Connection) : Sys Connection := do
  if c.isConnected then
    SocketOps.closeSocket c.socket
    return {}
  else return c

def destroy (c : Connection) : Sys Unit := do
  if c.isConnected then
    let _ ← c.disconnect

/-- `size_t += int`. -/
def addSize (bytesSent : Nat) (n : Int) : Nat := ((bytesSent+n) % 2^64).toNat

/-- The loop of `send`. The kernel accepts at least one byte per call, so
`fuel` = size calls are enough. -/
def sendLoop (fd : Int) (data : Buffer) (flags : Nat) (ec : ErrorCode) :
    Nat → Nat → Sys ErrorCode
  | 0, bytesSent => if bytesSent < data.size then Prog.stop .outOfFuel else return ec
  | fuel+1, bytesSent => do
    if bytesSent < data.size then
      let sendResult := toInt (← Sys.send fd (data.data.drop bytesSent) flags)
      if sendResult = -1 then return .assign (← Sys.errno)
      else sendLoop fd data flags ec fuel (addSize bytesSent sendResult)
    else return ec

def send (c : Connection) (data : Buffer) (ec : ErrorCode) (flags : Nat := 0) :
    Sys ErrorCode := do
  if !c.isConnected || data.size == 0 then return .assign 1
  else
    let sendFlags := (if flags &&& SendFlags.dontRoute ≠ 0 then MSG_DONTROUTE else 0) |||
      (if flags &&& SendFlags.endOfRecord ≠ 0 then MSG_EOR else 0)
    sendLoop c.socket data (sendFlags ||| MSG_NOSIGNAL) ec data.size 0

def receive (c : Connection) (size : Nat) (ec : ErrorCode) (flags : Nat := 0) :
    Sys (Buffer × Connection × ErrorCode) := do
  if !c.isConnected || size == 0 then return ({}, c, .assign 1)
  else
    let receiveBuffer := Buffer.ofSize size
    let recvFlags := if flags &&& ReceiveFlags.peek ≠ 0 then MSG_PEEK else 0
    let (n, bytes) ← Sys.recv c.socket size recvFlags
    let recvResult := toInt n
    if recvResult = 0 then
      let c' ← c.disconnect
      return ({}, c', .assign (← Sys.errno))
    else if recvResult = -1 then
      return ({}, c, .assign (← Sys.errno))
    else
      return ((receiveBuffer.overwrite bytes).resize recvResult.toNat, c, ec)

open Sys

/-- Successive successful calls of ::send, from offset n up to offset m. -/
inductive Chunks (fd : Int) (data : Buffer) (flags : Nat) : Nat → List SysCall → Nat → Prop where
  | nil (n : Nat) : Chunks fd data flags n [] n
  | cons {n k m : Nat} {calls : List SysCall} (hk : 1 ≤ k) (hn : n+k ≤ data.size)
      (h : Chunks fd data flags (n+k) calls m) :
      Chunks fd data flags n (.send fd (data.data.drop n) flags k::calls) m

/-- What the loop of `send` does from offset n. -/
inductive SentFrom (fd : Int) (data : Buffer) (flags : Nat) (ec : ErrorCode) (n : Nat)
    (s : SysState) : Except Halt ErrorCode × SysState → Prop where
  | sent {calls : List SysCall} {s' : SysState} (h : Chunks fd data flags n calls data.size)
      (hfds : s'.kernel.fds = s.kernel.fds) (hcalls : s'.calls = s.calls++calls)
      (hans : s'.answers <:+ s.answers) : SentFrom fd data flags ec n s (.ok ec, s')
  | failed {calls : List SysCall} {m : Nat} {s' : SysState} (e : Errno)
      (h : Chunks fd data flags n calls m) (hm : m < data.size)
      (hfds : s'.kernel.fds = s.kernel.fds)
      (hcalls : s'.calls = s.calls++calls++[.send fd (data.data.drop m) flags (-1)])
      (hans : s'.answers <:+ s.answers) :
      SentFrom fd data flags ec n s (.ok (.assign e.1), s')
  | cut {calls : List SysCall} {m : Nat} {s' : SysState} (h : Chunks fd data flags n calls m)
      (hm : m < data.size) (hfds : s'.kernel.fds = s.kernel.fds)
      (hcalls : s'.calls = s.calls++calls) (hans : s'.answers <:+ s.answers) :
      SentFrom fd data flags ec n s (.error .cut, s')

theorem addSize_eq {n k : Nat} (h : n+k < 2^64) : addSize n (k : Int) = n+k := by
  have h' : ((n : Int)+k) % 2^64 = ((n+k : Nat) : Int) := by
    rw [Int.emod_eq_of_lt] <;> omega
  rw [addSize,h',Int.toNat_natCast]

/-- The loop invariant: the bytes already accepted are a prefix of the buffer,
and the fuel covers the rest. -/
theorem sendLoop_cases (fd : Int) (data : Buffer) (flags : Nat) (ec : ErrorCode)
    (fuel n : Nat) (hn : n ≤ data.size) (hf : data.size ≤ n+fuel)
    (s : SysState) :
    SentFrom fd data flags ec n s ((sendLoop fd data flags ec fuel n).run s) := by
  have hsize : data.size < 2^64 := data.size_lt
  induction fuel generalizing n s with
  | zero =>
    have he : n = data.size := by omega
    subst he
    rw [sendLoop,if_neg (Nat.lt_irrefl _)]
    exact .sent (.nil _) rfl (by simp) (List.suffix_refl _)
  | succ fuel ih =>
    by_cases hlt : n < data.size
    · simp only [sendLoop,if_pos hlt]
      obtain ⟨k,s',h,hk,hk',hmax,hker,hc,ha⟩ | ⟨e,s',h,hker,hc,ha⟩ | ⟨s',h,hs⟩ :=
        send_cases fd (data.data.drop n) flags s
      · rw [Prog.bind_ok h,toInt_of_le hmax]
        have hne : ¬(k : Int) = -1 := by omega
        have hle : n+k ≤ data.size := by
          simp only [List.length_drop] at hk'
          have : data.size = data.data.length := rfl
          omega
        rw [if_neg hne,addSize_eq (by omega)]
        have hi := ih (n+k) hle (by omega) s'
        generalize (sendLoop fd data flags ec fuel (n+k)).run s' = r at hi ⊢
        cases hi with
        | sent h' hfds hcalls hans =>
          exact .sent (.cons hk hle h') (by rw [hfds,hker]) (by rw [hcalls,hc]; simp)
            (hans.trans ha)
        | failed e h' hm hfds hcalls hans =>
          exact .failed e (.cons hk hle h') hm (by rw [hfds,hker]) (by rw [hcalls,hc]; simp)
            (hans.trans ha)
        | cut h' hm hfds hcalls hans =>
          exact .cut (.cons hk hle h') hm (by rw [hfds,hker]) (by rw [hcalls,hc]; simp)
            (hans.trans ha)
      · rw [Prog.bind_ok h]
        rw [if_pos toInt_neg_one,Prog.bind_ok (errno_apply s')]
        have he : s'.kernel.errno = e.1 := by rw [hker]
        rw [he]
        exact .failed e (.nil n) hlt (by rw [hker]) (by rw [hc]; simp) ha
      · rw [Prog.bind_error h]
        exact .cut (.nil n) hlt hs.fds (by rw [hs.calls]; simp) hs.answers
    · have he : n = data.size := by omega
      simp only [sendLoop,if_neg hlt]
      subst he
      exact .sent (.nil _) rfl (by simp) (List.suffix_refl _)

theorem guard_of_not {c : Connection} {n : Nat} (h : ¬(c.isConnected = true ∧ n ≠ 0)) :
    c.isConnected = false ∨ n = 0 := by
  by_cases hc : c.isConnected = true
  · exact Or.inr (by_contra fun hn => h ⟨hc,hn⟩)
  · exact Or.inl (Bool.eq_false_of_not_eq_true hc)

theorem send_guard {c : Connection} {data : Buffer} (ec : ErrorCode) (flags : Nat)
    (h : c.isConnected = false ∨ data.size = 0) (s : SysState) :
    (c.send data ec flags).run s = (.ok (.assign 1), s) := by
  have hg : (!c.isConnected || data.size == 0) = true := by
    cases h with
    | inl h => simp [h]
    | inr h => simp [h]
  simp only [send,hg,if_true]
  rfl

theorem send_open {c : Connection} {data : Buffer} (ec : ErrorCode) (flags : Nat)
    (hc : c.isConnected = true) (hd : data.size ≠ 0) (s : SysState) :
    ∃ sendFlags, SentFrom c.socket data sendFlags ec 0 s ((c.send data ec flags).run s) := by
  have hg : (!c.isConnected || data.size == 0) = false := by simp [hc,hd]
  simp only [send,hg,Bool.false_eq_true,if_false]
  exact ⟨_,sendLoop_cases c.socket data _ ec data.size 0 (by omega) (by omega) s⟩

theorem Chunks.sends {fd : Int} {data : Buffer} {flags n m : Nat} {calls : List SysCall}
    (h : Chunks fd data flags n calls m) :
    ∀ x ∈ calls, ∃ offered flags n, x = .send fd offered flags n := by
  induction h with
  | nil n => simp
  | cons hk hn h ih =>
    intro x hx
    cases List.mem_cons.mp hx with
    | inl hx => exact ⟨_,_,_,hx⟩
    | inr hx => exact ih x hx

theorem Chunks.isSend {fd : Int} {data : Buffer} {flags n m : Nat} {calls : List SysCall}
    (h : Chunks fd data flags n calls m) : ∀ x ∈ calls, x.isSend := by
  intro x hx
  obtain ⟨offered,flags,n,rfl⟩ := h.sends x hx
  trivial

/-- Whatever `send` returns, it opens and closes nothing and calls only ::send. -/
theorem send_frame (c : Connection) (data : Buffer) (ec : ErrorCode) (flags : Nat)
    (s : SysState) :
    ((c.send data ec flags).run s).2.kernel.fds = s.kernel.fds ∧
    (∃ calls, ((c.send data ec flags).run s).2.calls = s.calls++calls ∧
      ∀ x ∈ calls, x.isSend) ∧
    ∀ e, ((c.send data ec flags).run s).1 = .error e → e = .cut := by
  by_cases hg : c.isConnected = true ∧ data.size ≠ 0
  · obtain ⟨sendFlags,h⟩ := send_open ec flags hg.1 hg.2 s
    generalize (c.send data ec flags).run s = r at h ⊢
    cases h with
    | sent h hfds hcalls => exact ⟨hfds,⟨_,hcalls,h.isSend⟩,fun e he => nomatch he⟩
    | failed e h hm hfds hcalls =>
      refine ⟨hfds,⟨_,by rw [hcalls,List.append_assoc],?_⟩,fun e he => nomatch he⟩
      intro x hx
      cases List.mem_append.mp hx with
      | inl hx => exact h.isSend x hx
      | inr hx => rw [List.mem_singleton.mp hx]; trivial
    | cut h hm hfds hcalls => exact ⟨hfds,⟨_,hcalls,h.isSend⟩,fun e he => by cases he; rfl⟩
  · rw [send_guard ec flags (guard_of_not hg) s]
    exact ⟨rfl,⟨[],by simp,by simp⟩,fun e he => nomatch he⟩

theorem disconnect_closed {c : Connection} (h : c.isConnected = false) (s : SysState) :
    c.disconnect.run s = (.ok c, s) := by
  simp only [disconnect,h,Bool.false_eq_true,if_false]
  rfl

theorem disconnect_open {c : Connection} (h : c.isConnected = true) (s : SysState) :
    (∃ s', c.disconnect.run s = (.ok {}, s') ∧
      s'.kernel.fds = s.kernel.fds.filter (· ≠ c.socket) ∧
      s'.calls = s.calls++[.close c.socket] ∧ s'.answers <:+ s.answers) ∨
    (∃ s', c.disconnect.run s = (.error .cut, s') ∧ Same s s') := by
  simp only [disconnect,h,if_true]
  obtain ⟨s',hr,hs⟩ | ⟨s',hr,hs⟩ := SocketOps.closeSocket_cases c.socket s
  · exact Or.inl ⟨s',Prog.bind_ok hr,hs⟩
  · exact Or.inr ⟨s',Prog.bind_error hr,hs⟩

theorem disconnect_answered {c : Connection} {shutdown close : Except Errno Unit}
    {rest : List Answer} {s : SysState} (h : c.isConnected = true)
    (ha : s.answers = .shutdown shutdown::.close close::rest) :
    c.disconnect.run s = (.ok {}, ⟨⟨s.kernel.fds.filter (· ≠ c.socket),
      SocketOps.errnoAfter shutdown close s.kernel.errno,s.kernel.setUps⟩,rest,
      s.calls++[.close c.socket]⟩) := by
  simp only [disconnect,h,if_true]
  exact Prog.bind_ok (SocketOps.closeSocket_answered ha)

theorem destroy_closed {c : Connection} (h : c.isConnected = false) (s : SysState) :
    c.destroy.run s = (.ok (), s) := by
  simp only [destroy,h,Bool.false_eq_true,if_false]
  rfl

theorem destroy_open {c : Connection} (h : c.isConnected = true) (s : SysState) :
    (∃ s', c.destroy.run s = (.ok (), s') ∧
      s'.kernel.fds = s.kernel.fds.filter (· ≠ c.socket) ∧
      s'.calls = s.calls++[.close c.socket] ∧ s'.answers <:+ s.answers) ∨
    (∃ s', c.destroy.run s = (.error .cut, s') ∧ Same s s') := by
  simp only [destroy,h,if_true]
  obtain ⟨s',hr,hs⟩ | ⟨s',hr,hs⟩ := disconnect_open h s
  · exact Or.inl ⟨s',Prog.bind_ok hr,hs⟩
  · exact Or.inr ⟨s',Prog.bind_error hr,hs⟩

/-- What `receive` does on an open connection with a size that is not 0. -/
inductive Received (c : Connection) (size flags : Nat) (ec : ErrorCode) (s : SysState) :
    Except Halt (Buffer × Connection × ErrorCode) × SysState → Prop where
  | data {bytes : List Byte} {s' : SysState} (hne : bytes ≠ []) (hsize : bytes.length ≤ size)
      (hmax : bytes.length ≤ maxTransfer) (hfds : s'.kernel.fds = s.kernel.fds)
      (hcalls : s'.calls = s.calls++[.recv c.socket size flags bytes.length bytes])
      (hans : s'.answers <:+ s.answers) :
      Received c size flags ec s (.ok (.ofList bytes, c, ec), s')
  | failed {s' : SysState} (e : Errno) (hfds : s'.kernel.fds = s.kernel.fds)
      (hcalls : s'.calls = s.calls++[.recv c.socket size flags (-1) []])
      (hans : s'.answers <:+ s.answers) :
      Received c size flags ec s (.ok ({}, c, .assign e.1), s')
  | closed {s' : SysState} (e : Int)
      (hfds : s'.kernel.fds = s.kernel.fds.filter (· ≠ c.socket))
      (hcalls : s'.calls = s.calls++[.recv c.socket size flags 0 [],.close c.socket])
      (hans : s'.answers <:+ s.answers) :
      Received c size flags ec s (.ok ({}, {}, .assign e), s')
  | closing {s' : SysState} (hfds : s'.kernel.fds = s.kernel.fds)
      (hcalls : s'.calls = s.calls++[.recv c.socket size flags 0 []])
      (hans : s'.answers <:+ s.answers) : Received c size flags ec s (.error .cut, s')
  | cut {s' : SysState} (hs : Same s s') : Received c size flags ec s (.error .cut, s')

theorem receive_open {c : Connection} {size : Nat} (ec : ErrorCode) (flags : Nat)
    (hc : c.isConnected = true) (hsize : size ≠ 0) (s : SysState) :
    ∃ recvFlags, Received c size recvFlags ec s ((c.receive size ec flags).run s) := by
  have hg : (!c.isConnected || size == 0) = false := by simp [hc,hsize]
  simp only [receive,hg,Bool.false_eq_true,if_false]
  refine ⟨if flags &&& ReceiveFlags.peek ≠ 0 then MSG_PEEK else 0,?_⟩
  generalize (if flags &&& ReceiveFlags.peek ≠ 0 then MSG_PEEK else 0) = recvFlags
  obtain ⟨bytes,s',h,hb,hmax,hk,hcalls,ha⟩ | ⟨e,s',h,hk,hcalls,ha⟩ | ⟨s',h,hs⟩ :=
    recv_cases c.socket size recvFlags s
  · rw [Prog.bind_ok h,toInt_of_le hmax]
    by_cases hz : bytes = []
    · subst hz
      rw [if_pos (by rfl)]
      obtain ⟨s'',hd,hf,hcl,han⟩ | ⟨s'',hd,hs⟩ := disconnect_open hc s'
      · rw [Prog.bind_ok hd,Prog.bind_ok (errno_apply s'')]
        exact .closed _ (by rw [hf,hk]) (by rw [hcl,hcalls]; simp) (han.trans ha)
      · rw [Prog.bind_error hd]
        exact .closing (by rw [hs.fds,hk]) (by rw [hs.calls,hcalls]; simp)
          (hs.answers.trans ha)
    · have hpos : 0 < bytes.length := List.length_pos_of_ne_nil hz
      have hcap : maxTransfer < 2^64 := by decide
      have hlt : bytes.length < 2^64 := by omega
      rw [if_neg (by omega),if_neg (by omega),Int.toNat_natCast,
        Buffer.resize_overwrite size hlt]
      exact .data hz hb hmax (by rw [hk]) hcalls ha
  · rw [Prog.bind_ok h,toInt_neg_one,if_neg (by decide),if_pos rfl,
      Prog.bind_ok (errno_apply s')]
    have he : s'.kernel.errno = e.1 := by rw [hk]
    rw [he]
    exact .failed e (by rw [hk]) hcalls ha
  · rw [Prog.bind_error h]
    exact .cut hs

theorem receive_answered {c : Connection} {size : Nat} {bytes : List Byte} {rest : List Answer}
    {s : SysState} (ec : ErrorCode) (flags : Nat) (hc : c.isConnected = true) (hne : bytes ≠ [])
    (hsize : bytes.length ≤ size) (hmax : bytes.length ≤ maxTransfer)
    (ha : s.answers = .recv (.ok bytes)::rest) :
    ∃ recvFlags s', (c.receive size ec flags).run s = (.ok (.ofList bytes, c, ec), s') ∧
      s'.kernel = s.kernel ∧
      s'.calls = s.calls++[.recv c.socket size recvFlags bytes.length bytes] := by
  obtain ⟨kernel,answers,calls⟩ := s
  subst ha
  have hpos : 0 < bytes.length := List.length_pos_of_ne_nil hne
  have hg : (!c.isConnected || size == 0) = false := by
    have hsize : size ≠ 0 := by omega
    simp [hc,hsize]
  simp only [receive,hg,Bool.false_eq_true,if_false]
  generalize (if flags &&& ReceiveFlags.peek ≠ 0 then MSG_PEEK else 0) = recvFlags
  have hrecv := Sys.recv_answered c.socket recvFlags
    (s := ⟨kernel,.recv (.ok bytes)::rest,calls⟩) rfl ⟨hsize,hmax⟩
  have hlt : bytes.length < 2^64 := Nat.lt_of_le_of_lt hmax (by decide)
  rw [Prog.bind_ok hrecv,toInt_of_le hmax,if_neg (by omega),if_neg (by omega),Int.toNat_natCast,
    Buffer.resize_overwrite size hlt]
  exact ⟨recvFlags,_,rfl,rfl,rfl⟩

theorem connect_silent (c : Connection) (es : List Endpoint) (ec : ErrorCode) :
    Silent (c.connect es ec) := by
  refine .ite (.pure _) (.bind (SocketOps.createConnectedSocket_silent es) fun fd => ?_)
  refine .ite ((Silent.get.bind fun _ => .pure _).bind fun e => .pure _) ?_
  exact .bind (SocketOps.getEndpoint_silent fd true) fun l =>
    .bind (SocketOps.getEndpoint_silent fd false) fun r => .pure _

theorem receive_guard {c : Connection} {size : Nat} (ec : ErrorCode) (flags : Nat)
    (h : c.isConnected = false ∨ size = 0) (s : SysState) :
    (c.receive size ec flags).run s = (.ok ({}, c, .assign 1), s) := by
  have hg : (!c.isConnected || size == 0) = true := by
    cases h with
    | inl h => simp [h]
    | inr h => simp [h]
  simp only [receive,hg,if_true]
  rfl

theorem receive_closed {c : Connection} (size : Nat) (ec : ErrorCode) (flags : Nat)
    (h : c.isConnected = false) (s : SysState) :
    (c.receive size ec flags).run s = (.ok ({}, c, .assign 1), s) :=
  receive_guard ec flags (Or.inl h) s

end Connection

structure Acceptor where
  socket : Int := 0
  localEndpoint : Endpoint := Endpoint.empty
deriving DecidableEq

namespace Acceptor

def backlogSize : Nat := 128

def isOpen (a : Acceptor) : Bool := a.socket != 0

/-- `acceptor::open`. -/
def openOn (a : Acceptor) (localEndpoints : List Endpoint) (ec : ErrorCode)
    (reuseAddr : Bool) : Sys (Acceptor × ErrorCode) := do
  if localEndpoints.isEmpty then return (a, .assign 1)
  else
    let fd ← SocketOps.createListeningSocket backlogSize reuseAddr localEndpoints
    if fd = 0 then return (a, .assign 32)
    else
      let localEndpoint ← SocketOps.getLocalEndpoint fd
      return (⟨fd, localEndpoint⟩, ec)

def close (a : Acceptor) : Sys Acceptor := do
  if a.isOpen then
    SocketOps.closeSocket a.socket
    return {}
  else return a

def hasPendingConnection (a : Acceptor) : Sys Bool := do
  return (← pollSocket a.socket) &&& SocketStatus.readable != 0

def accept (a : Acceptor) (ec : ErrorCode) : Sys (Connection × ErrorCode) := do
  if !a.isOpen then return ({}, .assign 1)
  else
    let (fd, addr) ← Sys.accept a.socket
    if fd = -1 then return ({}, .assign (← Sys.errno))
    else
      let remoteEndpoint := Endpoint.fromNativeAddress a.localEndpoint.protocol addr
      return (← Connection.fromNativeSocket fd remoteEndpoint, ec)

open Sys

/-- What `accept` does on an open acceptor. -/
inductive Accepted (a : Acceptor) (ec : ErrorCode) (s : SysState) :
    Except Halt (Connection × ErrorCode) × SysState → Prop where
  | accepted {fd : Int} {addr : List Byte} {rest : List Answer} {conn : Connection}
      {s' : SysState} (hnew : 0 ≤ fd ∧ fd ∉ s.kernel.fds) (hconn : conn.socket = fd)
      (hfds : s'.kernel.fds = fd::s.kernel.fds)
      (hcalls : s'.calls = s.calls++[.accept a.socket fd])
      (hans : s.answers = .accept (.ok fd) addr::rest) (hrest : s'.answers <:+ rest) :
      Accepted a ec s (.ok (conn, ec), s')
  | failed {s' : SysState} (e : Errno) (hfds : s'.kernel.fds = s.kernel.fds)
      (hcalls : s'.calls = s.calls++[.accept a.socket (-1)])
      (hans : s'.answers <:+ s.answers) : Accepted a ec s (.ok ({}, .assign e.1), s')
  | naming {fd : Int} {s' : SysState} (hnew : 0 ≤ fd)
      (hcalls : s'.calls = s.calls++[.accept a.socket fd])
      (hans : s'.answers <:+ s.answers) : Accepted a ec s (.error .cut, s')
  | cut {s' : SysState} (hs : Same s s') : Accepted a ec s (.error .cut, s')

theorem accept_closed {a : Acceptor} (ec : ErrorCode) (h : a.isOpen = false) (s : SysState) :
    (a.accept ec).run s = (.ok ({}, .assign 1), s) := by
  simp only [accept,h,Bool.not_false,if_true]
  rfl

theorem accept_open {a : Acceptor} (ec : ErrorCode) (h : a.isOpen = true) (s : SysState) :
    Accepted a ec s ((a.accept ec).run s) := by
  simp only [accept,h,Bool.not_true,Bool.false_eq_true,if_false]
  obtain ⟨new,addr,rest,s',hr,h0,hn,hk,hc,ha,ha'⟩ | ⟨e,addr,s',hr,hk,hc,ha⟩ | ⟨s',hr,hs⟩ :=
    accept_cases a.socket s
  · rw [Prog.bind_ok hr]
    have hsuf : rest <:+ s.answers := by rw [ha]; exact List.suffix_cons _ rest
    dsimp only
    rw [if_neg (by omega)]
    unfold Connection.fromNativeSocket SocketOps.getLocalEndpoint
    obtain ⟨e,s'',he,hs⟩ | ⟨s'',he,hs⟩ := SocketOps.getEndpoint_cases new true s'
    · rw [Prog.run_bind_bind,Prog.bind_ok he]
      exact .accepted ⟨h0,hn⟩ rfl (by rw [hs.fds,hk]) (by rw [hs.calls,hc]) ha
        (by rw [← ha']; exact hs.answers)
    · rw [Prog.run_bind_bind,Prog.bind_error he]
      exact .naming h0 (by rw [hs.calls,hc]) (hs.answers.trans (by rw [ha']; exact hsuf))
  · rw [Prog.bind_ok hr]
    dsimp only
    rw [if_pos rfl,Prog.bind_ok (errno_apply s')]
    have he : s'.kernel.errno = e.1 := by rw [hk]
    rw [he]
    exact .failed e (by rw [hk]) hc ha
  · rw [Prog.bind_error hr]
    exact .cut hs

theorem hasPendingConnection_cases (a : Acceptor) (s : SysState) :
    (∃ b pfds n s', a.hasPendingConnection.run s = (.ok b, s') ∧
      s'.kernel.fds = s.kernel.fds ∧ s'.calls = s.calls++[.poll pfds n] ∧
      s'.answers <:+ s.answers) ∨
    (∃ s', a.hasPendingConnection.run s = (.error .cut, s') ∧ Same s s') := by
  unfold hasPendingConnection pollSocket
  obtain ⟨pfds,n,s',h,-,hf,hc,ha⟩ | ⟨s',h,hs⟩ :=
    poll_cases [⟨a.socket,POLLIN ||| POLLOUT,0⟩] s
  · left
    rw [Prog.run_bind_bind,Prog.bind_ok h]
    cases pfds with
    | nil => exact ⟨_,_,n,s',rfl,hf,hc,ha⟩
    | cons pfd rest => exact ⟨_,_,n,s',rfl,hf,hc,ha⟩
  · right
    rw [Prog.run_bind_bind,Prog.bind_error h]
    exact ⟨s',rfl,hs⟩

theorem openOn_silent (a : Acceptor) (es : List Endpoint) (ec : ErrorCode)
    (reuseAddr : Bool) : Silent (a.openOn es ec reuseAddr) := by
  refine .ite (.pure _) ?_
  refine .bind (SocketOps.createListeningSocket_silent _ reuseAddr es) fun fd => ?_
  exact .ite (.pure _) ((SocketOps.getEndpoint_silent fd true).bind fun e => .pure _)

theorem close_closed {a : Acceptor} (h : a.isOpen = false) (s : SysState) :
    a.close.run s = (.ok a, s) := by
  simp only [close,h,Bool.false_eq_true,if_false]
  rfl

theorem close_open {a : Acceptor} (h : a.isOpen = true) (s : SysState) :
    (∃ s', a.close.run s = (.ok {}, s') ∧
      s'.kernel.fds = s.kernel.fds.filter (· ≠ a.socket) ∧
      s'.calls = s.calls++[.close a.socket] ∧ s'.answers <:+ s.answers) ∨
    (∃ s', a.close.run s = (.error .cut, s') ∧ Same s s') := by
  simp only [close,h,if_true]
  obtain ⟨s',hr,hs⟩ | ⟨s',hr,hs⟩ := SocketOps.closeSocket_cases a.socket s
  · exact Or.inl ⟨s',Prog.bind_ok hr,hs⟩
  · exact Or.inr ⟨s',Prog.bind_error hr,hs⟩

end Acceptor
end Yonaa
