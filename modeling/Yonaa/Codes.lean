import Yonaa.Connection
import Yonaa.Triples

/-! What the system calls of a function leave behind: the history of the calls, `errno`, and
the code that the function reports. -/
namespace Yonaa
open Prog

namespace Sys

/-- J holds of every call of the history with the present `errno`, and if n holds, `errno` is
not 0. -/
def Noted (n : Prop) (J : SysCall → Int → Prop) (s : SysState) : Prop :=
  (n → s.kernel.errno ≠ 0) ∧ ∀ c ∈ s.calls, J c s.kernel.errno

/-- What holds of a call holds of it after later errors. -/
def Lasting (J : SysCall → Int → Prop) : Prop := ∀ c e e', J c e → 0 < e' → J c e'

section Noted
variable {α : Type} {n : Prop} {J : SysCall → Int → Prop}

theorem keeps_ask (pick : Answer → Option α) : Keeps (Noted n J) (ask pick) := by
  intro s hs
  obtain ⟨a,rest,x,-,-,h⟩ | h := ask_cases pick s
  · rw [h]
    exact hs
  · rw [h]
    exact hs

theorem keeps_openFd (fd : Int) : Keeps (Noted n J) (openFd fd) := Keeps.modify fun _ hs => hs

theorem keeps_closeFd (fd : Int) : Keeps (Noted n J) (closeFd fd) := Keeps.modify fun _ hs => hs

theorem keeps_errno : Keeps (Noted n J) errno := Keeps.get_bind fun _ => .pure _

theorem Noted.record {c : SysCall} {s : SysState} (hs : Noted n J s) (hc : J c s.kernel.errno) :
    Noted n J { s with calls := s.calls++[c] } := by
  refine ⟨hs.1,?_⟩
  intro x hx
  obtain hx | hx := List.mem_append.mp hx
  · exact hs.2 x hx
  · rw [List.mem_singleton.mp hx]
    exact hc

theorem keeps_record {c : SysCall} (hc : ∀ e, J c e) : Keeps (Noted n J) (record c) :=
  Keeps.modify fun _ hs => hs.record (hc _)

section Lasting
variable (hJ : Lasting J)
include hJ

theorem Noted.setErrno {s : SysState} (hs : Noted n J s) (e : Errno) :
    Noted n J { s with kernel := { s.kernel with errno := e.1 } } :=
  ⟨fun _ => e.2.ne',fun c hc => hJ c _ _ (hs.2 c hc) e.2⟩

theorem keeps_setErrno (e : Errno) : Keeps (Noted n J) (setErrno e) :=
  Keeps.modify fun _ hs => hs.setErrno hJ e

theorem keeps_failure {c : SysCall} {a : α} (e : Errno) (hc : ∀ e, 0 < e → J c e) :
    Keeps (Noted n J) (Sys.setErrno e >>= fun _ => record c >>= fun _ => pure a) :=
  fun _ hs => (hs.setErrno hJ e).record (hc e.1 e.2)

theorem keeps_status (r : Except Errno Unit) : Keeps (Noted n J) (status r) := by
  cases r with
  | ok _ => exact .pure 0
  | error e => exact (keeps_setErrno hJ e).bind fun _ => .pure _

theorem keeps_ask_status (pick : Answer → Option (Except Errno Unit)) :
    Keeps (Noted n J) (ask pick >>= status) := (keeps_ask pick).bind (keeps_status hJ)

theorem keeps_fresh (r : Except Errno Int) : Keeps (Noted n J) (fresh r) := by
  cases r with
  | error e => exact (keeps_setErrno hJ e).bind fun _ => .pure _
  | ok fd =>
    refine .get_bind fun s => .ite ?_ (.stop _)
    exact (keeps_openFd fd).bind fun _ => .pure _

theorem keeps_poll {pfds : List PollFd} (hc : ∀ pfds r e, J (.poll pfds r) e) :
    Keeps (Noted n J) (poll pfds) := by
  refine (keeps_ask _).bind fun r => ?_
  cases r with
  | error e => exact keeps_failure hJ e fun _ _ => hc _ _ _
  | ok revents => exact .ite ((keeps_record (hc _ _)).bind fun _ => .pure _) (.stop _)

theorem keeps_accept {fd : Int} (hok : ∀ r e, 0 ≤ r → J (.accept fd r) e)
    (hno : ∀ e, 0 < e → J (.accept fd (-1)) e) : Keeps (Noted n J) (accept fd) := by
  refine (keeps_ask _).bind fun x => ?_
  obtain ⟨r,addr⟩ := x
  cases r with
  | error e => exact keeps_failure hJ e hno
  | ok new =>
    intro s hs
    by_cases hn : 0 ≤ new ∧ new ∉ s.kernel.fds
    · have hrun := fresh_new hn
      have hkeep := (keeps_fresh hJ (.ok new)) s hs
      rw [hrun] at hkeep
      rw [Prog.bind_ok hrun]
      exact Noted.record hkeep (hok new _ hn.1)
    · rw [Prog.bind_error (fresh_refused hn)]
      exact hs

theorem keeps_send {fd : Int} {offered : List Byte} {flags : Nat}
    (hok : ∀ (k : Nat) e, 1 ≤ k → J (.send fd offered flags k) e)
    (hno : ∀ e, 0 < e → J (.send fd offered flags (-1)) e) :
    Keeps (Noted n J) (send fd offered flags) := by
  refine (keeps_ask _).bind fun r => ?_
  cases r with
  | error e => exact keeps_failure hJ e hno
  | ok k =>
    refine Triple.ite (fun hk => ?_) fun _ => Keeps.stop _
    exact (keeps_record fun e => hok k e hk.1).bind fun _ => .pure _

theorem keeps_recv {fd : Int} {size flags : Nat}
    (hok : ∀ (bytes : List Byte) e, bytes.length ≤ size →
      J (.recv fd size flags bytes.length bytes) e)
    (hno : ∀ e, 0 < e → J (.recv fd size flags (-1) []) e) :
    Keeps (Noted n J) (recv fd size flags) := by
  refine (keeps_ask _).bind fun r => ?_
  cases r with
  | error e => exact keeps_failure hJ e hno
  | ok bytes =>
    refine Triple.ite (fun hb => ?_) fun _ => Keeps.stop _
    exact (keeps_record fun e => hok bytes e hb.1).bind fun _ => .pure _

theorem keeps_closeSocket {fd : Int} (hc : ∀ e, J (.close fd) e) :
    Keeps (Noted n J) (SocketOps.closeSocket fd) := by
  refine (keeps_ask_status hJ _).bind fun _ => Keeps.bind ?_ fun _ => .pure ()
  refine (keeps_ask _).bind fun r => (keeps_closeFd fd).bind fun _ => ?_
  exact (keeps_record hc).bind fun _ => keeps_status hJ r

theorem keeps_getEndpoint (fd : Int) (localSocket : Bool) :
    Keeps (Noted n J) (SocketOps.getEndpoint fd localSocket) := by
  rw [SocketOps.getEndpoint_eq]
  refine Keeps.bind ?_ fun ss => Keeps.bind ?_ fun _ => .pure _
  · exact (keeps_ask _).bind fun x => (keeps_status hJ x.1).bind fun _ => .pure x.2
  · exact (keeps_ask _).bind fun x => (keeps_status hJ x.1).bind fun _ => .pure x.2

end Lasting
end Noted
end Sys

section Noted
open Sys
variable {n : Prop} {J : SysCall → Int → Prop} (hJ : Lasting J)
include hJ

namespace Connection

theorem keeps_disconnect {c : Connection} (hc : ∀ e, c.socket ≠ 0 → J (.close c.socket) e) :
    Keeps (Noted n J) c.disconnect := by
  refine Triple.ite (fun hg => ?_) fun _ => Keeps.pure c
  exact (keeps_closeSocket hJ fun e => hc e (bne_iff_ne.mp hg)).bind fun _ => .pure _

theorem keeps_destroy {c : Connection} (hc : ∀ e, c.socket ≠ 0 → J (.close c.socket) e) :
    Keeps (Noted n J) c.destroy :=
  .ite ((keeps_disconnect hJ hc).bind fun _ => .pure _) (.pure ())

theorem keeps_sendLoop {fd : Int} {data : Buffer} {flags : Nat} (ec : ErrorCode)
    (hok : ∀ offered (k : Nat) e, offered ≠ [] → 1 ≤ k → J (.send fd offered flags k) e)
    (hno : ∀ offered e, offered ≠ [] → 0 < e → J (.send fd offered flags (-1)) e)
    (fuel bytesSent : Nat) : Keeps (Noted n J) (sendLoop fd data flags ec fuel bytesSent) := by
  induction fuel generalizing bytesSent with
  | zero => exact .ite (.stop _) (.pure ec)
  | succ fuel ih =>
    refine Triple.ite (fun hlt => ?_) fun _ => Keeps.pure ec
    have hne : data.data.drop bytesSent ≠ [] := by
      rw [ne_eq,List.drop_eq_nil_iff]
      exact Nat.not_le.mpr hlt
    refine Keeps.bind (keeps_send hJ (fun k e => hok _ k e hne) fun e => hno _ e hne) fun r => ?_
    exact .ite (keeps_errno.bind fun _ => .pure _) (ih _)

def sendFlags (flags : Nat) : Nat :=
  (if flags &&& SendFlags.dontRoute ≠ 0 then MSG_DONTROUTE else 0) |||
    (if flags &&& SendFlags.endOfRecord ≠ 0 then MSG_EOR else 0) ||| MSG_NOSIGNAL

theorem keeps_send {c : Connection} {data : Buffer} (ec : ErrorCode) {flags : Nat}
    (hok : ∀ offered (k : Nat) e, c.socket ≠ 0 → offered ≠ [] → 1 ≤ k →
      J (.send c.socket offered (sendFlags flags) k) e)
    (hno : ∀ offered e, c.socket ≠ 0 → offered ≠ [] → 0 < e →
      J (.send c.socket offered (sendFlags flags) (-1)) e) :
    Keeps (Noted n J) (c.send data ec flags) := by
  refine Triple.ite (fun _ => Keeps.pure _) fun hg => ?_
  have h0 : c.socket ≠ 0 := fun h0 => hg (by simp [isConnected,h0])
  exact keeps_sendLoop hJ ec (fun offered k e => hok offered k e h0)
    (fun offered e => hno offered e h0) data.size 0

def recvFlags (flags : Nat) : Nat := if flags &&& ReceiveFlags.peek ≠ 0 then MSG_PEEK else 0

theorem keeps_receive {c : Connection} {size : Nat} (ec : ErrorCode) {flags : Nat}
    (hok : ∀ (bytes : List Byte) e, c.socket ≠ 0 → bytes.length ≤ size →
      J (.recv c.socket size (recvFlags flags) bytes.length bytes) e)
    (hno : ∀ e, c.socket ≠ 0 → 0 < e → J (.recv c.socket size (recvFlags flags) (-1) []) e)
    (hc : ∀ e, c.socket ≠ 0 → J (.close c.socket) e) :
    Keeps (Noted n J) (c.receive size ec flags) := by
  refine Triple.ite (fun _ => Keeps.pure _) fun hg => ?_
  have h0 : c.socket ≠ 0 := fun h0 => hg (by simp [isConnected,h0])
  refine Keeps.bind (keeps_recv hJ (fun bytes e => hok bytes e h0) fun e => hno e h0) fun x => ?_
  refine .ite ?_ (.ite (keeps_errno.bind fun _ => .pure _) (.pure _))
  exact (keeps_disconnect hJ hc).bind fun c' => keeps_errno.bind fun _ => .pure _

end Connection

namespace Acceptor

theorem keeps_hasPendingConnection (a : Acceptor) (hc : ∀ pfds r e, J (.poll pfds r) e) :
    Keeps (Noted n J) a.hasPendingConnection := by
  refine Keeps.bind ?_ fun _ => .pure _
  refine (keeps_poll hJ hc).bind fun x => ?_
  obtain ⟨pfds,r⟩ := x
  cases pfds with
  | nil => exact .pure _
  | cons pfd pfds => exact .pure _

theorem keeps_accept {a : Acceptor} (ec : ErrorCode)
    (hok : ∀ r e, a.socket ≠ 0 → 0 ≤ r → J (.accept a.socket r) e)
    (hno : ∀ e, a.socket ≠ 0 → 0 < e → J (.accept a.socket (-1)) e) :
    Keeps (Noted n J) (a.accept ec) := by
  refine Triple.ite (fun _ => Keeps.pure _) fun hg => ?_
  have h0 : a.socket ≠ 0 := fun h0 => hg (by simp [isOpen,h0])
  refine Keeps.bind (Sys.keeps_accept hJ (fun r e => hok r e h0) fun e => hno e h0) fun x => ?_
  refine .ite (keeps_errno.bind fun _ => .pure _) (Keeps.bind ?_ fun _ => .pure _)
  exact (keeps_getEndpoint hJ _ true).bind fun _ => .pure _

theorem keeps_close {a : Acceptor} (hc : ∀ e, a.socket ≠ 0 → J (.close a.socket) e) :
    Keeps (Noted n J) a.close := by
  refine Triple.ite (fun hg => ?_) fun _ => Keeps.pure a
  exact (keeps_closeSocket hJ fun e => hc e (bne_iff_ne.mp hg)).bind fun _ => .pure _

end Acceptor
end Noted

/-! The codes. -/

def SysCall.fails : SysCall → Bool
  | .accept _ r | .send _ _ _ r | .recv _ _ _ r _ => r == -1
  | _ => false

def SysCall.ends : SysCall → Bool
  | .recv _ _ _ r _ => r == 0
  | _ => false

/-- A function that was called with ec and the given `errno` has made these calls and has
reported a code. -/
inductive Told (ec : ErrorCode) (errno : Int) (calls : List SysCall) : ErrorCode → Prop where
  | kept (h : ∀ c ∈ calls, c.fails = false ∧ c.ends = false) : Told ec errno calls ec
  | set {ec' : ErrorCode} (h : ec'.isSet = true) : Told ec errno calls ec'
  | cleared {ec' : ErrorCode} (h0 : errno = 0) (h : ∀ c ∈ calls, c.fails = false) :
      Told ec errno calls ec'

theorem Told.sticks {ec ec' : ErrorCode} {errno : Int} {calls : List SysCall}
    (h : Told ec errno calls ec') (hec : ec.isSet = true) (h0 : errno ≠ 0) : ec'.isSet = true := by
  cases h with
  | kept _ => exact hec
  | set h => exact h
  | cleared hz _ => exact absurd hz h0

theorem Told.reports {ec ec' : ErrorCode} {errno : Int} {calls : List SysCall} {c : SysCall}
    (h : Told ec errno calls ec') (hc : c ∈ calls)
    (hbad : c.fails = true ∨ (c.ends = true ∧ errno ≠ 0)) : ec'.isSet = true := by
  cases h with
  | kept h =>
    obtain ⟨hf,he⟩ := h c hc
    rw [hf,he] at hbad
    simp at hbad
  | set h => exact h
  | cleared hz h =>
    rw [h c hc] at hbad
    obtain hbad | ⟨-,h0⟩ := hbad
    · cases hbad
    · exact absurd hz h0

namespace Connection
open Sys

theorem Chunks.succeed {fd : Int} {data : Buffer} {flags n m : Nat} {calls : List SysCall}
    (h : Chunks fd data flags n calls m) : ∀ c ∈ calls, c.fails = false ∧ c.ends = false := by
  induction h with
  | nil n => simp
  | cons hk hn h ih =>
    intro c hc
    obtain rfl | hc := List.mem_cons.mp hc
    · refine ⟨?_,rfl⟩
      simp only [SysCall.fails,beq_eq_false_iff_ne]
      omega
    · exact ih c hc

theorem send_told {c : Connection} {data : Buffer} {ec ec' : ErrorCode} {flags : Nat}
    {s s' : SysState} (hs : s.calls = [])
    (h : (c.send data ec flags).run s = (.ok ec', s')) : Told ec s.kernel.errno s'.calls ec' := by
  by_cases hg : c.isConnected = true ∧ data.size ≠ 0
  · obtain ⟨sendFlags,hsent⟩ := send_open ec flags hg.1 hg.2 s
    rw [h] at hsent
    cases hsent with
    | sent hchunks hfds hcalls hans =>
      rw [hcalls,hs,List.nil_append]
      exact .kept hchunks.succeed
    | failed e hchunks hm hfds hcalls hans => exact .set (ErrorCode.isSet_errno e)
  · rw [send_guard ec flags (guard_of_not hg) s] at h
    cases h
    exact .set rfl

theorem receive_code {c c' : Connection} {size flags : Nat} {ec ec' : ErrorCode} {data : Buffer}
    {s s' : SysState} (h : (c.receive size ec flags).run s = (.ok (data, c', ec'), s')) :
    (ec' = ec ∧ c' = c) ∨ ec' = .assign 1 ∨ ec' = .assign s'.kernel.errno := by
  unfold receive at h
  by_cases hg : (!c.isConnected || size == 0) = true
  · rw [if_pos hg] at h
    cases h
    exact Or.inr (Or.inl rfl)
  · rw [if_neg hg] at h
    obtain ⟨x,s1,-,h⟩ := Prog.of_bind_ok h
    by_cases h0 : toInt x.1 = 0
    · simp only [if_pos h0] at h
      obtain ⟨c1,s2,-,h⟩ := Prog.of_bind_ok h
      cases h
      exact Or.inr (Or.inr rfl)
    · simp only [if_neg h0] at h
      by_cases h1 : toInt x.1 = -1
      · rw [if_pos h1] at h
        cases h
        exact Or.inr (Or.inr rfl)
      · rw [if_neg h1] at h
        cases h
        exact Or.inl ⟨rfl,rfl⟩

theorem receive_told {c c' : Connection} {size flags : Nat} {ec ec' : ErrorCode} {data : Buffer}
    {s s' : SysState} (hs : s.calls = [])
    (h : (c.receive size ec flags).run s = (.ok (data, c', ec'), s')) :
    Told ec s.kernel.errno s'.calls ec' := by
  by_cases hg : c.isConnected = true ∧ size ≠ 0
  · obtain ⟨recvFlags,hrecv⟩ := receive_open ec flags hg.1 hg.2 s
    have hcode := receive_code h
    -- an `errno` that is set stays set
    have hkeep : Keeps (Noted (s.kernel.errno ≠ 0) fun _ _ => True) (c.receive size ec flags) :=
      keeps_receive (fun _ _ _ _ _ => trivial) ec (fun _ _ _ _ => trivial) (fun _ _ _ => trivial)
        fun _ _ => trivial
    have herrno := hkeep s ⟨id,fun _ _ => trivial⟩
    rw [h] at hrecv herrno
    cases hrecv with
    | data hne hsize hmax hfds hcalls hans =>
      rw [hcalls,hs]
      refine .kept fun c hc => ?_
      rw [List.mem_singleton.mp hc]
      have hpos := List.length_pos_of_ne_nil hne
      simp only [SysCall.fails,SysCall.ends,beq_eq_false_iff_ne]
      omega
    | failed e hfds hcalls hans => exact .set (ErrorCode.isSet_errno e)
    | closed e hfds hcalls hans =>
      by_cases he : (ErrorCode.assign e).isSet = true
      · exact .set he
      · refine .cleared ?_ ?_
        · by_contra h0
          have herr := herrno.1 h0
          obtain ⟨-,hsame⟩ | hone | hcode := hcode
          · exact (bne_iff_ne.mp hg.1) (congrArg socket hsame).symm
          · exact he (hone ▸ rfl)
          · exact he (hcode ▸ bne_iff_ne.mpr herr)
        · rw [hcalls,hs]
          simp [SysCall.fails]
  · rw [receive_guard ec flags (guard_of_not hg) s] at h
    cases h
    exact .set rfl

end Connection

theorem Acceptor.accept_told {a : Acceptor} {ec ec' : ErrorCode} {conn : Connection}
    {s s' : SysState} (hs : s.calls = []) (h : (a.accept ec).run s = (.ok (conn, ec'), s')) :
    Told ec s.kernel.errno s'.calls ec' := by
  by_cases hopen : a.isOpen = true
  · have haccept := a.accept_open ec hopen s
    rw [h] at haccept
    cases haccept with
    | accepted hnew hconn hfds hcalls hans hrest =>
      rw [hcalls,hs]
      refine .kept fun c hc => ?_
      rw [List.mem_singleton.mp hc]
      refine ⟨?_,rfl⟩
      simp only [SysCall.fails,beq_eq_false_iff_ne]
      omega
    | failed e hfds hcalls hans => exact .set (ErrorCode.isSet_errno e)
  · rw [accept_closed ec (Bool.eq_false_of_not_eq_true hopen) s] at h
    cases h
    exact .set rfl

end Yonaa
